import StatementPool.Json.Fault
/-!
# Strings in JSON texts

Strings are read with all their escapes, or skipped: skipping looks at the form of an escape
only, so it accepts unpaired surrogates. Both work on the text behind the opening quote and end
behind the closing one.
-/

namespace StatementPool.Json

/-- Whether a character may stand between the tokens. -/
def isSpace (c : Char) : Bool := c == ' ' || c == '\n' || c == '\t' || c == '\r'

def dropSpace (cs : List Char) : List Char := cs.dropWhile isSpace

theorem dropSpace_length_le (cs : List Char) : (dropSpace cs).length ≤ cs.length :=
  (List.dropWhile_suffix isSpace).length_le

def readWord : List Char → List Char → Except Fault (List Char)
  | [], cs => .ok cs
  | _ :: _, [] => .error (.here .endInValue [])
  | w :: word, c :: cs =>
    if c = w then readWord word cs else .error (.next .noIdent (c :: cs))

/-! ## Escapes -/

def readHex4 (cs : List Char) : Except Fault (Nat × List Char) :=
  let fault : Except Fault (Nat × List Char) :=
    if byteCount cs < 4 then .error (.placed .endInString 0)
    else .error (.placed .invalidEscape (byteCount cs - 4))
  match cs with
  | a :: b :: c :: d :: rest =>
    match Numeral.hexValue? a, Numeral.hexValue? b, Numeral.hexValue? c, Numeral.hexValue? d with
    | some a, some b, some c, some d => .ok (((a * 16 + b) * 16 + c) * 16 + d, rest)
    | _, _, _, _ => fault
  | _ => fault

/-- Take one expected character of the second half of a pair of escapes. -/
def readPairMark (mark : Char) : List Char → Except Fault (List Char)
  | [] => .error (.here .endInString [])
  | c :: cs => if c = mark then .ok cs else .error (.next .endOfEscape (c :: cs))

/-- Take the digits of an escape, and the second escape of a surrogate pair. -/
def readUnicode (cs : List Char) : Except Fault (Char × List Char) := do
  let (n, rest) ← readHex4 cs
  if 0xDC00 ≤ n ∧ n ≤ 0xDFFF then .error (.here .loneSurrogate rest)
  else if 0xD800 ≤ n ∧ n ≤ 0xDBFF then do
    let rest ← readPairMark '\\' rest
    let rest ← readPairMark 'u' rest
    let (m, rest) ← readHex4 rest
    if 0xDC00 ≤ m ∧ m ≤ 0xDFFF then
      .ok (Char.ofNat ((n - 0xD800) * 0x400 + (m - 0xDC00) + 0x10000), rest)
    else .error (.here .loneSurrogate rest)
  else .ok (Char.ofNat n, rest)

def shortEscape? : Char → Option Char
  | '"' => some '"'
  | '\\' => some '\\'
  | '/' => some '/'
  | 'b' => some '\x08'
  | 'f' => some '\x0c'
  | 'n' => some '\n'
  | 'r' => some '\r'
  | 't' => some '\t'
  | _ => none

theorem readHex4_length {cs rest : List Char} {n : Nat} (h : readHex4 cs = .ok (n, rest)) :
    rest.length ≤ cs.length := by
  unfold readHex4 at h
  simp only at h
  split at h
  · split at h
    · simp only [Except.ok.injEq, Prod.mk.injEq] at h
      obtain ⟨-, rfl⟩ := h
      simp only [List.length_cons]
      omega
    · split at h <;> simp at h
  · split at h <;> simp at h

theorem readPairMark_length {mark : Char} {cs rest : List Char}
    (h : readPairMark mark cs = .ok rest) : rest.length ≤ cs.length := by
  cases cs with
  | nil => simp [readPairMark] at h
  | cons c cs =>
    simp only [readPairMark] at h
    split at h
    · simp only [Except.ok.injEq] at h
      subst h
      simp
    · simp at h

theorem readUnicode_length {cs rest : List Char} {c : Char} (h : readUnicode cs = .ok (c, rest)) :
    rest.length ≤ cs.length := by
  unfold readUnicode at h
  simp only [bind, Except.bind] at h
  split at h
  · simp at h
  · rename_i _ p hp
    obtain ⟨n, rest1⟩ := p
    have l1 := readHex4_length hp
    simp only at h
    split at h
    · simp at h
    · split at h
      · split at h
        · simp at h
        · rename_i _ rest2 h2
          have l2 := readPairMark_length h2
          split at h
          · simp at h
          · rename_i _ rest3 h3
            have l3 := readPairMark_length h3
            split at h
            · simp at h
            · rename_i _ q hq
              obtain ⟨m, rest4⟩ := q
              have l4 := readHex4_length hq
              simp only at h
              split at h
              · simp only [Except.ok.injEq, Prod.mk.injEq] at h
                obtain ⟨-, rfl⟩ := h
                omega
              · simp at h
      · simp only [Except.ok.injEq, Prod.mk.injEq] at h
        obtain ⟨-, rfl⟩ := h
        omega

/-! ## Strings -/

/-- Read a string up to its closing quote. -/
def readString : List Char → Except Fault (List Char × List Char)
  | [] => .error (.here .endInString [])
  | c :: cs =>
    if c = '"' then .ok ([], cs)
    else if c = '\\' then
      match cs with
      | [] => .error (.here .endInString [])
      | e :: rest =>
        if e = 'u' then
          match _h : readUnicode rest with
          | .error f => .error f
          | .ok (u, rest') => (readString rest').map fun (s, r) => (u :: s, r)
        else match shortEscape? e with
          | some u => (readString rest).map fun (s, r) => (u :: s, r)
          | none => .error (.next .invalidEscape (e :: rest))
    else if c.toNat < 0x20 then .error (.next .controlCharacter (c :: cs))
    else (readString cs).map fun (s, r) => (c :: s, r)
termination_by cs => cs.length
decreasing_by
  · have := readUnicode_length _h
    simp only [List.length_cons]
    omega
  · simp only [List.length_cons]
    omega
  · simp

def skipString : List Char → Except Fault (List Char)
  | [] => .error (.here .endInString [])
  | c :: cs =>
    if c = '"' then .ok cs
    else if c = '\\' then
      match cs with
      | [] => .error (.here .endInString [])
      | e :: rest =>
        if e = 'u' then
          match _h : readHex4 rest with
          | .error f => .error f
          | .ok (_, rest') => skipString rest'
        else match shortEscape? e with
          | some _ => skipString rest
          | none => .error (.next .invalidEscape (e :: rest))
    else if c.toNat < 0x20 then .error (.here .controlCharacter (c :: cs))
    else skipString cs
termination_by cs => cs.length
decreasing_by
  · have := readHex4_length _h
    simp only [List.length_cons]
    omega
  · simp only [List.length_cons]
    omega
  · simp

end StatementPool.Json
