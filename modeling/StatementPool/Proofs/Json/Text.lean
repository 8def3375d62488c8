import Mathlib.Data.List.TakeWhile
import StatementPool.Proofs.Json.Grammar
/-!
# Reading what spells a string

A reader takes exactly the text that spells a string, up to the closing quote, and gives back the string
(`readString_spells`), whatever follows. A string that is passed over needs the form alone (`skipString_isString`).
-/

namespace StatementPool.Json

/-! ## Spaces -/

section Spaces

variable {sp rest : List Char} {c : Char}

/-- What stands behind spaces is the first token. -/
theorem dropSpace_spaces (h : Spaces sp) (token : isSpace c = false) : dropSpace (sp ++ c :: rest) = c :: rest := by
  rw [dropSpace, List.dropWhile_append_of_pos h, List.dropWhile_cons_of_neg (by simp [token])]

theorem dropSpace_all (h : Spaces sp) : dropSpace sp = [] :=
  List.dropWhile_eq_nil_iff.mpr h

end Spaces

/-! ## Escapes -/

section Escapes

variable {n d : Nat} {c e : Char} {ds rest : List Char}

theorem hexValue?_hexDigit :
    ∀ d < 16, Numeral.hexValue? (Numeral.hexDigit d) = some d ∧
      Numeral.hexValue? (Numeral.hexDigit d).toUpper = some d := by
  decide

theorem IsHex.hexValue? (h : IsHex d c) : Numeral.hexValue? c = some d := by
  obtain ⟨small, rfl | rfl⟩ := h
  · exact (hexValue?_hexDigit d small).1
  · exact (hexValue?_hexDigit d small).2

theorem readHex4_isHex4 (h : IsHex4 n ds) : readHex4 (ds ++ rest) = .ok (n, rest) := by
  obtain ⟨first, second, third, fourth⟩ := h
  simp [readHex4, first.hexValue?, second.hexValue?, third.hexValue?, fourth.hexValue?]

theorem shortEscape?_known : ∀ p ∈ shortEscapes, shortEscape? p.1 = some p.2 ∧ p.1 ≠ 'u' := by decide

theorem readUnicode_code (digits : IsHex4 n ds) (leading : ¬ IsLeading n) (trailing : ¬ IsTrailing n) :
    readUnicode (ds ++ rest) = .ok (Char.ofNat n, rest) := by
  unfold IsLeading at leading
  unfold IsTrailing at trailing
  rw [readUnicode, readHex4_isHex4 digits]
  simp only [bind, Except.bind]
  rw [if_neg trailing, if_neg leading]

theorem readUnicode_pair {m : Nat} {es : List Char} (digits : IsHex4 n ds) (leading : IsLeading n)
    (digits' : IsHex4 m es) (trailing : IsTrailing m) :
    readUnicode (ds ++ '\\' :: 'u' :: (es ++ rest)) =
      .ok (Char.ofNat ((n - 0xD800) * 0x400 + (m - 0xDC00) + 0x10000), rest) := by
  unfold IsLeading at leading
  unfold IsTrailing at trailing
  have alone : ¬ (0xDC00 ≤ n ∧ n ≤ 0xDFFF) := by omega
  rw [readUnicode, readHex4_isHex4 digits]
  simp only [bind, Except.bind]
  rw [if_neg alone, if_pos leading]
  simp only [readPairMark, if_true, readHex4_isHex4 digits']
  exact if_pos trailing

end Escapes

/-! ## Strings with a meaning -/

section Strings

variable {c e : Char} {s cs ds rest : List Char}

theorem readString_plain (h : IsPlain c) :
    readString (c :: rest) = (readString rest).map fun (s, r) => (c :: s, r) := by
  obtain ⟨quote, backslash, printable⟩ := h
  rw [readString.eq_def]
  simp only [if_neg quote, if_neg backslash, if_neg (Nat.not_lt.2 printable)]

theorem readString_short (h : (e, c) ∈ shortEscapes) :
    readString ('\\' :: e :: rest) = (readString rest).map fun (s, r) => (c :: s, r) := by
  obtain ⟨meaning, notUnicode⟩ := shortEscape?_known _ h
  rw [readString, if_neg (by decide), if_pos rfl]
  simp only [if_neg notUnicode, meaning]

theorem readString_unicode (h : readUnicode ds = .ok (c, rest)) :
    readString ('\\' :: 'u' :: ds) = (readString rest).map fun (s, r) => (c :: s, r) := by
  rw [readString, if_neg (by decide), if_pos rfl]
  simp only [if_true]
  split
  · rename_i h'
    rw [h] at h'
    cases h'
  · rename_i h'
    rw [h] at h'
    cases h'
    rfl

theorem readString_spellsChar (h : SpellsChar c cs) :
    readString (cs ++ rest) = (readString rest).map fun (s, r) => (c :: s, r) := by
  cases h with
  | plain plain => exact readString_plain plain
  | short known => exact readString_short known
  | code digits leading trailing => exact readString_unicode (readUnicode_code digits leading trailing)
  | pair digits leading digits' trailing =>
    simp only [List.cons_append, List.append_assoc]
    exact readString_unicode (readUnicode_pair digits leading digits' trailing)

/-- What spells a string is read back as the string, up to the closing quote. -/
theorem readString_spells (h : Spells s cs) : readString (cs ++ '"' :: rest) = .ok (s, rest) := by
  induction h with
  | nil => simp [readString.eq_def]
  | cons head tail ih =>
    rw [List.append_assoc, readString_spellsChar head, ih]
    rfl

end Strings

/-! ## Strings that are passed over -/

section Skipped

variable {cs rest : List Char}

theorem skipString_item (h : IsStringItem cs) : skipString (cs ++ rest) = skipString rest := by
  cases h with
  | plain plain =>
    obtain ⟨quote, backslash, printable⟩ := plain
    rw [List.singleton_append, skipString.eq_def]
    simp only [if_neg quote, if_neg backslash, if_neg (Nat.not_lt.2 printable)]
  | short known =>
    obtain ⟨meaning, notUnicode⟩ := shortEscape?_known _ known
    simp only [List.cons_append, List.nil_append]
    rw [skipString, if_neg (by decide), if_pos rfl]
    simp only [if_neg notUnicode, meaning]
  | @code n ds digits =>
    have read : readHex4 (ds ++ rest) = .ok (n, rest) := readHex4_isHex4 digits
    simp only [List.cons_append]
    rw [skipString, if_neg (by decide), if_pos rfl]
    simp only [if_true]
    split
    · rename_i h'
      rw [read] at h'
      cases h'
    · rename_i h'
      rw [read] at h'
      cases h'
      rfl

theorem skipString_isString (h : IsString cs) : skipString (cs ++ '"' :: rest) = .ok rest := by
  induction h with
  | nil => simp [skipString.eq_def]
  | cons head tail ih => rw [List.append_assoc, skipString_item head, ih]

end Skipped

end StatementPool.Json
