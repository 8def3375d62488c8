/-!
# UTF-8

Characters as bytes and bytes as characters. Reading a sequence of bytes never fails: a part that
is not the code of a character is one ill-formed piece, as long as it can be while it still is the
beginning of some code, and the lossy reading shows each such piece as U+FFFD.
-/

namespace StatementPool.Utf8

def encode (cs : List Char) : List UInt8 := cs.flatMap String.utf8EncodeChar

def bytes (s : String) : List UInt8 := encode s.toList

/-- What a first byte announces: its share of the code point, how many bytes follow, and the
range of the second byte; the later ones lie between `80` and `BF`. -/
structure Lead where
  bits : Nat
  follow : Nat
  low : Nat
  high : Nat

/-- The table of the first bytes of the codes of two to four bytes. Overlong codes, surrogates
and numbers past U+10FFFF are excluded by the range of the second byte. -/
def lead? (b : Nat) : Option Lead :=
  if 0xC2 ≤ b ∧ b ≤ 0xDF then some ⟨b - 0xC0, 1, 0x80, 0xBF⟩
  else if b = 0xE0 then some ⟨0, 2, 0xA0, 0xBF⟩
  else if b = 0xED then some ⟨0xD, 2, 0x80, 0x9F⟩
  else if 0xE1 ≤ b ∧ b ≤ 0xEF then some ⟨b - 0xE0, 2, 0x80, 0xBF⟩
  else if b = 0xF0 then some ⟨0, 3, 0x90, 0xBF⟩
  else if 0xF1 ≤ b ∧ b ≤ 0xF3 then some ⟨b - 0xF0, 3, 0x80, 0xBF⟩
  else if b = 0xF4 then some ⟨4, 3, 0x80, 0x8F⟩
  else none

/-- Take `count` following bytes, the first of them between `low` and `high`. The code point is
absent when a byte does not fit; the bytes that did fit are consumed all the same. -/
def follow (count low high acc : Nat) : List UInt8 → Option Nat × List UInt8
  | [] => (if count = 0 then some acc else none, [])
  | b :: rest =>
    match count with
    | 0 => (some acc, b :: rest)
    | count + 1 =>
      if low ≤ b.toNat ∧ b.toNat ≤ high then
        follow count 0x80 0xBF (acc * 64 + (b.toNat - 0x80)) rest
      else (none, b :: rest)

theorem follow_length_le (count low high acc : Nat) (bs : List UInt8) :
    (follow count low high acc bs).2.length ≤ bs.length := by
  induction bs generalizing count low high acc with
  | nil => simp [follow]
  | cons b rest ih =>
    cases count with
    | zero => simp [follow]
    | succ count =>
      simp only [follow]
      split
      · exact Nat.le_succ_of_le (ih ..)
      · simp

/-- The characters of a sequence of bytes, with nothing in the place of an ill-formed piece. -/
def scan : List UInt8 → List (Option Char)
  | [] => []
  | b :: rest =>
    if b.toNat < 0x80 then some (Char.ofNat b.toNat) :: scan rest
    else match lead? b.toNat with
      | none => none :: scan rest
      | some l =>
        let next := follow l.follow l.low l.high l.bits rest
        next.1.map Char.ofNat :: scan next.2
termination_by bs => bs.length
decreasing_by
  · simp
  · simp
  · exact Nat.lt_succ_of_le (follow_length_le ..)

/-- Whether the bytes are the code of some text. -/
def valid (bs : List UInt8) : Bool := (scan bs).all Option.isSome

/-- The text of a sequence of bytes, U+FFFD standing for each ill-formed piece. -/
def lossy (bs : List UInt8) : String := String.ofList ((scan bs).map (·.getD '\uFFFD'))

end StatementPool.Utf8
