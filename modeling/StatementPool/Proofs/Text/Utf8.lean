import Mathlib.Data.List.TakeWhile
import StatementPool.Field.Encoding
import StatementPool.Text.Utf8
/-!
# Reading what is the code of a text

The lossy reading of bytes loses nothing when they are the code of a text (`Utf8.bytes_lossy`):
each piece that the scan reads as a character is the code of that character. The codes of texts are
exactly the valid sequences of bytes (`Utf8.valid_iff`), and are read as these texts
(`Utf8.lossy_bytes`). A byte below 80 is never part of a longer code, so the zeros that fill a fixed
field can be cut off before reading (`bytes_lossy_trimZeros`), and no reading makes a zero at the end
that was not there (`Utf8.getLast?_bytes_lossy`).
-/

namespace StatementPool

namespace Utf8

/-! ## Codes of one character -/

theorem val_ofNat {v : Nat} (h : v.isValidChar) : (Char.ofNat v).val.toNat = v := by
  rw [Char.ofNat, dif_pos h]
  rfl

theorem code_one {b : UInt8} (hb : b.toNat < 0x80) : String.utf8EncodeChar (Char.ofNat b.toNat) = [b] := by
  have hv : (Char.ofNat b.toNat).val.toNat = b.toNat := val_ofNat (.inl (by omega))
  simp only [String.utf8EncodeChar, hv]
  rw [if_pos (by omega), UInt8.ofNat_toNat]

theorem code_two {b c : UInt8} {v : Nat} (hb : b.toNat = v / 64 + 0xC0) (hc : c.toNat = v % 64 + 0x80)
    (hv : 0x80 ≤ v ∧ v ≤ 0x7FF) : String.utf8EncodeChar (Char.ofNat v) = [b, c] := by
  simp only [String.utf8EncodeChar, val_ofNat (v := v) (.inl (by omega))]
  rw [if_neg (by omega), if_pos (by omega), Nat.mod_eq_of_lt (show v / 64 < 0x20 by omega), ← hb, ← hc]
  simp

theorem code_three {b c d : UInt8} {v : Nat} (hb : b.toNat = v / 4096 + 0xE0) (hc : c.toNat = v / 64 % 64 + 0x80)
    (hd : d.toNat = v % 64 + 0x80) (hv : 0x800 ≤ v ∧ v ≤ 0xFFFF) (hs : v < 0xD800 ∨ 0xDFFF < v) :
    String.utf8EncodeChar (Char.ofNat v) = [b, c, d] := by
  have valid : v.isValidChar := by
    unfold Nat.isValidChar
    omega
  simp only [String.utf8EncodeChar, val_ofNat valid]
  rw [if_neg (by omega), if_neg (by omega), if_pos (by omega), Nat.mod_eq_of_lt (show v / 4096 < 0x10 by omega),
    ← hb, ← hc, ← hd]
  simp

theorem code_four {b c d g : UInt8} {v : Nat} (hb : b.toNat = v / 262144 + 0xF0)
    (hc : c.toNat = v / 4096 % 64 + 0x80) (hd : d.toNat = v / 64 % 64 + 0x80) (hg : g.toNat = v % 64 + 0x80)
    (hv : 0x10000 ≤ v ∧ v ≤ 0x10FFFF) : String.utf8EncodeChar (Char.ofNat v) = [b, c, d, g] := by
  have valid : v.isValidChar := by
    unfold Nat.isValidChar
    omega
  simp only [String.utf8EncodeChar, val_ofNat valid]
  rw [if_neg (by omega), if_neg (by omega), if_neg (by omega), Nat.mod_eq_of_lt (show v / 262144 < 0x08 by omega),
    ← hb, ← hc, ← hd, ← hg]
  simp

/-! ## The scan reads codes -/

variable {count low high acc v bits n : Nat} {b c d g : UInt8} {bs rest : List UInt8} {l : Lead}

theorem follow_zero (h : follow 0 low high acc bs = (some v, rest)) : v = acc ∧ rest = bs := by
  cases bs <;> simp_all [follow]

theorem follow_succ (h : follow (count + 1) low high acc bs = (some v, rest)) :
    ∃ c t, bs = c :: t ∧ low ≤ c.toNat ∧ c.toNat ≤ high ∧
      follow count 0x80 0xBF (acc * 64 + (c.toNat - 0x80)) t = (some v, rest) := by
  cases bs with
  | nil => simp [follow] at h
  | cons c t =>
    simp only [follow] at h
    split at h
    · rename_i hc
      exact ⟨c, t, rfl, hc.1, hc.2, h⟩
    · simp at h

/-- The rows of the table of first bytes, by the number of bytes that follow. -/
theorem lead?_rows {n : Nat} (h : lead? n = some l) :
    (l.follow = 1 ∧ n = l.bits + 0xC0 ∧ 2 ≤ l.bits ∧ l.bits ≤ 0x1F ∧ 0x80 ≤ l.low ∧ l.high ≤ 0xBF) ∨
    (l.follow = 2 ∧ n = l.bits + 0xE0 ∧ l.bits ≤ 0xF ∧ 0x80 ≤ l.low ∧ l.high ≤ 0xBF ∧
      (l.bits = 0 → 0xA0 ≤ l.low) ∧ (l.bits = 0xD → l.high ≤ 0x9F)) ∨
    (l.follow = 3 ∧ n = l.bits + 0xF0 ∧ l.bits ≤ 4 ∧ 0x80 ≤ l.low ∧ l.high ≤ 0xBF ∧
      (l.bits = 0 → 0x90 ≤ l.low) ∧ (l.bits = 4 → l.high ≤ 0x8F)) := by
  unfold lead? at h
  split at h
  · obtain rfl := Option.some.inj h
    exact .inl ⟨rfl, by simp only; omega⟩
  iterate 3
    split at h
    · obtain rfl := Option.some.inj h
      exact .inr (.inl ⟨rfl, by simp only; omega⟩)
  iterate 3
    split at h
    · obtain rfl := Option.some.inj h
      exact .inr (.inr ⟨rfl, by simp only; omega⟩)
  cases h

/-- A first byte and the bytes that follow it are the code of the character that is read. -/
theorem code_of_follow (hl : lead? b.toNat = some l)
    (hf : follow l.follow l.low l.high l.bits bs = (some v, rest)) :
    b :: bs = String.utf8EncodeChar (Char.ofNat v) ++ rest := by
  rcases lead?_rows hl with ⟨hn, row⟩ | ⟨hn, row⟩ | ⟨hn, row⟩
  · rw [hn] at hf
    obtain ⟨c, t, rfl, hc, hc', hf⟩ := follow_succ hf
    obtain ⟨hv, rfl⟩ := follow_zero hf
    rw [code_two (b := b) (c := c) (by omega) (by omega) (by omega)]
    rfl
  · rw [hn] at hf
    obtain ⟨c, t, rfl, hc, hc', hf⟩ := follow_succ hf
    obtain ⟨d, t, rfl, hd, hd', hf⟩ := follow_succ hf
    obtain ⟨hv, rfl⟩ := follow_zero hf
    rw [code_three (b := b) (c := c) (d := d) (by omega) (by omega) (by omega) (by omega) (by omega)]
    rfl
  · rw [hn] at hf
    obtain ⟨c, t, rfl, hc, hc', hf⟩ := follow_succ hf
    obtain ⟨d, t, rfl, hd, hd', hf⟩ := follow_succ hf
    obtain ⟨g, t, rfl, hg, hg', hf⟩ := follow_succ hf
    obtain ⟨hv, rfl⟩ := follow_zero hf
    rw [code_four (b := b) (c := c) (d := d) (g := g) (by omega) (by omega) (by omega) (by omega) (by omega)]
    rfl

/-- Reading valid bytes and writing the text gives the bytes back. -/
theorem bytes_lossy {bs : List UInt8} (h : valid bs = true) : bytes (lossy bs) = bs := by
  have code : encode ((scan bs).map (·.getD '\uFFFD')) = bs := by
    unfold valid at h
    -- along the scan: a byte below 80, an impossible first byte, or a first byte and what follows it
    induction bs using scan.induct with
    | case1 => simp [scan, encode]
    | case2 b rest hb ih =>
      rw [scan, if_pos hb] at h ⊢
      simp only [List.all_cons, Bool.and_eq_true] at h
      simp only [encode, List.map_cons, List.flatMap_cons, Option.getD_some, code_one hb]
      exact congrArg (b :: ·) (ih h.2)
    | case3 b rest hb hl ih =>
      rw [scan, if_neg hb, hl] at h
      simp at h
    | case4 b rest hb l hl next ih =>
      rw [scan, if_neg hb, hl] at h ⊢
      simp only [List.all_cons, Bool.and_eq_true, Option.isSome_map] at h
      obtain ⟨v, hv⟩ := Option.isSome_iff_exists.1 h.1
      have hf := code_of_follow hl (Prod.ext hv rfl)
      simp only [encode, List.map_cons, List.flatMap_cons, hv, Option.map_some, Option.getD_some]
      rw [hf]
      exact congrArg (_ ++ ·) (ih h.2)
  rw [bytes, lossy, String.toList_ofList, code]

/-! ## The scan reads every code -/

theorem follow_done (low high acc : Nat) (bs : List UInt8) : follow 0 low high acc bs = (some acc, bs) := by
  cases bs <;> rfl

theorem follow_cons {c : UInt8} (hc : low ≤ c.toNat ∧ c.toNat ≤ high) (t : List UInt8) :
    follow (count + 1) low high acc (c :: t) = follow count 0x80 0xBF (acc * 64 + (c.toNat - 0x80)) t :=
  if_pos hc

theorem scan_of_follow (hb : 0x80 ≤ b.toNat) (hl : lead? b.toNat = some ⟨bits, n, low, high⟩)
    (hf : follow n low high bits bs = (some v, rest)) : scan (b :: bs) = some (Char.ofNat v) :: scan rest := by
  rw [scan, if_neg (Nat.not_lt.2 hb), hl]
  simp only [hf, Option.map_some]

theorem lead?_two {n : Nat} (hn : 0xC2 ≤ n ∧ n ≤ 0xDF) : lead? n = some ⟨n - 0xC0, 1, 0x80, 0xBF⟩ := if_pos hn

theorem lead?_three {n : Nat} (hn : 0xE0 ≤ n ∧ n ≤ 0xEF) :
    lead? n = some ⟨n - 0xE0, 2, if n = 0xE0 then 0xA0 else 0x80, if n = 0xED then 0x9F else 0xBF⟩ := by
  unfold lead?
  rw [if_neg (by omega)]
  by_cases h0 : n = 0xE0
  · simp [h0]
  by_cases hD : n = 0xED
  · simp [hD]
  rw [if_neg h0, if_neg hD, if_pos (by omega), if_neg h0, if_neg hD]

theorem lead?_four {n : Nat} (hn : 0xF0 ≤ n ∧ n ≤ 0xF4) :
    lead? n = some ⟨n - 0xF0, 3, if n = 0xF0 then 0x90 else 0x80, if n = 0xF4 then 0x8F else 0xBF⟩ := by
  obtain rfl | rfl | rfl | rfl | rfl : n = 0xF0 ∨ n = 0xF1 ∨ n = 0xF2 ∨ n = 0xF3 ∨ n = 0xF4 := by omega
  all_goals rfl

theorem scan_two (hb : b.toNat = v / 64 + 0xC0) (hc : c.toNat = v % 64 + 0x80) (hv : 0x80 ≤ v ∧ v ≤ 0x7FF) :
    scan (b :: c :: rest) = some (Char.ofNat v) :: scan rest := by
  apply scan_of_follow (by omega) (lead?_two (by omega))
  rw [follow_cons (by omega), follow_done]
  exact congrArg (some · , rest) (by omega)

theorem scan_three (hb : b.toNat = v / 4096 + 0xE0) (hc : c.toNat = v / 64 % 64 + 0x80) (hd : d.toNat = v % 64 + 0x80)
    (hv : 0x800 ≤ v ∧ v ≤ 0xFFFF) (hs : v < 0xD800 ∨ 0xDFFF < v) :
    scan (b :: c :: d :: rest) = some (Char.ofNat v) :: scan rest := by
  apply scan_of_follow (by omega) (lead?_three (by omega))
  rw [follow_cons (by split_ifs <;> omega), follow_cons (by omega), follow_done]
  exact congrArg (some · , rest) (by omega)

theorem scan_four (hb : b.toNat = v / 262144 + 0xF0) (hc : c.toNat = v / 4096 % 64 + 0x80)
    (hd : d.toNat = v / 64 % 64 + 0x80) (hg : g.toNat = v % 64 + 0x80) (hv : 0x10000 ≤ v ∧ v ≤ 0x10FFFF) :
    scan (b :: c :: d :: g :: rest) = some (Char.ofNat v) :: scan rest := by
  apply scan_of_follow (by omega) (lead?_four (by omega))
  rw [follow_cons (by split_ifs <;> omega), follow_cons (by omega), follow_cons (by omega), follow_done]
  exact congrArg (some · , rest) (by omega)

theorem exists_byte {n : Nat} (hn : n < 256) : ∃ b : UInt8, b.toNat = n := by
  refine ⟨UInt8.ofNat n, ?_⟩
  rw [UInt8.toNat_ofNat']
  exact Nat.mod_eq_of_lt hn

/-- The code of a character is read as that character, whatever follows it. -/
theorem scan_code (a : Char) (rest : List UInt8) : scan (String.utf8EncodeChar a ++ rest) = some a :: scan rest := by
  have valid : a.toNat < 0xD800 ∨ 0xDFFF < a.toNat ∧ a.toNat < 0x110000 := a.valid
  rw [← Char.ofNat_toNat a]
  generalize a.toNat = v at valid
  by_cases h1 : v < 0x80
  · obtain ⟨b, rfl⟩ := exists_byte (n := v) (by omega)
    rw [code_one h1, List.singleton_append, scan, if_pos h1]
  by_cases h2 : v ≤ 0x7FF
  · obtain ⟨b, hb⟩ := exists_byte (n := v / 64 + 0xC0) (by omega)
    obtain ⟨c, hc⟩ := exists_byte (n := v % 64 + 0x80) (by omega)
    rw [code_two hb hc (by omega)]
    exact scan_two hb hc (by omega)
  by_cases h3 : v ≤ 0xFFFF
  · obtain ⟨b, hb⟩ := exists_byte (n := v / 4096 + 0xE0) (by omega)
    obtain ⟨c, hc⟩ := exists_byte (n := v / 64 % 64 + 0x80) (by omega)
    obtain ⟨d, hd⟩ := exists_byte (n := v % 64 + 0x80) (by omega)
    rw [code_three hb hc hd (by omega) (by omega)]
    exact scan_three hb hc hd (by omega) (by omega)
  · obtain ⟨b, hb⟩ := exists_byte (n := v / 262144 + 0xF0) (by omega)
    obtain ⟨c, hc⟩ := exists_byte (n := v / 4096 % 64 + 0x80) (by omega)
    obtain ⟨d, hd⟩ := exists_byte (n := v / 64 % 64 + 0x80) (by omega)
    obtain ⟨g, hg⟩ := exists_byte (n := v % 64 + 0x80) (by omega)
    rw [code_four hb hc hd hg (by omega)]
    exact scan_four hb hc hd hg (by omega)

theorem scan_encode (cs : List Char) : scan (encode cs) = cs.map some := by
  induction cs with
  | nil => simp [encode, scan]
  | cons c cs ih => rw [encode, List.flatMap_cons, scan_code, ← encode, ih, List.map_cons]

theorem valid_bytes (s : String) : valid (bytes s) = true := by
  simp [valid, bytes, scan_encode]

/-- Writing a text and reading the bytes gives the text back. -/
theorem lossy_bytes (s : String) : lossy (bytes s) = s := by
  simp [lossy, bytes, scan_encode, Function.comp_def]

/-- Valid bytes are the code of a text. -/
theorem valid_iff {bs : List UInt8} : valid bs = true ↔ ∃ s, bytes s = bs := by
  constructor
  · intro h
    exact ⟨lossy bs, bytes_lossy h⟩
  · rintro ⟨s, rfl⟩
    exact valid_bytes s

/-! ## Padding -/

theorem follow_append {z : UInt8} (hz : z.toNat < 0x80) (hlow : 0x80 ≤ low) (bs : List UInt8) :
    follow count low high acc (bs ++ [z]) =
      ((follow count low high acc bs).1, (follow count low high acc bs).2 ++ [z]) := by
  induction bs generalizing count low high acc with
  | nil =>
    cases count with
    | zero => rfl
    | succ count =>
      have : ¬ low ≤ z.toNat := by omega
      simp [follow, this]
  | cons b bs ih =>
    cases count with
    | zero => rfl
    | succ count =>
      simp only [List.cons_append, follow]
      split
      · exact ih (Nat.le_refl _)
      · rfl

/-- A byte below 80 is a character of its own wherever it stands. -/
theorem scan_append {z : UInt8} (hz : z.toNat < 0x80) (bs : List UInt8) :
    scan (bs ++ [z]) = scan bs ++ [some (Char.ofNat z.toNat)] := by
  induction bs using scan.induct with
  | case1 => simp [scan, hz]
  | case2 b rest hb ih => rw [List.cons_append, scan, if_pos hb, scan, if_pos hb, ih, List.cons_append]
  | case3 b rest hb hl ih =>
    rw [List.cons_append, scan, if_neg hb, scan, if_neg hb, hl]
    simp only [ih, List.cons_append]
  | case4 b rest hb l hl next ih =>
    have hlow : 0x80 ≤ l.low := by
      rcases lead?_rows hl with row | row | row <;> omega
    rw [List.cons_append, scan, if_neg hb, scan, if_neg hb, hl]
    simp only [follow_append hz hlow, List.cons_append]
    exact congrArg (_ :: ·) ih

theorem valid_append_zeros (bs : List UInt8) (n : Nat) : valid (bs ++ List.replicate n 0) = valid bs := by
  induction n with
  | zero => simp
  | succ n ih =>
    rw [List.replicate_succ', ← List.append_assoc, valid, scan_append (by decide), List.all_append, ← valid, ih]
    simp

/-! ## The last byte -/

theorem follow_suffix (count low high acc : Nat) (bs : List UInt8) : (follow count low high acc bs).2 <:+ bs := by
  induction bs generalizing count low high acc with
  | nil => simp [follow]
  | cons b rest ih =>
    cases count with
    | zero => exact List.suffix_refl (b :: rest)
    | succ count =>
      simp only [follow]
      split
      · exact (ih count _ _ _).trans (List.suffix_cons b rest)
      · exact List.suffix_refl (b :: rest)

/-- Only no bytes at all are read as the empty text. -/
theorem eq_nil_of_encode {bs : List UInt8} (h : encode ((scan bs).map (·.getD '\uFFFD')) = []) : bs = [] := by
  cases bs with
  | nil => rfl
  | cons b rest =>
    obtain ⟨a, l, hl⟩ : ∃ a l, scan (b :: rest) = a :: l := by
      rw [scan]
      split
      · exact ⟨_, _, rfl⟩
      · split <;> exact ⟨_, _, rfl⟩
    rw [hl, List.map_cons, encode, List.flatMap_cons, List.append_eq_nil_iff] at h
    exact absurd h.1 String.utf8EncodeChar_ne_nil

/-- A piece, read as the code, and what follows it: together they end in 0 where the text does. -/
theorem ends_in_zero {code rest text : List UInt8} (piece : List UInt8)
    (hp : code.getLast? = some 0 → piece.getLast? = some 0) (hr : text.getLast? = some 0 → rest.getLast? = some 0)
    (hn : text = [] → rest = []) (h : (code ++ text).getLast? = some 0) : (piece ++ rest).getLast? = some 0 := by
  rw [List.getLast?_append] at h ⊢
  cases ht : text.getLast? with
  | some z =>
    rw [ht] at h hr
    rw [hr h]
    rfl
  | none =>
    rw [ht] at h
    rw [hn (List.getLast?_eq_none_iff.1 ht)]
    exact hp h

/-- The last byte of a lossy text is 0 only where the last byte of what was read is. -/
theorem getLast?_bytes_lossy {bs : List UInt8} (h : (bytes (lossy bs)).getLast? = some 0) : bs.getLast? = some 0 := by
  unfold bytes lossy at h
  rw [String.toList_ofList] at h
  have replacement : (String.utf8EncodeChar '\uFFFD').getLast? ≠ some 0 := by decide
  -- a piece ends in 0 only where it is that byte alone: what stands for an ill-formed one ends in another byte
  induction bs using scan.induct with
  | case1 => simp [scan, encode] at h
  | case2 b rest hb ih =>
    rw [scan, if_pos hb, List.map_cons, encode, List.flatMap_cons, ← encode, Option.getD_some, code_one hb] at h
    exact ends_in_zero [b] id ih eq_nil_of_encode h
  | case3 b rest hb hl ih =>
    rw [scan, if_neg hb, hl, List.map_cons, encode, List.flatMap_cons, ← encode] at h
    exact ends_in_zero [b] (fun h => absurd h replacement) ih eq_nil_of_encode h
  | case4 b rest hb l hl next ih =>
    rw [scan, if_neg hb, hl, List.map_cons, encode, List.flatMap_cons, ← encode] at h
    cases hv : next.1 with
    | none =>
      obtain ⟨taken, ht⟩ := follow_suffix l.follow l.low l.high l.bits rest
      rw [hv] at h
      rw [← ht]
      exact ends_in_zero (b :: taken) (fun h => absurd h replacement) ih eq_nil_of_encode h
    | some v =>
      have hf := code_of_follow hl (Prod.ext hv rfl)
      rw [hv] at h
      rw [hf]
      exact ends_in_zero _ id ih eq_nil_of_encode h

end Utf8

/-- What is cut off are zeros. -/
theorem trimZeros_append (bs : List UInt8) :
    trimZeros bs ++ List.replicate (bs.length - (trimZeros bs).length) 0 = bs := by
  have split := List.takeWhile_append_dropWhile (p := (· == (0 : UInt8))) (l := bs.reverse)
  have zeros : bs.reverse.takeWhile (· == 0) = List.replicate (bs.reverse.takeWhile (· == 0)).length 0 :=
    List.eq_replicate_of_mem fun z hz => by simpa using List.mem_takeWhile_imp hz
  have parts : bs = trimZeros bs ++ (bs.reverse.takeWhile (· == 0)).reverse := by
    rw [trimZeros, ← List.reverse_append, split, List.reverse_reverse]
  have len : bs.length - (trimZeros bs).length = (bs.reverse.takeWhile (· == 0)).length := by
    have := congrArg List.length parts
    simp only [List.length_append, List.length_reverse] at this
    omega
  rw [len, ← List.reverse_replicate, ← zeros, ← parts]

theorem getLast?_trimZeros (bs : List UInt8) : (trimZeros bs).getLast? ≠ some 0 := by
  intro h
  have first := List.head?_dropWhile_not (· == (0 : UInt8)) bs.reverse
  rw [trimZeros, List.getLast?_reverse] at h
  rw [h] at first
  cases first

theorem trimZeros_eq_self {bs : List UInt8} (h : bs.getLast? ≠ some 0) : trimZeros bs = bs := by
  have kept : bs.reverse.dropWhile (· == 0) = bs.reverse := by
    rw [← List.head?_reverse] at h
    cases hr : bs.reverse with
    | nil => rfl
    | cons z rest =>
      rw [hr, List.head?_cons] at h
      have hz : z ≠ 0 := fun hz => h (congrArg some hz)
      simp [hz]
  rw [trimZeros, kept, List.reverse_reverse]

theorem trimZeros_append_zeros (bs : List UInt8) (n : Nat) : trimZeros (bs ++ List.replicate n 0) = trimZeros bs := by
  simp [trimZeros]

/-- The text of a fixed field, written down again and filled up, is the field. -/
theorem bytes_lossy_trimZeros {bs : List UInt8} (h : Utf8.valid bs = true) :
    Utf8.bytes (Utf8.lossy (trimZeros bs)) = trimZeros bs := by
  apply Utf8.bytes_lossy
  rw [← Utf8.valid_append_zeros _ (bs.length - (trimZeros bs).length), trimZeros_append, h]

end StatementPool
