import Mathlib.Data.List.TakeWhile
import StatementPool.Proofs.Json.Grammar
/-!
# Reading what spells a number

A number that is passed over ends where its text ends (`skipNumber_isMagnitude`), and the numeral of a word is read back
as the word (`readNumber_ofNat`), as long as nothing that belongs to a number follows.
-/

namespace StatementPool.Json

variable {ds cs es rest : List Char}

/-! ## What follows a number -/

theorem Ends.nil : Ends [] := fun _ h => nomatch h

theorem Ends.cons {c : Char} (h : Numeral.isDigit c = false ∧ c ≠ '.' ∧ c ≠ 'e' ∧ c ≠ 'E') : Ends (c :: rest) := by
  intro d hd
  obtain rfl : c = d := by simpa using hd
  exact h

theorem isSpace_eq_true {c : Char} : isSpace c = true ↔ c = ' ' ∨ c = '\n' ∨ c = '\t' ∨ c = '\r' := by
  simp [isSpace, or_assoc]

/-- Spaces end a number as well as what stands behind them. -/
theorem Ends.spaces {sp : List Char} (h : Spaces sp) (ends : Ends rest) : Ends (sp ++ rest) := by
  match sp with
  | [] => exact ends
  | c :: sp =>
    have space := isSpace_eq_true.1 (h c List.mem_cons_self)
    obtain rfl | rfl | rfl | rfl := space <;> exact .cons (by decide)

theorem Ends.startsWithDigit (h : Ends rest) : startsWithDigit rest = false := by
  match rest with
  | [] => rfl
  | c :: _ => exact (h c rfl).1

theorem Ends.exponentMark? (h : Ends rest) : exponentMark? rest = none := by
  match rest with
  | [] => rfl
  | c :: _ =>
    obtain ⟨-, -, lower, upper⟩ := h c rfl
    simp [Json.exponentMark?, lower, upper]

theorem Ends.ne_point (h : Ends rest) (r : List Char) : rest ≠ '.' :: r := by
  rintro rfl
  exact (h '.' rfl).2.1 rfl

/-! ## Digits -/

theorem AreSomeDigits.cases (h : AreSomeDigits ds) :
    ∃ d tail, ds = d :: tail ∧ Numeral.isDigit d = true ∧ Numeral.AreDigits tail := by
  match ds, h with
  | [], h => exact absurd rfl h.1
  | d :: tail, h => exact ⟨d, tail, rfl, h.2 d List.mem_cons_self, fun c hc => h.2 c (List.mem_cons_of_mem d hc)⟩

theorem dropDigits (digits : Numeral.AreDigits ds) (stop : startsWithDigit rest = false) :
    (ds ++ rest).dropWhile Numeral.isDigit = rest := by
  rw [List.dropWhile_append_of_pos digits]
  match rest with
  | [] => rfl
  | c :: _ => exact List.dropWhile_cons_of_neg (by simpa [startsWithDigit] using stop)

theorem startsWithDigit_digits (h : AreSomeDigits ds) : startsWithDigit (ds ++ rest) = true := by
  obtain ⟨d, tail, rfl, digit, -⟩ := h.cases
  exact digit

/-! ## Numbers that are passed over -/

theorem skipExponent_digits {sign : List Char} (signed : sign ∈ [[], ['+'], ['-']]) (digits : AreSomeDigits ds)
    (stop : startsWithDigit rest = false) : skipExponent (sign ++ (ds ++ rest)) = .ok rest := by
  obtain ⟨d, tail, rfl, digit, digits⟩ := digits.cases
  have plus : d ≠ '+' := Numeral.ne_of_isDigit digit rfl
  have minus : d ≠ '-' := Numeral.ne_of_isDigit digit rfl
  have drop := dropDigits digits stop
  simp only [List.mem_cons, List.not_mem_nil, or_false] at signed
  obtain rfl | rfl | rfl := signed <;> simp [skipExponent, plus, minus, digit, drop]

/-- No digit and no point stands between the fraction of a number and its exponent. -/
theorem IsExponent.stop (h : IsExponent es) (ends : Ends rest) :
    startsWithDigit (es ++ rest) = false ∧ ∀ r, es ++ rest ≠ '.' :: r := by
  cases h with
  | none => exact ⟨ends.startsWithDigit, ends.ne_point⟩
  | mark letter signed digits => obtain rfl | rfl := letter <;> exact ⟨rfl, fun _ => by simp⟩

theorem skip_exponent (h : IsExponent es) (ends : Ends rest) :
    (match exponentMark? (es ++ rest) with
      | some r => skipExponent r
      | none => .ok (es ++ rest)) = Except.ok rest := by
  cases h with
  | none => rw [List.nil_append, ends.exponentMark?]
  | mark letter signed digits =>
    have skipped := skipExponent_digits signed digits ends.startsWithDigit
    obtain rfl | rfl := letter <;> simpa [exponentMark?] using skipped

theorem skipAfterWhole_parts (fraction : IsFraction cs) (exponent : IsExponent es) (ends : Ends rest) :
    skipAfterWhole (cs ++ (es ++ rest)) = .ok rest := by
  obtain ⟨stop, noPoint⟩ := exponent.stop ends
  cases fraction with
  | none =>
    rw [List.nil_append, skipAfterWhole.eq_2 _ noPoint]
    exact skip_exponent exponent ends
  | point digits =>
    rw [List.cons_append, skipAfterWhole, if_pos (startsWithDigit_digits digits), dropDigits digits.2 stop]
    exact skip_exponent exponent ends

/-- A number is passed over as far as its text goes. -/
theorem skipNumber_isMagnitude (h : IsMagnitude cs) (ends : Ends rest) : skipNumber (cs ++ rest) = .ok rest := by
  obtain ⟨⟨digits, first⟩, fraction, exponent⟩ := h
  rename_i ds cs es
  have skipped := skipAfterWhole_parts fraction exponent ends
  have stop : startsWithDigit (cs ++ (es ++ rest)) = false := by
    cases fraction with
    | none => exact (exponent.stop ends).1
    | point digits => rfl
  obtain ⟨d, tail, rfl, digit, digits⟩ := digits.cases
  simp only [List.append_assoc, List.cons_append]
  by_cases zero : d = '0'
  · -- a zero in front stands alone
    obtain ⟨-, rfl⟩ := List.cons.inj (first (congrArg some zero))
    rw [zero, List.nil_append, skipNumber, if_neg (by simp [stop]), skipped]
  · rw [skipNumber.eq_3 _ _ (fun h => zero h), if_pos digit, dropDigits digits stop, skipped]

/-! ## Numerals that are read -/

/-- All digits are gathered if their number fits. -/
theorem gather_digits {word : Nat} (count : Nat) (digits : Numeral.AreDigits ds) (stop : startsWithDigit rest = false)
    (fits : Numeral.extend word ds ≤ maxWord) :
    gather word count (ds ++ rest) = (Numeral.extend word ds, count + ds.length, rest) := by
  induction ds generalizing word count with
  | nil =>
    match rest with
    | [] => rfl
    | c :: _ =>
      have other : Numeral.isDigit c = false := stop
      simp [gather, other, Numeral.extend]
  | cons d ds ih =>
    have digit : Numeral.isDigit d = true := digits d List.mem_cons_self
    have fitsNow : word * 10 + Numeral.value d ≤ maxWord := Nat.le_trans (Numeral.le_extend _ ds) fits
    rw [List.cons_append, gather, if_pos (by simp [digit, fitsNow]),
      ih (count + 1) (fun c hc => digits c (List.mem_cons_of_mem d hc)) fits]
    simp only [Numeral.extend, List.foldl_cons, List.length_cons, Prod.mk.injEq, true_and, and_true]
    omega

/-- A numeral is read as its number, up to what may follow it. -/
theorem readNumber_digits (positive : Bool) {n : Nat} (fits : n ≤ maxWord) (stop : startsWithDigit rest = false) :
    readNumber positive (Numeral.ofNat n ++ rest) = readAfterWhole positive n rest := by
  have digits := Numeral.areDigits_ofNat n
  have value : Numeral.extend 0 (Numeral.ofNat n) = n := Numeral.toNat_ofNat n
  have gathered := gather_digits 0 digits stop (value.symm ▸ fits)
  obtain ⟨d, tail, hds, digit, -⟩ := AreSomeDigits.cases ⟨Numeral.ofNat_ne_nil n, digits⟩
  by_cases zero : d = '0'
  · obtain rfl := Numeral.head_ofNat (n := n) (by rw [hds, zero]; rfl)
    have : Numeral.ofNat 0 = ['0'] := by rw [Numeral.ofNat]; rfl
    rw [this, List.singleton_append, readNumber, if_neg (by simp [stop])]
  · rw [value] at gathered
    rw [hds] at gathered ⊢
    rw [List.cons_append] at gathered ⊢
    rw [readNumber.eq_3 _ _ _ (fun h => zero h), if_neg (by simp [digit]), gathered]
    simp [stop]

/-- The numeral of a word is read back. -/
theorem readNumber_ofNat {n : Nat} (fits : n ≤ maxWord) (ends : Ends rest) :
    readNumber true (Numeral.ofNat n ++ rest) = .ok (.unsigned n, rest) := by
  rw [readNumber_digits true fits ends.startsWithDigit, readAfterWhole.eq_2 _ _ _ ends.ne_point, ends.exponentMark?]
  rfl

/-- Behind a minus sign, the numeral of a number is read as its opposite. -/
theorem readNumber_opposite {n : Nat} (pos : n ≠ 0) (fits : n ≤ 9223372036854775808) (ends : Ends rest) :
    readNumber false (Numeral.ofNat n ++ rest) = .ok (.negative (-(n : Int)), rest) := by
  have word : n ≤ maxWord := fits.trans (by decide)
  have signed : ¬ (n = 0 ∨ 9223372036854775808 < n) := by omega
  rw [readNumber_digits false word ends.startsWithDigit, readAfterWhole.eq_2 _ _ _ ends.ne_point, ends.exponentMark?]
  simp only [if_neg signed, Bool.false_eq_true, if_false]

end StatementPool.Json
