import Mathlib.Data.List.TakeWhile
import StatementPool.Calendar.Pattern
import StatementPool.Proofs.Number.Numeral
/-!
# Reading dates of a fixed width

A date whose numbers have all their digits is read part by part, and every part is exactly the number that is written
there, whatever follows (`run_looseDate`, `run_looseDateTime`). So a text with such numbers names the date or the moment
with these parts, and none if there is no such day or no such time of day (`Date.ofText?_dateText`,
`DateTime.ofText?_momentText`, `DateTime.ofText?_millisText`). The pattern without milliseconds never takes the text
with them, nor the other way round.
-/

namespace StatementPool

open Numeral (padded AreDigits)

/-! ## Numbers of a fixed width -/

section Numbers

variable {n width : Nat} {ds rest : List Char} {c : Char}

theorem isBlank_digit (digit : Numeral.isDigit c = true) : isBlank c = false := by
  have range : 48 ≤ c.toNat ∧ c.toNat ≤ 57 := by
    simpa [Numeral.isDigit, Char.le_def, UInt32.le_iff_toNat_le] using digit
  simp only [isBlank, Bool.or_eq_false_iff, Bool.and_eq_false_iff, decide_eq_false_iff_not, beq_eq_false_iff_ne]
  omega

/-- A numeral of a fixed width begins with a digit. -/
theorem padded_cons (pos : 0 < width) (fits : n < 10 ^ width) :
    ∃ d tail, padded width n = d :: tail ∧ Numeral.isDigit d = true := by
  have length := Numeral.length_padded pos fits
  have digits := Numeral.areDigits_padded width n
  match hp : padded width n with
  | [] =>
    rw [hp] at length
    exact absurd length (by simp only [List.length_nil]; omega)
  | d :: tail => exact ⟨d, tail, rfl, digits d (by rw [hp]; exact List.mem_cons_self)⟩

theorem dropBlanks_padded (pos : 0 < width) (fits : n < 10 ^ width) :
    dropBlanks (padded width n ++ rest) = padded width n ++ rest := by
  obtain ⟨d, tail, hp, digit⟩ := padded_cons pos fits
  rw [hp]
  exact List.dropWhile_cons_of_neg (by simp [isBlank_digit digit])

/-- As many digits are taken as a number may have, whatever follows. -/
theorem Pattern.number_padded (pos : 0 < width) (fits : n < 10 ^ width) :
    Pattern.number (some width) (padded width n ++ rest) = .ok (n, rest) := by
  have length := Numeral.length_padded pos fits
  have taken : ((padded width n ++ rest).takeWhile Numeral.isDigit).take width = padded width n := by
    rw [List.takeWhile_append_of_pos (Numeral.areDigits_padded width n), List.take_append_of_le_length length.ge,
      List.take_of_length_le length.le]
  have left : (padded width n ++ rest).drop (padded width n).length = rest := List.drop_left' rfl
  obtain ⟨d, tail, hp, -⟩ := padded_cons pos fits
  unfold Pattern.number
  simp only [taken, left, Numeral.toNat_padded]
  rw [hp]
  rfl

end Numbers

/-! ## Items of a pattern -/

namespace Pattern

variable {p : CalendarParts} {y mo d h mi s ms : Nat} {rest : List Char} {items : List PatternItem}

theorem run_year (fits : y < 10 ^ 4) :
    run p (padded 4 y ++ rest) (.year :: items) = run { p with year := y } rest items := by
  have taken : number (some 4) (padded 4 y ++ rest) = .ok (y, rest) := number_padded (by decide) fits
  have noBlank : dropBlanks (padded 4 y ++ rest) = padded 4 y ++ rest := dropBlanks_padded (by decide) fits
  obtain ⟨c, tail, hp, digit⟩ := padded_cons (by decide) fits
  have plus : c ≠ '+' := Numeral.ne_of_isDigit digit rfl
  have minus : c ≠ '-' := Numeral.ne_of_isDigit digit rfl
  have range : (-2147483648 : Int) ≤ y ∧ (y : Int) ≤ 2147483647 := by omega
  rw [hp, List.cons_append] at taken noBlank ⊢
  simp [run, take, year, noBlank, taken, range, plus, minus, bind, Except.bind, pure, Except.pure]

theorem run_literal (c : Char) : run p (c :: rest) (.literal c :: items) = run p rest items := by
  simp [run, take, bind, Except.bind]

theorem run_part {n : Nat} {u : Unit2} (fits : n < 10 ^ 2) :
    run p (padded 2 n ++ rest) (.part u :: items) = setPart p n u >>= fun p => run p rest items := by
  simp only [run, take, dropBlanks_padded (by decide) fits, number_padded (by decide) fits, bind, Except.bind]
  cases setPart p n u <;> rfl

theorem run_blanks {n : Nat} (fits : n < 10 ^ 2) :
    run p (' ' :: (padded 2 n ++ rest)) (.blanks :: items) = run p (padded 2 n ++ rest) items := by
  have noBlank : dropBlanks (' ' :: (padded 2 n ++ rest)) = padded 2 n ++ rest :=
    (List.dropWhile_cons_of_pos rfl).trans (dropBlanks_padded (by decide) fits)
  simp [run, take, noBlank, bind, Except.bind]

theorem run_millis (fits : ms < 10 ^ 3) :
    run p ('.' :: padded 3 ms) [.millis] = .ok { p with nanos := ms * 1000000 } := by
  have length := Numeral.length_padded (by decide) fits
  have digits := Numeral.areDigits_padded 3 ms
  have number := Numeral.toNat_padded 3 ms
  match hp : padded 3 ms with
  | [a, b, c] =>
    rw [hp] at digits number
    have first := digits a (by simp)
    have second := digits b (by simp)
    have third := digits c (by simp)
    simp [run, take, first, second, third, number, bind, Except.bind]
  | [] | [_] | [_, _] | _ :: _ :: _ :: _ :: _ => simp [hp] at length

/-! ## Texts with all their digits -/

/-- `year-month-day` with four digits, two and two. -/
def dateText (y mo d : Nat) : List Char := padded 4 y ++ '-' :: (padded 2 mo ++ '-' :: padded 2 d)

/-- `year-month-day hour:minute:second` with all their digits. -/
def momentText (y mo d h mi s : Nat) : List Char :=
  dateText y mo d ++ ' ' :: (padded 2 h ++ ':' :: (padded 2 mi ++ ':' :: padded 2 s))

/-- `year-month-day hour:minute:second.milliseconds` with all their digits. -/
def millisText (y mo d h mi s ms : Nat) : List Char := momentText y mo d h mi s ++ '.' :: padded 3 ms

/-- No part of a date has more digits than there are places for it. -/
structure FitDate (y mo d : Nat) : Prop where
  year : y < 10 ^ 4
  month : mo < 10 ^ 2
  day : d < 10 ^ 2

/-- No part of a time of day has more digits than there are places for it. -/
structure FitClock (h mi s : Nat) : Prop where
  hour : h < 10 ^ 2
  minute : mi < 10 ^ 2
  second : s < 10 ^ 2

/-- What the pattern of a date does with the text of one. -/
theorem run_looseDate (p : CalendarParts) (rest : List Char) (items : List PatternItem) (fits : FitDate y mo d) :
    run p (dateText y mo d ++ rest) (looseDate ++ items) =
      if (1 ≤ mo ∧ mo ≤ 12) ∧ 1 ≤ d ∧ d ≤ 31 then run { p with year := y, month := mo, day := d } rest items
      else .error .outOfRange := by
  simp only [dateText, looseDate, List.append_assoc, List.cons_append, List.nil_append]
  rw [run_year fits.year, run_literal, run_part fits.month]
  simp only [run_literal, run_part fits.day, setPart]
  split_ifs <;> first | rfl | omega

/-- What the items for a time of day do with the text of one. -/
theorem run_clock (fits : FitClock h mi s) :
    run p (' ' :: (padded 2 h ++ ':' :: (padded 2 mi ++ ':' :: padded 2 s)) ++ rest)
        ([.blanks, .part .hour, .literal ':', .part .minute, .literal ':', .part .second] ++ items) =
      if h ≤ 23 ∧ mi ≤ 59 ∧ s ≤ 60 then run { p with hour := h, minute := mi, second := s } rest items
      else .error .outOfRange := by
  simp only [List.append_assoc, List.cons_append, List.nil_append]
  rw [run_blanks fits.hour, run_part fits.hour]
  simp only [run_literal, run_part fits.minute, run_part fits.second, setPart]
  split_ifs <;> first | rfl | omega

/-- What the pattern of a moment does with the text of one. -/
theorem run_looseDateTime (rest : List Char) (items : List PatternItem) (date : FitDate y mo d)
    (clock : FitClock h mi s) :
    run ⟨0, 0, 0, 0, 0, 0, 0⟩ (momentText y mo d h mi s ++ rest) (looseDateTime ++ items) =
      if ((1 ≤ mo ∧ mo ≤ 12) ∧ 1 ≤ d ∧ d ≤ 31) ∧ h ≤ 23 ∧ mi ≤ 59 ∧ s ≤ 60 then run ⟨y, mo, d, h, mi, s, 0⟩ rest items
      else .error .outOfRange := by
  rw [momentText, looseDateTime, List.append_assoc, List.append_assoc, run_looseDate _ _ _ date, run_clock clock]
  split_ifs <;> first | rfl | omega

/-! ## Dates and moments of the parts -/

/-- The moment of the parts, if there is one; second 60 is a leap second. -/
def moment? (y mo d h mi s nanos : Nat) : Option DateTime :=
  (Date.ofParts? y mo d).bind fun date =>
    if s = 60 then DateTime.ofParts? date h mi 59 (1000000000 + nanos) else DateTime.ofParts? date h mi s nanos

theorem toOption_toDate (p : CalendarParts) : (toDate p).toOption = Date.ofParts? p.year p.month p.day := by
  unfold toDate
  cases Date.ofParts? p.year p.month p.day <;> rfl

theorem toOption_toDateTime {nanos : Nat} :
    (toDateTime ⟨y, mo, d, h, mi, s, nanos⟩).toOption = moment? y mo d h mi s nanos := by
  unfold toDateTime moment? toDate
  cases Date.ofParts? y mo d with
  | none => rfl
  | some date =>
    simp only [bind, Except.bind, Option.bind]
    by_cases leap : s = 60
    · rw [if_pos leap, if_pos leap]
      cases DateTime.ofParts? date h mi 59 (1000000000 + nanos) <;> rfl
    · rw [if_neg leap, if_neg leap]
      cases DateTime.ofParts? date h mi s nanos <;> rfl

theorem ofParts?_eq_none (h : ¬ ((1 ≤ mo ∧ mo ≤ 12) ∧ 1 ≤ d ∧ d ≤ 31)) : Date.ofParts? y mo d = none := by
  refine dif_neg fun valid => h ⟨valid.2.1, valid.2.2.1, valid.2.2.2.trans ?_⟩
  unfold daysInMonth
  split_ifs <;> omega

theorem moment?_eq_none {nanos : Nat}
    (no : ¬ (((1 ≤ mo ∧ mo ≤ 12) ∧ 1 ≤ d ∧ d ≤ 31) ∧ h ≤ 23 ∧ mi ≤ 59 ∧ s ≤ 60)) :
    moment? y mo d h mi s nanos = none := by
  by_cases date : (1 ≤ mo ∧ mo ≤ 12) ∧ 1 ≤ d ∧ d ≤ 31
  · refine Option.bind_eq_none_iff.2 fun day _ => ?_
    split_ifs with leap
    · exact dif_neg fun valid => no ⟨date, by obtain ⟨_, _, _⟩ := valid; omega⟩
    · exact dif_neg fun valid => no ⟨date, by obtain ⟨_, _, _⟩ := valid; omega⟩
  · rw [moment?, ofParts?_eq_none date]
    rfl

end Pattern

open Pattern

variable {y mo d h mi s ms : Nat}

/-- A text names the day that is written there, if there is such a day. -/
theorem Date.ofText?_dateText (fits : FitDate y mo d) :
    Date.ofText? (String.ofList (dateText y mo d)) = Date.ofParts? y mo d := by
  have read := run_looseDate ⟨0, 0, 0, 0, 0, 0, 0⟩ [] [] fits
  rw [List.append_nil, List.append_nil] at read
  rw [Date.ofText?, Pattern.read, String.toList_ofList, read]
  split_ifs with range
  · exact toOption_toDate _
  · exact (ofParts?_eq_none range).symm

/-- A text without milliseconds names the moment that is written there, if there is one. -/
theorem DateTime.ofText?_momentText (date : FitDate y mo d) (clock : FitClock h mi s) :
    DateTime.ofText? (String.ofList (momentText y mo d h mi s)) = moment? y mo d h mi s 0 := by
  have read := run_looseDateTime [] [] date clock
  have read' := run_looseDateTime [] [.millis] date clock
  rw [List.append_nil] at read read'
  rw [List.append_nil] at read
  rw [DateTime.ofText?, Pattern.read, Pattern.read, String.toList_ofList, looseMillis, read, read']
  split_ifs with range
  · -- nothing is left for the milliseconds of the second pattern
    rw [← toOption_toDateTime]
    show ((toDateTime ⟨y, mo, d, h, mi, s, 0⟩).toOption <|> none) = _
    cases toDateTime ⟨y, mo, d, h, mi, s, 0⟩ <;> rfl
  · exact (moment?_eq_none range).symm

/-- A text with milliseconds names the moment that is written there, if there is one. -/
theorem DateTime.ofText?_millisText (date : FitDate y mo d) (clock : FitClock h mi s) (fits : ms < 10 ^ 3) :
    DateTime.ofText? (String.ofList (millisText y mo d h mi s ms)) = moment? y mo d h mi s (ms * 1000000) := by
  have read := run_looseDateTime ('.' :: padded 3 ms) [] date clock
  have read' := run_looseDateTime ('.' :: padded 3 ms) [.millis] date clock
  rw [List.append_nil] at read
  rw [DateTime.ofText?, Pattern.read, Pattern.read, String.toList_ofList, millisText, looseMillis, read, read']
  split_ifs with range
  · -- the first pattern leaves the milliseconds over, so the second one decides
    rw [run_millis fits]
    exact toOption_toDateTime
  · exact (moment?_eq_none range).symm

end StatementPool
