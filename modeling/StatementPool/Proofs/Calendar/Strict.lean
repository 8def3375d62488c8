import StatementPool.Proofs.Calendar.Pattern
/-!
# Dates that programs write are read back

The strict patterns take a date and a moment as they are written: a year of any length with its sign, and a fraction of
no, three, six or nine digits. Every number is followed by something that is no digit, so none takes more or less than
what was written for it. A leap second that ends a minute goes out as second 60 and comes back as the billion
nanoseconds that it was; any other one has the text of the second behind it (`Date.parse_text`, `DateTime.parse_text`).
-/

namespace StatementPool

open Numeral (padded)

namespace Pattern

variable {p : CalendarParts} {y : Int} {h mi s n nanos width : Nat} {rest : List Char} {items : List PatternItem}

/-! ## Items -/

/-- All digits of a numeral are taken if there are no more than a number may have. -/
theorem number_whole {most : Option Nat} (fits : ∀ k, most = some k → (padded width n).length ≤ k)
    (stop : rest.takeWhile Numeral.isDigit = []) : number most (padded width n ++ rest) = .ok (n, rest) := by
  have value := Numeral.toNat_padded width n
  have taken : (padded width n ++ rest).takeWhile Numeral.isDigit = padded width n := by
    rw [List.takeWhile_append_of_pos (Numeral.areDigits_padded width n), stop, List.append_nil]
  have left : (padded width n ++ rest).drop (padded width n).length = rest := List.drop_left' rfl
  obtain ⟨d, tail, hp⟩ : ∃ d tail, padded width n = d :: tail :=
    List.exists_cons_of_ne_nil (List.append_ne_nil_of_right_ne_nil _ (Numeral.ofNat_ne_nil n))
  rw [hp] at fits value taken left ⊢
  rw [List.cons_append] at taken left ⊢
  cases most with
  | none => simp only [number, taken, value, left]
  | some k =>
    have short : (d :: tail).take k = d :: tail := List.take_of_length_le (fits k rfl)
    simp only [number, taken, short, value, left]

/-- A year with a sign takes all its digits. -/
theorem year_signed {n : Nat} (small : n < 10 ^ 6) (stop : rest.takeWhile Numeral.isDigit = []) :
    year ('-' :: (padded 4 n ++ rest)) = .ok (-(n : Int), rest) ∧
      year ('+' :: (padded 4 n ++ rest)) = .ok ((n : Int), rest) := by
  have taken : number none (padded 4 n ++ rest) = .ok (n, rest) := number_whole nofun stop
  have range : -2147483648 ≤ -(n : Int) ∧ -(n : Int) ≤ 2147483647 := by omega
  have range' : -2147483648 ≤ (n : Int) ∧ (n : Int) ≤ 2147483647 := by omega
  have minus : dropBlanks ('-' :: (padded 4 n ++ rest)) = '-' :: (padded 4 n ++ rest) :=
    List.dropWhile_cons_of_neg (by decide)
  have plus : dropBlanks ('+' :: (padded 4 n ++ rest)) = '+' :: (padded 4 n ++ rest) :=
    List.dropWhile_cons_of_neg (by decide)
  constructor
  · simp [year, minus, taken, range, bind, Except.bind, pure, Except.pure]
  · simp [year, plus, taken, range', bind, Except.bind, pure, Except.pure]

/-- A year is taken as it is written, of four digits or with its sign. -/
theorem run_yearText (range : -262143 ≤ y ∧ y ≤ 262142) (stop : rest.takeWhile Numeral.isDigit = []) :
    run p (Date.yearText y ++ rest) (.year :: items) = run { p with year := y } rest items := by
  by_cases four : 0 ≤ y ∧ y ≤ 9999
  · obtain ⟨n, rfl⟩ := Int.eq_ofNat_of_zero_le four.1
    have small : n < 10 ^ 4 := by omega
    rw [Date.yearText, if_pos four]
    exact run_year small
  · have small : y.natAbs < 10 ^ 6 := by omega
    obtain ⟨minus, plus⟩ := year_signed small stop
    rw [Date.yearText, if_neg four]
    by_cases before : y < 0
    · rw [show -(y.natAbs : Int) = y by omega] at minus
      simp [run, take, if_pos before, minus, bind, Except.bind, pure, Except.pure]
    · rw [show (y.natAbs : Int) = y by omega] at plus
      simp [run, take, if_neg before, plus, bind, Except.bind, pure, Except.pure]

/-- Where no blank stands, none is taken. -/
theorem run_noBlanks (noBlank : dropBlanks rest = rest) : run p rest (.blanks :: items) = run p rest items := by
  simp [run, take, noBlank, bind, Except.bind]

/-- The digits of a fraction count from the first place behind the point. -/
theorem run_fraction (pos : 0 < width) (fits : width ≤ 9) (small : n < 10 ^ width) :
    run p ('.' :: padded width n) (.fraction :: items) =
      run { p with nanos := n * Nat.pow 10 (9 - width) } [] items := by
  have length := Numeral.length_padded pos small
  have taken : number (some 9) (padded width n ++ []) = .ok (n, []) := by
    refine number_whole ?_ rfl
    rintro k ⟨⟩
    rw [length]
    exact fits
  rw [List.append_nil] at taken
  simp [run, take, taken, length, bind, Except.bind, pure, Except.pure]

/-- A fraction is taken as it is written, of no, three, six or nine digits. -/
theorem run_fractionText (fits : nanos < 1000000000) (zero : p.nanos = 0) :
    run p (DateTime.fractionText nanos) (.fraction :: items) = run { p with nanos := nanos } [] items := by
  unfold DateTime.fractionText
  split_ifs with none millis micros
  · subst none
    rw [← zero]
    rfl
  · rw [run_fraction (by decide) (by decide) (show nanos / 1000000 < 10 ^ 3 by omega)]
    rw [show nanos / 1000000 * Nat.pow 10 (9 - 3) = nanos by simp only [Nat.pow_eq]; omega]
  · rw [run_fraction (by decide) (by decide) (show nanos / 1000 < 10 ^ 6 by omega)]
    rw [show nanos / 1000 * Nat.pow 10 (9 - 6) = nanos by simp only [Nat.pow_eq]; omega]
  · rw [run_fraction (by decide) (by decide) (show nanos < 10 ^ 9 by omega)]
    rw [show nanos * Nat.pow 10 (9 - 9) = nanos from Nat.mul_one nanos]

/-! ## Dates and moments -/

/-- What the pattern of a moment asks for behind its date. -/
def strictClock : List PatternItem :=
  [.literal 'T', .part .hour, .blanks, .literal ':', .part .minute, .blanks, .literal ':', .part .second, .fraction,
    .blanks]

theorem strictDateTime_eq : strictDateTime = strictDate ++ strictClock := rfl

/-- What the pattern of a date does with the text of one. -/
theorem run_strictDate (d : Date) (noBlank : dropBlanks rest = rest) :
    run p (d.text ++ rest) (strictDate ++ items) =
      run { p with year := d.year, month := d.month, day := d.day } rest items := by
  obtain ⟨year, month, day⟩ := d.isDate
  have last : d.day ≤ 31 := by
    refine day.2.trans ?_
    unfold daysInMonth
    split_ifs <;> omega
  have dash (cs : List Char) : dropBlanks ('-' :: cs) = '-' :: cs := List.dropWhile_cons_of_neg (by decide)
  have monthFits : d.month < 10 ^ 2 := by omega
  have dayFits : d.day < 10 ^ 2 := by omega
  have setMonth (p : CalendarParts) : setPart p d.month .month = .ok { p with month := d.month } := if_pos month
  have setDay (p : CalendarParts) : setPart p d.day .day = .ok { p with day := d.day } := if_pos ⟨day.1, last⟩
  simp only [Date.text, strictDate, List.append_assoc, List.cons_append, List.nil_append]
  rw [run_yearText year rfl, run_noBlanks (dash _), run_literal, run_part monthFits, setMonth]
  simp only [bind, Except.bind]
  rw [run_noBlanks (dash _), run_literal, run_part dayFits, setDay]
  simp only [bind, Except.bind]
  rw [run_noBlanks noBlank]

/-- What the items for a time of day do with the text of one; second 60 stands for a leap second. -/
theorem run_clockText (hour : h ≤ 23) (minute : mi ≤ 59) (second : s ≤ 60) (fits : nanos < 1000000000)
    (zero : p.nanos = 0) :
    run p ('T' :: (padded 2 h ++ ':' :: (padded 2 mi ++ ':' :: (padded 2 s ++ DateTime.fractionText nanos))))
        strictClock =
      .ok { p with hour := h, minute := mi, second := s, nanos := nanos } := by
  have colon (cs : List Char) : dropBlanks (':' :: cs) = ':' :: cs := List.dropWhile_cons_of_neg (by decide)
  have setHour (p : CalendarParts) : setPart p h .hour = .ok { p with hour := h } := if_pos hour
  have setMinute (p : CalendarParts) : setPart p mi .minute = .ok { p with minute := mi } := if_pos minute
  have setSecond (p : CalendarParts) : setPart p s .second = .ok { p with second := s } := if_pos second
  rw [strictClock, run_literal, run_part (by omega), setHour]
  simp only [bind, Except.bind]
  rw [run_noBlanks (colon _), run_literal, run_part (by omega), setMinute]
  simp only [bind, Except.bind]
  rw [run_noBlanks (colon _), run_literal, run_part (by omega), setSecond]
  simp only [bind, Except.bind]
  rw [run_fractionText fits (by exact zero), run_noBlanks rfl]
  rfl

theorem toDate_parts (d : Date) : toDate ⟨d.year, d.month, d.day, h, mi, s, nanos⟩ = .ok d := by
  simp only [toDate, Date.ofParts?_parts]

theorem toDateTime_parts (d : Date) (clock : IsClock h mi s nanos) :
    toDateTime ⟨d.year, d.month, d.day, h, mi, s, nanos⟩ = .ok ⟨d, h, mi, s, nanos, clock⟩ := by
  have noLeap : ¬ s = 60 := Nat.ne_of_lt clock.2.2.1
  rw [toDateTime, toDate_parts]
  simp [noLeap, DateTime.ofParts?, clock, bind, Except.bind]

/-- Second 60 is second 59 with a billion nanoseconds more. -/
theorem toDateTime_leap (d : Date) (clock : IsClock h mi 59 (1000000000 + nanos)) :
    toDateTime ⟨d.year, d.month, d.day, h, mi, 60, nanos⟩ = .ok ⟨d, h, mi, 59, 1000000000 + nanos, clock⟩ := by
  rw [toDateTime, toDate_parts]
  simp [DateTime.ofParts?, clock, bind, Except.bind]

end Pattern

open Pattern

/-- A date that is written is read back. -/
theorem Date.parse_text (d : Date) : Date.parse (String.ofList d.text) = .ok d := by
  have read : run ⟨0, 0, 0, 0, 0, 0, 0⟩ (d.text ++ []) (strictDate ++ []) =
      .ok ⟨d.year, d.month, d.day, 0, 0, 0, 0⟩ := run_strictDate d rfl
  rw [List.append_nil, List.append_nil] at read
  rw [Date.parse, Pattern.read, String.toList_ofList, read]
  exact toDate_parts d

namespace DateTime

/-- No leap second, or one that ends a minute, as calendars have them. -/
def Placed (t : DateTime) : Prop := t.nanos < 1000000000 ∨ t.second = 59

instance : DecidablePred Placed := fun t =>
  inferInstanceAs (Decidable (t.nanos < 1000000000 ∨ t.second = 59))

/-- The moment with a leap second within a minute taken for the second behind it. -/
def settled (t : DateTime) : DateTime :=
  if h : t.Placed then t
  else
    { t with
      second := t.second + 1
      nanos := t.nanos - 1000000000
      isClock := by
        obtain ⟨hour, minute, second, nanos⟩ := t.isClock
        obtain ⟨-, inside⟩ := not_or.1 h
        exact ⟨hour, minute, by omega, by omega⟩ }

theorem settled_of_placed {t : DateTime} (h : t.Placed) : t.settled = t := dif_pos h

theorem placed_settled (t : DateTime) : t.settled.Placed := by
  unfold settled
  split
  · assumption
  · have small := t.isClock.2.2.2
    exact .inl (by simp only; omega)

/-- A leap second within a minute is written as the second behind it. -/
theorem text_settled (t : DateTime) (between : Char) : t.settled.text between = t.text between := by
  unfold settled
  split
  · rfl
  · rename_i h
    obtain ⟨leap, -⟩ := not_or.1 h
    have small := t.isClock.2.2.2
    have next : clockText t.hour t.minute (t.second + 1) (t.nanos - 1000000000) =
        clockText t.hour t.minute t.second t.nanos := by
      have noLeap : ¬ 1000000000 ≤ t.nanos - 1000000000 := by omega
      rw [clockText, clockText, if_neg noLeap, if_pos (Nat.not_lt.1 leap)]
    rw [text, text, ← next]

end DateTime

theorem DateTime.parse_of_placed {t : DateTime} (placed : t.Placed) :
    DateTime.parse (String.ofList (t.text 'T')) = .ok t := by
  obtain ⟨d, h, mi, s, nanos, clock⟩ := t
  obtain ⟨hour, minute, second, fraction⟩ := clock
  have date (cs : List Char) : run ⟨0, 0, 0, 0, 0, 0, 0⟩ (d.text ++ 'T' :: cs) (strictDate ++ strictClock) =
      run ⟨d.year, d.month, d.day, 0, 0, 0, 0⟩ ('T' :: cs) strictClock :=
    run_strictDate d (List.dropWhile_cons_of_neg (by decide))
  rw [DateTime.parse, Pattern.read, String.toList_ofList, DateTime.text, DateTime.clockText, strictDateTime_eq, date]
  by_cases leap : 1000000000 ≤ nanos
  · obtain ⟨n, rfl⟩ := Nat.exists_eq_add_of_le leap
    obtain rfl : s = 59 := placed.resolve_left (Nat.not_lt.2 leap)
    simp only [if_pos leap, Nat.add_sub_cancel_left]
    rw [run_clockText (by omega) (by omega) (by decide) (by omega) rfl]
    exact toDateTime_leap d _
  · simp only [if_neg leap]
    rw [run_clockText (by omega) (by omega) (by omega) (by omega) rfl]
    exact toDateTime_parts d _

/-- A moment that is written is read back, also one within a leap second that ends a minute. A leap second elsewhere is
read as the second behind it, for it is written like that. -/
theorem DateTime.parse_text (t : DateTime) : DateTime.parse (String.ofList (t.text 'T')) = .ok t.settled := by
  rw [← t.text_settled]
  exact parse_of_placed t.placed_settled

end StatementPool
