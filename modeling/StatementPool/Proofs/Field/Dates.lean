import StatementPool.Proofs.Calendar.Pattern
import StatementPool.Proofs.Field.Decoding
/-!
# Dates in texts

A date field and a moment field read a text in its usual form, with all its digits, exactly: as the day or the moment
that is written there, and they refuse it if there is no such day or no such time of day (`Field.decode_dates`).
-/

namespace StatementPool

/-! ## Days and moments by their parts -/

/-- The day with the given parts. -/
structure Date.Has (date : Date) (y mo d : Nat) : Prop where
  year : date.year = y
  month : date.month = mo
  day : date.day = d

/-- The moment with the given parts. -/
structure DateTime.Has (t : DateTime) (y mo d h mi s nanos : Nat) : Prop where
  date : t.date.Has y mo d
  hour : t.hour = h
  minute : t.minute = mi
  second : t.second = s
  nanos : t.nanos = nanos

section Parts

variable {y mo d h mi s nanos : Nat} {date : Date} {t : DateTime}

theorem Date.Has.ofParts? (has : date.Has y mo d) : Date.ofParts? y mo d = some date := by
  obtain ⟨year, rfl, rfl⟩ := has
  rw [← year, Date.ofParts?_parts]

theorem DateTime.Has.moment? (has : t.Has y mo d h mi s nanos) : Pattern.moment? y mo d h mi s nanos = some t := by
  obtain ⟨date, rfl, rfl, rfl, rfl⟩ := has
  have noLeap : ¬ t.second = 60 := Nat.ne_of_lt t.isClock.2.2.1
  rw [Pattern.moment?, date.ofParts?, Option.bind_some, if_neg noLeap, DateTime.ofParts?_parts]

/-- A moment has a day, an hour and a minute that exist. -/
theorem Pattern.moment?_eq_some (ht : Pattern.moment? y mo d h mi s nanos = some t) :
    IsDate y mo d ∧ h < 24 ∧ mi < 60 := by
  obtain ⟨date, hdate, ht⟩ := Option.bind_eq_some_iff.1 ht
  have valid : IsDate y mo d := by
    by_contra no
    rw [Date.ofParts?, dif_neg no] at hdate
    cases hdate
  refine ⟨valid, ?_⟩
  have clock {second nanos : Nat} (h' : DateTime.ofParts? date h mi second nanos = some t) : h < 24 ∧ mi < 60 := by
    unfold DateTime.ofParts? at h'
    split at h'
    · rename_i clock
      exact ⟨clock.1, clock.2.1⟩
    · cases h'
  split_ifs at ht with leap
  · exact clock ht
  · exact clock ht

end Parts

/-! ## Fields -/

namespace Field

/-- The field accepts the value, and then holds the content and is not null. -/
structure Stores (f : Field) (v : Value) (x : (k : Kind) × k.Storage) : Prop where
  accepts : (f.decode v).2 = .ok ()
  isNull : (f.decode v).1.isNull = false
  content : (f.decode v).1.content = x
  type : (f.decode v).1.sqlType = f.sqlType

variable {f : Field} {k : Kind}

/-- A field whose column takes what a value names and nothing else stores it, or refuses a value that names nothing. -/
theorem decode_named (hk : f.kind = k) (v : Value) (named : Option k.Storage) (hv : v ≠ .null)
    (takes : ∀ x, k.Takes (f.length?.getD 0) v x ↔ named = some x) :
    (∀ x, named = some x → f.Stores v ⟨k, x⟩) ∧ (named = none → f.Refuses v) := by
  subst hk
  refine ⟨fun x hx => ?_, fun none => ?_⟩
  · have hx : f.Takes v x := (takes x).2 hx
    obtain ⟨isNull, content⟩ := content_decode hv hx
    exact ⟨(accepts_iff hv).2 ⟨x, hx⟩, isNull, content, sqlType_decode f v⟩
  · refine ((decode_cases hv).resolve_left ?_).2
    rintro ⟨x, hx, -⟩
    cases none.symm.trans ((takes x).1 hx)

open Pattern

variable {y mo d h mi s ms : Nat}

/-- A date field stores exactly the day that a text names with all its digits, and a moment field the moment, with or
without milliseconds; a text that names no day, or no time of day, is refused and the field stays as it was. -/
theorem decode_dates (f : Field) (date : FitDate y mo d) (clock : FitClock h mi s) (fits : ms < 10 ^ 3) :
    (f.kind = .date →
      (∀ x : Date, x.Has y mo d → f.Stores (.text (String.ofList (dateText y mo d))) ⟨.date, x⟩) ∧
        (¬ IsDate y mo d → f.Refuses (.text (String.ofList (dateText y mo d))))) ∧
      (f.kind = .datetime →
        (∀ t : DateTime, t.Has y mo d h mi s 0 →
          f.Stores (.text (String.ofList (momentText y mo d h mi s))) ⟨.datetime, t⟩) ∧
        (∀ t : DateTime, t.Has y mo d h mi s (ms * 1000000) →
          f.Stores (.text (String.ofList (millisText y mo d h mi s ms))) ⟨.datetime, t⟩) ∧
        (¬ (IsDate y mo d ∧ h < 24 ∧ mi < 60) →
          f.Refuses (.text (String.ofList (momentText y mo d h mi s))) ∧
            f.Refuses (.text (String.ofList (millisText y mo d h mi s ms))))) := by
  refine ⟨fun isDate => ?_, fun isMoment => ?_⟩
  · obtain ⟨stores, refuses⟩ :=
      decode_named isDate (.text (String.ofList (dateText y mo d))) (Date.ofText? _) nofun fun _ => Iff.rfl
    rw [Date.ofText?_dateText date] at stores refuses
    exact ⟨fun x has => stores x has.ofParts?, fun no => refuses (dif_neg no)⟩
  · obtain ⟨stores, refuses⟩ :=
      decode_named isMoment (.text (String.ofList (momentText y mo d h mi s))) (DateTime.ofText? _) nofun
        fun _ => Iff.rfl
    obtain ⟨stores', refuses'⟩ :=
      decode_named isMoment (.text (String.ofList (millisText y mo d h mi s ms))) (DateTime.ofText? _) nofun
        fun _ => Iff.rfl
    rw [DateTime.ofText?_momentText date clock] at stores refuses
    rw [DateTime.ofText?_millisText date clock fits] at stores' refuses'
    refine ⟨fun t has => stores t has.moment?, fun t has => stores' t has.moment?, fun no => ⟨refuses ?_, refuses' ?_⟩⟩
    · exact Option.eq_none_iff_forall_not_mem.2 fun t ht => no (moment?_eq_some ht)
    · exact Option.eq_none_iff_forall_not_mem.2 fun t ht => no (moment?_eq_some ht)

/-- The last quarter of the last second of a leap day, and the same text in a year without one. -/
theorem decode_dates_of_leap_day :
    Stores (.nullable .datetime (.nullWith .epoch)) (.text "2024-02-29 23:59:59.750")
        ⟨.datetime, (⟨⟨2024, 2, 29, by decide⟩, 23, 59, 59, 750000000, by decide⟩ : DateTime)⟩ ∧
      Refuses (.plain .datetime .epoch) (.text "2023-02-29 23:59:59.750") := by
  have clock : FitClock 23 59 59 := ⟨by decide, by decide, by decide⟩
  have leap : FitDate 2024 2 29 := ⟨by decide, by decide, by decide⟩
  have common : FitDate 2023 2 29 := ⟨by decide, by decide, by decide⟩
  have fits : 750 < 10 ^ 3 := by decide
  have text : millisText 2024 2 29 23 59 59 750 = "2024-02-29 23:59:59.750".toList := by
    simp [millisText, momentText, dateText, Numeral.padded, Numeral.ofNat, Numeral.digit]
  have text' : millisText 2023 2 29 23 59 59 750 = "2023-02-29 23:59:59.750".toList := by
    simp [millisText, momentText, dateText, Numeral.padded, Numeral.ofNat, Numeral.digit]
  refine ⟨?_, ?_⟩
  · rw [← String.ofList_toList (s := "2024-02-29 23:59:59.750"), ← text]
    exact ((decode_dates _ leap clock fits).2 rfl).2.1 _ ⟨⟨rfl, rfl, rfl⟩, rfl, rfl, rfl, rfl⟩
  · rw [← String.ofList_toList (s := "2023-02-29 23:59:59.750"), ← text']
    exact (((decode_dates _ common clock fits).2 rfl).2.2 fun valid => absurd valid (by decide)).2

end Field

end StatementPool
