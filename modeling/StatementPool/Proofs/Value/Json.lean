import StatementPool.Proofs.Calendar.Strict
import StatementPool.Proofs.Json.Nesting
import StatementPool.Value.Json
/-!
# Values survive JSON

A value is written under the name of its variant, and what stands there is read back by the reader of that variant
(`read_write`). So a value that is no floating-point number comes back as itself, and has its text alone, unless it is a
moment in a leap second that does not end its minute: that one has the text of a moment in the second behind it, and is
read as this one. Whatever the text of a floating-point number is read as, it is a floating-point number: the name
decides before the number is looked at (`exists_float_of_parse`). `read_as_written` puts all this together.
-/

namespace StatementPool.Value

open Json (TakesText TakesElement Stands)

/-- The name that a value is written under. -/
def variant : Value → String
  | int _ => "Int"
  | float _ => "Float"
  | text _ => "Text"
  | bool _ => "Bool"
  | timestamp _ => "Timestamp"
  | date _ => "Date"
  | time _ => "Time"
  | null => "Null"
  | blob _ => "Blob"

/-- No moment in a leap second, or only in one that ends a minute. -/
def Placed (v : Value) : Prop := ∀ t, v = timestamp t → t.Placed

/-- The value with a leap second within a minute taken for the second behind it. -/
def settled : Value → Value
  | timestamp t => timestamp t.settled
  | v => v

theorem settled_of_placed {v : Value} (h : v.Placed) : v.settled = v := by
  cases v with
  | timestamp t => exact congrArg timestamp (DateTime.settled_of_placed (h t rfl))
  | _ => rfl

theorem variant_settled (v : Value) : v.settled.variant = v.variant := by
  cases v <;> rfl

/-! ## What stands under a name -/

theorem readCalendar_write {α : Type} {expected text : String} {parse : String → Except CalendarFault α} {a : α}
    (parsed : parse text = .ok a) : TakesText (readCalendar expected parse) (Json.writeString text) a :=
  Json.readText_writeString (by rw [parsed])

theorem readBool_write (b : Bool) : TakesText Json.readBool (boolText b).toList b := by
  cases b
  · exact Json.readBool_false
  · exact Json.readBool_true

/-- Seconds of either sign, and nanoseconds. -/
theorem readDuration_write (d : Duration) :
    TakesText readDuration (Json.writeList [Numeral.ofInt d.secs, Numeral.ofNat d.nanos]) d := by
  obtain ⟨small, low, high⟩ := d.isDuration
  let secs : Int64Range := ⟨d.secs, by omega, by omega⟩
  let nanos : Ranged (-2147483648) 2147483647 := ⟨d.nanos, by omega, by omega⟩
  have takesSecs : TakesElement (Json.readRange "i64" _ _) (Numeral.ofInt d.secs) secs :=
    Json.takesElement_ofInt secs secs.lo_le (secs.le_hi.trans (by decide))
  have takesNanos : TakesElement (Json.readRange "i32" _ _) (Numeral.ofNat d.nanos) nanos :=
    Json.takesElement_ofInt nanos (Int.le_trans (by decide) nanos.lo_le) (nanos.le_hi.trans (by decide))
  have notNegative : ¬ nanos.val < 0 := Int.not_lt.2 (Int.natCast_nonneg _)
  have parts : Duration.ofParts? secs.val nanos.val.toNat = some d := Duration.ofParts?_parts d
  intro sp rest spaces ends
  rw [readDuration, Json.readPair_isList (Json.isList_writeList _) takesSecs takesNanos sp rest spaces ends]
  simp only [if_neg notNegative, parts]

theorem readBlob_write (bytes : List UInt8) :
    TakesText (Json.readList Json.readByte) (Json.writeList (bytes.map fun b => Numeral.ofNat b.toNat)) bytes := by
  refine Json.readList_isList (Json.isList_writeList _) ?_
  rw [List.forall₂_map_left_iff]
  exact List.forall₂_same.2 fun b _ => Json.takesElement_byte b

/-! ## Values -/

/-- What stands under a name is read by the reader of the variant. -/
theorem read_tagged {α : Type} {name : String} {content : List Char} {r : Json.Reader α} {f : α → Value} {a : α}
    (known : Stands variants name (carrying r f)) (takes : TakesText r content a) :
    TakesText read (tagged name content) (f a) :=
  Json.readVariant_isObject (Json.isObject_writeObject _) known (takes.map f)

/-- A value that is written is read back, unless it is a floating-point number. -/
theorem read_write (v : Value) (exact : ∀ x, v ≠ .float x) : TakesText read v.write v.settled := by
  cases v with
  | int i => exact read_tagged (f := .int) rfl (Json.readRange_ofInt i i.lo_le (i.le_hi.trans (by decide)))
  | float x => exact absurd rfl (exact x)
  | text s => exact read_tagged (f := .text) rfl (Json.readText_writeString rfl)
  | bool b => exact read_tagged (f := .bool) rfl (readBool_write b)
  | timestamp t => exact read_tagged (f := .timestamp) rfl (readCalendar_write t.parse_text)
  | date d => exact read_tagged (f := .date) rfl (readCalendar_write d.parse_text)
  | time d => exact read_tagged (f := .time) rfl (readDuration_write d)
  | null =>
    have known : Stands variants "Null" (.bare null) := rfl
    exact Json.readVariant_bare known (Json.spells_escape _)
  | blob bytes => exact read_tagged (f := .blob) rfl (readBlob_write bytes)

theorem exists_float_of_parse {x : Binary64} {w : Value} (h : parse (float x).json = .ok w) : ∃ y, w = .float y := by
  obtain ⟨rest, read⟩ := Json.exists_of_parse h
  rw [json, String.toList_ofList] at read
  have known : Stands variants "Float" (carrying Json.readFloat .float) := rfl
  obtain ⟨inner, rest', read⟩ := Json.exists_of_readVariant (Json.isObject_writeObject _) known read
  match number : Json.readFloat inner with
  | .error f =>
    rw [number] at read
    cases read
  | .ok (y, after) =>
    rw [number] at read
    cases read
    exact ⟨y, rfl⟩

/-- A value that is no floating-point number and no moment in a leap second within a minute is read back as itself, and
no other such value has its text. A leap second within a minute is read as the second behind it. Whatever the text of any
value is read as, it is a value of the same variant. -/
theorem read_as_written (v w : Value) :
    ((∀ x, v ≠ .float x) → parse v.json = .ok v.settled ∧
      (v.Placed → parse v.json = .ok v ∧ (w.Placed → v.json = w.json → v = w))) ∧
    (parse v.json = .ok w → w.variant = v.variant) := by
  have settles (v : Value) (exact : ∀ x, v ≠ .float x) : parse v.json = .ok v.settled :=
    Json.parse_written (read_write v exact)
  have faithful (v w : Value) (h : parse v.json = .ok w) : w.variant = v.variant := by
    by_cases exact : ∀ x, v ≠ .float x
    · cases (settles v exact).symm.trans h
      exact variant_settled v
    · simp only [ne_eq, not_forall, not_not] at exact
      obtain ⟨x, rfl⟩ := exact
      obtain ⟨y, rfl⟩ := exists_float_of_parse h
      rfl
  refine ⟨fun exact => ⟨settles v exact, fun placed => ?_⟩, faithful v w⟩
  have exactly : parse v.json = .ok v := (settles v exact).trans (congrArg Except.ok (settled_of_placed placed))
  refine ⟨exactly, fun placed' same => ?_⟩
  have read : parse w.json = .ok v := same ▸ exactly
  -- nor is `w` a floating-point number, for its text would be read as one
  have exact' : ∀ x, w ≠ .float x := by
    rintro x rfl
    obtain ⟨y, rfl⟩ := exists_float_of_parse read
    exact exact y rfl
  have read' := settles w exact'
  rw [settled_of_placed placed'] at read'
  exact Except.ok.inj (read.symm.trans read')

/-- Half a second into the leap second that ends the first day of the calendar. -/
def firstLeap : Value := .timestamp ⟨⟨-262143, 1, 1, by decide⟩, 23, 59, 59, 1500000000, by decide⟩

theorem read_as_written_of_leap :
    parse "\x7b\"Timestamp\":\"-262143-01-01T23:59:60.500\"\x7d" = .ok firstLeap ∧
      (∀ w : Value, w.Placed → w.json = "\x7b\"Timestamp\":\"-262143-01-01T23:59:60.500\"\x7d" → w = firstLeap) ∧
      firstLeap.variant = "Timestamp" := by
  have text : firstLeap.json = "\x7b\"Timestamp\":\"-262143-01-01T23:59:60.500\"\x7d" := by
    simp [firstLeap, json, write, tagged, Json.writeObject, Json.writeItems, Json.writeString, Json.escape,
      DateTime.text, DateTime.clockText, DateTime.fractionText, Date.text, Date.yearText, Numeral.padded, Numeral.ofNat,
      Numeral.digit]
  have exact : ∀ x, firstLeap ≠ .float x := by
    rintro x ⟨⟩
  have placed : firstLeap.Placed := by
    rintro t ⟨⟩
    exact .inr rfl
  rw [← text]
  have read (w : Value) := ((read_as_written firstLeap w).1 exact).2 placed
  refine ⟨(read firstLeap).1, fun w placed' same => ?_, (read_as_written firstLeap firstLeap).2 (read firstLeap).1⟩
  exact ((read w).2 placed' same.symm).symm

/-- A third of a second into a leap second that does not end its minute. -/
def strayLeap : Value := .timestamp ⟨⟨2016, 12, 31, by decide⟩, 23, 56, 4, 1333333333, by decide⟩

/-- The second behind a leap second within a minute has the same text, and is what is read. -/
theorem leap_read_as_next_second :
    let next : Value := .timestamp ⟨⟨2016, 12, 31, by decide⟩, 23, 56, 5, 333333333, by decide⟩
    (∀ x, strayLeap ≠ .float x) ∧ strayLeap.json = next.json ∧ strayLeap ≠ next ∧ parse strayLeap.json = .ok next := by
  have exact : ∀ x, strayLeap ≠ .float x := by
    rintro x ⟨⟩
  refine ⟨exact, rfl, ?_, Json.parse_written (read_write strayLeap exact)⟩
  rintro ⟨⟩

end StatementPool.Value
