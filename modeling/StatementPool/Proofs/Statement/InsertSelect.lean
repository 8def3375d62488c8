import StatementPool.Proofs.Statement.Rows
/-!
# A search returns what was inserted

Inserts into a table that is empty at first, one after the other, by callers with records of one
layout (`Insertion`), and then a search without parameters. What an insert does is one of two
things (`Insertion.execute_cases`), and both keep that the table has the rows of the accepted records
(`Stores`). So an insert fails only for an unsigned number past the signed range and then changes
nothing, the others are numbered from one on, and the search returns the accepted records in the
order in which they came (`Statement.select_after_inserts`).
-/

namespace StatementPool

/-! ## Callers in turn -/

/-- Execute a statement for every caller in turn, as long as it does not wait for a gate. -/
def Statement.executeFor (s : Statement) (w : World) : List Slots → Option (World × List (Slots × Outcome))
  | [] => some (w, [])
  | x :: rest => do
    let (w, x, o) ← s.execute w x
    let (w, outs) ← s.executeFor w rest
    some (w, (x, o) :: outs)

/-- The caller of an insert: the fields of its record, and what else it hands in. -/
structure Insertion where
  fields : List Field
  results : Option Collection
  insertId : Option Nat
  rows : Option Nat

namespace Insertion

def slots (a : Insertion) : Slots := ⟨some (.ofFields a.fields), a.results, a.insertId, a.rows⟩

/-- The record is of the layout of the fields `T`, and can be read back: no 32-bit number is a NaN,
fixed texts are UTF-8. -/
structure Of (T : List Field) (a : Insertion) : Prop where
  twins : List.Forall₂ Field.Twins a.fields T
  legible : ∀ f ∈ a.fields, f.Legible

/-- The fields of the records that were inserted, going by what the callers were told. -/
def accepted (calls : List Insertion) (outs : List (Slots × Outcome)) : List (List Field) :=
  (calls.zip outs).filterMap fun (a, _, o) =>
    match o with
    | .done => some a.fields
    | _ => none

/-- What the caller of an insert has in its places when the table has `n` rows. -/
def told (a : Insertion) (n : Nat) : Slots :=
  { a.slots with insertId := setSlot a.insertId n, rows := setSlot a.rows 1 }

end Insertion

/-! ## What the table has -/

/-- The table has the rows of the records, in order. -/
structure Stores (table : Nat) (w : World) (stored : List (List Field)) : Prop where
  exists_table : table < w.tables.length
  rows : List.Forall₂ (fun fs row => (Record.ofFields fs).Writes row) stored (w.table table)

variable {T : List Field} {table : Nat} {w : World} {calls : List Insertion} {stored : List (List Field)}

theorem World.table_push (h : table < w.tables.length) (row : Row) :
    (w.push table row).table table = w.table table ++ [row] := by
  simp [World.table, World.push, List.getD_eq_getElem?_getD, h]

theorem Stores.push {fs : List Field} {row : Row} (h : Stores table w stored)
    (hrow : (Record.ofFields fs).Writes row) : Stores table (w.push table row) (stored ++ [fs]) where
  exists_table := by simpa [World.push] using h.exists_table
  rows := by
    rw [World.table_push h.exists_table]
    exact List.rel_append h.rows (.cons hrow .nil)

/-- An insert fails for a number that has no value and changes nothing, or it appends the row of the record. -/
theorem Insertion.execute_cases (table : Nat) (w : World) (a : Insertion) :
    ((∃ f ∈ a.fields, f.Overflows) ∧
      ∃ e, (Statement.insert table).execute w a.slots = some (w, a.slots, .failed e)) ∨
    ((¬ ∃ f ∈ a.fields, f.Overflows) ∧ ∃ row, (Record.ofFields a.fields).Writes row ∧
      (Statement.insert table).execute w a.slots =
        some (w.push table row, a.told ((w.push table row).table table).length, .done)) := by
  have failing := Record.encode_ofFields_eq_error a.fields
  cases he : (Record.ofFields a.fields).encode with
  | error e =>
    refine .inl ⟨failing.1 ⟨e, he⟩, e, ?_⟩
    simp [Statement.execute, insertInto, slots, he]
  | ok row =>
    refine .inr ⟨?_, row, Record.writes_of_encode (Record.typed_ofFields _) he, ?_⟩
    · rw [← failing]
      simp [he]
    · simp [Statement.execute, insertInto, slots, told, he]

/-- After inserts by callers in turn, the table has the rows of the records that were accepted. -/
theorem Stores.executeFor (h : Stores table w stored) (calls : List Insertion) :
    ∃ w' outs, (Statement.insert table).executeFor w (calls.map Insertion.slots) = some (w', outs) ∧
      Stores table w' (stored ++ Insertion.accepted calls outs) := by
  induction calls generalizing w stored with
  | nil => exact ⟨w, [], rfl, by simpa [Insertion.accepted] using h⟩
  | cons a rest ih =>
    rcases a.execute_cases table w with ⟨-, e, he⟩ | ⟨-, row, hrow, he⟩
    · obtain ⟨w', outs, hrun, hs⟩ := ih h
      refine ⟨w', (a.slots, .failed e) :: outs, ?_, hs⟩
      simp [Statement.executeFor, he, hrun]
    · obtain ⟨w', outs, hrun, hs⟩ := ih (h.push hrow)
      refine ⟨w', (a.told ((w.push table row).table table).length, .done) :: outs, ?_, ?_⟩
      · simp [Statement.executeFor, he, hrun]
      · simpa [Insertion.accepted] using hs

/-- A search without parameters copies the rows of all records into an empty collection. -/
theorem Stores.select (h : Stores table w stored)
    (hT : ∀ fs ∈ stored, List.Forall₂ Field.Twins fs T ∧ ∀ f ∈ fs, f.Legible) (insertId rows : Option Nat) :
    (Statement.select table).execute w ⟨none, some (.empty (.ofFields T)), insertId, rows⟩ =
      some (w, ⟨none, some ⟨.ofFields T, stored.map fun fs => .ofFields (List.zipWith Field.returned fs T)⟩, insertId,
        setSlot rows stored.length⟩, .done) := by
  have all : matching [] (w.table table) = w.table table := by simp [matching, Value.startsWith]
  have fills : List.Forall₂ (fun row r => (Record.ofFields T).fill row = (r, .ok ())) (w.table table)
      (stored.map fun fs => .ofFields (List.zipWith Field.returned fs T)) := by
    rw [List.forall₂_map_right_iff]
    apply List.Forall₂.flip
    apply ((List.forall₂_and_left _ _).2 ⟨hT, h.rows⟩).imp
    rintro fs row ⟨⟨twins, legible⟩, hrow⟩
    exact Record.fill_ofFields twins legible hrow
  have copied := Collection.appendRows_of_fill (c := .empty (.ofFields T)) fills 0
  simp only [Statement.execute, selectFrom, filterRow, all, copied]
  simp [Collection.empty, h.rows.length_eq]

/-! ## The records come back -/

theorem Insertion.mem_accepted {outs : List (Slots × Outcome)} {fs : List Field} (h : fs ∈ accepted calls outs) :
    ∃ a ∈ calls, a.fields = fs := by
  obtain ⟨⟨a, x, o⟩, hmem, ha⟩ := List.mem_filterMap.1 h
  cases o with
  | done => exact ⟨a, (List.of_mem_zip hmem).1, Option.some.inj ha⟩
  | _ => cases ha

/-- After any inserts of records of one layout into an empty table, a further insert fails if and
only if one of its fields holds an unsigned number past the signed range, and then nothing has
changed; otherwise it is told the number of records that were accepted, this one included, and
one row. A search returns the accepted records in order, nulls with the storage of a blank record. -/
theorem Statement.select_after_inserts (exists_table : table < w.tables.length) (empty : w.table table = [])
    (hcalls : ∀ a ∈ calls, a.Of T) :
    ∃ w' outs, (Statement.insert table).executeFor w (calls.map Insertion.slots) = some (w', outs) ∧
      (∀ a : Insertion, a.Of T → ∃ w'' x o, (Statement.insert table).execute w' a.slots = some (w'', x, o) ∧
        ((∃ e, o = .failed e) ↔ ∃ f ∈ a.fields, f.Overflows) ∧
        ((∃ e, o = .failed e) → w'' = w' ∧ x = a.slots) ∧
        ((¬ ∃ e, o = .failed e) → o = .done ∧ x = a.told ((Insertion.accepted calls outs).length + 1))) ∧
      ∀ insertId rows, (Statement.select table).execute w' ⟨none, some (.empty (.ofFields T)), insertId, rows⟩ =
        some (w', ⟨none, some ⟨.ofFields T,
            (Insertion.accepted calls outs).map fun fs => .ofFields (List.zipWith Field.returned fs T)⟩, insertId,
          setSlot rows (Insertion.accepted calls outs).length⟩, .done) := by
  have start : Stores table w [] := ⟨exists_table, empty ▸ .nil⟩
  obtain ⟨w', outs, hrun, hs⟩ := start.executeFor calls
  rw [List.nil_append] at hs
  refine ⟨w', outs, hrun, ?_, ?_⟩
  · intro a ha
    rcases a.execute_cases table w' with ⟨hover, e, he⟩ | ⟨hfits, row, hrow, he⟩
    · refine ⟨w', a.slots, .failed e, he, iff_of_true ⟨e, rfl⟩ hover, fun _ => ⟨rfl, rfl⟩, ?_⟩
      intro h
      exact absurd ⟨e, rfl⟩ h
    · have count : ((w'.push table row).table table).length = (Insertion.accepted calls outs).length + 1 := by
        simpa using (hs.push hrow).rows.length_eq.symm
      refine ⟨_, _, .done, he, iff_of_false (by simp) hfits, by simp, fun _ => ⟨rfl, by rw [count]⟩⟩
  · have layout : ∀ fs ∈ Insertion.accepted calls outs, List.Forall₂ Field.Twins fs T ∧ ∀ f ∈ fs, f.Legible := by
      intro fs hfs
      obtain ⟨a, ha, rfl⟩ := Insertion.mem_accepted hfs
      exact ⟨(hcalls a ha).twins, (hcalls a ha).legible⟩
    exact hs.select layout

/-- A number with a flag, null at first, and a text of two bytes. -/
def numberedCode (number : Ranged (Width.low .ubigint) (Width.high .ubigint)) (null : Bool) (code : List UInt8) :
    List Field :=
  [.nullable (.integer .ubigint) ⟨number, null⟩, .plain .char code]

/-- A caller that is told both numbers. -/
def insertionOf (fields : List Field) : Insertion := ⟨fields, none, some 0, some 0⟩

/-- The second of three records has a number without a value, and the third has one behind a null. -/
def threeInsertions : List Insertion :=
  [insertionOf (numberedCode ⟨41, by decide, by decide⟩ false [0x61, 0]),
    insertionOf (numberedCode ⟨9223372036854775808, by decide, by decide⟩ false [0, 0]),
    insertionOf (numberedCode ⟨9, by decide, by decide⟩ true [0xC3, 0xA9])]

theorem select_after_three_inserts :
    let T := numberedCode (Width.zero .ubigint) true [0, 0]
    ∃ w' outs,
      (Statement.insert 0).executeFor ⟨[[]], [], [], []⟩ (threeInsertions.map Insertion.slots) = some (w', outs) ∧
      (w'.table 0).length = 2 ∧
      (Statement.select 0).execute w' ⟨none, some (.empty (.ofFields T)), none, some 0⟩ =
        some (w', ⟨none, some ⟨.ofFields T, [.ofFields (numberedCode ⟨41, by decide, by decide⟩ false [0x61, 0]),
          .ofFields (numberedCode (Width.zero .ubigint) true [0xC3, 0xA9])]⟩, none, some 2⟩, .done) := by
  intro T
  have of : ∀ n null code, Utf8.valid code = true → code.length = 2 →
      (insertionOf (numberedCode n null code)).Of T := by
    intro n null code hvalid hlength
    refine ⟨.cons ⟨rfl, rfl⟩ (.cons ⟨rfl, congrArg some hlength⟩ .nil), ?_⟩
    intro f hf
    rcases List.mem_cons.1 hf with rfl | hf
    · exact fun _ => trivial
    · cases List.mem_singleton.1 hf
      exact fun _ => hvalid
  have hcalls : ∀ a ∈ threeInsertions, a.Of T := by
    intro a ha
    simp only [threeInsertions, List.mem_cons, List.not_mem_nil, or_false] at ha
    rcases ha with rfl | rfl | rfl <;>
      exact of _ _ _ (by simp [Utf8.valid, Utf8.scan, Utf8.lead?, Utf8.follow]) rfl
  have start : 0 < (⟨[[]], [], [], []⟩ : World).tables.length := by decide
  obtain ⟨w', outs, hrun, -, hselect⟩ := Statement.select_after_inserts start rfl hcalls
  have hsel := hselect none (some 0)
  cases hrun
  exact ⟨_, _, rfl, rfl, hsel⟩

end StatementPool
