import StatementPool.Proofs.Record.Fetching
/-!
# A search is complete, ordered and leaves no partial record

The rows that a search finds are those of the table that begin with the columns of its filter (`Row.BeginsWith`), in
the order of the table. A row fits the fields of a record, or it has a first fault (`Row.Fault`), and filling a blank
record tells which (`Record.fill_cases`). So a search appends one record for each row that it finds, as long as they all
fit; otherwise it ends with the fault of the first that does not, and the collection has the records of the rows before
that one (`Statement.selects`).
-/

namespace StatementPool

/-! ## Rows that are found -/

namespace Row

/-- The leading columns of a row are equal to all columns of another, where floating-point numbers are compared as
numbers. -/
def BeginsWith (row filter : Row) : Prop :=
  ∃ lead rest, row = lead ++ rest ∧ List.Forall₂ (fun v w => Value.same v w = true) lead filter

theorem startsWith_iff {row filter : Row} : Value.startsWith row filter = true ↔ BeginsWith row filter := by
  induction filter generalizing row with
  | nil => exact iff_of_true (by cases row <;> rfl) ⟨[], row, rfl, .nil⟩
  | cons w filter ih =>
    cases row with
    | nil =>
      refine iff_of_false (by simp [Value.startsWith]) ?_
      rintro ⟨_ | _, _, heq, hsame⟩
      · cases hsame
      · cases heq
    | cons v row =>
      rw [Value.startsWith, Bool.and_eq_true, ih]
      constructor
      · rintro ⟨hv, lead, rest, rfl, hsame⟩
        exact ⟨v :: lead, rest, rfl, .cons hv hsame⟩
      · rintro ⟨_, rest, heq, hsame⟩
        cases hsame with
        | cons hv hsame =>
          cases heq
          exact ⟨hv, _, rest, rfl, hsame⟩

instance (row filter : Row) : Decidable (BeginsWith row filter) := decidable_of_iff _ startsWith_iff

/-- The rows that begin with the filter, in order. -/
def found (filter : Row) (rows : List Row) : List Row := rows.filter fun row => decide (BeginsWith row filter)

theorem matching_eq (filter : Row) (rows : List Row) : matching filter rows = found filter rows := by
  apply List.filter_congr
  intro row _
  rw [Bool.eq_iff_iff, decide_eq_true_iff, startsWith_iff]

/-! ## Rows that fit -/

variable (ds : List Field) (row : Row)

/-- There is a column for each of the fields, and each field accepts its column. -/
def Fits : Prop := List.Forall₂ (fun d v => (d.decode v).2 = .ok ()) ds row

/-- The fields with the columns of the row in them. -/
def taken : List Field := List.zipWith (fun d v => (d.decode v).1) ds row

/-- Why fields do not take a row: it has another width, or this is the first column that is refused. -/
inductive Fault : Error → Prop where
  | width (other : row.length ≠ ds.length) : Fault (.conversion (.rowWidth row.length ds.length))
  | column {i : Nat} {d : Field} {v : Value} {e : Error} (width : row.length = ds.length) (field : ds[i]? = some d)
      (value : row[i]? = some v) (refused : (d.decode v).2 = .error e)
      (first : ∀ j < i, ∀ d v, ds[j]? = some d → row[j]? = some v → (d.decode v).2 = .ok ()) : Fault e

variable {ds row}

theorem Fits.column (fits : Fits ds row) {i : Nat} {d : Field} {v : Value} (field : ds[i]? = some d)
    (value : row[i]? = some v) : (d.decode v).2 = .ok () := by
  obtain ⟨hi, rfl⟩ := List.getElem?_eq_some_iff.1 field
  obtain ⟨hi', rfl⟩ := List.getElem?_eq_some_iff.1 value
  exact fits.get hi hi'

theorem fits_of_columns (width : row.length = ds.length)
    (each : ∀ (i : Nat) d v, ds[i]? = some d → row[i]? = some v → (d.decode v).2 = .ok ()) : Fits ds row := by
  refine List.forall₂_iff_get.2 ⟨width.symm, ?_⟩
  intro i hi hi'
  exact each i _ _ (List.getElem?_eq_getElem hi) (List.getElem?_eq_getElem hi')

/-- A row that fits has no fault. -/
theorem Fits.not_fault {e : Error} (fits : Fits ds row) : ¬ Fault ds row e := by
  rintro (other | ⟨-, field, value, refused, -⟩)
  · exact other fits.length_eq.symm
  · cases (fits.column field value).symm.trans refused

/-- A row has at most one fault. -/
theorem Fault.unique {e e' : Error} (h : Fault ds row e) (h' : Fault ds row e') : e = e' := by
  cases h with
  | width other =>
    cases h' with
    | width _ => rfl
    | column width => exact absurd width other
  | @column i d v _ width field value refused first =>
    cases h' with
    | width other => exact absurd width other
    | @column j d' v' _ _ field' value' refused' first' =>
      rcases Nat.lt_trichotomy i j with hij | rfl | hji
      · cases (first' i hij d v field value).symm.trans refused
      · cases field.symm.trans field'
        cases value.symm.trans value'
        exact Except.error.inj (refused.symm.trans refused')
      · cases (first j hji d' v' field' value').symm.trans refused'

/-- A null sets the flag and leaves what the field had; any other value leaves nothing of it. -/
theorem Fits.taken (fits : Fits ds row) {i : Nat} {d : Field} {v : Value} (field : ds[i]? = some d)
    (value : row[i]? = some v) :
    ∃ g, (Row.taken ds row)[i]? = some g ∧ (v = .null → g.isNull = true ∧ g.content = d.content) ∧
      (v ≠ .null → g.isNull = false ∧ ∃ x, d.Takes v x ∧ g.content = ⟨d.kind, x⟩) := by
  have accepted := fits.column field value
  refine ⟨(d.decode v).1, by simp [Row.taken, List.getElem?_zipWith, field, value], ?_, ?_⟩
  · rintro rfl
    exact Field.content_decode_null accepted
  · intro hv
    obtain ⟨x, takes⟩ := (Field.accepts_iff hv).1 accepted
    obtain ⟨set, content⟩ := Field.content_decode hv takes
    exact ⟨set, x, takes, content⟩

end Row

namespace Record

variable {ds : List Field} {row : Row}

/-- The hooks of a blank record after a row was loaded. -/
def hooksOf (ds : List Field) (row : Row) : HookMap := (loadRow (.ofRecord (.ofFields ds)) row).1

/-- There is a hook of the type of each field, and it carries the column of this field. -/
theorem get?_hooksOf (length : row.length = ds.length) {k : Nat} {h : Hook} :
    (hooksOf ds row).get? k = some h ↔ ∃ d v, ds[k]? = some d ∧ row[k]? = some v ∧ h = ⟨d.sqlType, v⟩ := by
  have entries : (hooksOf ds row).entries = loadEntries (HookMap.freshFrom (.ofFields ds) 0 ds.length) row :=
    (loadRow_ofRecord (r := .ofFields ds) length).2
  have each : ∀ i : Nat, (hooksOf ds row).entries[i]? =
      ds[i]?.bind fun d => row[i]?.map fun v => (i, ⟨d.sqlType, v⟩) := by
    intro i
    rw [entries, loadEntries, HookMap.freshFrom_eq, List.getElem?_zipWith, List.getElem?_map]
    by_cases hi : i < ds.length
    · have hi' : i < row.length := length ▸ hi
      simp [hi, hi', typeOf_ofFields, Hook.fresh]
    · simp [hi]
  rw [← HookMap.mem_entries, List.mem_iff_getElem?]
  simp only [each, Option.bind_eq_some_iff, Option.map_eq_some_iff, Prod.mk.injEq]
  constructor
  · rintro ⟨i, d, hd, v, hv, rfl, rfl⟩
    exact ⟨d, v, hd, hv, rfl⟩
  · rintro ⟨d, v, hd, hv, rfl⟩
    exact ⟨k, d, hd, v, hv, rfl, rfl⟩

theorem fill_of_width (length : row.length = ds.length) :
    (ofFields ds).fill row = fetchRow (.ofFields ds) (hooksOf ds row) := by
  have loaded : loadRow (.ofRecord (.ofFields ds)) row = (hooksOf ds row, .ok ()) :=
    Prod.ext rfl (loadRow_ofRecord (r := .ofFields ds) length).1
  simp only [fill, loaded]

/-- A row of another width is refused before anything is stored. -/
theorem fill_of_other_width (other : row.length ≠ ds.length) :
    (ofFields ds).fill row = (.ofFields ds, .error (.conversion (.rowWidth row.length ds.length))) := by
  have size : (HookMap.ofRecord (.ofFields ds)).size = ds.length := length_freshFrom _ _ _
  simp [fill, loadRow, size, other]

/-- A hook that stored a column stored it into the field of the blank record. -/
theorem stored_column {r : Record} {k : Nat} {d : Field} {v : Value} (hd : ds[k]? = some d)
    (stored : Access.own.StoredIn (ofFields ds) r k ⟨d.sqlType, v⟩) :
    (d.decode v).2 = .ok () ∧ r.field? k = some (d.decode v).1 := by
  obtain ⟨f, serves, after⟩ := stored
  have here : (ofFields ds).field? k = some f := serves.stored
  rw [field?_ofFields, hd] at here
  cases here
  exact ⟨serves.gives, after⟩

/-- A hook that carries a column is kept from its work only by a field that refuses it. -/
theorem refused_column {k : Nat} {d : Field} {v : Value} {e : Error} (hd : ds[k]? = some d)
    (blocked : Hook.Blocked (Hook.storing ⟨d.sqlType, v⟩) ds.length k ((ofFields ds).field? k) ⟨d.sqlType, v⟩ e) :
    (d.decode v).2 = .error e := by
  have below : k < ds.length := (List.getElem?_eq_some_iff.1 hd).1
  rw [field?_ofFields, hd] at blocked
  cases blocked with
  | pastCount past => exact absurd below (Nat.not_lt_of_le past)
  | noStorage _ missing => cases missing
  | otherType _ stored other =>
    cases stored
    exact absurd rfl other
  | refused _ stored _ fails =>
    cases stored
    exact fails

/-- The fields that took the columns of a row are declared as they were. -/
theorem twins_taken (fits : Row.Fits ds row) : List.Forall₂ Field.Twins (Row.taken ds row) ds := by
  induction fits with
  | nil => exact .nil
  | cons _ _ ih => exact .cons ⟨Field.sqlType_decode _ _, Field.length?_decode _ _⟩ ih

/-- A record that is declared by the fields and holds the columns of the row is that of the fields with these columns
in them. -/
theorem eq_taken {r : Record} (width : row.length = ds.length) (kept : r.layout = (ofFields ds).layout)
    (count : r.count = ds.length) (fits : Row.Fits ds row)
    (each : ∀ (i : Nat) d v, ds[i]? = some d → row[i]? = some v → r.field? i = some (d.decode v).1) :
    r = ofFields (Row.taken ds row) := by
  have length : (Row.taken ds row).length = ds.length := by simp [Row.taken, width]
  apply eq_ofFields (kept.trans (layout_of_twins (twins_taken fits)).symm) (count.trans length.symm)
  intro i hi
  have hi : i < ds.length := length ▸ hi
  have hi' : i < row.length := width ▸ hi
  rw [each i _ _ (List.getElem?_eq_getElem hi) (List.getElem?_eq_getElem hi')]
  simp [Row.taken, hi, hi']

/-- A blank record takes a row that fits, or reports the first fault of the row. -/
theorem fill_cases (ds : List Field) (row : Row) :
    (Row.Fits ds row ∧ (ofFields ds).fill row = (.ofFields (Row.taken ds row), .ok ())) ∨
      ∃ e r, Row.Fault ds row e ∧ (ofFields ds).fill row = (r, .error e) := by
  by_cases width : row.length = ds.length
  · rw [fill_of_width width]
    have clean := fetchesCleanly_own (.ofFields ds) (hooksOf ds row)
    have kept : (fetchRow (.ofFields ds) (hooksOf ds row)).1.layout = _ := layout_fetchEntries _ _
    cases fetched : fetchRow (.ofFields ds) (hooksOf ds row) with
    | mk r outcome =>
      rw [fetched] at clean kept
      cases outcome with
      | ok =>
        have each : ∀ i d v, ds[i]? = some d → row[i]? = some v →
            (d.decode v).2 = .ok () ∧ r.field? i = some (d.decode v).1 := by
          intro i d v hd hv
          exact stored_column hd (clean.ends.each rfl ((get?_hooksOf width).2 ⟨d, v, hd, hv, rfl⟩))
        have fits := Row.fits_of_columns width fun i d v hd hv => (each i d v hd hv).1
        have taken := eq_taken width kept clean.count fits fun i d v hd hv => (each i d v hd hv).2
        exact .inl ⟨fits, Prod.ext taken rfl⟩
      | error e =>
        -- the hook that fails carries the first column that is refused
        obtain ⟨k, h, found, blocked, before⟩ := clean.ends.first rfl
        obtain ⟨d, v, hd, hv, rfl⟩ := (get?_hooksOf width).1 found
        refine .inr ⟨e, r, .column width hd hv (refused_column hd blocked) ?_, rfl⟩
        intro j hj d' v' hd' hv'
        exact (stored_column hd' (before j hj _ ((get?_hooksOf width).2 ⟨d', v', hd', hv', rfl⟩))).1
  · exact .inr ⟨_, _, .width width, fill_of_other_width width⟩

theorem fill_of_fits (fits : Row.Fits ds row) : (ofFields ds).fill row = (.ofFields (Row.taken ds row), .ok ()) := by
  rcases fill_cases ds row with ⟨-, filled⟩ | ⟨e, r, fault, -⟩
  · exact filled
  · exact absurd fault fits.not_fault

theorem fill_of_fault {e : Error} (fault : Row.Fault ds row e) : ∃ r, (ofFields ds).fill row = (r, .error e) := by
  rcases fill_cases ds row with ⟨fits, -⟩ | ⟨e', r, fault', filled⟩
  · exact absurd fault fits.not_fault
  · cases fault.unique fault'
    exact ⟨r, filled⟩

end Record

/-! ## Rows in order -/

section Rows

variable {ds : List Field} {good : List Row}

/-- Rows all fit, or there is a first that does not. -/
theorem Row.fit_or_first (ds : List Field) (rows : List Row) :
    (∀ row ∈ rows, Fits ds row) ∨
      ∃ good bad rest e, rows = good ++ bad :: rest ∧ (∀ row ∈ good, Fits ds row) ∧ Fault ds bad e := by
  induction rows with
  | nil => exact .inl (by simp)
  | cons row rows ih =>
    rcases Record.fill_cases ds row with ⟨fits, -⟩ | ⟨e, -, fault, -⟩
    · rcases ih with all | ⟨good, bad, rest, e, rfl, before, fault⟩
      · exact .inl (List.forall_mem_cons.2 ⟨fits, all⟩)
      · exact .inr ⟨row :: good, bad, rest, e, rfl, List.forall_mem_cons.2 ⟨fits, before⟩, fault⟩
    · exact .inr ⟨[], row, rows, e, rfl, by simp, fault⟩

/-- Rows that fit become records, in order, before the rows behind them. -/
theorem Collection.appendRows_of_fits (fit : ∀ row ∈ good, Row.Fits ds row) (old : List Record) (count : Nat)
    (rest : List Row) :
    (⟨.ofFields ds, old⟩ : Collection).appendRows count (good ++ rest) =
      (⟨.ofFields ds, old ++ good.map fun row => .ofFields (Row.taken ds row)⟩ : Collection).appendRows
        (count + good.length) rest := by
  have fills : List.Forall₂ (fun row r => (Record.ofFields ds).fill row = (r, .ok ())) good
      (good.map fun row => .ofFields (Row.taken ds row)) := by
    rw [List.forall₂_map_right_iff, List.forall₂_same]
    exact fun row hrow => Record.fill_of_fits (fit row hrow)
  exact appendRows_append (c := ⟨.ofFields ds, old⟩) fills count rest

/-- A row with a fault ends the work and leaves no record. -/
theorem Collection.appendRows_of_fault {bad : Row} {e : Error} (fault : Row.Fault ds bad e) (old : List Record)
    (count : Nat) (rest : List Row) :
    (⟨.ofFields ds, old⟩ : Collection).appendRows count (bad :: rest) = (⟨.ofFields ds, old⟩, .error e) := by
  obtain ⟨r, filled⟩ := Record.fill_of_fault fault
  have refused := appendRow_of_refuse (c := ⟨.ofFields ds, old⟩) filled
  simp only [appendRows, refused]

end Rows

/-! ## Searches -/

/-- What searches of a table that find the rows `found` do. -/
structure Statement.Selects (table : Nat) (w : World) (params : Option Record) (found : List Row) : Prop where
  /-- Without a collection the rows are counted. -/
  counts (insertId rows : Option Nat) :
    (Statement.select table).execute w ⟨params, none, insertId, rows⟩ =
      some (w, ⟨params, none, insertId, setSlot rows found.length⟩, .done)
  /-- When they all fit, there is a new record for each of the rows. -/
  copies (ds : List Field) (old : List Record) (insertId rows : Option Nat) (fit : ∀ row ∈ found, Row.Fits ds row) :
    (Statement.select table).execute w ⟨params, some ⟨.ofFields ds, old⟩, insertId, rows⟩ =
      some (w, ⟨params, some ⟨.ofFields ds, old ++ found.map fun row => .ofFields (Row.taken ds row)⟩, insertId,
        setSlot rows found.length⟩, .done)
  /-- Otherwise there is a new record for each of the rows before the first that does not fit. -/
  stops (ds : List Field) (old : List Record) (insertId rows : Option Nat)
    (misfit : ¬ ∀ row ∈ found, Row.Fits ds row) :
    ∃ good bad rest e, found = good ++ bad :: rest ∧ (∀ row ∈ good, Row.Fits ds row) ∧ Row.Fault ds bad e ∧
      (Statement.select table).execute w ⟨params, some ⟨.ofFields ds, old⟩, insertId, rows⟩ =
        some (w, ⟨params, some ⟨.ofFields ds, old ++ good.map fun row => .ofFields (Row.taken ds row)⟩, insertId, rows⟩,
          .failed e)
  /-- In a new record a null has the storage of the blank record, and any other value has that of its column. -/
  fields (ds : List Field) (row : Row) (fits : Row.Fits ds row) {i : Nat} {d : Field} {v : Value}
    (field : ds[i]? = some d) (value : row[i]? = some v) :
    ∃ g, (Row.taken ds row)[i]? = some g ∧ (v = .null → g.isNull = true ∧ g.content = d.content) ∧
      (v ≠ .null → g.isNull = false ∧ ∃ x, d.Takes v x ∧ g.content = ⟨d.kind, x⟩)

/-- A search finds the rows that begin with its filter. -/
theorem Statement.selects {table : Nat} {w : World} {params : Option Record} {filter : Row}
    (encodes : filterRow params = .ok filter) : Selects table w params (Row.found filter (w.table table)) where
  counts insertId rows := by
    simp [execute, selectFrom, encodes, Row.matching_eq]
  copies ds old insertId rows fit := by
    have copied := Collection.appendRows_of_fits fit old 0 []
    rw [List.append_nil, Nat.zero_add] at copied
    simp [execute, selectFrom, encodes, Row.matching_eq, copied, Collection.appendRows]
  stops ds old insertId rows misfit := by
    obtain ⟨good, bad, rest, e, split, fit, fault⟩ := (Row.fit_or_first ds _).resolve_left misfit
    refine ⟨good, bad, rest, e, split, fit, fault, ?_⟩
    have copied := Collection.appendRows_of_fits fit old 0 (bad :: rest)
    rw [Collection.appendRows_of_fault fault] at copied
    simp [execute, selectFrom, encodes, Row.matching_eq, split, copied]
  fields _ _ fits := fits.taken

/-- A truth value and a text with a flag. -/
def flagged (bit : Bool) (text : String) (null : Bool) : List Field :=
  [.plain .bit bit, .nullable .text ⟨text, null⟩]

/-- Two of three rows begin with the truth value that is searched for, one of them with a null behind it. -/
theorem selects_two_of_three_rows :
    let w : World := ⟨[[[.bool true, .text "a"], [.bool false], [.bool true, .null]]], [], [], []⟩
    let params : Record := .ofFields [.plain .bit true]
    filterRow params = .ok [.bool true] ∧
      (Statement.select 0).execute w ⟨params, none, none, some 0⟩ = some (w, ⟨params, none, none, some 2⟩, .done) ∧
      (Statement.select 0).execute w
          ⟨params, some ⟨.ofFields (flagged false "x" true), [.ofFields (flagged false "old" false)]⟩, none, some 0⟩ =
        some (w, ⟨params, some ⟨.ofFields (flagged false "x" true), [.ofFields (flagged false "old" false),
          .ofFields (flagged true "a" false), .ofFields (flagged true "x" true)]⟩, none, some 2⟩, .done) := by
  intro w params
  have encodes : filterRow params = .ok [.bool true] := rfl
  have fit : ∀ row ∈ Row.found [.bool true] (w.table 0), Row.Fits (flagged false "x" true) row := by
    have found : Row.found [.bool true] (w.table 0) = [[.bool true, .text "a"], [.bool true, .null]] := rfl
    rw [found]
    exact List.forall_mem_cons.2 ⟨.cons rfl (.cons rfl .nil), List.forall_mem_singleton.2 (.cons rfl (.cons rfl .nil))⟩
  have selects : Statement.Selects 0 w params (Row.found [.bool true] (w.table 0)) := Statement.selects encodes
  exact ⟨encodes, selects.counts none (some 0), selects.copies _ _ none (some 0) fit⟩

end StatementPool
