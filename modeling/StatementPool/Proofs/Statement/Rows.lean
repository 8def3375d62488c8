import StatementPool.Pool.Statement
import StatementPool.Proofs.Record.RoundTrip
/-!
# Rows of records

A record writes a row with one value for each field, and a blank record of the same layout takes it
back (`Record.fill_ofFields`): every field as it was written, except that behind the flag of a null
there is what the blank record has there. A collection takes such rows one after the other
(`Collection.appendRows_of_fill`), and is as it was when it refuses one.
-/

namespace StatementPool

/-! ## Fields of one column -/

namespace Field

/-- Two fields of one type, and of one length if the type is fixed. -/
structure Twins (f d : Field) : Prop where
  type : f.sqlType = d.sqlType
  length : f.length? = d.length?

/-- What comes back from a field into a blank one: a null has the storage of the blank field. -/
def returned (f d : Field) : Field := if f.isNull then (d.setNull true).1 else f

variable {f d g : Field}

theorem ext_content (ht : f.sqlType = g.sqlType) (hn : f.isNull = g.isNull) (hc : f.content = g.content) : f = g := by
  cases f with
  | plain k x =>
    cases g with
    | plain l y =>
      cases hc
      rfl
    | nullable l c => cases ht
  | nullable k c =>
    cases g with
    | plain l y => cases ht
    | nullable l c' =>
      obtain ⟨x, n⟩ := c
      obtain ⟨y, m⟩ := c'
      cases hc
      cases hn
      rfl

namespace Twins

theorem alike (h : f.Twins d) : f.Alike d := by
  refine ⟨?_, h.length⟩
  have type := h.type
  cases f <;> cases d <;> cases type <;> rfl

theorem isNullable (h : f.Twins d) (hn : f.isNull = true) : d.sqlType.isNullable = true := by
  rw [← h.type]
  cases f with
  | plain k x => cases hn
  | nullable k c => rfl

/-- A field that received another of its type and length is that one, up to the storage of a null. -/
theorem eq_returned (h : f.Twins d) (hr : f.Received d g) : g = f.returned d := by
  unfold returned
  cases hn : f.isNull with
  | true =>
    obtain ⟨hnull, hcontent⟩ := hr.null hn
    have set := received_null hn (h.isNullable hn)
    obtain ⟨hnull', hcontent'⟩ := set.null hn
    exact ext_content (hr.type.trans set.type.symm) (hnull.trans hnull'.symm) (hcontent.trans hcontent'.symm)
  | false =>
    obtain ⟨hnull, hcontent⟩ := hr.value hn
    exact ext_content (hr.type.trans h.type.symm) (hnull.trans hn.symm) hcontent

/-- What comes back is of the column that it came back into. -/
theorem returned (h : f.Twins d) : (f.returned d).Twins d := by
  unfold Field.returned
  split
  · cases d <;> exact ⟨rfl, rfl⟩
  · exact h

end Twins

theorem twins_returned {fs ds : List Field} (h : List.Forall₂ Twins fs ds) :
    List.Forall₂ Twins (List.zipWith returned fs ds) ds := by
  induction h with
  | nil => exact .nil
  | cons h _ ih => exact .cons h.returned ih

end Field

/-! ## Layouts -/

namespace Record

/-- What a record says about its positions. -/
def layout (r : Record) : List (SqlType × Nat) := r.slots.map fun s => (s.declared, s.size)

@[simp] theorem layout_setField (r : Record) (i : Nat) (f : Field) : (r.setField i f).layout = r.layout := by
  apply List.ext_getElem?
  intro j
  simp only [layout, setField, List.getElem?_map, List.getElem?_modify]
  split <;> simp [Function.comp_def]

theorem layout_fetchField (r : Record) (i : Nat) (h : Hook) : (r.fetchField i h).1.layout = r.layout := by
  unfold fetchField
  split
  · rfl
  · exact layout_setField r i _

/-- Fetching stores into fields and changes nothing that the record says about them. -/
theorem layout_fetchEntries (r : Record) (l : List (Nat × Hook)) : (fetchEntries r l).1.layout = r.layout := by
  induction l generalizing r with
  | nil => rfl
  | cons p rest ih =>
    obtain ⟨k, h⟩ := p
    have first := layout_fetchField r k h
    unfold fetchEntries
    split
    · rename_i heq
      rwa [heq] at first
    · rename_i heq
      rw [heq] at first
      exact (ih _).trans first

/-- A record of the layout of some fields that has these fields is the record of them. -/
theorem eq_ofFields {r : Record} {fs : List Field} (hl : r.layout = (ofFields fs).layout) (hc : r.count = fs.length)
    (hf : ∀ i < fs.length, r.field? i = fs[i]?) : r = ofFields fs := by
  have length : r.slots.length = fs.length := by
    have := congrArg List.length hl
    simpa [layout, ofFields] using this
  have slots : r.slots = fs.map slotOf := by
    apply List.ext_getElem (by simpa using length)
    intro i hi _
    have hi' : i < fs.length := length ▸ hi
    have said : (r.slots[i].declared, r.slots[i].size) = (fs[i].sqlType, fs[i].length?.getD 0) := by
      have := congrArg (·[i]?) hl
      simpa [layout, ofFields, slotOf, hi, hi'] using this
    have has : r.slots[i].field = some fs[i] := by
      have := hf i hi'
      simpa [field?, hi, hi'] using this
    rw [List.getElem_map]
    cases hs : r.slots[i] with
    | mk declared size field =>
      rw [hs] at said has
      cases said
      cases has
      rfl
  cases r with
  | mk slots count =>
    cases slots
    cases hc
    rfl

/-- Fields of the same columns are declared in the same way. -/
theorem layout_of_twins {fs ds : List Field} (h : List.Forall₂ Field.Twins fs ds) :
    (ofFields fs).layout = (ofFields ds).layout := by
  induction h with
  | nil => rfl
  | cons h _ ih =>
    simp only [layout, ofFields, List.map_map] at ih ⊢
    simp [ih, slotOf, h.type, h.length]

/-! ## Writing and reading a row -/

/-- The row has the value of every field of the record. -/
def Writes (r : Record) (row : Row) : Prop := List.Forall₂ (Carries r) (List.range' 0 r.count) row

variable {source target : Record} {row : Row}

/-- A record has no row if and only if one of its fields holds an unsigned number past the signed
range. -/
theorem encode_eq_error {r : Record} (hr : r.Typed) :
    (∃ e, r.encode = .error e) ↔ ∃ i f, i < r.count ∧ r.field? i = some f ∧ f.Overflows := by
  rw [← bindParams_eq_error hr]
  unfold encode
  split
  · rename_i heq
    simp [heq]
  · rename_i heq
    simp [heq]

theorem writes_of_encode {r : Record} (hr : r.Typed) (h : r.encode = .ok row) : r.Writes row := by
  unfold encode at h
  split at h
  · cases h
  · rename_i m heq
    cases h
    have values := values_bindParams hr (congrArg Prod.snd heq)
    rwa [heq] at values

/-- A record that has a flag wherever the source of the row is null takes the row. -/
theorem fill_of_writes (ht : target.Typed) (ha : source.Alike target) (hl : source.Legible)
    (hfit : ∀ i, i < target.count → NullFits source target i) (hrow : source.Writes row) :
    ∃ r, target.fill row = (r, .ok ()) ∧ r.layout = target.layout ∧ r.count = target.count ∧
      ∀ i, i < target.count → ReceivedAt source target r i := by
  unfold Writes at hrow
  rw [ha.1] at hrow
  have length : row.length = target.count := by rw [← hrow.length_eq, List.length_range']
  obtain ⟨hloaded, hentries⟩ := loadRow_ofRecord length
  have typed : (Access.own.record target).Typed := ht
  obtain ⟨hiff, hall⟩ := Access.fetchEntries_loaded Access.separate_own Access.agrees_own typed ha hl
    (Nat.zero_add _) hrow rfl fun _ _ => rfl
  have entries : loadEntries (HookMap.freshFrom (Access.own.record target) 0 (Access.own.record target).count) row =
      (loadRow (.ofRecord target) row).1.entries := hentries.symm
  rw [Access.fetchEntries_own, entries] at hiff hall
  have done : (fetchRow target (loadRow (.ofRecord target) row).1).2 = .ok () := hiff.2 fun i _ hi => hfit i hi
  obtain ⟨hcount, -, hreceived⟩ := hall done
  refine ⟨_, ?_, layout_fetchEntries _ _, hcount, fun i hi => hreceived i (Nat.zero_le i) hi⟩
  unfold fill
  rw [show loadRow (.ofRecord target) row = ((loadRow (.ofRecord target) row).1, .ok ()) from Prod.ext rfl hloaded]
  exact Prod.ext rfl done

theorem encode_ofFields_eq_error (fs : List Field) :
    (∃ e, (ofFields fs).encode = .error e) ↔ ∃ f ∈ fs, f.Overflows := by
  rw [encode_eq_error (typed_ofFields fs)]
  constructor
  · rintro ⟨i, f, -, hf, hover⟩
    rw [field?_ofFields] at hf
    exact ⟨f, List.mem_of_getElem? hf, hover⟩
  · rintro ⟨f, hmem, hover⟩
    obtain ⟨i, hi, hf⟩ := List.getElem_of_mem hmem
    exact ⟨i, f, hi, by simp [field?_ofFields, hi, hf], hover⟩

/-- The blank record of a layout takes what any record of this layout wrote. -/
theorem fill_ofFields {fs ds : List Field} (h : List.Forall₂ Field.Twins fs ds) (hl : ∀ f ∈ fs, f.Legible)
    (hrow : (ofFields fs).Writes row) :
    (ofFields ds).fill row = (ofFields (List.zipWith Field.returned fs ds), .ok ()) := by
  have twins : ∀ {i f d}, (ofFields fs).field? i = some f → (ofFields ds).field? i = some d → f.Twins d := by
    intro i f d hf hd
    rw [field?_ofFields] at hf hd
    obtain ⟨hi, rfl⟩ := List.getElem?_eq_some_iff.1 hf
    obtain ⟨hi', rfl⟩ := List.getElem?_eq_some_iff.1 hd
    exact h.get hi hi'
  have alike : (ofFields fs).Alike (ofFields ds) := ⟨h.length_eq, fun i f d _ hf hd => (twins hf hd).alike⟩
  have legible : (ofFields fs).Legible := by
    intro i f _ hf
    rw [field?_ofFields] at hf
    exact hl f (List.mem_of_getElem? hf)
  have fits : ∀ i, i < (ofFields ds).count → NullFits (ofFields fs) (ofFields ds) i :=
    fun i _ f d hf hd hn => (twins hf hd).isNullable hn
  obtain ⟨r, hr, hlayout, hcount, hreceived⟩ := fill_of_writes (typed_ofFields ds) alike legible fits hrow
  rw [hr]
  -- every position of `r` has the field that comes back from its counterpart
  have each : ∀ i < ds.length, ∃ f d, fs[i]? = some f ∧ ds[i]? = some d ∧ f.Twins d ∧
      r.field? i = some (f.returned d) := by
    intro i hi
    obtain ⟨f, d, g, hf, hd, hg, hrec⟩ := hreceived i hi
    have twin := twins hf hd
    rw [field?_ofFields] at hf hd
    exact ⟨f, d, hf, hd, twin, hg.trans (congrArg some (twin.eq_returned hrec))⟩
  have layout := hlayout.trans (layout_of_twins (Field.twins_returned h)).symm
  have length : (List.zipWith Field.returned fs ds).length = ds.length := by simp [h.length_eq]
  have fields : ∀ i < (List.zipWith Field.returned fs ds).length,
      r.field? i = (List.zipWith Field.returned fs ds)[i]? := by
    intro i hi
    obtain ⟨f, d, hf, hd, hg⟩ := each i (length ▸ hi)
    simp [List.getElem?_zipWith, hf, hd, hg]
  rw [eq_ofFields layout (hcount.trans length.symm) fields]

end Record

/-! ## Collections -/

namespace Collection

variable {c : Collection}

/-- Writing to the record that was appended. -/
theorem modifyBack_append (c : Collection) (r : Record) : (c.append.modifyBack fun _ => r) = c.push r := by
  simp [append, modifyBack, size, push, List.modify_eq_take_cons_drop]

/-- Taking back the record that was appended. -/
theorem removeLast_push (c : Collection) (r : Record) : (c.push r).removeLast.1 = c := by
  simp [push, removeLast]

/-- A row that fits the blank record is appended. -/
theorem appendRow_of_fill {row : Row} {r : Record} (h : c.blank.fill row = (r, .ok ())) :
    c.appendRow row = (c.push r, .ok ()) := by
  unfold appendRow
  rw [h]
  simp only [modifyBack_append]

/-- A row that does not fit leaves the collection as it was. -/
theorem appendRow_of_refuse {row : Row} {r : Record} {e : Error} (h : c.blank.fill row = (r, .error e)) :
    c.appendRow row = (c, .error e) := by
  have back : c.append.removeLast.1 = c := c.removeLast_push c.blank
  unfold appendRow
  rw [h]
  simp only [back]

/-- Rows that all fit the blank record are appended in order, before the rows that come after them. -/
theorem appendRows_append {rows : List Row} {rs : List Record}
    (h : List.Forall₂ (fun row r => c.blank.fill row = (r, .ok ())) rows rs) (count : Nat) (rest : List Row) :
    c.appendRows count (rows ++ rest) =
      ({ c with records := c.records ++ rs } : Collection).appendRows (count + rows.length) rest := by
  induction rows generalizing c rs count with
  | nil =>
    cases h
    simp
  | cons row rows ih =>
    cases h with
    | @cons _ r _ rs hr hrs =>
    simp only [List.cons_append, appendRows, appendRow_of_fill hr]
    rw [ih (c := c.push r) hrs]
    simp [push, Nat.add_comm, Nat.add_left_comm]

/-- Rows that all fit the blank record are appended in order. -/
theorem appendRows_of_fill {rows : List Row} {rs : List Record}
    (h : List.Forall₂ (fun row r => c.blank.fill row = (r, .ok ())) rows rs) (count : Nat) :
    c.appendRows count rows = ({ c with records := c.records ++ rs }, .ok (count + rows.length)) := by
  have all := appendRows_append h count []
  rwa [List.append_nil] at all

end Collection

end StatementPool
