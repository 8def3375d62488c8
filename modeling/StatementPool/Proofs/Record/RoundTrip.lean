import Mathlib.Data.List.Forall2
import StatementPool.Proofs.Field.Decoding
import StatementPool.Record.Access
import StatementPool.Record.Consistency
/-!
# Records round trip through a row

The values that are bound from one record are loaded into the hooks of another and fetched from
there. Binding fails only for an unsigned number past the signed range, loading never fails, and
fetching fails only where a null meets a field without a flag; otherwise every field of the second
record received its counterpart of the first. The second record may be of any make whose views for
writing show what the record shows, as long as distinct positions have distinct storage
(`Access.round_trip`). Where two positions share their storage, the later one takes it
(`shared_overwritten`).
-/

namespace StatementPool

namespace Record

/-! ## Records that say the truth about their fields -/

/-- Every position below the count has a field of the type that is declared there. -/
def Typed (r : Record) : Prop := ∀ i < r.count, ∃ f, r.field? i = some f ∧ f.sqlType = r.typeOf i

/-- A record of a list of fields, or one that passes the check. -/
def Declared (r : Record) : Prop := (∃ fs, r = ofFields fs) ∨ r.validate = .ok ()

theorem typed_ofFields (fs : List Field) : (ofFields fs).Typed := by
  intro i hi
  have hi' : i < fs.length := hi
  exact ⟨fs[i], by simp [field?, ofFields, hi', slotOf], by simp [typeOf, ofFields, hi', slotOf]⟩

theorem checkSlot_typed {r : Record} {i : Nat} (h : r.checkSlot i = .ok ()) :
    ∃ f, r.field? i = some f ∧ f.sqlType = r.typeOf i := by
  unfold checkSlot at h
  simp only at h
  split at h
  · cases h
  split at h
  · cases h
  rename_i f hf
  split at h
  · cases h
  rename_i ht
  exact ⟨f, hf, not_not.1 ht⟩

theorem checkFrom_typed {r : Record} {left i : Nat} (h : r.checkFrom i left = .ok ()) :
    ∀ j, i ≤ j → j < i + left → ∃ f, r.field? j = some f ∧ f.sqlType = r.typeOf j := by
  induction left generalizing i with
  | zero =>
    intro j _ _
    omega
  | succ left ih =>
    intro j hij hj
    simp only [checkFrom, bind, Except.bind] at h
    split at h
    · cases h
    rename_i hslot
    rcases Nat.eq_or_lt_of_le hij with rfl | hij
    · exact checkSlot_typed hslot
    · exact ih h j hij (by omega)

theorem Declared.typed {r : Record} (h : r.Declared) : r.Typed := by
  rcases h with ⟨fs, rfl⟩ | h
  · exact typed_ofFields fs
  · intro i hi
    simp only [validate, bind, Except.bind] at h
    split at h
    · cases h
    rename_i hcheck
    exact checkFrom_typed hcheck i (Nat.zero_le i) (by omega)

theorem fieldAt_eq {r : Record} {i : Nat} {f : Field} (hi : i < r.count) (hf : r.field? i = some f) :
    r.fieldAt i = .ok f := by
  simp [fieldAt, hf, Nat.not_le_of_lt hi]

theorem field?_setField (r : Record) (i j : Nat) (f : Field) :
    (r.setField i f).field? j = if i = j then (r.field? j).map fun _ => f else r.field? j := by
  unfold field? setField
  rw [List.getElem?_modify]
  by_cases h : i = j
  · cases hs : r.slots[j]? <;> simp [h]
  · cases hs : r.slots[j]? <;> simp [h]

end Record

/-! ## Storage -/

namespace Access

section

variable {σ : Type} (A : Access σ)

/-- Every position that binds to a statement is written where it is read. -/
def Agrees : Prop := ∀ s i, i < (A.record s).count → A.writable? s i = (A.record s).field? i

/-- Distinct positions have distinct storage: what is written through a view is what this view shows afterwards, every
other view shows what it did, and the count stays. -/
structure Separate : Prop where
  count {s : σ} {i : Nat} {f g : Field} (view : A.writable? s i = some g) (type : f.sqlType = g.sqlType)
    (length : f.length? = g.length?) : (A.record (A.write s i f)).count = (A.record s).count
  here {s : σ} {i : Nat} {f g : Field} (view : A.writable? s i = some g) (type : f.sqlType = g.sqlType)
    (length : f.length? = g.length?) : A.writable? (A.write s i f) i = some f
  elsewhere {s : σ} {i : Nat} {f g : Field} (view : A.writable? s i = some g) (type : f.sqlType = g.sqlType)
    (length : f.length? = g.length?) {j : Nat} (hij : j ≠ i) : A.writable? (A.write s i f) j = A.writable? s j

end

/-- A field that received a value is of the type and length it was of, so that it alone is moved. -/
theorem Separate.decode {σ : Type} {A : Access σ} (hA : A.Separate) {s : σ} {k : Nat} {f : Field}
    (view : A.writable? s k = some f) (v : Value) :
    (A.record (A.write s k (f.decode v).1)).count = (A.record s).count ∧
      A.writable? (A.write s k (f.decode v).1) k = some (f.decode v).1 ∧
      ∀ j, j ≠ k → A.writable? (A.write s k (f.decode v).1) j = A.writable? s j := by
  have type := f.sqlType_decode v
  have length := f.length?_decode v
  exact ⟨hA.count view type length, hA.here view type length, fun j hj => hA.elsewhere view type length hj⟩

/-- A record has a slot for each position. -/
theorem separate_own : own.Separate where
  count _ _ _ := rfl
  here := by
    intro s i f g view _ _
    have stored : s.field? i = some g := view
    have set : (s.setField i f).field? i = _ := Record.field?_setField s i i f
    rw [if_pos rfl, stored] at set
    exact set
  elsewhere := by
    intro s i f g _ _ _ j hij
    have set : (s.setField i f).field? j = _ := Record.field?_setField s i j f
    rwa [if_neg hij.symm] at set

theorem agrees_own : own.Agrees := fun _ _ _ => rfl

end Access

/-! ## Binding -/

/-- The value `v` is that of the field at position `i`. -/
def Carries (r : Record) (i : Nat) (v : Value) : Prop := ∃ f, r.field? i = some f ∧ f.encode = .ok v

theorem bind_fresh {f : Field} {type : SqlType} (h : f.sqlType = type) :
    (Hook.fresh type).bind f = f.encode.map fun v => ⟨type, v⟩ := by
  have check : (Hook.fresh type).checkType f = .ok () := if_pos h
  unfold Hook.bind
  rw [check]
  cases f.encode <;> rfl

/-- Binding fresh hooks from a position on: all take the values of their fields, or one field has no
value. -/
theorem bindEntries_fresh {r : Record} (hr : r.Typed) {left i : Nat} (hi : i + left = r.count) :
    ((bindEntries r (HookMap.freshFrom r i left)).2 = .ok () ∧
      List.Forall₂ (Carries r) (List.range' i left)
        ((bindEntries r (HookMap.freshFrom r i left)).1.map (·.2.value))) ∨
    ∃ e j f, (bindEntries r (HookMap.freshFrom r i left)).2 = .error e ∧ j < r.count ∧ r.field? j = some f ∧
      f.encode = .error e := by
  induction left generalizing i with
  | zero => exact .inl ⟨rfl, .nil⟩
  | succ left ih =>
    obtain ⟨f, hf, ht⟩ := hr i (by omega)
    have first : r.fieldAt i >>= (Hook.fresh (r.typeOf i)).bind = f.encode.map fun v => ⟨r.typeOf i, v⟩ := by
      rw [Record.fieldAt_eq (by omega) hf]
      exact bind_fresh ht
    simp only [HookMap.freshFrom, bindEntries, first]
    cases he : f.encode with
    | error e => exact .inr ⟨e, i, f, rfl, by omega, hf, he⟩
    | ok v =>
      rcases ih (i := i + 1) (by omega) with ⟨hok, hvs⟩ | ⟨e, j, g, herr, hj, hg, hge⟩
      · exact .inl ⟨hok, .cons ⟨f, hf, he⟩ hvs⟩
      · exact .inr ⟨e, j, g, herr, hj, hg, hge⟩

/-- Binding all fields fails if and only if one of them holds an unsigned number past the signed
range. -/
theorem bindParams_eq_error {r : Record} (hr : r.Typed) :
    (∃ e, (bindParams r (.ofRecord r)).2 = .error e) ↔ ∃ i f, i < r.count ∧ r.field? i = some f ∧ f.Overflows := by
  constructor
  · rintro ⟨e, he⟩
    rcases bindEntries_fresh hr (Nat.zero_add r.count) with ⟨hok, _⟩ | ⟨e', j, f, _, hj, hf, hfe⟩
    · exact absurd (he.symm.trans hok) (by simp)
    · exact ⟨j, f, hj, hf, (Field.encode_eq_error f).1 ⟨e', hfe⟩⟩
  · rintro ⟨i, f, hi, hf, hover⟩
    obtain ⟨e, he⟩ := (Field.encode_eq_error f).2 hover
    rcases bindEntries_fresh hr (Nat.zero_add r.count) with ⟨_, hvs⟩ | ⟨e', _, _, herr, _⟩
    · -- had all fields been bound, this one would have a value
      have each : List.Forall₂ (fun j v => (∃ v, Carries r j v) ∧ Carries r j v) _ _ := hvs.imp fun _ v h => ⟨⟨v, h⟩, h⟩
      obtain ⟨v, g, hg, hv⟩ :=
        ((List.forall₂_and_left _ _).1 each).1 i (List.mem_range'_1.2 ⟨Nat.zero_le i, by omega⟩)
      cases hf.symm.trans hg
      exact absurd (he.symm.trans hv) (by simp)
    · exact ⟨e', herr⟩

/-- When binding succeeds, the row has the value of every field. -/
theorem values_bindParams {r : Record} (hr : r.Typed) (h : (bindParams r (.ofRecord r)).2 = .ok ()) :
    List.Forall₂ (Carries r) (List.range' 0 r.count) (bindParams r (.ofRecord r)).1.values := by
  rcases bindEntries_fresh hr (Nat.zero_add r.count) with ⟨_, hvs⟩ | ⟨e, _, _, herr, _⟩
  · exact hvs
  · exact absurd (herr.symm.trans h) (by simp)

/-! ## Loading -/

theorem length_freshFrom (r : Record) (i left : Nat) : (HookMap.freshFrom r i left).length = left := by
  induction left generalizing i with
  | zero => rfl
  | succ left ih => simp [HookMap.freshFrom, ih]

/-- A row with as many values as the record has fields is taken, one value for each hook. -/
theorem loadRow_ofRecord {r : Record} {row : List Value} (h : row.length = r.count) :
    (loadRow (.ofRecord r) row).2 = .ok () ∧
      (loadRow (.ofRecord r) row).1.entries = loadEntries (HookMap.freshFrom r 0 r.count) row := by
  have size : row.length = (HookMap.ofRecord r).size := h.trans (length_freshFrom r 0 r.count).symm
  unfold loadRow
  rw [dif_pos size]
  exact ⟨rfl, rfl⟩

/-! ## Fetching -/

/-- The fields at each position are of one kind, and of one length if the kind is fixed. -/
def Record.Alike (r s : Record) : Prop :=
  r.count = s.count ∧ ∀ i f g, i < r.count → r.field? i = some f → s.field? i = some g → f.Alike g

/-- What the fields of a record hold can be read back. -/
def Record.Legible (r : Record) : Prop := ∀ i f, i < r.count → r.field? i = some f → f.Legible

/-- If the field of the source is null, that of the target has a flag. -/
def NullFits (source target : Record) (i : Nat) : Prop :=
  ∀ f g, source.field? i = some f → target.field? i = some g → f.isNull = true → g.sqlType.isNullable = true

/-- The field of the result is that of the target after it received the value of the source. -/
def ReceivedAt (source target result : Record) (i : Nat) : Prop :=
  ∃ f g g', source.field? i = some f ∧ target.field? i = some g ∧ result.field? i = some g' ∧ f.Received g g'

namespace Access

variable {σ : Type} {A : Access σ} {source : Record} {target r : σ}

/-- In `out`, the view at a position shows that of the target after it received the value of the source. -/
def ReceivedIn (A : Access σ) (source : Record) (target out : σ) (i : Nat) : Prop :=
  ∃ f g g', source.field? i = some f ∧ A.writable? target i = some g ∧ A.writable? out i = some g' ∧ f.Received g g'

/-- Fetching one field: it fails if and only if a null has no flag to go to. -/
theorem fetchField_loaded (agrees : A.Agrees) (ht : (A.record target).Typed) (ha : source.Alike (A.record target))
    (hl : source.Legible) {i : Nat} {v : Value} (hi : i < (A.record target).count) (hv : Carries source i v)
    (hr : (A.record r).count = (A.record target).count) (same : A.writable? r i = A.writable? target i) :
    ∃ f g outcome, source.field? i = some f ∧ A.writable? target i = some g ∧
      A.fetchField r i ⟨(A.record target).typeOf i, v⟩ = (A.write r i (g.decode v).1, outcome) ∧
      (outcome = .ok () ↔ NullFits source (A.record target) i) ∧ (outcome = .ok () → f.Received g (g.decode v).1) := by
  obtain ⟨f, hf, hfv⟩ := hv
  obtain ⟨g, hg, hgt⟩ := ht i hi
  have view : A.writable? target i = some g := (agrees target i hi).trans hg
  have hlt : i < source.count := ha.1 ▸ hi
  obtain ⟨hok, hreceived⟩ := Field.decode_encode (ha.2 i f g hlt hf hg) (hl i f hlt hf) hfv
  have fetch : A.fetchField r i ⟨(A.record target).typeOf i, v⟩ = (A.write r i (g.decode v).1, (g.decode v).2) := by
    have check : Hook.checkType ⟨(A.record target).typeOf i, v⟩ g = .ok () := if_pos hgt
    have shown : A.writableAt r i = .ok g := by simp [writableAt, same, view, hr, Nat.not_le_of_lt hi]
    simp only [fetchField, shown, Hook.fetch, check]
  have fits : (g.decode v).2 = .ok () ↔ NullFits source (A.record target) i := by
    rw [hok]
    constructor
    · intro h f' g' hf' hg'
      cases hf.symm.trans hf'
      cases hg.symm.trans hg'
      exact h
    · intro h
      exact h f g hf hg
  exact ⟨f, g, _, hf, view, fetch, fits, hreceived⟩

/-- Fetching from a position on, when the views there still show what those of the target do. -/
theorem fetchEntries_loaded (hA : A.Separate) (agrees : A.Agrees) (ht : (A.record target).Typed)
    (ha : source.Alike (A.record target)) (hl : source.Legible) {left i : Nat} {row : List Value}
    (hi : i + left = (A.record target).count) (hrow : List.Forall₂ (Carries source) (List.range' i left) row)
    (hr : (A.record r).count = (A.record target).count) (same : ∀ j, i ≤ j → A.writable? r j = A.writable? target j) :
    let out := A.fetchEntries r (loadEntries (HookMap.freshFrom (A.record target) i left) row)
    (out.2 = .ok () ↔ ∀ j, i ≤ j → j < (A.record target).count → NullFits source (A.record target) j) ∧
      (out.2 = .ok () → (A.record out.1).count = (A.record target).count ∧
        (∀ j, j < i → A.writable? out.1 j = A.writable? r j) ∧
        ∀ j, i ≤ j → j < (A.record target).count → A.ReceivedIn source target out.1 j) := by
  induction left generalizing i row r with
  | zero =>
    constructor
    · exact iff_of_true rfl fun j _ _ => by omega
    · intro _
      exact ⟨hr, fun _ _ => rfl, fun j _ _ => by omega⟩
  | succ left ih =>
    rw [List.range'_succ] at hrow
    cases hrow with
    | @cons _ v _ row hv hrow =>
    obtain ⟨f, g, outcome, hf, view, hfetch, hok, hreceived⟩ :=
      fetchField_loaded agrees ht ha hl (by omega) hv hr (same i (Nat.le_refl i))
    have entries : loadEntries (HookMap.freshFrom (A.record target) i (left + 1)) (v :: row) =
        (i, ⟨(A.record target).typeOf i, v⟩) ::
          loadEntries (HookMap.freshFrom (A.record target) (i + 1) left) row := rfl
    simp only [entries, fetchEntries, hfetch]
    cases outcome with
    | error e =>
      constructor
      · apply iff_of_false (by simp)
        intro h
        cases hok.2 (h i (Nat.le_refl i) (by omega))
      · intro h
        cases h
    | ok =>
      obtain ⟨count, here, elsewhere⟩ := hA.decode ((same i (Nat.le_refl i)).trans view) v
      -- the step writes position `i` only, so behind it the views still show what those of the target do
      have later : ∀ j, i + 1 ≤ j → A.writable? (A.write r i (g.decode v).1) j = A.writable? target j :=
        fun j hj => (elsewhere j (by omega)).trans (same j (by omega))
      obtain ⟨hiff, hall⟩ := ih (by omega) hrow (count.trans hr) later
      constructor
      · apply hiff.trans
        constructor
        · intro h j hij hj
          rcases Nat.eq_or_lt_of_le hij with rfl | hij
          · exact hok.1 rfl
          · exact h j hij hj
        · intro h j hij hj
          exact h j (by omega) hj
      · intro hout
        obtain ⟨hcount, hbefore, hafter⟩ := hall hout
        refine ⟨hcount, ?_, ?_⟩
        · intro j hj
          exact (hbefore j (by omega)).trans (elsewhere j (by omega))
        · intro j hij hj
          rcases Nat.eq_or_lt_of_le hij with rfl | hij
          · exact ⟨f, g, _, hf, view, (hbefore i (by omega)).trans here, hreceived rfl⟩
          · exact hafter j hij hj

/-! ## The round trip -/

/-- What one record writes, another of the same kinds and lengths reads back, if it has storage for each position. -/
theorem round_trip (hA : A.Separate) (agrees : A.Agrees) (hs : source.Declared) (ht : (A.record target).Declared)
    (ha : source.Alike (A.record target)) (hl : source.Legible) :
    let bound := bindParams source (.ofRecord source)
    let loaded := loadRow (.ofRecord (A.record target)) bound.1.values
    let fetched := A.fetchRow target loaded.1
    ((∃ e, bound.2 = .error e) ↔ ∃ i f, i < source.count ∧ source.field? i = some f ∧ f.Overflows) ∧
    (bound.2 = .ok () →
      loaded.2 = .ok () ∧
      (fetched.2 = .ok () ↔ ∀ i, i < (A.record target).count → NullFits source (A.record target) i) ∧
      (fetched.2 = .ok () → (A.record fetched.1).count = (A.record target).count ∧
        ∀ i, i < (A.record target).count → ReceivedAt source (A.record target) (A.record fetched.1) i)) := by
  intro bound loaded fetched
  refine ⟨bindParams_eq_error hs.typed, ?_⟩
  intro hbound
  have row := values_bindParams hs.typed hbound
  rw [ha.1] at row
  have length : bound.1.values.length = (A.record target).count := by
    rw [← row.length_eq, List.length_range']
  obtain ⟨hloaded, hentries⟩ := loadRow_ofRecord length
  -- nothing is stored yet, so from the first position on the views show what those of the target do
  obtain ⟨hiff, hall⟩ := fetchEntries_loaded hA agrees ht.typed ha hl (Nat.zero_add _) row rfl fun _ _ => rfl
  rw [← hentries] at hiff hall
  refine ⟨hloaded, ?_, ?_⟩
  · apply hiff.trans
    constructor
    · intro h i hi
      exact h i (Nat.zero_le i) hi
    · intro h i _ hi
      exact h i hi
  · intro hfetched
    obtain ⟨hcount, -, hreceived⟩ := hall hfetched
    refine ⟨hcount, ?_⟩
    intro i hi
    obtain ⟨f, g, g', hf, hg, hg', received⟩ := hreceived i (Nat.zero_le i) hi
    rw [agrees target i hi] at hg
    rw [agrees _ i (hcount.symm ▸ hi)] at hg'
    exact ⟨f, g, g', hf, hg, hg', received⟩

end Access

/-- A number, a padded text of two letters, and a null. -/
def writtenFields : List Field :=
  [.plain .float (⟨0x3FC00000⟩ : Binary32), .plain .char ([0x61, 0xC3, 0xA9, 0] : List UInt8),
    .nullable (.integer .ubigint) ⟨Width.zero .ubigint, true⟩]

/-- Fields of the same kinds with a flag each and something in their storage. -/
def staleFields : List Field :=
  [.nullable .float ⟨Binary32.zero, true⟩, .nullable .char ⟨([1, 2, 3, 4] : List UInt8), true⟩,
    .nullable (.integer .ubigint) ⟨⟨7, by decide, by decide⟩, false⟩]

theorem round_trip_of_three :
    let source := Record.ofFields writtenFields
    let target := Record.ofFields staleFields
    let bound := bindParams source (.ofRecord source)
    let fetched := fetchRow target (loadRow (.ofRecord target) bound.1.values).1
    bound.2 = .ok () ∧ fetched.2 = .ok () ∧ ∀ i, i < 3 → ReceivedAt source target fetched.1 i := by
  intro source target bound fetched
  have position : ∀ i, i < 3 → i = 0 ∨ i = 1 ∨ i = 2 := by
    intro i hi
    omega
  have alike : source.Alike target := by
    refine ⟨rfl, ?_⟩
    intro i f g hi hf hg
    rcases position i hi with rfl | rfl | rfl <;> cases hf <;> cases hg <;> exact ⟨rfl, rfl⟩
  have legible : source.Legible := by
    intro i f hi hf
    rcases position i hi with rfl | rfl | rfl <;> cases hf
    · exact fun _ => rfl
    · exact fun _ => by simp [Kind.Legible, Field.kind, Field.storage, Utf8.valid, Utf8.scan, Utf8.lead?, Utf8.follow]
    · exact fun h => absurd h (by decide)
  have fits : ∀ i, i < 3 → NullFits source target i := by
    intro i hi f g hf hg _
    rcases position i hi with rfl | rfl | rfl <;> cases hf <;> cases hg <;> rfl
  have declared : (Access.own.record target).Declared := .inl ⟨_, rfl⟩
  obtain ⟨-, hrest⟩ :=
    Access.round_trip Access.separate_own Access.agrees_own (.inl ⟨_, rfl⟩) declared alike legible
  rw [Access.fetchRow_own] at hrest
  obtain ⟨-, hiff, hreceived⟩ := hrest rfl
  exact ⟨rfl, hiff.2 fits, (hreceived (hiff.2 fits)).2⟩

/-- Two texts that are one: both positions show and write it. -/
def shared : Access String where
  record s := .ofFields [.plain .text s, .plain .text s]
  writable? s
    | 0 | 1 => some (.plain .text s)
    | _ => none
  write s _
    | .plain .text text => text
    | _ => s

/-- The target passes the check and its views for writing show what it shows, but the value of its second position is
stored over that of the first: the round trip comes back with success and another text in the first position. -/
theorem shared_overwritten :
    let source := Record.ofFields [.plain .text ("a" : String), .plain .text ("b" : String)]
    let bound := bindParams source (.ofRecord source)
    let loaded := loadRow (.ofRecord (shared.record "")) bound.1.values
    let fetched := shared.fetchRow "" loaded.1
    (shared.Agrees ∧ source.validate = .ok () ∧ (shared.record "").validate = .ok () ∧
      source.Alike (shared.record "") ∧ source.Legible) ∧
    (bound.2 = .ok () ∧ loaded.2 = .ok () ∧ fetched.2 = .ok ()) ∧
    source.field? 0 = some (.plain .text ("a" : String)) ∧
    (shared.record fetched.1).field? 0 = some (.plain .text ("b" : String)) ∧
    ¬ ReceivedAt source (shared.record "") (shared.record fetched.1) 0 := by
  intro source bound loaded fetched
  have position : ∀ i, i < 2 → i = 0 ∨ i = 1 := by
    intro i hi
    omega
  have agrees : shared.Agrees := by
    intro s i hi
    rcases position i hi with rfl | rfl <;> rfl
  have alike : source.Alike (shared.record "") := by
    refine ⟨rfl, ?_⟩
    intro i f g hi hf hg
    rcases position i hi with rfl | rfl <;> cases hf <;> cases hg <;> exact ⟨rfl, rfl⟩
  have legible : source.Legible := by
    intro i f hi hf
    rcases position i hi with rfl | rfl <;> cases hf <;> exact fun _ => trivial
  refine ⟨⟨agrees, rfl, rfl, alike, legible⟩, ⟨rfl, rfl, rfl⟩, rfl, rfl, ?_⟩
  rintro ⟨f, g, g', hf, hg, hg', received⟩
  cases hf
  cases hg
  cases hg'
  obtain ⟨-, same⟩ := received.value rfl
  exact absurd (eq_of_heq (Sigma.mk.inj same).2) (by decide : ("b" : String) ≠ "a")

end StatementPool
