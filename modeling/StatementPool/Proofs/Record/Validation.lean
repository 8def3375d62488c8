import StatementPool.Proofs.Record.RoundTrip
/-!
# The check of a record finds every binding error

What a record says about its positions is free; `Record.validate` passes exactly the consistent records and
reports the first position at which any other is not what it says (`Record.Validation`). Behind the check no
binding error is left: there is one hook for each position, binding them fails only for an unsigned number past
the signed range, and fetching fails only for a value that does not fit its field. This holds for a record that is
written where it is read, and for storage of any other make (`Access`) whose views for writing have the types of
the fields (`Record.validation`).
-/

namespace StatementPool

/-! ## What the check finds -/

/-- The fixed fields are those with a length. -/
theorem Field.isSome_length? (f : Field) : f.length?.isSome = f.sqlType.isFixed := by
  cases f with
  | plain k x => cases k <;> rfl
  | nullable k cell => cases k <;> rfl

namespace Record

/-- A position is what the record says: its field has the declared type, and the size is the length of a fixed
field, which is not zero, and zero for any other. -/
structure SoundAt (r : Record) (i : Nat) (f : Field) : Prop where
  declared : r.typeOf i ≠ .nothing
  stored : r.field? i = some f
  type : f.sqlType = r.typeOf i
  fixed : (r.typeOf i).isFixed = true → r.sizeOf i ≠ 0 ∧ f.length? = some (r.sizeOf i)
  other : (r.typeOf i).isFixed = false → r.sizeOf i = 0

/-- The record shows nothing at a position. -/
structure EmptyAt (r : Record) (i : Nat) : Prop where
  declared : r.typeOf i = .nothing
  stored : r.field? i = none

/-- Positions below the count are what the record says, and it shows nothing just past the count. -/
structure ConsistentAt (r : Record) (i : Nat) : Prop where
  below : i < r.count → ∃ f, r.SoundAt i f
  past : i = r.count → r.EmptyAt i

def Consistent (r : Record) : Prop := (∀ i < r.count, ∃ f, r.SoundAt i f) ∧ r.EmptyAt r.count

/-- What is wrong at a position: the first of these that is. -/
inductive Fault (r : Record) : Nat → BindingCause → Prop where
  | noType {i : Nat} (below : i < r.count) (declared : r.typeOf i = .nothing) : Fault r i (.noType i)
  | noStorage {i : Nat} (below : i < r.count) (declared : r.typeOf i ≠ .nothing) (stored : r.field? i = none) :
      Fault r i (.noStorage i)
  | otherStorage {i : Nat} {f : Field} (below : i < r.count) (declared : r.typeOf i ≠ .nothing)
      (stored : r.field? i = some f) (type : f.sqlType ≠ r.typeOf i) :
      Fault r i (.otherStorage i (r.typeOf i) f.sqlType)
  | wrongSize {i length : Nat} {f : Field} (below : i < r.count) (stored : r.field? i = some f)
      (type : f.sqlType = r.typeOf i) (fixed : f.length? = some length)
      (size : r.sizeOf i = 0 ∨ r.sizeOf i ≠ length) : Fault r i (.wrongSize i (r.typeOf i) (r.sizeOf i) length)
  | needlessSize {i : Nat} {f : Field} (below : i < r.count) (stored : r.field? i = some f)
      (type : f.sqlType = r.typeOf i) (other : f.length? = none) (size : r.sizeOf i ≠ 0) :
      Fault r i (.needlessSize i (r.typeOf i) (r.sizeOf i))
  | pastCount (shown : r.typeOf r.count ≠ .nothing ∨ (r.field? r.count).isSome = true) :
      Fault r r.count (.fieldPastCount r.count)

/-- The answers of a record are free: whatever is said of the positions up to a bound, some record says it. -/
theorem exists_record (count bound : Nat) (typeOf : Nat → SqlType) (sizeOf : Nat → Nat) (field? : Nat → Option Field) :
    ∃ r : Record, r.count = count ∧
      ∀ i < bound, r.typeOf i = typeOf i ∧ r.sizeOf i = sizeOf i ∧ r.field? i = field? i := by
  refine ⟨⟨(List.range bound).map fun i => ⟨typeOf i, sizeOf i, field? i⟩, count⟩, rfl, ?_⟩
  intro i hi
  simp [Record.typeOf, Record.sizeOf, Record.field?, List.getElem?_range hi]

variable {r : Record} {i : Nat}

theorem Fault.not_consistentAt {cause : BindingCause} (h : r.Fault i cause) : ¬ r.ConsistentAt i := by
  intro hc
  cases h with
  | noType below declared =>
    obtain ⟨f, hf⟩ := hc.below below
    exact hf.declared declared
  | noStorage below _ stored =>
    obtain ⟨f, hf⟩ := hc.below below
    exact absurd (hf.stored.symm.trans stored) (by simp)
  | otherStorage below _ stored type =>
    obtain ⟨f, hf⟩ := hc.below below
    cases hf.stored.symm.trans stored
    exact type hf.type
  | wrongSize below stored type fixed size =>
    obtain ⟨f, hf⟩ := hc.below below
    cases hf.stored.symm.trans stored
    have isFixed : (r.typeOf i).isFixed = true := by rw [← type, ← Field.isSome_length?, fixed]; rfl
    obtain ⟨hne, hlength⟩ := hf.fixed isFixed
    cases hlength.symm.trans fixed
    exact size.elim hne fun h => h rfl
  | needlessSize below stored type other size =>
    obtain ⟨f, hf⟩ := hc.below below
    have isFixed : (r.typeOf i).isFixed = false := by rw [← type, ← Field.isSome_length?, other]; rfl
    exact size (hf.other isFixed)
  | pastCount shown =>
    obtain ⟨hdeclared, hstored⟩ := hc.past rfl
    rw [hstored] at shown
    exact shown.elim (fun h => h hdeclared) (fun h => by cases h)

/-- The check of one position: it is sound, or its fault is reported. -/
theorem checkSlot_cases (hi : i < r.count) :
    (r.checkSlot i = .ok () ∧ ∃ f, r.SoundAt i f) ∨
      ∃ cause, r.checkSlot i = .error (.binding cause) ∧ r.Fault i cause := by
  unfold checkSlot
  by_cases hdeclared : r.typeOf i = .nothing
  · exact .inr ⟨_, if_pos hdeclared, .noType hi hdeclared⟩
  simp only [if_neg hdeclared]
  cases hstored : r.field? i with
  | none => exact .inr ⟨_, rfl, .noStorage hi hdeclared hstored⟩
  | some f =>
    by_cases htype : f.sqlType = r.typeOf i
    · have hfixed := f.isSome_length?
      rw [htype] at hfixed
      cases hlength : f.length? with
      | some length =>
        rw [hlength] at hfixed
        by_cases hsize : r.sizeOf i = 0 ∨ r.sizeOf i ≠ length
        · exact .inr ⟨_, by simp [htype, hlength, hsize], .wrongSize hi hstored htype hlength hsize⟩
        · obtain ⟨hne, heq⟩ := not_or.1 hsize
          have sized : f.length? = some (r.sizeOf i) := hlength.trans (congrArg some (not_not.1 heq).symm)
          refine .inl ⟨by simp [htype, hlength, hsize], f, hdeclared, hstored, htype, fun _ => ⟨hne, sized⟩, ?_⟩
          exact fun h => absurd (hfixed.trans h) (by simp)
      | none =>
        rw [hlength] at hfixed
        by_cases hsize : r.sizeOf i = 0
        · refine .inl ⟨by simp [htype, hlength, hsize], f, hdeclared, hstored, htype, ?_, fun _ => hsize⟩
          exact fun h => absurd (hfixed.trans h) (by simp)
        · exact .inr ⟨_, by simp [htype, hlength, hsize], .needlessSize hi hstored htype hlength hsize⟩
    · exact .inr ⟨_, by simp [htype], .otherStorage hi hdeclared hstored htype⟩

/-- The check from a position on: all that follow are sound, or the first fault is reported. -/
theorem checkFrom_cases {left : Nat} (hi : i + left ≤ r.count) :
    (r.checkFrom i left = .ok () ∧ ∀ j, i ≤ j → j < i + left → ∃ f, r.SoundAt j f) ∨
      ∃ j cause, r.checkFrom i left = .error (.binding cause) ∧ r.Fault j cause ∧ j < i + left ∧
        ∀ k, i ≤ k → k < j → ∃ f, r.SoundAt k f := by
  induction left generalizing i with
  | zero => exact .inl ⟨rfl, fun j _ _ => by omega⟩
  | succ left ih =>
    simp only [checkFrom, bind, Except.bind]
    rcases checkSlot_cases (r := r) (i := i) (by omega) with ⟨hok, hsound⟩ | ⟨cause, herr, hfault⟩
    · simp only [hok]
      -- position `i` is sound, so what holds from the next one on holds from `i` on
      have earlier : ∀ {j}, (∀ k, i + 1 ≤ k → k < j → ∃ f, r.SoundAt k f) →
          ∀ k, i ≤ k → k < j → ∃ f, r.SoundAt k f := by
        intro j h k hik hk
        rcases Nat.eq_or_lt_of_le hik with rfl | hik
        · exact hsound
        · exact h k hik hk
      rcases ih (i := i + 1) (by omega) with ⟨hrest, hall⟩ | ⟨j, cause, herr, hfault, hj, hfirst⟩
      · exact .inl ⟨hrest, fun j hij hj => earlier hall j hij (by omega)⟩
      · exact .inr ⟨j, cause, herr, hfault, by omega, earlier hfirst⟩
    · simp only [herr]
      exact .inr ⟨i, cause, rfl, hfault, by omega, fun k _ _ => by omega⟩

/-- The check of a record: it is consistent, or its first fault is reported. -/
theorem validate_cases (r : Record) :
    (r.validate = .ok () ∧ r.Consistent) ∨
      ∃ i cause, r.validate = .error (.binding cause) ∧ r.Fault i cause ∧ ∀ j < i, r.ConsistentAt j := by
  simp only [validate, bind, Except.bind]
  rcases checkFrom_cases (Nat.zero_add r.count).le with ⟨hok, hall⟩ | ⟨j, cause, herr, hfault, hj, hfirst⟩
  · simp only [hok]
    have below : ∀ i < r.count, ∃ f, r.SoundAt i f := fun i hi => hall i (Nat.zero_le i) (by omega)
    by_cases hshown : r.typeOf r.count ≠ .nothing ∨ (r.field? r.count).isSome = true
    · refine .inr ⟨r.count, _, if_pos hshown, .pastCount hshown, ?_⟩
      exact fun j hj => ⟨fun _ => below j hj, fun h => by omega⟩
    · obtain ⟨hdeclared, hstored⟩ := not_or.1 hshown
      exact .inl ⟨if_neg hshown, below, not_not.1 hdeclared, by simpa using hstored⟩
  · simp only [herr]
    refine .inr ⟨j, cause, rfl, hfault, ?_⟩
    exact fun k hk => ⟨fun _ => hfirst k (Nat.zero_le k) hk, fun h => by omega⟩

theorem Consistent.at (h : r.Consistent) (i : Nat) : r.ConsistentAt i :=
  ⟨h.1 i, fun hi => hi ▸ h.2⟩

theorem validate_eq_ok : r.validate = .ok () ↔ r.Consistent := by
  rcases validate_cases r with ⟨hok, hc⟩ | ⟨i, cause, herr, hfault, -⟩
  · exact iff_of_true hok hc
  · refine iff_of_false ?_ fun hc => hfault.not_consistentAt (hc.at i)
    rw [herr]
    simp

end Record

/-! ## Errors of a field -/

namespace Field

variable {f : Field} {e : Error}

/-- The field is not null and holds the unsigned number `n`, which is past the signed range. -/
def HoldsPast (f : Field) (n : Int) : Prop :=
  f.isNull = false ∧ 9223372036854775807 < n ∧
    ∃ x : Ranged Width.ubigint.low Width.ubigint.high, f.content = ⟨.integer .ubigint, x⟩ ∧ x.val = n

theorem encode_error_eq (h : f.encode = .error e) :
    ∃ n, f.HoldsPast n ∧ e = .conversion (.unsignedTooLarge n) := by
  obtain ⟨hnull, hover⟩ := (encode_eq_error f).1 ⟨e, h⟩
  rw [encode_of_not_null hnull] at h
  -- the only kind with numbers past the signed range is the unsigned word of 64 bits
  have column : ∀ c : (k : Kind) × k.Storage, c.1.Overflows c.2 → c.1.encode c.2 = .error e →
      ∃ n, 9223372036854775807 < n ∧ e = .conversion (.unsignedTooLarge n) ∧
        ∃ x : Ranged Width.ubigint.low Width.ubigint.high, c = ⟨.integer .ubigint, x⟩ ∧ x.val = n := by
    rintro ⟨k, x⟩ hover henc
    rcases k with w | _ <;> try exact hover.elim
    cases w <;> try exact hover.elim
    refine ⟨_, hover, ?_, x, rfl, rfl⟩
    simp only [Kind.encode, Value.ofWord] at henc
    split at henc <;> cases henc
    rfl
  obtain ⟨n, hn, he, x, hx, hval⟩ := column f.content hover h
  exact ⟨n, ⟨hnull, hn, x, hx, hval⟩, he⟩

end Field

/-! ## Hooks -/

/-- The map has a hook for each position of the record, bound to the type that is declared there; what the hooks
carry is free. -/
def HookMap.Fits (m : HookMap) (r : Record) : Prop :=
  m.entries.map (fun p => (p.1, p.2.type)) = (List.range r.count).map fun i => (i, r.typeOf i)

namespace HookMap

theorem freshFrom_eq (r : Record) (i left : Nat) :
    freshFrom r i left = (List.range' i left).map fun j => (j, Hook.fresh (r.typeOf j)) := by
  induction left generalizing i with
  | zero => rfl
  | succ left ih => rw [freshFrom, ih, List.range'_succ, List.map_cons]

theorem fits_ofRecord (r : Record) : (ofRecord r).Fits r := by
  simp [Fits, ofRecord, freshFrom_eq, List.range_eq_range', Hook.fresh]

theorem Fits.keys {m : HookMap} {r : Record} (h : m.Fits r) : m.keys = List.range r.count := by
  have := congrArg (List.map Prod.fst) h
  simpa [HookMap.keys, Function.comp_def] using this

theorem Fits.mem {m : HookMap} {r : Record} (h : m.Fits r) {p : Nat × Hook} (hp : p ∈ m.entries) :
    p.1 < r.count ∧ p.2.type = r.typeOf p.1 := by
  have mem : (p.1, p.2.type) ∈ (List.range r.count).map fun i => (i, r.typeOf i) :=
    h ▸ List.mem_map.2 ⟨p, hp, rfl⟩
  obtain ⟨i, hi, heq⟩ := List.mem_map.1 mem
  obtain ⟨rfl, htype⟩ := Prod.mk.inj heq
  exact ⟨List.mem_range.1 hi, htype.symm⟩

end HookMap

/-! ## Records of another make -/

namespace Access

variable {σ : Type} (A : Access σ)

/-- What writing through views leads to: a field of the type of the view. -/
inductive Written (s : σ) : σ → Prop where
  | refl : Written s s
  | write {t : σ} {i : Nat} {f g : Field} : Written s t → A.writable? t i = some g → f.sqlType = g.sqlType →
      Written s (A.write t i f)

/-- Whatever is written, the count stays, and wherever the record has a field the view for writing is of its type. -/
structure Faithful (s : σ) : Prop where
  count {t : σ} : A.Written s t → (A.record t).count = (A.record s).count
  view {t : σ} : A.Written s t → ∀ i f, i < (A.record s).count → (A.record s).field? i = some f →
    ∃ g, A.writable? t i = some g ∧ g.sqlType = f.sqlType

theorem faithful_own (r : Record) : own.Faithful r := by
  have kept : ∀ {t : Record}, own.Written r t → t.count = r.count ∧
      ∀ i, (t.field? i).map Field.sqlType = (r.field? i).map Field.sqlType := by
    intro t ht
    induction ht with
    | refl => exact ⟨rfl, fun _ => rfl⟩
    | @write t i f g _ hg htype ih =>
      refine ⟨ih.1, ?_⟩
      intro j
      rw [← ih.2 j]
      have view : t.field? i = some g := hg
      have set : (own.write t i f).field? j = if i = j then (t.field? j).map fun _ => f else t.field? j :=
        Record.field?_setField t i j f
      rw [set]
      by_cases hij : i = j
      · subst hij
        simp [view, htype]
      · rw [if_neg hij]
  refine ⟨fun ht => (kept ht).1, ?_⟩
  intro t ht i f _ hf
  have stored : r.field? i = some f := hf
  have same := (kept ht).2 i
  rw [stored] at same
  obtain ⟨g, hg, htype⟩ := Option.map_eq_some_iff.1 same
  exact ⟨g, hg, htype⟩

variable {A} {s t : σ}

/-- Fetching one field through a view of the type of its hook: only the value may be refused. -/
theorem fetchField_cases {k : Nat} {h : Hook} {g : Field} (hk : k < (A.record t).count)
    (hg : A.writable? t k = some g) (htype : g.sqlType = h.type) :
    ∃ f, f.sqlType = g.sqlType ∧ (A.fetchField t k h).1 = A.write t k f ∧
      ∀ e, (A.fetchField t k h).2 = .error e → ∃ cause, e = .conversion cause := by
  have check : h.checkType g = .ok () := if_pos htype
  have view : A.writableAt t k = .ok g := by simp [writableAt, hg, Nat.not_le_of_lt hk]
  have fetch : A.fetchField t k h = (A.write t k (g.decode h.value).1, (g.decode h.value).2) := by
    simp only [fetchField, view, Hook.fetch, check]
  rw [fetch]
  exact ⟨_, Field.sqlType_decode g h.value, rfl, fun e => Field.decode_eq_error⟩

/-- Fetching through faithful views: only a value may be refused. -/
theorem fetchEntries_error (hr : (A.record s).Typed) (hs : A.Faithful s) (ht : A.Written s t)
    {l : List (Nat × Hook)} (hl : ∀ p ∈ l, p.1 < (A.record s).count ∧ p.2.type = (A.record s).typeOf p.1) {e : Error}
    (h : (A.fetchEntries t l).2 = .error e) : ∃ cause, e = .conversion cause := by
  induction l generalizing t with
  | nil => cases h
  | cons p rest ih =>
    obtain ⟨k, hook⟩ := p
    obtain ⟨hk, htype⟩ := hl (k, hook) List.mem_cons_self
    obtain ⟨f, hf, hftype⟩ := hr k hk
    obtain ⟨g, hg, hgtype⟩ := hs.view ht k f hk hf
    have typed : g.sqlType = hook.type := hgtype.trans (hftype.trans htype.symm)
    obtain ⟨f', hf', hwrite, herror⟩ := fetchField_cases (hs.count ht ▸ hk) hg typed
    -- the field that was written has the type of its view, so the views behind it are still faithful
    have written : A.Written s (A.fetchField t k hook).1 := hwrite ▸ .write ht hg hf'
    rw [fetchEntries] at h
    cases hfetch : A.fetchField t k hook with
    | mk t' outcome =>
      rw [hfetch] at h herror written
      cases outcome with
      | error e' =>
        cases h
        exact herror e rfl
      | ok => exact ih written (fun p hp => hl p (List.mem_cons_of_mem _ hp)) h

end Access

/-! ## The check as a detector -/

namespace Record

/-- What holds of a record that passes the check. -/
structure Passed (r : Record) : Prop where
  keys : (HookMap.ofRecord r).keys = List.range r.count
  /-- Binding fails only for an unsigned number past the signed range. -/
  binds : ∀ e, (bindParams r (.ofRecord r)).2 = .error e →
    ∃ i f n, i < r.count ∧ r.field? i = some f ∧ f.HoldsPast n ∧ e = .conversion (.unsignedTooLarge n)
  /-- Fetching into the record fails only for a value, whatever the hooks carry. -/
  fetches : ∀ m : HookMap, m.Fits r → ∀ e, (fetchRow r m).2 = .error e → ∃ cause, e = .conversion cause
  /-- So does fetching through views for writing, as long as these are of the types of the fields. -/
  fetchesInto : ∀ {σ : Type} (A : Access σ) (s : σ), A.record s = r → A.Faithful s → ∀ m : HookMap, m.Fits r →
    ∀ e, (A.fetchRow s m).2 = .error e → ∃ cause, e = .conversion cause

/-- The check passes the consistent records and reports the first fault of any other; behind it no binding error
is left. -/
structure Validation (r : Record) : Prop where
  passes : r.validate = .ok () ↔ r.Consistent
  reports : r.validate ≠ .ok () → ∃ i cause, r.validate = .error (.binding cause) ∧ r.Fault i cause ∧
    ¬ r.ConsistentAt i ∧ ∀ j < i, r.ConsistentAt j
  passed : r.validate = .ok () → r.Passed

theorem fetchesInto {σ : Type} {A : Access σ} {s : σ} (hr : (A.record s).Typed) (hs : A.Faithful s) {m : HookMap}
    (hm : m.Fits (A.record s)) {e : Error} (h : (A.fetchRow s m).2 = .error e) : ∃ cause, e = .conversion cause :=
  Access.fetchEntries_error hr hs .refl (fun _ hp => hm.mem hp) h

theorem Typed.passed {r : Record} (hr : r.Typed) : r.Passed where
  keys := (HookMap.fits_ofRecord r).keys
  binds := by
    intro e he
    rcases bindEntries_fresh hr (Nat.zero_add r.count) with ⟨hok, -⟩ | ⟨e', i, f, herr, hi, hf, henc⟩
    · exact absurd (he.symm.trans hok) (by simp)
    · cases he.symm.trans herr
      obtain ⟨n, hn, rfl⟩ := Field.encode_error_eq henc
      exact ⟨i, f, n, hi, hf, hn, rfl⟩
  fetches := by
    intro m hm e he
    rw [← Access.fetchRow_own] at he
    exact fetchesInto hr (Access.faithful_own r) hm he
  fetchesInto := by
    rintro σ A s rfl hs m hm e he
    exact fetchesInto hr hs hm he

theorem validation (r : Record) : r.Validation where
  passes := validate_eq_ok
  reports := by
    intro hne
    rcases validate_cases r with ⟨hok, -⟩ | ⟨i, cause, herr, hfault, hfirst⟩
    · exact absurd hok hne
    · exact ⟨i, cause, herr, hfault, hfault.not_consistentAt, hfirst⟩
  passed := fun hok => Typed.passed (Declared.typed (.inr hok))

/-- A number and a text that is declared as a wide one. -/
def mislabelled : Record :=
  ⟨[⟨.plain (.integer .int), 0, some (.plain (.integer .int) (Width.zero .int))⟩,
    ⟨.plain .wtext, 0, some (.plain .text ("x" : String))⟩], 2⟩

/-- Two texts, each of which is written where the other one is read. -/
def crossed : Access (String × String) where
  record s := ofFields [.plain .text s.1, .plain .text s.2]
  writable? s
    | 0 => some (.plain .text s.2)
    | 1 => some (.plain .text s.1)
    | _ => none
  write s i
    | .plain .text text => if i = 0 then (s.1, text) else (text, s.2)
    | _ => s

theorem faithful_crossed (s : String × String) : crossed.Faithful s where
  count _ := rfl
  view := by
    intro t _ i f hi hf
    match i, hi with
    | 0, _ =>
      cases hf
      exact ⟨_, rfl, rfl⟩
    | 1, _ =>
      cases hf
      exact ⟨_, rfl, rfl⟩

/-- The hooks of two texts after a row with a text and a null arrived. -/
def crossedHooks : HookMap := (loadRow (.ofRecord (crossed.record ("a", "b"))) [.text "c", .null]).1

theorem validation_of_mislabelled :
    (mislabelled.validate = .error (.binding (.otherStorage 1 (.plain .wtext) (.plain .text))) ∧
      ¬ mislabelled.Consistent) ∧
    ((crossed.record ("a", "b")).validate = .ok () ∧ (crossed.fetchRow ("a", "b") crossedHooks).1 = ("a", "c") ∧
      ∃ cause, (crossed.fetchRow ("a", "b") crossedHooks).2 = .error (.conversion cause)) := by
  refine ⟨⟨rfl, ?_⟩, rfl, rfl, ?_⟩
  · rw [← (validation mislabelled).passes]
    intro h
    cases h
  · have passed := (validation (crossed.record ("a", "b"))).passed rfl
    have fits : crossedHooks.Fits (crossed.record ("a", "b")) := rfl
    obtain ⟨e, he⟩ : ∃ e, (crossed.fetchRow ("a", "b") crossedHooks).2 = .error e := ⟨_, rfl⟩
    obtain ⟨cause, rfl⟩ := passed.fetchesInto crossed ("a", "b") rfl (faithful_crossed _) crossedHooks fits e he
    exact ⟨cause, he⟩

end Record

end StatementPool
