import StatementPool.Pool.Execution
import StatementPool.Proofs.Record.Binding
/-!
# What is behind a null flag stays there

Two records look like each other (`Record.LooksLike`) when they differ at most in what their null fields store. Such
fields have the same value, so the hooks of any map take the same from both records, and whatever runs with the one as
its parameters runs with the other and leaves the same behind (`Record.indistinct`). A null has a value whatever it
stores: only a field that shows its number keeps a record from a statement.
-/

namespace StatementPool

/-! ## Fields and records that look alike -/

/-- Two fields of one type and flag; what they store is compared only if it shows. -/
structure Field.LooksLike (f g : Field) : Prop where
  type : f.sqlType = g.sqlType
  null : f.isNull = g.isNull
  content : f.isNull = false → f.content = g.content

/-- Two records that say the same of the positions that bind to a statement, with fields that look like each other. -/
structure Record.LooksLike (r s : Record) : Prop where
  count : r.count = s.count
  types : ∀ k < r.count, r.typeOf k = s.typeOf k
  fields : ∀ k < r.count, Option.Rel Field.LooksLike (r.field? k) (s.field? k)

/-- Put another record in the place of the parameters. -/
def Slots.withParams (x : Slots) (r : Record) : Slots := { x with params := some r }

/-- Whoever uses the record `r` cannot tell it from `s`. -/
structure Record.Indistinct (r s : Record) : Prop where
  values : ∀ k < r.count, (r.field? k).map Field.encode = (s.field? k).map Field.encode
  /-- A null has a value whatever it stores. -/
  nulls : ∀ k f, r.field? k = some f → f.isNull = true → f.encode = .ok .null
  /-- Only a number that shows may have no value. -/
  failures : ∀ m cause, (bindParams r m).2 = .error (.conversion cause) → ∃ k f, r.field? k = some f ∧ f.Overflows
  /-- Hooks take the same, whatever they held before, and binding ends in the same way. -/
  binds : ∀ m, bindParams r m = bindParams s m
  /-- A statement leaves the same in the world and in the places of its caller, and ends in the same way. -/
  executes : ∀ (st : Statement) (w : World) (x : Slots),
    (st.execute w (x.withParams r)).map (fun (w, y, o) => (w, y.withParams s, o)) = st.execute w (x.withParams s)
  /-- A query leaves the same in its collection and in its counters. -/
  executesWith : ∀ (st : Statement) (w : World) (a : Args),
    { a with params := some r }.executeWith st w = { a with params := some s }.executeWith st w

variable {r s : Record} {f g : Field}

theorem Field.LooksLike.encode_eq (h : f.LooksLike g) : f.encode = g.encode := by
  cases hf : f.isNull with
  | true => rw [encode_of_null hf, encode_of_null (h.null ▸ hf)]
  | false =>
    have shown : g.encode = f.kind.encode f.storage := encode_of_content (h.null ▸ hf) (h.content hf).symm
    rw [encode_of_not_null hf, shown]

theorem Field.LooksLike.bind_eq (h : f.LooksLike g) (k : Hook) : k.bind f = k.bind g := by
  simp only [Hook.bind, Hook.checkType, h.type, h.encode_eq]

/-- A failure of conversion comes from a field with a number past the signed range that shows. -/
theorem Record.overflows_of_bindParams {m : HookMap} {cause : ConversionCause}
    (failed : (bindParams r m).2 = .error (.conversion cause)) : ∃ k f, r.field? k = some f ∧ f.Overflows := by
  obtain ⟨k, hook, -, blocked, -⟩ := (stopsCleanly_bindParams r m).1.first failed
  cases blocked with
  | @refused f _ _ stored _ fails => exact ⟨k, f, stored, (Field.encode_eq_error f).1 ⟨_, fails⟩⟩

namespace Record.LooksLike

/-! ## Binding -/

theorem bind_fieldAt (h : r.LooksLike s) (k : Nat) (hook : Hook) :
    r.fieldAt k >>= hook.bind = s.fieldAt k >>= hook.bind := by
  unfold fieldAt
  rw [← h.count]
  rcases Nat.lt_or_ge k r.count with below | past
  · rw [if_neg (Nat.not_le_of_lt below), if_neg (Nat.not_le_of_lt below)]
    have here := h.fields k below
    generalize r.field? k = f? at here ⊢
    generalize s.field? k = g? at here ⊢
    cases here with
    | none => rfl
    | some alike => exact alike.bind_eq hook
  · rw [if_pos past, if_pos past]

/-- The hooks of a list take the same from both records, and stop at the same. -/
theorem bindEntries_eq (h : r.LooksLike s) (l : List (Nat × Hook)) : bindEntries r l = bindEntries s l := by
  induction l with
  | nil => rfl
  | cons p rest ih =>
    obtain ⟨k, hook⟩ := p
    simp only [bindEntries, h.bind_fieldAt, ih]

theorem bindParams_eq (h : r.LooksLike s) (m : HookMap) : bindParams r m = bindParams s m := by
  simp only [bindParams, h.bindEntries_eq]

theorem ofRecord_eq (h : r.LooksLike s) : HookMap.ofRecord r = HookMap.ofRecord s := by
  have entries : HookMap.freshFrom r 0 r.count = HookMap.freshFrom s 0 s.count := by
    rw [HookMap.freshFrom_eq, HookMap.freshFrom_eq, ← h.count]
    apply List.map_congr_left
    intro k hk
    have below : k < r.count := by simpa using hk
    rw [h.types k below]
  simp only [HookMap.ofRecord, entries]

theorem encode_eq (h : r.LooksLike s) : r.encode = s.encode := by
  simp only [Record.encode, h.ofRecord_eq, h.bindParams_eq]

/-! ## Statements -/

theorem shown_eq (h : r.LooksLike s) (x : Slots) : (x.withParams r).shown = (x.withParams s).shown := by
  simp only [Slots.shown, Slots.withParams, Option.map_some, h.count]

theorem filterRow_eq (h : r.LooksLike s) : filterRow (some r) = filterRow (some s) := h.encode_eq

theorem selectFrom_eq (h : r.LooksLike s) (table : Nat) (w : World) (x : Slots) :
    ((selectFrom table w (x.withParams r)).1.withParams s, (selectFrom table w (x.withParams r)).2) =
      selectFrom table w (x.withParams s) := by
  simp only [selectFrom, Slots.withParams, h.filterRow_eq]
  cases filterRow (some s) with
  | error e => rfl
  | ok filter =>
    cases x.results with
    | none => rfl
    | some c => rcases copied : c.appendRows 0 (matching filter (w.table table)) with ⟨c', _ | _⟩ <;> simp only [copied]

theorem execute_eq (h : r.LooksLike s) (st : Statement) (w : World) (x : Slots) :
    (st.execute w (x.withParams r)).map (fun (w, y, o) => (w, y.withParams s, o)) = st.execute w (x.withParams s) := by
  cases st with
  | insert table =>
    simp only [Statement.execute, insertInto, Slots.withParams, h.encode_eq]
    cases s.encode <;> rfl
  | select table =>
    have searched := h.selectFrom_eq table w x
    simp only [Statement.execute, Option.map_some, ← searched]
  | fail text => rfl
  | panic text => rfl
  | gated gate =>
    simp only [Statement.execute]
    split <;> rfl
  | planned plan =>
    have outcome : plan.outcome (x.withParams r) = plan.outcome (x.withParams s) := by
      simp only [Plan.outcome, h.shown_eq]
    simp only [Statement.execute, outcome]
    rfl

theorem executeWith_eq (h : r.LooksLike s) (st : Statement) (w : World) (a : Args) :
    { a with params := some r }.executeWith st w = { a with params := some s }.executeWith st w := by
  have executed := h.execute_eq st w (a.slots w)
  have given : ∀ t : Record, ({ a with params := some t } : Args).slots w = (a.slots w).withParams t := fun _ => rfl
  simp only [Args.executeWith, given, ← executed]
  cases st.execute w ((a.slots w).withParams r) with
  | none => rfl
  | some result => rfl

end Record.LooksLike

/-! ## Nothing is told -/

namespace Record

/-- Records that look like each other are indistinct. -/
theorem indistinct (h : r.LooksLike s) : r.Indistinct s where
  values k below := by
    have here := h.fields k below
    generalize r.field? k = f? at here ⊢
    generalize s.field? k = g? at here ⊢
    cases here with
    | none => rfl
    | some alike => exact congrArg some alike.encode_eq
  nulls _ _ _ null := Field.encode_of_null null
  failures _ _ failed := overflows_of_bindParams failed
  binds := h.bindParams_eq
  executes := h.execute_eq
  executesWith := h.executeWith_eq

theorem looksLike_ofFields {fs gs : List Field} (h : List.Forall₂ Field.LooksLike fs gs) :
    (ofFields fs).LooksLike (ofFields gs) := by
  have each : ∀ k : Nat, Option.Rel Field.LooksLike fs[k]? gs[k]? := by
    induction h with
    | nil => simp
    | cons first _ ih =>
      rintro (_ | k)
      · exact .some first
      · exact ih k
  refine ⟨h.length_eq, ?_, ?_⟩
  · intro k _
    have here := each k
    rw [typeOf_ofFields, typeOf_ofFields]
    generalize fs[k]? = f? at here ⊢
    generalize gs[k]? = g? at here ⊢
    cases here with
    | none => rfl
    | some alike => simp [alike.type]
  · intro k _
    rw [field?_ofFields, field?_ofFields]
    exact each k

/-- A number and a code that are null, and a truth value. -/
def withNulls (number : Ranged (Width.low .ubigint) (Width.high .ubigint)) (code : List UInt8) : Record :=
  .ofFields [.nullable (.integer .ubigint) ⟨number, true⟩, .nullable .char ⟨code, true⟩, .plain .bit true]

/-- A number past the signed range and a code that is no text, both of them null. -/
theorem indistinct_withNulls :
    let r := withNulls ⟨9223372036854775808, by decide, by decide⟩ [0xFF, 0xFE]
    let s := withNulls (Width.zero .ubigint) [0, 0]
    r.LooksLike s ∧
      (Statement.insert 0).execute ⟨[[]], [], [], []⟩ ⟨some r, none, some 0, some 0⟩ =
        some (⟨[[[.null, .null, .bool true]]], [], [], []⟩, ⟨some r, none, some 1, some 1⟩, .done) ∧
      r.Indistinct s := by
  intro r s
  have null : ∀ {k : Kind} (x y : k.Storage), (Field.nullable k ⟨x, true⟩).LooksLike (.nullable k ⟨y, true⟩) :=
    fun _ _ => ⟨rfl, rfl, fun shown => absurd shown (by simp [Field.isNull])⟩
  have flag : (Field.plain .bit true).LooksLike (.plain .bit true) := ⟨rfl, rfl, fun _ => rfl⟩
  have alike : r.LooksLike s := looksLike_ofFields (.cons (null _ _) (.cons (null _ _) (.cons flag .nil)))
  exact ⟨alike, rfl, indistinct alike⟩

end Record

end StatementPool
