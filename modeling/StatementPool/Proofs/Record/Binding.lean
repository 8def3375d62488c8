import StatementPool.Proofs.Record.Passes
import StatementPool.Proofs.Record.Validation
/-!
# Binding stops cleanly

Keys, types and old values of the hooks are free, and so is what the record says of its positions. Binding either gives
every hook the value of its field, whatever it held before, or stops at the least position whose hook fails: the hooks
before it hold new values, and it and all behind it hold what they held (`Record.bindsCleanly`).
-/

namespace StatementPool

namespace Record

/-- Binding as an act of a hook: the record stays as it is. -/
def bindHook (r : Record) (k : Nat) (h : Hook) : Record × Hook × Except Error Unit :=
  match r.fieldAt k >>= h.bind with
  | .error e => (r, h, .error e)
  | .ok h' => (r, h', .ok ())

/-- In the map `n` the hook at position `k` holds the value of its field. -/
def BoundIn (r : Record) (n : HookMap) (k : Nat) (h : Hook) : Prop :=
  ∃ f v, h.Serves Field.encode r.count k (r.field? k) f v ∧ n.get? k = some ⟨h.type, v⟩

/-- What binding the hooks of `m` to a record leads to: the map `n` and an outcome. -/
structure BindsCleanly (r : Record) (m n : HookMap) (outcome : Except Error Unit) : Prop where
  ends : m.StopsCleanly (r.BoundIn n) (fun k h => h.Blocked Field.encode r.count k (r.field? k))
    (fun k => n.get? k = m.get? k) outcome (visited bindHook r m.entries)
  /-- Each hook acts on the record in turn, which stays as it is. -/
  acts : pass bindHook r m.entries = (r, n.entries, outcome)
  /-- Positions and types of the hooks stay as they are. -/
  types : n.entries.map (fun p => (p.1, p.2.type)) = m.entries.map fun p => (p.1, p.2.type)
  /-- A null takes the place of whatever a hook held. -/
  nulls : outcome = .ok () → ∀ k h f, m.get? k = some h → r.field? k = some f → f.isNull = true →
    n.get? k = some ⟨h.type, .null⟩

variable {r : Record}

/-! ## One hook -/

theorem bind_eq_attempt (r : Record) (k : Nat) (h : Hook) :
    r.fieldAt k >>= h.bind =
      (h.attempt Field.encode r.count k (r.field? k)).map fun v => { h with value := v } := by
  have bound : r.fieldAt k = boundField r.count k (r.field? k) := rfl
  rw [bound, Hook.attempt]
  cases boundField r.count k (r.field? k) with
  | error e => rfl
  | ok f =>
    simp only [bind, Except.bind, Hook.bind]
    cases h.checkType f with
    | error e => rfl
    | ok => cases f.encode <;> rfl

/-- A field that has no value is an error of conversion. -/
theorem encode_conversion (f : Field) (e : Error) (h : f.encode = .error e) : ∃ cause, e = .conversion cause := by
  obtain ⟨n, -, rfl⟩ := Field.encode_error_eq h
  exact ⟨_, rfl⟩

/-- A hook takes the value of its field, or is blocked and stays as it is. -/
theorem bindHook_cases (r : Record) (k : Nat) (h : Hook) :
    (∃ f v, h.Serves Field.encode r.count k (r.field? k) f v ∧ r.bindHook k h = (r, ⟨h.type, v⟩, .ok ())) ∨
      ∃ e, h.Blocked Field.encode r.count k (r.field? k) e ∧ r.bindHook k h = (r, h, .error e) := by
  unfold bindHook
  rw [bind_eq_attempt]
  rcases h.attempt_cases r.count k (r.field? k) encode_conversion with ⟨f, v, serves, heq⟩ | ⟨e, blocked, heq⟩
  · rw [heq]
    exact .inl ⟨f, v, serves, rfl⟩
  · rw [heq]
    exact .inr ⟨e, blocked, rfl⟩

/-! ## The pass -/

/-- Binding is the pass in which hooks take their values. -/
theorem pass_bindHook (r : Record) (l : List (Nat × Hook)) : pass bindHook r l = (r, bindEntries r l) := by
  induction l with
  | nil => rfl
  | cons p rest ih =>
    obtain ⟨k, h⟩ := p
    cases hb : r.fieldAt k >>= h.bind with
    | error e => simp only [pass, bindEntries, bindHook, hb]
    | ok h' => simp only [pass, bindEntries, bindHook, hb, ih]

/-- Hooks that acted hold the values of their fields. -/
theorem bound_of_acts {t : Record} {l l' : List (Nat × Hook)} (acts : Acts bindHook r l t l') :
    t = r ∧ l'.map (fun p => (p.1, p.2.type)) = l.map (fun p => (p.1, p.2.type)) ∧
      ∀ p ∈ l, ∃ f v, p.2.Serves Field.encode r.count p.1 (r.field? p.1) f v ∧ (p.1, ⟨p.2.type, v⟩) ∈ l' := by
  induction acts with
  | nil => exact ⟨rfl, rfl, by simp⟩
  | @cons s s' t k h h' l l' first _ ih =>
    rcases s.bindHook_cases k h with ⟨f, v, serves, heq⟩ | ⟨e, -, heq⟩
    · cases heq.symm.trans first
      obtain ⟨rfl, htypes, each⟩ := ih
      refine ⟨rfl, by simp [htypes], ?_⟩
      intro p hp
      rcases List.mem_cons.1 hp with rfl | hp
      · exact ⟨f, v, serves, List.mem_cons_self⟩
      · obtain ⟨g, w, hg, hw⟩ := each p hp
        exact ⟨g, w, hg, List.mem_cons_of_mem _ hw⟩
    · cases heq.symm.trans first

variable {m n : HookMap} {outcome : Except Error Unit}

theorem stopsCleanly_of_passes {l : List (Nat × Hook)} {out : Record × List (Nat × Hook) × Except Error Unit}
    {ks : List Nat} (hp : Passes bindHook r l out ks) (hl : m.entries = l) (hout : out = (r, n.entries, outcome)) :
    m.StopsCleanly (r.BoundIn n) (fun k h => h.Blocked Field.encode r.count k (r.field? k))
        (fun k => n.get? k = m.get? k) outcome ks ∧
      n.entries.map (fun p => (p.1, p.2.type)) = m.entries.map fun p => (p.1, p.2.type) := by
  cases hp with
  | all acts =>
    obtain ⟨rfl, htypes, each⟩ := bound_of_acts acts
    cases hout
    subst hl
    refine ⟨HookMap.stopsCleanly_of_all ?_, htypes⟩
    intro p hp
    obtain ⟨f, v, serves, hmem⟩ := each p hp
    exact ⟨f, v, serves, HookMap.mem_entries.1 hmem⟩
  | @stopped t t' done done' left k h h' e acts fails =>
    obtain ⟨rfl, htypes, each⟩ := bound_of_acts acts
    rcases t.bindHook_cases k h with ⟨_, _, _, heq⟩ | ⟨e', blocked, heq⟩
    · cases heq.symm.trans fails
    · cases heq.symm.trans fails
      obtain ⟨-, hentries, rfl⟩ : t = t ∧ done' ++ (k, h) :: left = n.entries ∧ .error e = outcome := by
        simpa using hout
      refine ⟨HookMap.stopsCleanly_of_split hl ?_ blocked ?_, ?_⟩
      · intro p hp
        obtain ⟨f, v, serves, hmem⟩ := each p hp
        exact ⟨f, v, serves, HookMap.mem_entries.1 (hentries ▸ List.mem_append_left _ hmem)⟩
      · -- positions that the hooks before do not have are found behind them, in both maps
        intro j hj
        have positions : done'.map Prod.fst = done.map Prod.fst := by
          simpa [Function.comp_def] using congrArg (List.map Prod.fst) htypes
        have absent := HookMap.lookup_eq_none hj
        have absent' := HookMap.lookup_eq_none (positions ▸ hj)
        rw [HookMap.get?, HookMap.get?, ← hentries, hl, List.lookup_append, List.lookup_append, absent, absent']
      · rw [← hentries, hl, List.map_append, List.map_append, htypes]

theorem stopsCleanly_bindParams (r : Record) (m : HookMap) :
    m.StopsCleanly (r.BoundIn (bindParams r m).1) (fun k h => h.Blocked Field.encode r.count k (r.field? k))
        (fun k => (bindParams r m).1.get? k = m.get? k) (bindParams r m).2 (visited bindHook r m.entries) ∧
      (bindParams r m).1.entries.map (fun p => (p.1, p.2.type)) = m.entries.map fun p => (p.1, p.2.type) :=
  stopsCleanly_of_passes (passes_pass r m.entries) rfl (pass_bindHook r m.entries)

/-- Binding any hooks to any record. -/
theorem bindsCleanly (r : Record) (m : HookMap) : r.BindsCleanly m (bindParams r m).1 (bindParams r m).2 := by
  obtain ⟨ends, types⟩ := stopsCleanly_bindParams r m
  refine ⟨ends, pass_bindHook r m.entries, types, ?_⟩
  intro hok k h f found stored null
  obtain ⟨g, v, serves, hv⟩ := ends.each hok found
  cases serves.stored.symm.trans stored
  cases serves.gives.symm.trans (Field.encode_of_null null)
  exact hv

end Record

end StatementPool
