import StatementPool.Proofs.Record.Passes
import StatementPool.Proofs.Record.Validation
import StatementPool.Proofs.Statement.Rows
/-!
# Fetching stops cleanly

Keys, types and values of the hooks are free, and so is what the record says of its positions, as long as distinct
positions have distinct storage (`Access.Separate`). Fetching either stores the values of all hooks, or stops at the
least position whose hook fails: the fields before it are stored, and it and all behind it are as they were. A field
without a hook and the hooks themselves are as they were in either case (`Record.fetchesCleanly`).
-/

namespace StatementPool

/-- What comes of storing into a field what the hook carries. -/
def Hook.storing (h : Hook) (f : Field) : Except Error Unit := (f.decode h.value).2

namespace Access

variable {σ : Type} (A : Access σ)

/-- Fetching as an act of a hook: the hook stays as it is. -/
def fetchHook (s : σ) (k : Nat) (h : Hook) : σ × Hook × Except Error Unit :=
  let (s', outcome) := A.fetchField s k h
  (s', h, outcome)

/-- Between `s` and `t` the field at position `k` took the value of the hook. -/
def StoredIn (s t : σ) (k : Nat) (h : Hook) : Prop :=
  ∃ f, h.Serves h.storing (A.record s).count k (A.writable? s k) f () ∧ A.writable? t k = some (f.decode h.value).1

/-- What fetching the hooks of `m` into `s` leads to: `t` and an outcome. -/
structure FetchesCleanly (s : σ) (m : HookMap) (t : σ) (outcome : Except Error Unit) : Prop where
  ends : m.StopsCleanly (A.StoredIn s t) (fun k h => h.Blocked h.storing (A.record s).count k (A.writable? s k))
    (fun k => A.writable? t k = A.writable? s k) outcome (visited A.fetchHook s m.entries)
  others : ∀ k, m.get? k = none → A.writable? t k = A.writable? s k
  count : (A.record t).count = (A.record s).count
  /-- Each hook acts in turn, and all of them stay as they are. -/
  acts : pass A.fetchHook s m.entries = (t, m.entries, outcome)

variable {A}

/-! ## One hook -/

/-- A value that is refused leaves the field as it was. -/
theorem decode_of_error {f : Field} {v : Value} {e : Error} (h : (f.decode v).2 = .error e) :
    f.decode v = (f, .error e) := by
  obtain ⟨cause, refuses⟩ : f.Refuses v := Field.refuses_of_not_ok (by simp [h])
  rw [refuses] at h ⊢
  rw [← h]

theorem fetch_of_type {h : Hook} {f : Field} (type : f.sqlType = h.type) : h.fetch f = f.decode h.value := by
  have check : h.checkType f = .ok () := if_pos type
  simp only [Hook.fetch, check]

/-- Through a view a hook stores its value, and what it could not store is written back. -/
theorem fetchHook_of_view {s : σ} {k : Nat} {f : Field} (below : k < (A.record s).count)
    (stored : A.writable? s k = some f) (h : Hook) :
    A.fetchHook s k h = (A.write s k (h.fetch f).1, h, (h.fetch f).2) := by
  have view : A.writableAt s k = .ok f := by simp [writableAt, stored, Nat.not_le_of_lt below]
  simp only [fetchHook, fetchField, view]

theorem fetchHook_of_no_view {s : σ} {k : Nat} {e : Error} (view : A.writableAt s k = .error e) (h : Hook) :
    A.fetchHook s k h = (s, h, .error e) := by
  simp only [fetchHook, fetchField, view]

/-- A hook stores its value into its field, or is blocked; then the field at its position is at most written back. -/
theorem fetchHook_cases (A : Access σ) (s : σ) (k : Nat) (h : Hook) :
    (∃ f, h.Serves h.storing (A.record s).count k (A.writable? s k) f () ∧
      A.fetchHook s k h = (A.write s k (f.decode h.value).1, h, .ok ())) ∨
    ∃ e t, h.Blocked h.storing (A.record s).count k (A.writable? s k) e ∧ A.fetchHook s k h = (t, h, .error e) ∧
      (t = s ∨ ∃ f, A.writable? s k = some f ∧ t = A.write s k f) := by
  have conversion : ∀ f e, h.storing f = .error e → ∃ cause, e = .conversion cause := fun _ _ => Field.decode_eq_error
  rcases h.attempt_cases (A.record s).count k (A.writable? s k) conversion with ⟨f, ⟨⟩, serves, -⟩ | ⟨e, blocked, -⟩
  · have gives : (f.decode h.value).2 = .ok () := serves.gives
    refine .inl ⟨f, serves, ?_⟩
    rw [fetchHook_of_view serves.below serves.stored, fetch_of_type serves.type, gives]
  · refine .inr ⟨e, (A.fetchHook s k h).1, blocked, ?_⟩
    cases blocked with
    | pastCount past =>
      rw [fetchHook_of_no_view (if_pos past)]
      exact ⟨rfl, .inl rfl⟩
    | noStorage below missing =>
      rw [fetchHook_of_no_view (e := .binding (.pastCount k (A.record s).count)) (by simp [writableAt, missing])]
      exact ⟨rfl, .inl rfl⟩
    | otherType below stored other =>
      have check : h.checkType _ = .error _ := if_neg other
      rw [fetchHook_of_view below stored]
      simp only [Hook.fetch, check]
      exact ⟨trivial, .inr ⟨_, stored, rfl⟩⟩
    | refused below stored type fails =>
      rw [fetchHook_of_view below stored, fetch_of_type type, decode_of_error fails]
      exact ⟨rfl, .inr ⟨_, stored, rfl⟩⟩

/-! ## The pass -/

/-- Fetching is the pass in which hooks store their values. -/
theorem pass_fetchHook (s : σ) (l : List (Nat × Hook)) :
    pass A.fetchHook s l = ((A.fetchEntries s l).1, l, (A.fetchEntries s l).2) := by
  induction l generalizing s with
  | nil => rfl
  | cons p rest ih =>
    obtain ⟨k, h⟩ := p
    rcases hf : A.fetchField s k h with ⟨s', e | _⟩
    · simp only [pass, fetchEntries, fetchHook, hf]
    · simp only [pass, fetchEntries, fetchHook, hf, ih]

section Separate

variable (hA : A.Separate) {s t : σ} {k : Nat} {h : Hook} {f : Field}
include hA

/-- Writing a field back moves nothing. -/
theorem Separate.written_back (hback : t = s ∨ ∃ f, A.writable? s k = some f ∧ t = A.write s k f) :
    (A.record t).count = (A.record s).count ∧ ∀ j, A.writable? t j = A.writable? s j := by
  rcases hback with rfl | ⟨f, view, rfl⟩
  · exact ⟨rfl, fun _ => rfl⟩
  · refine ⟨hA.count view rfl rfl, ?_⟩
    intro j
    by_cases hj : j = k
    · rw [hj, hA.here view rfl rfl, view]
    · exact hA.elsewhere view rfl rfl hj

/-- Hooks at distinct positions that acted stored their values, each into the field that was there before, and moved
nothing else. -/
theorem stored_of_acts {l l' : List (Nat × Hook)} (acts : Acts A.fetchHook s l t l')
    (asc : (l.map Prod.fst).Pairwise (· < ·)) :
    l' = l ∧ (A.record t).count = (A.record s).count ∧
      (∀ j, j ∉ l.map Prod.fst → A.writable? t j = A.writable? s j) ∧ ∀ p ∈ l, A.StoredIn s t p.1 p.2 := by
  induction acts with
  | nil => exact ⟨rfl, rfl, fun _ _ => rfl, by simp⟩
  | @cons s s' t k h h' l l' first _ ih =>
    rw [List.map_cons, List.pairwise_cons] at asc
    have apart : k ∉ l.map Prod.fst := fun hk => Nat.lt_irrefl k (asc.1 k hk)
    obtain ⟨rfl, hcount, hviews, hstored⟩ := ih asc.2
    rcases fetchHook_cases A s k h with ⟨f, serves, heq⟩ | ⟨_, _, -, heq, -⟩
    · cases heq.symm.trans first
      obtain ⟨count, here, elsewhere⟩ := hA.decode serves.stored h.value
      refine ⟨rfl, hcount.trans count, ?_, ?_⟩
      · intro j hj
        rw [List.map_cons, List.mem_cons, not_or] at hj
        rw [hviews j hj.2, elsewhere j hj.1]
      · intro p hp
        rcases List.mem_cons.1 hp with rfl | hp
        · exact ⟨f, serves, (hviews _ apart).trans here⟩
        · -- the view of a later hook shows what it showed before this one acted
          have hne : p.1 ≠ k := fun heq => apart (heq ▸ List.mem_map.2 ⟨p, hp, rfl⟩)
          obtain ⟨g, hg, hstored⟩ := hstored p hp
          rw [count, elsewhere p.1 hne] at hg
          exact ⟨g, hg, hstored⟩
    · cases heq.symm.trans first

theorem fetchesCleanly_of_passes {m : HookMap} {outcome : Except Error Unit} {l l' : List (Nat × Hook)}
    {out : σ × List (Nat × Hook) × Except Error Unit} {ks : List Nat} (hp : Passes A.fetchHook s l out ks)
    (hl : m.entries = l) (hout : out = (t, l', outcome)) :
    m.StopsCleanly (A.StoredIn s t) (fun k h => h.Blocked h.storing (A.record s).count k (A.writable? s k))
        (fun k => A.writable? t k = A.writable? s k) outcome ks ∧
      (∀ k, m.get? k = none → A.writable? t k = A.writable? s k) ∧ (A.record t).count = (A.record s).count := by
  have asc := m.ascending
  rw [hl] at asc
  cases hp with
  | all acts =>
    cases hout
    obtain ⟨-, count, views, stored⟩ := stored_of_acts hA acts asc
    subst hl
    exact ⟨HookMap.stopsCleanly_of_all stored, fun k hk => views k (HookMap.get?_eq_none.1 hk), count⟩
  | @stopped r _ done done' left k h h' e acts fails =>
    cases hout
    rw [List.map_append, List.map_cons, List.pairwise_append, List.pairwise_cons] at asc
    obtain ⟨asc, -, earlier⟩ := asc
    obtain ⟨-, count, views, stored⟩ := stored_of_acts hA acts asc
    rcases fetchHook_cases A r k h with ⟨_, _, heq⟩ | ⟨_, _, blocked, heq, hback⟩
    · cases heq.symm.trans fails
    · cases heq.symm.trans fails
      obtain ⟨count', views'⟩ := hA.written_back hback
      have apart : k ∉ done.map Prod.fst := fun hk => Nat.lt_irrefl k (earlier k hk k List.mem_cons_self)
      rw [count, views k apart] at blocked
      have untouched : ∀ j, j ∉ done.map Prod.fst → A.writable? t j = A.writable? s j :=
        fun j hj => (views' j).trans (views j hj)
      have storedIn : ∀ p ∈ done, A.StoredIn s t p.1 p.2 := by
        intro p hp
        obtain ⟨f, serves, hf⟩ := stored p hp
        exact ⟨f, serves, (views' p.1).trans hf⟩
      refine ⟨HookMap.stopsCleanly_of_split hl storedIn blocked untouched, ?_, count'.trans count⟩
      intro j hj
      have absent := HookMap.get?_eq_none.1 hj
      exact untouched j fun hmem => absent (by simp [HookMap.keys, hl, hmem])

/-- Fetching any hooks into storage of any make. -/
theorem fetchesCleanly_of_separate (s : σ) (m : HookMap) :
    A.FetchesCleanly s m (A.fetchRow s m).1 (A.fetchRow s m).2 := by
  have acts : pass A.fetchHook s m.entries = ((A.fetchRow s m).1, m.entries, (A.fetchRow s m).2) :=
    pass_fetchHook s m.entries
  obtain ⟨ends, others, count⟩ := fetchesCleanly_of_passes hA (passes_pass s m.entries) rfl acts
  exact ⟨ends, others, count, acts⟩

end Separate

end Access

namespace Record

/-- Fetching into a record is fetching into storage with a place for each position. -/
theorem fetchesCleanly_own (r : Record) (m : HookMap) :
    Access.own.FetchesCleanly r m (fetchRow r m).1 (fetchRow r m).2 := by
  have own := Access.fetchesCleanly_of_separate Access.separate_own r m
  rwa [Access.fetchRow_own] at own

/-- Fetching any hooks into a record, and into storage of any other make with a place for each position. -/
theorem fetchesCleanly (m : HookMap) :
    (∀ r : Record, Access.own.FetchesCleanly r m (fetchRow r m).1 (fetchRow r m).2 ∧
      (fetchRow r m).1.layout = r.layout) ∧
    ∀ {σ : Type} (A : Access σ) (s : σ), A.Separate → A.FetchesCleanly s m (A.fetchRow s m).1 (A.fetchRow s m).2 := by
  constructor
  · intro r
    exact ⟨fetchesCleanly_own r m, layout_fetchEntries r m.entries⟩
  · intro σ A s hA
    exact Access.fetchesCleanly_of_separate hA s m

theorem separate_crossed : crossed.Separate where
  count _ _ _ := rfl
  here := by
    intro s i f g view type _
    match i with
    | 0 | 1 =>
      cases view
      cases f <;> cases type
      rfl
  elsewhere := by
    intro s i f g view type _ j hij
    match i, j with
    | 0, 0 | 1, 1 => exact absurd rfl hij
    | 0, 1 | 1, 0 =>
      cases view
      cases f <;> cases type
      rfl
    | 0, _ + 2 | 1, _ + 2 => rfl

/-- A text for the second of two texts, and a hook past their count. -/
def sparseHooks : HookMap := (HookMap.empty.insert 5 (.fresh .nothing)).insert 1 ⟨.plain .text, .text "c"⟩

theorem fetchesCleanly_of_sparse :
    crossed.Separate ∧
      crossed.fetchRow ("a", "b") sparseHooks = (("c", "b"), .error (.binding (.pastCount 5 2))) ∧
      crossed.FetchesCleanly ("a", "b") sparseHooks ("c", "b") (.error (.binding (.pastCount 5 2))) :=
  ⟨separate_crossed, rfl, (fetchesCleanly sparseHooks).2 crossed ("a", "b") separate_crossed⟩

end Record

end StatementPool
