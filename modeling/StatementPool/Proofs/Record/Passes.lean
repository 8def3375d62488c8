import StatementPool.Record.Transfer
/-!
# Passes of hooks

Binding and fetching are passes over the hooks of a map: by ascending position each hook works on the field at its
position, and the first that fails ends the pass. What a pass does is a run of the hooks before that one
(`passes_pass`). Positions are distinct, so a pass ends at the least position whose hook fails
(`HookMap.StopsCleanly`). A hook fails since there is no field of its type at its position, or with what its work fails
with (`Hook.Blocked`).
-/

namespace StatementPool

/-! ## One hook at its position -/

/-- The field at position `k`, as far as positions bind to a statement; `here` is what there is. -/
def boundField (count k : Nat) (here : Option Field) : Except Error Field :=
  if count ≤ k then .error (.binding (.pastCount k count))
  else match here with
    | some f => .ok f
    | none => .error (.binding (.pastCount k count))

namespace Hook

variable {α : Type}

/-- Let a hook do its work on the field at position `k`. -/
def attempt (work : Field → Except Error α) (count k : Nat) (here : Option Field) (h : Hook) : Except Error α := do
  let f ← boundField count k here
  h.checkType f
  work f

/-- There is a field of the type of the hook at position `k`, and the work on this field gives `a`. -/
structure Serves (work : Field → Except Error α) (count k : Nat) (here : Option Field) (h : Hook) (f : Field) (a : α) :
    Prop where
  below : k < count
  stored : here = some f
  type : f.sqlType = h.type
  gives : work f = .ok a

/-- What keeps a hook at position `k` from its work, or its work from a result. -/
inductive Blocked (work : Field → Except Error α) (count k : Nat) (here : Option Field) (h : Hook) : Error → Prop where
  | pastCount (past : count ≤ k) : Blocked work count k here h (.binding (.pastCount k count))
  | noStorage (below : k < count) (missing : here = none) :
      Blocked work count k here h (.binding (.pastCount k count))
  | otherType {f : Field} (below : k < count) (stored : here = some f) (other : f.sqlType ≠ h.type) :
      Blocked work count k here h (.binding (.otherType h.type f.sqlType))
  | refused {f : Field} {cause : ConversionCause} (below : k < count) (stored : here = some f)
      (type : f.sqlType = h.type) (fails : work f = .error (.conversion cause)) :
      Blocked work count k here h (.conversion cause)

variable {work : Field → Except Error α} {count k : Nat} {here : Option Field} {h : Hook} {f : Field} {a : α}
  {e : Error}

theorem boundField_of_below (below : k < count) : boundField count k (some f) = .ok f :=
  if_neg (Nat.not_le_of_lt below)

theorem attempt_of_type (below : k < count) (type : f.sqlType = h.type) :
    h.attempt work count k (some f) = work f := by
  have check : h.checkType f = .ok () := if_pos type
  rw [attempt, boundField_of_below below]
  simp only [Bind.bind, Except.bind, check]

/-- A hook serves its field or is blocked, if its work fails only with errors of conversion. -/
theorem attempt_cases (count k : Nat) (here : Option Field) (h : Hook)
    (conversion : ∀ f e, work f = .error e → ∃ cause, e = .conversion cause) :
    (∃ f a, h.Serves work count k here f a ∧ h.attempt work count k here = .ok a) ∨
      ∃ e, h.Blocked work count k here e ∧ h.attempt work count k here = .error e := by
  rcases Nat.lt_or_ge k count with below | past
  · cases here with
    | none => exact .inr ⟨_, .noStorage below rfl, by simp [attempt, boundField, Nat.not_le_of_lt below]; rfl⟩
    | some f =>
      by_cases type : f.sqlType = h.type
      · have attempted : h.attempt work count k (some f) = work f := attempt_of_type below type
        cases hw : work f with
        | ok a => exact .inl ⟨f, a, ⟨below, rfl, type, hw⟩, attempted.trans hw⟩
        | error e =>
          obtain ⟨cause, rfl⟩ := conversion f e hw
          exact .inr ⟨_, .refused below rfl type hw, attempted.trans hw⟩
      · have check : h.checkType f = .error _ := if_neg type
        refine .inr ⟨_, .otherType below rfl type, ?_⟩
        rw [attempt, boundField_of_below below]
        simp only [Bind.bind, Except.bind, check]
  · have unbound : boundField count k here = .error _ := if_pos past
    exact .inr ⟨_, .pastCount past, by rw [attempt, unbound]; rfl⟩

end Hook

/-! ## The pass -/

section Pass

variable {S : Type} (step : S → Nat → Hook → S × Hook × Except Error Unit)

/-- Let hooks act in order on what they share, up to the first that fails. -/
def pass (s : S) : List (Nat × Hook) → S × List (Nat × Hook) × Except Error Unit
  | [] => (s, [], .ok ())
  | (k, h) :: rest =>
    match step s k h with
    | (s', h', .error e) => (s', (k, h') :: rest, .error e)
    | (s', h', .ok ()) =>
      let (t, rest', outcome) := pass s' rest
      (t, (k, h') :: rest', outcome)

/-- The positions that a pass comes to, in the order in which it does. -/
def visited (s : S) : List (Nat × Hook) → List Nat
  | [] => []
  | (k, h) :: rest =>
    match step s k h with
    | (_, _, .error _) => [k]
    | (s', _, .ok ()) => k :: visited s' rest

/-- The hooks of a list acted in order and became another list; none of them failed. -/
inductive Acts : S → List (Nat × Hook) → S → List (Nat × Hook) → Prop where
  | nil {s : S} : Acts s [] s []
  | cons {s s' t : S} {k : Nat} {h h' : Hook} {l l' : List (Nat × Hook)} (first : step s k h = (s', h', .ok ()))
      (rest : Acts s' l t l') : Acts s ((k, h) :: l) t ((k, h') :: l')

/-- A pass: the hooks acted in order, all of them or those before the first that failed. -/
inductive Passes (s : S) : List (Nat × Hook) → S × List (Nat × Hook) × Except Error Unit → List Nat → Prop where
  | all {t : S} {l l' : List (Nat × Hook)} (acts : Acts step s l t l') : Passes s l (t, l', .ok ()) (l.map Prod.fst)
  | stopped {t t' : S} {done done' left : List (Nat × Hook)} {k : Nat} {h h' : Hook} {e : Error}
      (acts : Acts step s done t done') (fails : step t k h = (t', h', .error e)) :
      Passes s (done ++ (k, h) :: left) (t', done' ++ (k, h') :: left, .error e) (done.map Prod.fst ++ [k])

variable {step}

/-- Before a pass comes a hook that acts. -/
theorem Passes.cons {s s' : S} {k : Nat} {h h' : Hook} {l : List (Nat × Hook)}
    {out : S × List (Nat × Hook) × Except Error Unit} {ks : List Nat} (first : step s k h = (s', h', .ok ()))
    (rest : Passes step s' l out ks) : Passes step s ((k, h) :: l) (out.1, (k, h') :: out.2.1, out.2.2) (k :: ks) := by
  cases rest with
  | all acts => exact .all (.cons first acts)
  | stopped acts fails => exact .stopped (.cons first acts) fails

theorem passes_pass (s : S) (l : List (Nat × Hook)) : Passes step s l (pass step s l) (visited step s l) := by
  induction l generalizing s with
  | nil => exact .all .nil
  | cons p rest ih =>
    obtain ⟨k, h⟩ := p
    rcases first : step s k h with ⟨s', h', _ | _⟩
    · simp only [pass, visited, first]
      exact .stopped .nil first
    · simp only [pass, visited, first]
      exact .cons first (ih s')

end Pass

/-! ## Passes over a map -/

namespace HookMap

/-- How a pass over the hooks of a map ends: all of them served their fields, or it stopped at the least position whose
hook fails; what came before that position is done, and that position and all behind it are untouched. -/
inductive StopsCleanly (m : HookMap) (serves : Nat → Hook → Prop) (fails : Nat → Hook → Error → Prop)
    (untouched : Nat → Prop) : Except Error Unit → List Nat → Prop where
  | all (each : ∀ k h, m.get? k = some h → serves k h) : StopsCleanly m serves fails untouched (.ok ()) m.keys
  | stopped {k : Nat} {h : Hook} {e : Error} (found : m.get? k = some h) (failing : fails k h e)
      (before : ∀ j < k, ∀ g, m.get? j = some g → serves j g) (behind : ∀ j, k ≤ j → untouched j) :
      StopsCleanly m serves fails untouched (.error e) (m.keys.filter (· ≤ k))

/-- An entry of a list with ascending positions is what is found at its position. -/
theorem mem_iff_lookup {l : List (Nat × Hook)} (asc : (l.map Prod.fst).Pairwise (· < ·)) {k : Nat} {h : Hook} :
    (k, h) ∈ l ↔ l.lookup k = some h := by
  induction l with
  | nil => simp
  | cons p rest ih =>
    obtain ⟨j, g⟩ := p
    rw [List.map_cons, List.pairwise_cons] at asc
    rw [lookup_cons_eq, List.mem_cons, ih asc.2]
    by_cases hkj : k = j
    · subst hkj
      have later : rest.lookup k = none := lookup_eq_none fun hk => Nat.lt_irrefl k (asc.1 k hk)
      simp [later, eq_comm]
    · simp [hkj]

variable {m : HookMap} {k : Nat} {h : Hook}

theorem mem_entries : (k, h) ∈ m.entries ↔ m.get? k = some h := mem_iff_lookup m.ascending

theorem get?_eq_none : m.get? k = none ↔ k ∉ m.keys := by
  constructor
  · intro hk hmem
    obtain ⟨⟨_, g⟩, hg, rfl⟩ := List.mem_map.1 hmem
    exact absurd ((mem_entries.1 hg).symm.trans hk) (by simp)
  · exact lookup_eq_none

section Split

variable {serves : Nat → Hook → Prop} {fails : Nat → Hook → Error → Prop} {untouched : Nat → Prop}
  {done left : List (Nat × Hook)} {e : Error}

theorem StopsCleanly.each {outcome : Except Error Unit} {ks : List Nat}
    (ends : m.StopsCleanly serves fails untouched outcome ks) (hok : outcome = .ok ()) (found : m.get? k = some h) :
    serves k h := by
  cases ends with
  | all each => exact each k h found
  | stopped => cases hok

theorem StopsCleanly.first {outcome : Except Error Unit} {ks : List Nat}
    (ends : m.StopsCleanly serves fails untouched outcome ks) (herr : outcome = .error e) :
    ∃ k h, m.get? k = some h ∧ fails k h e ∧ ∀ j < k, ∀ g, m.get? j = some g → serves j g := by
  cases ends with
  | all => cases herr
  | stopped found failing before =>
    cases herr
    exact ⟨_, _, found, failing, before⟩

theorem stopsCleanly_of_all (each : ∀ p ∈ m.entries, serves p.1 p.2) :
    m.StopsCleanly serves fails untouched (.ok ()) (m.entries.map Prod.fst) :=
  .all fun _ _ found => each _ (mem_entries.2 found)

/-- Entries before the first that fails are those at smaller positions. -/
theorem stopsCleanly_of_split (split : m.entries = done ++ (k, h) :: left) (each : ∀ p ∈ done, serves p.1 p.2)
    (failing : fails k h e) (behind : ∀ j, j ∉ done.map Prod.fst → untouched j) :
    m.StopsCleanly serves fails untouched (.error e) (done.map Prod.fst ++ [k]) := by
  have asc := m.ascending
  rw [split, List.map_append, List.map_cons, List.pairwise_append, List.pairwise_cons] at asc
  obtain ⟨-, ⟨later, -⟩, earlier⟩ := asc
  have smaller : ∀ j ∈ done.map Prod.fst, j < k := fun j hj => earlier j hj k List.mem_cons_self
  have visited : done.map Prod.fst ++ [k] = m.keys.filter (· ≤ k) := by
    have own : (done.map Prod.fst).filter (· ≤ k) = done.map Prod.fst :=
      List.filter_eq_self.2 fun j hj => by simpa using Nat.le_of_lt (smaller j hj)
    have none : (left.map Prod.fst).filter (· ≤ k) = [] :=
      List.filter_eq_nil_iff.2 fun j hj => by simpa using later j hj
    simp [keys, split, own, none]
  have found : m.get? k = some h := mem_entries.1 (by simp [split])
  rw [visited]
  refine .stopped found failing ?_ ?_
  · intro j hj g hg
    have mem : (j, g) ∈ done ++ (k, h) :: left := split ▸ mem_entries.2 hg
    rcases List.mem_append.1 mem with hdone | hleft
    · exact each _ hdone
    · rcases List.mem_cons.1 hleft with heq | hleft
      · cases heq
        exact absurd hj (Nat.lt_irrefl k)
      · exact absurd (later j (List.mem_map.2 ⟨_, hleft, rfl⟩)) (Nat.lt_asymm hj)
  · intro j hj
    exact behind j fun hmem => Nat.lt_irrefl j (Nat.lt_of_lt_of_le (smaller j hmem) hj)

end Split

end HookMap

end StatementPool
