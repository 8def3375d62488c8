import StatementPool.Field.Encoding
import StatementPool.Field.Decoding
import StatementPool.Record.Basic
/-!
# Hooks

A hook carries the value of one field to or from a driver, and is bound to the type of that
field. The hooks of a statement are kept by the position of their field, in ascending order, so
two maps with the same hooks are equal.
-/

namespace StatementPool

/-- A value on its way between a field and a driver. -/
structure Hook where
  type : SqlType
  value : Value

namespace Hook

/-- A hook that carries nothing yet. -/
def fresh (type : SqlType) : Hook := ⟨type, .null⟩

def checkType (h : Hook) (f : Field) : Except Error Unit :=
  if f.sqlType = h.type then .ok () else .error (.binding (.otherType h.type f.sqlType))

def bind (h : Hook) (f : Field) : Except Error Hook := do
  h.checkType f
  let v ← f.encode
  pure { h with value := v }

/-- Store the carried value into a field. -/
def fetch (h : Hook) (f : Field) : Field × Except Error Unit :=
  match h.checkType f with
  | .error e => (f, .error e)
  | .ok () => f.decode h.value

end Hook

/-- Hooks by position, in ascending order. -/
structure HookMap where
  entries : List (Nat × Hook)
  ascending : (entries.map Prod.fst).Pairwise (· < ·)

namespace HookMap

def empty : HookMap := ⟨[], .nil⟩

def size (m : HookMap) : Nat := m.entries.length

def keys (m : HookMap) : List Nat := m.entries.map Prod.fst

def get? (m : HookMap) (k : Nat) : Option Hook := m.entries.lookup k

/-! ## Insertion and removal -/

/-- Put a hook in its place, replacing the one with the same position. -/
def insertEntry (k : Nat) (h : Hook) : List (Nat × Hook) → List (Nat × Hook)
  | [] => [(k, h)]
  | (j, g) :: rest =>
    if k < j then (k, h) :: (j, g) :: rest
    else if k = j then (k, h) :: rest
    else (j, g) :: insertEntry k h rest

theorem mem_insertEntry {k : Nat} {h : Hook} {l : List (Nat × Hook)} {j : Nat} :
    j ∈ (insertEntry k h l).map Prod.fst ↔ j = k ∨ j ∈ l.map Prod.fst := by
  induction l with
  | nil => simp [insertEntry]
  | cons p rest ih =>
    obtain ⟨i, g⟩ := p
    simp only [insertEntry]
    split
    · simp
    · split
      · rename_i _ he; subst he; simp
      · simp only [List.map_cons, List.mem_cons, ih]
        constructor
        · rintro (h | h | h)
          · exact .inr (.inl h)
          · exact .inl h
          · exact .inr (.inr h)
        · rintro (h | h | h)
          · exact .inr (.inl h)
          · exact .inl h
          · exact .inr (.inr h)

theorem insertEntry_ascending (k : Nat) (h : Hook) (l : List (Nat × Hook))
    (hl : (l.map Prod.fst).Pairwise (· < ·)) :
    ((insertEntry k h l).map Prod.fst).Pairwise (· < ·) := by
  induction l with
  | nil => simp [insertEntry]
  | cons p rest ih =>
    obtain ⟨i, g⟩ := p
    simp only [List.map_cons, List.pairwise_cons] at hl
    simp only [insertEntry]
    split
    · rename_i hk
      simp only [List.map_cons, List.pairwise_cons, List.mem_cons]
      refine ⟨?_, hl.1, hl.2⟩
      rintro j (rfl | hj)
      · exact hk
      · exact Nat.lt_trans hk (hl.1 j hj)
    · split
      · rename_i _ he
        subst he
        simpa only [List.map_cons, List.pairwise_cons] using hl
      · rename_i h1 h2
        simp only [List.map_cons, List.pairwise_cons]
        refine ⟨?_, ih hl.2⟩
        intro j hj
        rcases mem_insertEntry.1 hj with rfl | hj
        · omega
        · exact hl.1 j hj

def insert (m : HookMap) (k : Nat) (h : Hook) : HookMap :=
  ⟨insertEntry k h m.entries, insertEntry_ascending k h m.entries m.ascending⟩

def erase (m : HookMap) (k : Nat) : HookMap :=
  ⟨m.entries.filter (·.1 != k), m.ascending.sublist (List.filter_sublist.map Prod.fst)⟩

/-- The map of entries whose positions are those of `m`. -/
def withEntries (m : HookMap) (l : List (Nat × Hook))
    (h : l.map Prod.fst = m.entries.map Prod.fst) : HookMap :=
  ⟨l, h ▸ m.ascending⟩

/-! ## What is found afterwards -/

theorem lookup_cons_eq (k j : Nat) (h : Hook) (l : List (Nat × Hook)) :
    ((k, h) :: l).lookup j = if j = k then some h else l.lookup j := by
  by_cases e : j = k
  · subst e
    simp
  · rw [List.lookup_cons, beq_false_of_ne e]
    simp [e]

theorem lookup_insertEntry (k j : Nat) (h : Hook) (l : List (Nat × Hook)) :
    (insertEntry k h l).lookup j = if j = k then some h else l.lookup j := by
  induction l with
  | nil => rw [insertEntry, lookup_cons_eq]
  | cons p rest ih =>
    obtain ⟨i, g⟩ := p
    unfold insertEntry
    split
    · rw [lookup_cons_eq]
    · split
      · rename_i _ hi
        subst hi
        rw [lookup_cons_eq, lookup_cons_eq]
        by_cases e : j = k <;> simp [e]
      · rename_i _ hi
        rw [lookup_cons_eq, lookup_cons_eq, ih]
        by_cases e : j = k
        · subst e
          simp [hi]
        · simp [e]

theorem lookup_erase (k j : Nat) (l : List (Nat × Hook)) :
    (l.filter (·.1 != k)).lookup j = if j = k then none else l.lookup j := by
  induction l with
  | nil => by_cases e : j = k <;> simp [e]
  | cons p rest ih =>
    obtain ⟨i, g⟩ := p
    rw [List.filter_cons, lookup_cons_eq]
    by_cases hi : i = k
    · subst hi
      rw [if_neg (by simp), ih]
      by_cases e : j = i
      · rw [if_pos e, if_pos e]
      · rw [if_neg e, if_neg e, if_neg e]
    · have hb : ((i, g).1 != k) = true := by simp [hi]
      rw [if_pos hb, lookup_cons_eq, ih]
      by_cases e : j = k
      · subst e
        have hji : ¬ j = i := fun h => hi h.symm
        simp [hji]
      · simp [e]

@[simp] theorem get?_empty (k : Nat) : empty.get? k = none := rfl

@[simp] theorem get?_insert (m : HookMap) (k : Nat) (h : Hook) (j : Nat) :
    (m.insert k h).get? j = if j = k then some h else m.get? j :=
  lookup_insertEntry k j h m.entries

@[simp] theorem get?_erase (m : HookMap) (k j : Nat) :
    (m.erase k).get? j = if j = k then none else m.get? j :=
  lookup_erase k j m.entries

/-! ## Equality of maps -/

theorem lookup_eq_none {j : Nat} {l : List (Nat × Hook)} (h : j ∉ l.map Prod.fst) :
    l.lookup j = none := by
  induction l with
  | nil => rfl
  | cons p rest ih =>
    obtain ⟨i, g⟩ := p
    simp only [List.map_cons, List.mem_cons, not_or] at h
    rw [lookup_cons_eq, if_neg h.1, ih h.2]

/-- In an ascending list no later entry has the position of the first. -/
theorem lookup_tail_eq_none {k : Nat} {h : Hook} {l : List (Nat × Hook)}
    (hl : (((k, h) :: l).map Prod.fst).Pairwise (· < ·)) : l.lookup k = none := by
  rw [List.map_cons, List.pairwise_cons] at hl
  exact lookup_eq_none fun hk => Nat.lt_irrefl k (hl.1 k hk)

theorem eq_of_lookup_eq {l m : List (Nat × Hook)} (hl : (l.map Prod.fst).Pairwise (· < ·))
    (hm : (m.map Prod.fst).Pairwise (· < ·)) (h : ∀ k, l.lookup k = m.lookup k) : l = m := by
  induction l generalizing m with
  | nil =>
    cases m with
    | nil => rfl
    | cons p m =>
      obtain ⟨k, g⟩ := p
      have hk := h k
      rw [lookup_cons_eq, if_pos rfl] at hk
      cases hk
  | cons p l ih =>
    obtain ⟨k, g⟩ := p
    cases m with
    | nil =>
      have hk := h k
      rw [lookup_cons_eq, if_pos rfl] at hk
      cases hk
    | cons q m =>
      obtain ⟨j, g'⟩ := q
      have ascl := List.pairwise_cons.1 hl
      have ascm := List.pairwise_cons.1 hm
      -- the first position of each list occurs in the other one
      have hk : k = j ∨ k ∈ m.map Prod.fst := by
        by_cases e : k ∈ ((j, g') :: m).map Prod.fst
        · simpa using e
        · have hn := lookup_eq_none e
          rw [← h k, lookup_cons_eq, if_pos rfl] at hn
          cases hn
      have hj : j = k ∨ j ∈ l.map Prod.fst := by
        by_cases e : j ∈ ((k, g) :: l).map Prod.fst
        · simpa using e
        · have hn := lookup_eq_none e
          rw [h j, lookup_cons_eq, if_pos rfl] at hn
          cases hn
      have e : k = j := by
        rcases hk with e | hk
        · exact e
        · rcases hj with e | hj
          · exact e.symm
          · exact absurd (ascm.1 k hk) (Nat.lt_asymm (ascl.1 j hj))
      subst e
      have hg := h k
      rw [lookup_cons_eq, lookup_cons_eq, if_pos rfl, if_pos rfl] at hg
      cases hg
      have tails : ∀ i, l.lookup i = m.lookup i := by
        intro i
        by_cases e : i = k
        · subst e
          rw [lookup_tail_eq_none hl, lookup_tail_eq_none hm]
        · have hi := h i
          rwa [lookup_cons_eq, lookup_cons_eq, if_neg e, if_neg e] at hi
      rw [ih ascl.2 ascm.2 tails]

@[ext] theorem ext_get? {m n : HookMap} (h : ∀ k, m.get? k = n.get? k) : m = n := by
  obtain ⟨l, hl⟩ := m
  obtain ⟨l', hl'⟩ := n
  have e : l = l' := eq_of_lookup_eq hl hl' h
  subst e
  rfl

/-! ## Hooks of a record -/

/-- A fresh hook for each of the positions from `i` on, `left` of them. -/
def freshFrom (r : Record) (i : Nat) : Nat → List (Nat × Hook)
  | 0 => []
  | left + 1 => (i, .fresh (r.typeOf i)) :: freshFrom r (i + 1) left

theorem le_of_mem_freshFrom {r : Record} {i left j : Nat}
    (h : j ∈ (freshFrom r i left).map Prod.fst) : i ≤ j := by
  induction left generalizing i with
  | zero => simp [freshFrom] at h
  | succ left ih =>
    simp only [freshFrom, List.map_cons, List.mem_cons] at h
    rcases h with rfl | h
    · exact Nat.le_refl _
    · exact Nat.le_of_succ_le (ih h)

theorem freshFrom_ascending (r : Record) (i left : Nat) :
    ((freshFrom r i left).map Prod.fst).Pairwise (· < ·) := by
  induction left generalizing i with
  | zero => simp [freshFrom]
  | succ left ih =>
    simp only [freshFrom, List.map_cons, List.pairwise_cons]
    exact ⟨fun j hj => le_of_mem_freshFrom hj, ih (i + 1)⟩

def ofRecord (r : Record) : HookMap := ⟨freshFrom r 0 r.count, freshFrom_ascending r 0 r.count⟩

end HookMap

end StatementPool
