import StatementPool.Proofs.Record.Passes
import StatementPool.Record.Transfer
/-!
# Rows and hooks correspond by rank

The rank of a position is the number of hooks below it, and the entry at an index of a map is the hook with that rank
(`getElem?_entries`). So values are read and loaded by rank, whatever the positions are: a row that is loaded is the row
that is read afterwards, and between two maps of one size each value goes to the hook with the rank of its own. The map
that a series of edits leaves has at each position what the last edit of this position left there (`get?_edit`), so the
order of the others has no part in it.
-/

namespace StatementPool.HookMap

/-! ## Ranks -/

/-- How many hooks have a smaller position. -/
def rank (m : HookMap) (k : Nat) : Nat := m.keys.countP (· < k)

/-- In an ascending list the index of an entry is the number of positions below its own. -/
theorem getElem?_iff_rank {l : List (Nat × Hook)} (asc : (l.map Prod.fst).Pairwise (· < ·)) {p k : Nat} {h : Hook} :
    l[p]? = some (k, h) ↔ (k, h) ∈ l ∧ (l.map Prod.fst).countP (· < k) = p := by
  induction l generalizing p with
  | nil => simp
  | cons entry rest ih =>
    obtain ⟨j, g⟩ := entry
    rw [List.map_cons, List.pairwise_cons] at asc
    obtain ⟨first, asc⟩ := asc
    have below (hmem : (k, h) ∈ rest) : j < k := first k (List.mem_map_of_mem hmem)
    have noneBelow : (rest.map Prod.fst).countP (· < j) = 0 := by
      refine List.countP_eq_zero.2 fun i hi => ?_
      simpa using Nat.le_of_lt (first i hi)
    rw [List.map_cons, List.countP_cons, List.mem_cons]
    -- the first position is below all others: behind it the index and the number of positions below are both one more
    cases p with
    | zero =>
      rw [List.getElem?_cons_zero]
      constructor
      · rintro ⟨⟩
        exact ⟨.inl rfl, by simp [noneBelow]⟩
      · rintro ⟨eq | hmem, zero⟩
        · exact congrArg some eq.symm
        · simp [below hmem] at zero
    | succ p =>
      rw [List.getElem?_cons_succ, ih asc]
      constructor
      · rintro ⟨hmem, rfl⟩
        exact ⟨.inr hmem, by simp [below hmem]⟩
      · rintro ⟨eq | hmem, count⟩
        · cases eq
          simp [noneBelow] at count
        · exact ⟨hmem, by simpa [below hmem] using count⟩

variable {m n : HookMap} {row : List Value} {p k : Nat} {h : Hook} {v : Value}

/-- The entry at an index is the hook with this rank. -/
theorem getElem?_entries : m.entries[p]? = some (k, h) ↔ m.get? k = some h ∧ m.rank k = p := by
  rw [getElem?_iff_rank m.ascending, mem_entries]
  rfl

/-- The value at an index is that of the hook with this rank. -/
theorem getElem?_values : m.values[p]? = some v ↔ ∃ k h, m.get? k = some h ∧ m.rank k = p ∧ h.value = v := by
  rw [values, List.getElem?_map, Option.map_eq_some_iff]
  constructor
  · rintro ⟨⟨k, h⟩, entry, rfl⟩
    obtain ⟨found, ranked⟩ := getElem?_entries.1 entry
    exact ⟨k, h, found, ranked, rfl⟩
  · rintro ⟨k, h, found, ranked, rfl⟩
    exact ⟨(k, h), getElem?_entries.2 ⟨found, ranked⟩, rfl⟩

theorem value_of_rank (found : m.get? k = some h) : m.values[m.rank k]? = some h.value :=
  getElem?_values.2 ⟨k, h, found, rfl, rfl⟩

theorem length_values (m : HookMap) : m.values.length = m.size := List.length_map _

/-! ## Loading -/

/-- The hooks of `m` received a row and became those of `n`: positions and types stay, the row is what is read
afterwards, and the value at an index is in the hook with this rank. -/
structure Receives (m : HookMap) (row : List Value) (n : HookMap) : Prop where
  keys : n.keys = m.keys
  types : ∀ k, (n.get? k).map Hook.type = (m.get? k).map Hook.type
  values : n.values = row
  ranks : ∀ p v, row[p]? = some v ↔ ∃ k h, n.get? k = some h ∧ m.rank k = p ∧ h.value = v

theorem values_loadEntries {l : List (Nat × Hook)} (width : row.length = l.length) :
    (loadEntries l row).map (·.2.value) = row := by
  induction l generalizing row with
  | nil =>
    obtain rfl := List.length_eq_zero_iff.1 width
    rfl
  | cons entry l ih =>
    obtain ⟨v, row, rfl⟩ := List.exists_cons_of_length_eq_add_one width
    exact congrArg (v :: ·) (ih (Nat.succ.inj width))

theorem type_loadEntries {l : List (Nat × Hook)} (width : row.length = l.length) (k : Nat) :
    ((loadEntries l row).lookup k).map Hook.type = (l.lookup k).map Hook.type := by
  induction l generalizing row with
  | nil => rfl
  | cons entry l ih =>
    obtain ⟨v, row, rfl⟩ := List.exists_cons_of_length_eq_add_one width
    have loaded : loadEntries (entry :: l) (v :: row) = (entry.1, ⟨entry.2.type, v⟩) :: loadEntries l row := rfl
    rw [loaded, lookup_cons_eq, lookup_cons_eq]
    by_cases here : k = entry.1
    · rw [if_pos here, if_pos here]
      rfl
    · rw [if_neg here, if_neg here]
      exact ih (Nat.succ.inj width)

/-- A row of the right width is received. -/
theorem receives_loadRow (width : row.length = m.size) :
    (loadRow m row).2 = .ok () ∧ m.Receives row (loadRow m row).1 := by
  have entries : (loadRow m row).1.entries = loadEntries m.entries row := by rw [loadRow, dif_pos width, withEntries]
  have keys : (loadRow m row).1.keys = m.keys := by
    rw [HookMap.keys, entries]
    exact loadEntries_keys m.entries row width
  have values : (loadRow m row).1.values = row := by
    rw [HookMap.values, entries]
    exact values_loadEntries width
  refine ⟨by rw [loadRow, dif_pos width], keys, fun k => ?_, values, fun p v => ?_⟩
  · rw [get?, entries]
    exact type_loadEntries width k
  · have ranks : m.rank = (loadRow m row).1.rank := funext fun k => by rw [rank, rank, keys]
    rw [ranks, ← getElem?_values, values]

/-- A row of another width is refused, and no hook changes. -/
theorem loadRow_of_other_width (other : row.length ≠ m.size) :
    loadRow m row = (m, .error (.conversion (.rowWidth row.length m.size))) := by
  rw [loadRow, dif_neg other]

/-- What one map reads out goes by rank into the hooks of another one. -/
theorem Receives.carried {l : HookMap} (receives : n.Receives m.values l) {j : Nat} {g : Hook}
    (source : m.get? j = some g) (target : l.get? k = some h) (same : m.rank j = n.rank k) : h.value = g.value := by
  have read : m.values[n.rank k]? = some g.value := same ▸ value_of_rank source
  have stored : m.values[n.rank k]? = some h.value := (receives.ranks _ _).2 ⟨k, h, target, rfl, rfl⟩
  exact Option.some.inj (stored.symm.trans read)

/-! ## Edits -/

/-- A hook is put at a position, in the place of the one that may be there, or the hook that may be there is removed. -/
inductive Edit where
  | put (k : Nat) (h : Hook)
  | remove (k : Nat)

def Edit.apply (m : HookMap) : Edit → HookMap
  | put k h => m.insert k h
  | remove k => m.erase k

/-- What an edit leaves at a position. -/
def Edit.leaves (k : Nat) (here : Option Hook) : Edit → Option Hook
  | put j h => if k = j then some h else here
  | remove j => if k = j then none else here

/-- The map after edits, one after the other. -/
def edit (m : HookMap) (es : List Edit) : HookMap := es.foldl Edit.apply m

theorem get?_edit (m : HookMap) (es : List Edit) (k : Nat) :
    (m.edit es).get? k = es.foldl (Edit.leaves k) (m.get? k) := by
  induction es generalizing m with
  | nil => rfl
  | cons e es ih =>
    have step : (e.apply m).get? k = e.leaves k (m.get? k) := by
      cases e with
      | put j h => exact get?_insert m j h k
      | remove j => exact get?_erase m j k
    rw [List.foldl_cons, ← step]
    exact ih (e.apply m)

/-- A row is received exactly if it has a value for every hook, and otherwise no hook changes. What a map of the same
size reads out is such a row, and each of its values goes to the hook with the rank of its own. Maps in which edits left
the same hooks read and receive alike, in whatever order the edits came. -/
theorem rows_by_rank (m n : HookMap) (row : List Value) (es fs : List Edit) :
    ((loadRow m row).2 = .ok () ↔ row.length = m.size) ∧
      (row.length = m.size → m.Receives row (loadRow m row).1) ∧
      (row.length ≠ m.size → loadRow m row = (m, .error (.conversion (.rowWidth row.length m.size)))) ∧
      (n.size = m.size → (loadRow n m.values).2 = .ok () ∧ n.Receives m.values (loadRow n m.values).1 ∧
        ∀ j k g h, m.get? j = some g → (loadRow n m.values).1.get? k = some h → m.rank j = n.rank k →
          h.value = g.value) ∧
      ((∀ k, es.foldl (Edit.leaves k) (m.get? k) = fs.foldl (Edit.leaves k) (n.get? k)) →
        (m.edit es).values = (n.edit fs).values ∧ loadRow (m.edit es) row = loadRow (n.edit fs) row) := by
  refine ⟨⟨fun ok => ?_, fun width => (receives_loadRow width).1⟩, fun width => (receives_loadRow width).2,
    loadRow_of_other_width, fun sizes => ?_, fun same => ?_⟩
  · refine Decidable.byContradiction fun other => ?_
    rw [loadRow_of_other_width other] at ok
    cases ok
  · obtain ⟨ok, receives⟩ := receives_loadRow (m := n) ((length_values m).trans sizes.symm)
    exact ⟨ok, receives, fun _ _ _ _ => receives.carried⟩
  · have maps : m.edit es = n.edit fs := ext_get? fun k => by rw [get?_edit, get?_edit, same k]
    rw [maps]
    exact ⟨rfl, rfl⟩

/-- Hooks at three positions that are far apart, inserted from the last to the first. -/
def sparse : HookMap :=
  empty.edit [.put 40 (.fresh (.plain .text)), .put 7 (.fresh (.nullable .time)), .put 2 (.fresh (.plain .bit))]

/-- The same hooks in another order; one of them takes the place of another hook, and a fourth one is removed again. -/
def sparseEdits : List Edit :=
  [.put 7 (.fresh (.plain .blob)), .put 2 (.fresh (.plain .bit)), .put 5 (.fresh (.plain .date)),
    .put 40 (.fresh (.plain .text)), .remove 5, .put 7 (.fresh (.nullable .time))]

def sparseRow : List Value := [.bool true, .bool false, .text "x"]

/-- Hooks at the first three positions. -/
def dense : HookMap := .ofRecord (.blank [⟨.plain .bit, 0⟩, ⟨.plain .bit, 0⟩, ⟨.plain .text, 0⟩])

theorem rows_by_rank_of_sparse :
    (loadRow sparse sparseRow).2 = .ok () ∧ (loadRow sparse sparseRow).1.values = sparseRow ∧
      loadRow sparse [.null] = (sparse, .error (.conversion (.rowWidth 1 3))) ∧
      (∃ g h, (loadRow sparse sparseRow).1.get? 7 = some g ∧
        (loadRow dense (loadRow sparse sparseRow).1.values).1.get? 1 = some h ∧ h.value = g.value) ∧
      sparse.values = (empty.edit sparseEdits).values := by
  obtain ⟨width, received, -, -, edits⟩ := rows_by_rank sparse empty sparseRow [] sparseEdits
  obtain ⟨-, -, refused, -, -⟩ := rows_by_rank sparse sparse [.null] [] []
  obtain ⟨-, -, -, carried, -⟩ := rows_by_rank (loadRow sparse sparseRow).1 dense [] [] []
  refine ⟨width.2 rfl, (received rfl).values, refused (by decide), ?_, (edits fun k => ?_).1⟩
  · exact ⟨_, _, rfl, rfl, (carried rfl).2.2 7 1 _ _ rfl rfl rfl⟩
  · rw [← get?_edit, ← get?_edit]
    rfl

end StatementPool.HookMap
