import StatementPool.Record.Hook
/-!
# Transfer between records and rows

Parameters go from the fields of a record into its hooks, and rows from hooks into the fields.
Both visit the hooks by ascending position and stop at the first that fails; what came before it
stays done, and what comes after it is untouched.
-/

namespace StatementPool

/-! ## Parameters -/

/-- Let every hook take the value of its field, up to the first failure. -/
def bindEntries (r : Record) : List (Nat × Hook) → List (Nat × Hook) × Except Error Unit
  | [] => ([], .ok ())
  | (k, h) :: rest =>
    match r.fieldAt k >>= h.bind with
    | .error e => ((k, h) :: rest, .error e)
    | .ok h' =>
      let (rest', outcome) := bindEntries r rest
      ((k, h') :: rest', outcome)

theorem bindEntries_keys (r : Record) (l : List (Nat × Hook)) :
    (bindEntries r l).1.map Prod.fst = l.map Prod.fst := by
  induction l with
  | nil => rfl
  | cons p rest ih =>
    obtain ⟨k, h⟩ := p
    simp only [bindEntries]
    split
    · rfl
    · simp [ih]

def bindParams (r : Record) (m : HookMap) : HookMap × Except Error Unit :=
  let result := bindEntries r m.entries
  (m.withEntries result.1 (bindEntries_keys r m.entries), result.2)

/-! ## Rows -/

def Record.fetchField (r : Record) (k : Nat) (h : Hook) : Record × Except Error Unit :=
  match r.fieldAt k with
  | .error e => (r, .error e)
  | .ok f =>
    let (f', outcome) := h.fetch f
    (r.setField k f', outcome)

/-- Store the values of the hooks into their fields, up to the first failure. -/
def fetchEntries (r : Record) : List (Nat × Hook) → Record × Except Error Unit
  | [] => (r, .ok ())
  | (k, h) :: rest =>
    match r.fetchField k h with
    | (r', .error e) => (r', .error e)
    | (r', .ok ()) => fetchEntries r' rest

def fetchRow (r : Record) (m : HookMap) : Record × Except Error Unit := fetchEntries r m.entries

/-- The values that the hooks carry, by ascending position. -/
def HookMap.values (m : HookMap) : List Value := m.entries.map (·.2.value)

/-- The entries with the values of a row in the place of their own. -/
def loadEntries (l : List (Nat × Hook)) (row : List Value) : List (Nat × Hook) :=
  l.zipWith (fun p v => (p.1, { p.2 with value := v })) row

theorem loadEntries_keys (l : List (Nat × Hook)) (row : List Value) (h : row.length = l.length) :
    (loadEntries l row).map Prod.fst = l.map Prod.fst := by
  induction l generalizing row with
  | nil => simp [loadEntries]
  | cons p l ih =>
    cases row with
    | nil => simp at h
    | cons v row =>
      simp only [List.length_cons, Nat.add_right_cancel_iff] at h
      simpa [loadEntries] using ih row h

/-- Hand a row to the hooks, one value each by ascending position. -/
def loadRow (m : HookMap) (row : List Value) : HookMap × Except Error Unit :=
  if h : row.length = m.size then
    (m.withEntries (loadEntries m.entries row) (loadEntries_keys m.entries row h), .ok ())
  else (m, .error (.conversion (.rowWidth row.length m.size)))

end StatementPool
