import StatementPool.Record.Transfer
/-!
# Records of any make

Values of other types serve as records as well: they answer what a record answers, and give out views for writing. A row
is fetched through these views. A `Record` has a place of its own for every position, and there fetching is
`fetchRow` (`Access.fetchRow_own`).
-/

namespace StatementPool

/-- How the values of a type serve as records: what one answers, the view that a position gives out for writing,
and what is left after a field was written through that view. None of the three need agree. -/
structure Access (σ : Type) where
  record : σ → Record
  writable? : σ → Nat → Option Field
  write : σ → Nat → Field → σ

namespace Access

/-- A record that is written where it is read. -/
def own : Access Record := ⟨id, Record.field?, Record.setField⟩

variable {σ : Type} (A : Access σ)

/-- The view for writing at a position that binds to a statement. -/
def writableAt (s : σ) (i : Nat) : Except Error Field :=
  if (A.record s).count ≤ i then .error (.binding (.pastCount i (A.record s).count))
  else match A.writable? s i with
    | some f => .ok f
    | none => .error (.binding (.pastCount i (A.record s).count))

def fetchField (s : σ) (k : Nat) (h : Hook) : σ × Except Error Unit :=
  match A.writableAt s k with
  | .error e => (s, .error e)
  | .ok f =>
    let (f', outcome) := h.fetch f
    (A.write s k f', outcome)

/-- Store the values of the hooks through the views for writing, up to the first failure. -/
def fetchEntries (s : σ) : List (Nat × Hook) → σ × Except Error Unit
  | [] => (s, .ok ())
  | (k, h) :: rest =>
    match A.fetchField s k h with
    | (s', .error e) => (s', .error e)
    | (s', .ok ()) => fetchEntries s' rest

def fetchRow (s : σ) (m : HookMap) : σ × Except Error Unit := A.fetchEntries s m.entries

theorem fetchEntries_own (r : Record) (l : List (Nat × Hook)) :
    own.fetchEntries r l = StatementPool.fetchEntries r l := by
  induction l generalizing r with
  | nil => rfl
  | cons p rest ih =>
    obtain ⟨k, h⟩ := p
    have first : own.fetchField r k h = r.fetchField k h := rfl
    simp only [fetchEntries, StatementPool.fetchEntries, first]
    rcases r.fetchField k h with ⟨r', _ | _⟩
    · rfl
    · exact ih r'

/-- Fetching into a record is fetching into storage that is written where it is read. -/
theorem fetchRow_own (r : Record) (m : HookMap) : own.fetchRow r m = StatementPool.fetchRow r m :=
  fetchEntries_own r m.entries

end Access

end StatementPool
