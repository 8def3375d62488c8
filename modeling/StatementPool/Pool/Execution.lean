import StatementPool.Pool.Statement
/-!
# Executions

A queued statement runs on shared data. Its arguments name a collection and two counters: the
collection is locked for the whole execution, the counters are loaded before the statement runs
and stored after it, unless it panics. `Args.executeWith` does all this at once; `Execution.step`
does it piece by piece, so that the pieces of other threads may come between.
-/

namespace StatementPool

/-- What an execution works on; a part that is absent is not used. -/
structure Args where
  params : Option Record
  results : Option Nat
  insertId : Option Nat
  rows : Option Nat

namespace Args

def empty : Args := ⟨none, none, none, none⟩

/-- What a statement receives under these arguments. -/
def slots (a : Args) (w : World) : Slots :=
  ⟨a.params, a.results.bind w.content?, a.insertId.map w.counter, a.rows.map w.counter⟩

/-- Execute a statement at once; absent when it waits for a gate that is closed. -/
def executeWith (a : Args) (s : Statement) (w : World) : Option (World × Outcome) :=
  match s.execute w (a.slots w) with
  | none => none
  | some (w, x, o) =>
    let w := w.putContent a.results x.results
    match o with
    | .panicked _ => some (w, o)
    | _ => some ((w.publish a.insertId x.insertId).publish a.rows x.rows, o)

def shown (a : Args) (w : World) : String :=
  "QueryArgs \x7b parameters: " ++ boolText a.params.isSome ++ ", results: " ++
    boolText a.results.isSome ++ ", insert_id: " ++ optionShown (a.insertId.map w.counter) ++
    ", rows: " ++ optionShown (a.rows.map w.counter) ++ " \x7d"

end Args

inductive ExecutionPhase where
  | lock
  | loadInsertId
  | loadRows
  | begin
  /-- Copy the rows that are left; some have been copied. -/
  | copy (left : List Row) (copied : Nat)
  | wait (gate : Nat)
  | storeInsertId (o : Outcome)
  | storeRows (o : Outcome)
  | unlock (o : Outcome)
  | finished (o : Outcome)

/-- An execution in progress, with its own copies of the counters. -/
structure Execution where
  statement : Statement
  args : Args
  insertId : Option Nat
  rows : Option Nat
  phase : ExecutionPhase

namespace Execution

def start (s : Statement) (a : Args) : Execution := ⟨s, a, none, none, .lock⟩

def slots (x : Execution) (w : World) : Slots :=
  ⟨x.args.params, x.args.results.bind w.content?, x.insertId, x.rows⟩

/-- The execution after its statement ended: a panic leaves the counters alone. -/
def ended (x : Execution) (o : Outcome) : Execution :=
  match o with
  | .panicked _ => { x with phase := .unlock o }
  | _ => { x with phase := .storeInsertId o }

/-- Run the statement as far as it goes in one piece. -/
def runStatement (x : Execution) (w : World) : Option (Execution × World) :=
  match x.statement.execute w (x.slots w) with
  | none => none
  | some (w, y, o) =>
    some ({ x with insertId := y.insertId, rows := y.rows }.ended o,
      w.putContent x.args.results y.results)

/-- Begin to run the statement: a search with results copies row by row, and a gate is reached
before it is passed. -/
def begin (x : Execution) (w : World) : Option (Execution × World) :=
  match x.statement with
  | .select table =>
    match x.args.results.bind w.content? with
    | none => x.runStatement w
    | some _ =>
      match filterRow x.args.params with
      | .error e => some (x.ended (.failed e), w)
      | .ok filter => some ({ x with phase := .copy (matching filter (w.table table)) 0 }, w)
  | .gated gate => some ({ x with phase := .wait gate }, w.reach gate)
  | _ => x.runStatement w

def copyRow (x : Execution) (w : World) (row : Row) (left : List Row) (copied : Nat) :
    Option (Execution × World) :=
  match x.args.results.bind w.content? with
  | none => none
  | some c =>
    match c.appendRow row with
    | (c, .error e) => some (x.ended (.failed e), w.putContent x.args.results (some c))
    | (c, .ok ()) =>
      some ({ x with phase := .copy left (copied + 1) }, w.putContent x.args.results (some c))

/-- The next piece of an execution on a thread; absent while it has to wait, and at its end. -/
def step (me : ThreadId) (x : Execution) (w : World) : Option (Execution × World) :=
  match x.phase with
  | .lock =>
    match x.args.results with
    | none => some ({ x with phase := .loadInsertId }, w)
    | some c =>
      match w.holder c with
      | some _ => none
      | none => some ({ x with phase := .loadInsertId }, w.setHolder c (some me))
  | .loadInsertId =>
    some ({ x with insertId := x.args.insertId.map w.counter, phase := .loadRows }, w)
  | .loadRows => some ({ x with rows := x.args.rows.map w.counter, phase := .begin }, w)
  | .begin => x.begin w
  | .copy [] copied => some ({ x with rows := setSlot x.rows copied }.ended .done, w)
  | .copy (row :: left) copied => x.copyRow w row left copied
  | .wait gate => if w.isOpen gate then some (x.ended .done, w) else none
  | .storeInsertId o => some ({ x with phase := .storeRows o }, w.publish x.args.insertId x.insertId)
  | .storeRows o => some ({ x with phase := .unlock o }, w.publish x.args.rows x.rows)
  | .unlock o =>
    match x.args.results with
    | none => some ({ x with phase := .finished o }, w)
    | some c => some ({ x with phase := .finished o }, w.setHolder c none)
  | .finished _ => none

end Execution

end StatementPool
