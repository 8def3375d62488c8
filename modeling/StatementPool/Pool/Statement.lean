import StatementPool.Notification
import StatementPool.Pool.World
/-!
# Statements

A statement runs on what its caller hands it: a record of parameters, a collection for the rows
of the result, and the two numbers that it may set. The statements of this library work on tables
in memory; a planned statement does what its plan says, whatever it receives.
-/

namespace StatementPool

/-- How a statement comes back. What a worker does with this is not protected against panics: showing
the text of a driver's error, and running the destructors of what a statement gave up with, of its
arguments and of the statement itself, are taken not to panic. -/
inductive Outcome where
  | done
  | failed (e : Error)
  /-- The statement gave up in the middle, with a text or with something that is none. -/
  | panicked (message : Option String)

def Outcome.fault : Outcome → Option QueryFault
  | .done => none
  | .failed e => some (.ofError e)
  | .panicked message => some ⟨"statement panicked: " ++ message.getD "unknown panic payload"⟩

inductive Ending where
  | success
  | failure (e : Error)
  /-- Fail with a text that says what was received. -/
  | echo
  | panic (message : Option String)

/-- What a planned statement does: append blank records and take some back, set the numbers that
are given, and end. -/
structure Plan where
  append : Nat
  remove : Nat
  insertId : Option Nat
  rows : Option Nat
  ending : Ending

inductive Statement where
  | insert (table : Nat)
  /-- Copy the rows of a table that begin with the parameters. -/
  | select (table : Nat)
  | fail (text : String)
  | panic (text : String)
  | gated (gate : Nat)
  | planned (plan : Plan)

/-- What a statement receives, and what is in the same places when it has run. -/
structure Slots where
  params : Option Record
  results : Option Collection
  insertId : Option Nat
  rows : Option Nat

/-- Set a number for which the caller has a place. -/
def setSlot (slot : Option Nat) (n : Nat) : Option Nat := slot.map fun _ => n

/-! ## Rows of records -/

def Record.encode (r : Record) : Except Error Row :=
  match bindParams r (HookMap.ofRecord r) with
  | (_, .error e) => .error e
  | (m, .ok ()) => .ok m.values

/-- Store a row into a record; the first columns stay stored when a later one does not fit. -/
def Record.fill (r : Record) (row : Row) : Record × Except Error Unit :=
  match loadRow (HookMap.ofRecord r) row with
  | (_, .error e) => (r, .error e)
  | (m, .ok ()) => fetchRow r m

/-- The row that a search compares with: that of the parameters, or none of any columns. -/
def filterRow : Option Record → Except Error Row
  | none => .ok []
  | some r => r.encode

def matching (filter : Row) (rows : List Row) : List Row := rows.filter (Value.startsWith · filter)

/-- Append a record and store a row into it; a record that cannot hold the row is taken back. -/
def Collection.appendRow (c : Collection) (row : Row) : Collection × Except Error Unit :=
  match c.blank.fill row with
  | (r, .ok ()) => (c.append.modifyBack fun _ => r, .ok ())
  | (_, .error e) => (c.append.removeLast.1, .error e)

/-- Append rows up to the first that does not fit, and count them. -/
def Collection.appendRows (c : Collection) (count : Nat) : List Row → Collection × Except Error Nat
  | [] => (c, .ok count)
  | row :: rest =>
    match c.appendRow row with
    | (c, .error e) => (c, .error e)
    | (c, .ok ()) => c.appendRows (count + 1) rest

/-! ## Plans -/

def optionShown : Option Nat → String
  | none => "None"
  | some n => "Some(" ++ Numeral.text n ++ ")"

def Slots.shown (x : Slots) : String :=
  "params=" ++ optionShown (x.params.map (·.count)) ++
    " results=" ++ optionShown (x.results.map (·.size)) ++
    " insert_id=" ++ optionShown x.insertId ++ " rows=" ++ optionShown x.rows

def iterate {α : Type} (f : α → α) : Nat → α → α
  | 0, a => a
  | n + 1, a => iterate f n (f a)

/-- What is in the slots when a plan has been carried out. -/
def Plan.apply (p : Plan) (x : Slots) : Slots :=
  { x with
    results := x.results.map fun c =>
      iterate (fun c => c.removeLast.1) p.remove (iterate Collection.append p.append c)
    insertId := x.insertId.map fun old => p.insertId.getD old
    rows := x.rows.map fun old => p.rows.getD old }

def Plan.outcome (p : Plan) (x : Slots) : Outcome :=
  match p.ending with
  | .success => .done
  | .failure e => .failed e
  | .echo => .failed (.other x.shown)
  | .panic message => .panicked message

/-! ## Running a statement -/

def insertInto (table : Nat) (w : World) (x : Slots) : World × Slots × Outcome :=
  match x.params with
  | none => (w, x, .failed (.binding .noParameters))
  | some r =>
    match r.encode with
    | .error e => (w, x, .failed e)
    | .ok row =>
      let w := w.push table row
      (w, { x with insertId := setSlot x.insertId (w.table table).length, rows := setSlot x.rows 1 },
        .done)

/-- Copy the rows that match into the results, or count them. -/
def selectFrom (table : Nat) (w : World) (x : Slots) : Slots × Outcome :=
  match filterRow x.params with
  | .error e => (x, .failed e)
  | .ok filter =>
    let rows := matching filter (w.table table)
    match x.results with
    | none => ({ x with rows := setSlot x.rows rows.length }, .done)
    | some c =>
      match c.appendRows 0 rows with
      | (c, .error e) => ({ x with results := some c }, .failed e)
      | (c, .ok n) => ({ x with results := some c, rows := setSlot x.rows n }, .done)

/-- Run a statement to its end; absent when it waits for a gate that is closed. -/
def Statement.execute (s : Statement) (w : World) (x : Slots) : Option (World × Slots × Outcome) :=
  match s with
  | .insert table => some (insertInto table w x)
  | .select table =>
    let (x, o) := selectFrom table w x
    some (w, x, o)
  | .fail text => some (w, x, .failed (.execution text))
  | .panic text => some (w, x, .panicked (some text))
  | .gated gate => if w.isOpen gate then some (w.reach gate, x, .done) else none
  | .planned p => some (w, p.apply x, p.outcome x)

end StatementPool
