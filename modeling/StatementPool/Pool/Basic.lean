import StatementPool.Options.Basic
import StatementPool.Pool.Execution
/-!
# The state of a pool

Threads share a pool: outside threads call it, and its workers take queries from a queue, execute
them and run their callbacks, which may call the pool as well. A call that takes locks is a
sequence of phases, and each phase is one step of its thread. A thread is a stack of what it is
doing, the innermost call first.

A callback is a list of calls. Which calls it makes may depend on what it sees; in a run it makes
some list of them, so what holds for all lists holds for all callbacks.
-/

namespace StatementPool

/-- A call that a thread makes, or a panic; an `Action false` is never a panic. -/
inductive Action : optParam Bool true → Type where
  /-- Queue a statement with the calls of its callback, and those of the destructor that runs
  when the callback is dropped instead. A callback may panic and may own a handle of the pool. -/
  | submit {b} (statement : Statement) (args : Args) (script : List Action) (destructor : List (Action false))
    (owns : Bool) : Action b
  | start {b} : Action b
  | terminate {b} : Action b
  | isRunning {b} : Action b
  | isStopping {b} : Action b
  | queued {b} : Action b
  | live {b} : Action b
  /-- The last four in the order live, queued, running, stopping. -/
  | status {b} : Action b
  | release {b} : Action b
  | panic : Action
  | pushRow {b} (table : Nat) (row : Row) : Action b
  | openGate {b} (gate : Nat) : Action b

/-- A call as one of those that may also be a panic. -/
def Action.relax : Action false → Action
  | .submit statement args script destructor owns => .submit statement args script destructor owns
  | .start => .start
  | .terminate => .terminate
  | .isRunning => .isRunning
  | .isStopping => .isStopping
  | .queued => .queued
  | .live => .live
  | .status => .status
  | .release => .release
  | .pushRow table row => .pushRow table row
  | .openGate gate => .openGate gate

inductive Answer where
  | id (n : UInt64)
  | outcome (r : Except Error Unit)
  /-- The call gave up: it could not name a thread. -/
  | panicked
  | count (n : Nat)
  | flag (b : Bool)
  | alive (b : Bool)
  | gone
  | unit

/-- What becomes of a query when it is through. The worker catches a panic of the callback. Nothing
catches one of the destructor, which would unwind through the call that drops the callback, so
destructors are taken not to panic. -/
structure Callback where
  script : List Action
  destructor : List (Action false)
  owns : Bool

/-- A submitted execution. -/
structure Query where
  /-- How many queries were submitted before this one. -/
  serial : Nat
  statement : Statement
  args : Args
  callback : Callback

/-- The number of the `serial`-th query: a word of 64 bits that starts at one. -/
def queryId (serial : Nat) : UInt64 := UInt64.ofNat (serial + 1)

def Query.id (q : Query) : UInt64 := queryId q.serial

/-- Whose calls a script makes. -/
inductive Role where
  | outside
  | callback (serial : Nat) (n : Notification)
  | destructor (serial : Nat)

/-- What a worker does next. -/
inductive WorkerPhase where
  | boot
  | ready
  | seek
  | check
  /-- Take the first query, or park. -/
  | take
  | parked
  | execute (q : Query) (x : Execution)
  | deliver (q : Query) (o : Outcome)
  | leave
  | exit

/-- What a call of `start` does next. -/
inductive StartPhase where
  | lock
  | check
  | spawn (spawned : Nat)
  /-- Wait until the workers are ready. If no more of them could be spawned, `refusal` says why. -/
  | wait (refusal : Option String)

/-- What a call of `terminate` does next. -/
inductive TerminatePhase where
  | lock
  | check
  | drain

/-- The call that stops the workers: one of `terminate`, or one of `start` that gives up because it
could not spawn all of them. -/
inductive Halter where
  | terminate
  | start (refusal : String)

/-- What a call that stops the workers does next. -/
inductive HaltPhase where
  | stop
  | wake
  | join (left : List ThreadId)

/-- Something that a thread is doing. -/
inductive Frame where
  /-- Make the calls that are left; the answers so far are kept. -/
  | script (role : Role) (owns : Bool) (todo : List Action) (answers : List Answer)
  | push (q : Query)
  | notify (serial : Nat)
  | start (p : StartPhase)
  | terminate (p : TerminatePhase)
  | halt (caller : Halter) (p : HaltPhase)
  /-- Drop queries one by one, then answer. -/
  | discard (left : List Query) (answer : Answer)
  | retire
  | worker (p : WorkerPhase)

/-- A thread: whether it is a worker, and what it is doing. -/
structure Thread where
  isWorker : Bool
  frames : List Frame

inductive Event where
  | submitted (serial : Nat)
  | taken (serial : Nat) (worker : ThreadId)
  /-- The execution locked a collection. -/
  | obtained (serial collection : Nat)
  | executed (serial : Nat) (o : Outcome)
  | notified (serial : Nat) (n : Notification)
  /-- The callback came back; its calls had these answers. -/
  | returned (serial : Nat) (n : Notification) (answers : List Answer)
  /-- A call of `terminate` took the query out of the queue. -/
  | discarded (serial : Nat) (thread : ThreadId)
  /-- The callback was dropped; its destructor's calls had these answers. -/
  | dropped (serial : Nat) (answers : List Answer)
  /-- A call of `terminate` came back with a count. -/
  | terminated (thread : ThreadId) (count : Nat)

/-- A pool, the data that its statements work on, and its threads. -/
structure Pool where
  options : Options
  drawn : Nat
  queue : List Query
  stop : Bool
  /-- The workers that have begun and not left, as they count themselves. -/
  live : Nat
  /-- The workers of the last start that said that they are ready. -/
  ready : Nat
  /-- The workers to join when they are stopped. -/
  handles : List ThreadId
  workersHolder : Option ThreadId
  queueHolder : Option ThreadId
  owners : Nat
  retired : Bool
  world : World
  threads : List Thread
  log : List Event

namespace Pool

/-- A stopped pool with outside threads that make the given calls, each through a handle of its
own. -/
def initial (o : Options) (w : World) (scripts : List (List Action)) : Pool where
  options := o
  drawn := 0
  queue := []
  stop := false
  live := 0
  ready := 0
  handles := []
  workersHolder := none
  queueHolder := none
  owners := scripts.length
  retired := false
  world := w
  threads := scripts.map fun actions => ⟨false, [.script .outside true actions []]⟩
  log := []

def framesOf (s : Pool) (t : ThreadId) : List Frame :=
  match s.threads[t]? with
  | some th => th.frames
  | none => []

def setFrames (s : Pool) (t : ThreadId) (frames : List Frame) : Pool :=
  { s with threads := s.threads.modify t fun th => { th with frames := frames } }

def record (s : Pool) (e : Event) : Pool := { s with log := s.log ++ [e] }

def isFinished (s : Pool) (t : ThreadId) : Bool := (s.framesOf t).isEmpty

def isParked : List Frame → Bool
  | .worker .parked :: _ => true
  | _ => false

def parked (s : Pool) : List ThreadId :=
  (List.range s.threads.length).filter fun t => isParked (s.framesOf t)

def isAtWork (s : Pool) (t : ThreadId) : Bool :=
  match s.threads[t]? with
  | some th => th.isWorker && !th.frames.isEmpty
  | none => false

/-- The workers that have not finished. -/
def atWork (s : Pool) : List ThreadId := (List.range s.threads.length).filter s.isAtWork

end Pool

/-- The frames with an answer handed to the script in front. -/
def giveAnswer (a : Answer) : List Frame → List Frame
  | .script role owns todo answers :: rest => .script role owns todo (answers ++ [a]) :: rest
  | frames => frames

end StatementPool
