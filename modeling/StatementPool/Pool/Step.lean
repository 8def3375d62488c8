import StatementPool.Pool.Basic
/-!
# The steps of a pool

One step of a thread does the next phase of what it is doing. A step is absent while the thread
has to wait: for a lock, for a worker to exit, for workers to be ready, for a gate, or parked.
The order of the steps of different threads is free.
-/

namespace StatementPool

namespace Pool

/-! ## Submission -/

def stepPush (s : Pool) (t : ThreadId) (q : Query) (rest : List Frame) : Option Pool :=
  match s.queueHolder with
  | some _ => none
  | none =>
    some (({ s with queue := s.queue ++ [q] }.record (.submitted q.serial)).setFrames t
      (.notify q.serial :: rest))

def unpark (s : Pool) (w : ThreadId) : Pool :=
  if isParked (s.framesOf w) then s.setFrames w (.worker .seek :: (s.framesOf w).tail) else s

/-- Wake one parked worker, any of them, if there is one. -/
def stepNotify (s : Pool) (t : ThreadId) (serial : Nat) (target : Option ThreadId)
    (rest : List Frame) : Option Pool :=
  let s' := s.setFrames t (giveAnswer (.id (queryId serial)) rest)
  match target with
  | none => if s.parked.isEmpty then some s' else none
  | some w => if w ∈ s.parked then some (s'.unpark w) else none

/-! ## Start -/

/-- Whether threads can be named after the options: the name of a thread holds no NUL. -/
def namesThreads (o : Options) : Bool := !o.threadName.toList.contains '\x00'

/-- The next phase of a call of `start`, while the system spawns each thread that it asks for. -/
def stepStart (s : Pool) (t : ThreadId) (p : StartPhase) (rest : List Frame) : Option Pool :=
  match p with
  | .lock =>
    match s.workersHolder with
    | some _ => none
    | none => some ({ s with workersHolder := some t }.setFrames t (.start .check :: rest))
  | .check =>
    if s.handles.isEmpty then
      let s := { s with stop := false, ready := 0 }
      if namesThreads s.options then some (s.setFrames t (.start (.spawn 0) :: rest))
      else some ({ s with workersHolder := none }.setFrames t (giveAnswer .panicked rest))
    else
      some ({ s with workersHolder := none }.setFrames t
        (giveAnswer (.outcome (.error (.lifecycle .alreadyStarted))) rest))
  | .spawn spawned =>
    if spawned < s.options.maxThreads.toNat then
      let s := { s with
        handles := s.handles ++ [s.threads.length]
        threads := s.threads ++ [Thread.mk true [.worker .boot]] }
      some (s.setFrames t (.start (.spawn (spawned + 1)) :: rest))
    else some (s.setFrames t (.start (.wait none) :: rest))
  | .wait refusal =>
    if s.handles.length ≤ s.ready then
      match refusal with
      | none =>
        some ({ s with workersHolder := none }.setFrames t (giveAnswer (.outcome (.ok ())) rest))
      | some cause => some (s.setFrames t (.halt (.start cause) .stop :: rest))
    else none

/-- The system refuses to spawn the next worker: the call of `start` waits for those that it has
spawned, to stop them again. -/
def refuse (s : Pool) (t : ThreadId) (cause : String) : Option Pool :=
  match s.framesOf t with
  | .start (.spawn spawned) :: rest =>
    if spawned < s.options.maxThreads.toNat then
      some (s.setFrames t (.start (.wait (some cause)) :: rest))
    else none
  | _ => none

/-! ## Stopping the workers -/

def unparkAll (s : Pool) : Pool := s.parked.foldl unpark s

/-- The workers have exited, or are not waited for: the call that stopped them goes on. -/
def afterHalt (s : Pool) (t : ThreadId) (rest : List Frame) : Halter → Pool
  | .terminate => s.setFrames t (.terminate .drain :: rest)
  | .start cause =>
    { s with workersHolder := none }.setFrames t
      (giveAnswer (.outcome (.error (.lifecycle (.spawnFailed cause)))) rest)

/-- The next phase of stopping the workers. A call on a worker does not wait for that worker. -/
def stepHalt (s : Pool) (t : ThreadId) (caller : Halter) (p : HaltPhase) (rest : List Frame) :
    Option Pool :=
  match p with
  | .stop => some ({ s with stop := true }.setFrames t (.halt caller .wake :: rest))
  | .wake =>
    match s.queueHolder with
    | some _ => none
    | none =>
      some ({ s.unparkAll with handles := [] }.setFrames t (.halt caller (.join s.handles) :: rest))
  | .join [] => some (s.afterHalt t rest caller)
  | .join (w :: left) =>
    if w = t ∨ s.isFinished w then some (s.setFrames t (.halt caller (.join left) :: rest)) else none

/-! ## Terminate -/

def stepTerminate (s : Pool) (t : ThreadId) (p : TerminatePhase) (rest : List Frame) :
    Option Pool :=
  match p with
  | .lock =>
    match s.workersHolder with
    | some _ => none
    | none => some ({ s with workersHolder := some t }.setFrames t (.terminate .check :: rest))
  | .check =>
    if s.handles.isEmpty then
      some (({ s with workersHolder := none }.record (.terminated t 0)).setFrames t
        (giveAnswer (.count 0) rest))
    else some (s.setFrames t (.halt .terminate .stop :: rest))
  | .drain =>
    match s.queueHolder with
    | some _ => none
    | none =>
      let count := s.queue.length
      let s' := s.queue.foldl (fun s q => s.record (.discarded q.serial t)) s
      some ({ s' with queue := [], workersHolder := none }.setFrames t
        (.discard s.queue (.count count) :: rest))

/-- Drop the first of the queries that are left: its destructor makes its calls. Behind the last
one a call of `terminate` comes back. -/
def stepDiscard (s : Pool) (t : ThreadId) (left : List Query) (answer : Answer)
    (rest : List Frame) : Pool :=
  match left with
  | [] =>
    let s := match answer with
      | .count n => s.record (.terminated t n)
      | _ => s
    s.setFrames t (giveAnswer answer rest)
  | q :: left =>
    s.setFrames t
      (.script (.destructor q.serial) q.callback.owns (q.callback.destructor.map Action.relax) [] ::
        .discard left answer :: rest)

/-! ## Handles of the pool -/

/-- Give up a handle; with the last one the pool is terminated and taken down. -/
def releaseHandle (s : Pool) (t : ThreadId) (rest : List Frame) : Pool :=
  let s := { s with owners := s.owners - 1 }
  if s.owners = 0 then s.setFrames t (.terminate .lock :: .retire :: rest)
  else s.setFrames t (giveAnswer (.alive true) rest)

/-- Take the pool down. What is left in the queue goes with the last thread that can see it. -/
def stepRetire (s : Pool) (t : ThreadId) (rest : List Frame) : Pool :=
  if s.atWork.isEmpty then
    { s with retired := true, queue := [] }.setFrames t
      (.discard s.queue (.alive false) :: rest)
  else { s with retired := true }.setFrames t (giveAnswer (.alive false) rest)

/-! ## Scripts -/

/-- The end of a script: what it was for has happened, and a handle that it still owns goes. -/
def endScript (s : Pool) (t : ThreadId) (role : Role) (owns : Bool) (answers : List Answer)
    (rest : List Frame) : Option Pool :=
  let finish (s : Pool) : Pool := if owns then s.releaseHandle t rest else s.setFrames t rest
  match role with
  | .outside => none
  | .callback serial n => some (finish (s.record (.returned serial n answers)))
  | .destructor serial => some (finish (s.record (.dropped serial answers)))

def stepAction (s : Pool) (t : ThreadId) (role : Role) (owns : Bool) (a : Action)
    (todo : List Action) (answers : List Answer) (rest : List Frame) : Option Pool :=
  let next (answer : Answer) : List Frame := .script role owns todo (answers ++ [answer]) :: rest
  let calling (f : Frame) : List Frame := f :: .script role owns todo answers :: rest
  match a with
  | .panic => some (s.setFrames t (.script role owns [] answers :: rest))
  | .pushRow table row => some ({ s with world := s.world.push table row }.setFrames t (next .unit))
  | .openGate gate => some ({ s with world := s.world.openGate gate }.setFrames t (next .unit))
  | .release =>
    if owns then some (s.releaseHandle t (.script role false todo answers :: rest))
    else some (s.setFrames t (next (.alive (s.owners != 0))))
  | .submit statement args script destructor handle =>
    if s.owners = 0 then some (s.setFrames t (next .gone))
    else
      let q : Query := ⟨s.drawn, statement, args, ⟨script, destructor, handle⟩⟩
      some ({ s with
        drawn := s.drawn + 1
        owners := if handle then s.owners + 1 else s.owners }.setFrames t (calling (.push q)))
  | .start =>
    if s.owners = 0 then some (s.setFrames t (next .gone))
    else some (s.setFrames t (calling (.start .lock)))
  | .terminate =>
    if s.owners = 0 then some (s.setFrames t (next .gone))
    else some (s.setFrames t (calling (.terminate .lock)))
  | .isRunning =>
    if s.owners = 0 then some (s.setFrames t (next .gone))
    else match s.workersHolder with
      | some _ => none
      | none => some (s.setFrames t (next (.flag (!s.handles.isEmpty))))
  | .isStopping =>
    if s.owners = 0 then some (s.setFrames t (next .gone))
    else some (s.setFrames t (next (.flag s.stop)))
  | .queued =>
    if s.owners = 0 then some (s.setFrames t (next .gone))
    else match s.queueHolder with
      | some _ => none
      | none => some (s.setFrames t (next (.count s.queue.length)))
  | .live =>
    if s.owners = 0 then some (s.setFrames t (next .gone))
    else some (s.setFrames t (next (.count s.live)))
  | .status =>
    if s.owners = 0 then some (s.setFrames t (next .gone))
    else
      some (s.setFrames t
        (.script role owns (.live :: .queued :: .isRunning :: .isStopping :: todo) answers :: rest))

/-! ## Workers -/

def notification (s : Pool) (q : Query) (o : Outcome) : Notification :=
  ⟨s.options.messageType, q.id, o.fault⟩

/-- The next phase of a worker. It catches a panic of the statement and one of the callback. Between
the two it drops the arguments and shows the error, which are taken not to panic (see `Outcome`), as
is dropping what the callback panicked with. -/
def stepWorker (s : Pool) (t : ThreadId) (p : WorkerPhase) (rest : List Frame) : Option Pool :=
  match p with
  | .boot => some ({ s with live := s.live + 1 }.setFrames t (.worker .ready :: rest))
  | .ready => some ({ s with ready := s.ready + 1 }.setFrames t (.worker .seek :: rest))
  | .seek =>
    match s.queueHolder with
    | some _ => none
    | none => some ({ s with queueHolder := some t }.setFrames t (.worker .check :: rest))
  | .check =>
    if s.stop then some ({ s with queueHolder := none }.setFrames t (.worker .leave :: rest))
    else some (s.setFrames t (.worker .take :: rest))
  | .take =>
    match s.queue with
    | [] => some ({ s with queueHolder := none }.setFrames t (.worker .parked :: rest))
    | q :: queue =>
      some (({ s with queue := queue, queueHolder := none }.record (.taken q.serial t)).setFrames t
        (.worker (.execute q (.start q.statement q.args)) :: rest))
  | .parked => none
  | .execute q x =>
    match x.phase with
    | .finished o =>
      some ((s.record (.executed q.serial o)).setFrames t (.worker (.deliver q o) :: rest))
    | _ =>
      match x.step t s.world with
      | none => none
      | some (x', w) =>
        let s := match x.phase, x.args.results with
          | .lock, some c => s.record (.obtained q.serial c)
          | _, _ => s
        some ({ s with world := w }.setFrames t (.worker (.execute q x') :: rest))
  | .deliver q o =>
    let n := s.notification q o
    some ((s.record (.notified q.serial n)).setFrames t
      (.script (.callback q.serial n) q.callback.owns q.callback.script [] ::
        .worker .seek :: rest))
  | .leave => some ({ s with live := s.live - 1 }.setFrames t (.worker .exit :: rest))
  | .exit =>
    if s.retired && s.atWork.all (· == t) then
      some ({ s with queue := [] }.setFrames t (.discard s.queue .unit :: rest))
    else some (s.setFrames t rest)

/-! ## All threads -/

/-- The next step of a thread. When it wakes a worker, `target` says which. -/
def step (s : Pool) (t : ThreadId) (target : Option ThreadId) : Option Pool :=
  match s.framesOf t with
  | [] => none
  | f :: rest =>
    match f with
    | .script role owns [] answers => s.endScript t role owns answers rest
    | .script role owns (a :: todo) answers => s.stepAction t role owns a todo answers rest
    | .push q => s.stepPush t q rest
    | .notify serial => s.stepNotify t serial target rest
    | .start p => s.stepStart t p rest
    | .terminate p => s.stepTerminate t p rest
    | .halt caller p => s.stepHalt t caller p rest
    | .discard left answer => some (s.stepDiscard t left answer rest)
    | .retire => some (s.stepRetire t rest)
    | .worker p => s.stepWorker t p rest

end Pool

/-- What happens next: a thread takes a step, the system refuses to spawn a worker that a thread asks
for, or a parked worker wakes for no reason. -/
inductive Label where
  | run (t : ThreadId) (target : Option ThreadId)
  | refuse (t : ThreadId) (cause : String)
  | wake (t : ThreadId)

/-- The pool after a label; absent when it cannot happen. -/
def Pool.next (s : Pool) : Label → Option Pool
  | .run t target => s.step t target
  | .refuse t cause => s.refuse t cause
  | .wake t => if t ∈ s.parked then some (s.unpark t) else none

def Pool.run (s : Pool) : List Label → Option Pool
  | [] => some s
  | l :: ls => match s.next l with
    | none => none
    | some s => s.run ls

/-- What a pool with the given outside threads can become. -/
inductive Reachable (o : Options) (w : World) (scripts : List (List Action)) : Pool → Prop where
  | initial : Reachable o w scripts (.initial o w scripts)
  | next {s s' : Pool} (l : Label) : Reachable o w scripts s → s.next l = some s' →
      Reachable o w scripts s'

end StatementPool
