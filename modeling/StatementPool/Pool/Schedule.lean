import StatementPool.Pool.Step
/-!
# Running a pool

One schedule among all: a thread makes a list of calls, the other threads step whenever it has to
wait, and afterwards they go on until none of them can. Every schedule of this module is a run of
`Pool.next`.
-/

namespace StatementPool

namespace Pool

/-- One step of a thread; the first parked worker is woken. -/
def stepFirst (s : Pool) (t : ThreadId) : Option Pool := s.step t s.parked.head?

/-- One step of the first thread of a list that can take one. -/
def stepAny (s : Pool) : List ThreadId → Option Pool
  | [] => none
  | t :: ts => match s.stepFirst t with
    | some s => some s
    | none => s.stepAny ts

/-- Let all threads step, at most `fuel` times, until `enough` says so or none can. -/
def settleUntil (enough : Pool → Bool) (first : ThreadId) : Nat → Pool → Pool
  | 0, s => s
  | fuel + 1, s =>
    if enough s then s
    else match s.stepAny (first :: List.range s.threads.length) with
      | some s => settleUntil enough first fuel s
      | none => s

/-- More steps than the calls of a finite script take. -/
def fuel : Nat := 10000000

/-- Let all threads step until none can. -/
def settle (s : Pool) : Pool := s.settleUntil (fun _ => false) 0 fuel

/-- Whether an outside thread has made all its calls. -/
def isIdle (t : ThreadId) (s : Pool) : Bool :=
  match s.framesOf t with
  | [.script .outside _ [] _] => true
  | _ => false

def answersOf (s : Pool) (t : ThreadId) : List Answer :=
  match s.framesOf t with
  | [.script .outside _ _ answers] => answers
  | _ => []

def assign (s : Pool) (t : ThreadId) (actions : List Action) : Pool :=
  match s.framesOf t with
  | [.script .outside owns [] _] => s.setFrames t [.script .outside owns actions []]
  | _ => s

/-- Make calls on an outside thread and let everything come to rest. -/
def call (s : Pool) (t : ThreadId) (actions : List Action) : Pool × List Answer :=
  let s := (s.assign t actions).settleUntil (isIdle t) t fuel
  (s.settle, s.answersOf t)

/-- An outside thread without a handle of its own begins to make calls; the others wait until
`enough` says so or the calls are made. -/
def fork (s : Pool) (actions : List Action) (enough : Pool → Bool) : Pool × ThreadId :=
  let t := s.threads.length
  let s := { s with threads := s.threads ++ [Thread.mk false [.script .outside false actions []]] }
  (s.settleUntil (fun s => enough s || s.isIdle t) t fuel, t)

end Pool

end StatementPool
