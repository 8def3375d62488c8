import StatementPool.Proofs.Pool.Threads
/-!
# The steps of a pool, case by case

`Act` lists once what a thread can do: the frame that it works on, the frames that take the place
of that frame, and what happens to everything that the threads share. `Pool.step_cases` says that
every step is one of these, so no other proof looks at the step function. An invariant of the pool
is then a case analysis over `Act`, lifted to every reachable state by `Reachable.keeps`.
-/

namespace StatementPool

/-- What a step of an execution reports: that it locked a collection. -/
def Execution.events (x : Execution) (serial : Nat) : List Event :=
  match x.phase, x.args.results with
  | .lock, some c => [.obtained serial c]
  | _, _ => []

namespace Pool

/-- How a script that ends or gives up its handle goes on: the handles that are left and the frames
of its thread. Without a handle nothing happens; the last handle takes the pool down. -/
inductive Leaving (owners : Nat) (rest : List Frame) : Bool → Nat → List Frame → Prop where
  | keep : Leaving owners rest false owners rest
  | share (h : owners - 1 ≠ 0) : Leaving owners rest true (owners - 1) (giveAnswer (.alive true) rest)
  | last (h : owners - 1 = 0) : Leaving owners rest true (owners - 1) (.terminate .lock :: .retire :: rest)

/-- What thread `t` can do in `s` on a frame above the frames `rest`: `Act s t rest f fs s'` when
the frames `fs` replace `f` and `rest`, and `s'` is `s` with all else that the step changes. -/
inductive Act (s : Pool) (t : ThreadId) (rest : List Frame) : Frame → List Frame → Pool → Prop where
  -- scripts
  | returned {i n owns answers owners fs} (hl : Leaving s.owners rest owns owners fs) :
    Act s t rest (.script (.callback i n) owns [] answers) fs
      { s with owners := owners, log := s.log ++ [.returned i n answers] }
  | dropped {i owns answers owners fs} (hl : Leaving s.owners rest owns owners fs) :
    Act s t rest (.script (.destructor i) owns [] answers) fs
      { s with owners := owners, log := s.log ++ [.dropped i answers] }
  | release {role todo answers owners fs}
    (hl : Leaving s.owners (.script role false todo answers :: rest) true owners fs) :
    Act s t rest (.script role true (.release :: todo) answers) fs { s with owners := owners }
  | answer {role owns a todo answers todo' answers'}
    (ht : todo' = todo ∨ todo' = [] ∨ todo' = .live :: .queued :: .isRunning :: .isStopping :: todo) :
    Act s t rest (.script role owns (a :: todo) answers) (.script role owns todo' answers' :: rest) s
  | pushRow {role owns table row todo answers} :
    Act s t rest (.script role owns (.pushRow table row :: todo) answers)
      (.script role owns todo (answers ++ [.unit]) :: rest) { s with world := s.world.push table row }
  | openGate {role owns gate todo answers} :
    Act s t rest (.script role owns (.openGate gate :: todo) answers)
      (.script role owns todo (answers ++ [.unit]) :: rest) { s with world := s.world.openGate gate }
  | submit {role owns st args script destructor handle todo answers} (ho : s.owners ≠ 0) :
    Act s t rest (.script role owns (.submit st args script destructor handle :: todo) answers)
      (.push ⟨s.drawn, st, args, ⟨script, destructor, handle⟩⟩ :: .script role owns todo answers :: rest)
      { s with drawn := s.drawn + 1, owners := if handle then s.owners + 1 else s.owners }
  | callStart {role owns todo answers} (ho : s.owners ≠ 0) :
    Act s t rest (.script role owns (.start :: todo) answers)
      (.start .lock :: .script role owns todo answers :: rest) s
  | callTerminate {role owns todo answers} (ho : s.owners ≠ 0) :
    Act s t rest (.script role owns (.terminate :: todo) answers)
      (.terminate .lock :: .script role owns todo answers :: rest) s
  -- submission
  | push {q} (hq : s.queueHolder = none) :
    Act s t rest (.push q) (.notify q.serial :: rest)
      { s with queue := s.queue ++ [q], log := s.log ++ [.submitted q.serial] }
  | notifyNone {i} (hp : s.parked = []) :
    Act s t rest (.notify i) (giveAnswer (.id (queryId i)) rest) s
  | notifyOne {i u urest} (hu : s.framesOf u = .worker .parked :: urest) (hne : u ≠ t) :
    Act s t rest (.notify i) (giveAnswer (.id (queryId i)) rest) (s.setFrames u (.worker .seek :: urest))
  -- start
  | startLock (hl : s.workersHolder = none) :
    Act s t rest (.start .lock) (.start .check :: rest) { s with workersHolder := some t }
  | startBegin (he : s.handles = []) (hn : namesThreads s.options = true) :
    Act s t rest (.start .check) (.start (.spawn 0) :: rest) { s with stop := false, ready := 0 }
  | startPanic (he : s.handles = []) (hn : namesThreads s.options = false) :
    Act s t rest (.start .check) (giveAnswer .panicked rest)
      { s with stop := false, ready := 0, workersHolder := none }
  | startRefused (he : s.handles ≠ []) :
    Act s t rest (.start .check) (giveAnswer (.outcome (.error (.lifecycle .alreadyStarted))) rest)
      { s with workersHolder := none }
  | spawn {k} (hk : k < s.options.maxThreads.toNat) :
    Act s t rest (.start (.spawn k)) (.start (.spawn (k + 1)) :: rest)
      { s with
        handles := s.handles ++ [s.threads.length]
        threads := s.threads ++ [⟨true, [.worker .boot]⟩] }
  | spawned {k} (hk : ¬ k < s.options.maxThreads.toNat) :
    Act s t rest (.start (.spawn k)) (.start (.wait none) :: rest) s
  | spawnFails {k cause} (hk : k < s.options.maxThreads.toNat) :
    Act s t rest (.start (.spawn k)) (.start (.wait (some cause)) :: rest) s
  | started (hr : s.handles.length ≤ s.ready) :
    Act s t rest (.start (.wait none)) (giveAnswer (.outcome (.ok ())) rest) { s with workersHolder := none }
  | abandoned {cause} (hr : s.handles.length ≤ s.ready) :
    Act s t rest (.start (.wait (some cause))) (.halt (.start cause) .stop :: rest) s
  -- stopping the workers
  | haltStop {caller} :
    Act s t rest (.halt caller .stop) (.halt caller .wake :: rest) { s with stop := true }
  | haltWake {caller} (hq : s.queueHolder = none) :
    Act s t rest (.halt caller .wake) (.halt caller (.join s.handles) :: rest)
      { s with threads := s.unparkAll.threads, handles := [] }
  | join {caller u left} (hu : u = t ∨ s.isFinished u = true) :
    Act s t rest (.halt caller (.join (u :: left))) (.halt caller (.join left) :: rest) s
  | joined : Act s t rest (.halt .terminate (.join [])) (.terminate .drain :: rest) s
  | startFailed {cause} :
    Act s t rest (.halt (.start cause) (.join []))
      (giveAnswer (.outcome (.error (.lifecycle (.spawnFailed cause)))) rest) { s with workersHolder := none }
  -- terminate
  | terminateLock (hl : s.workersHolder = none) :
    Act s t rest (.terminate .lock) (.terminate .check :: rest) { s with workersHolder := some t }
  | terminateIdle (he : s.handles = []) :
    Act s t rest (.terminate .check) (giveAnswer (.count 0) rest)
      { s with workersHolder := none, log := s.log ++ [.terminated t 0] }
  | terminateRunning (he : s.handles ≠ []) :
    Act s t rest (.terminate .check) (.halt .terminate .stop :: rest) s
  | drain (hq : s.queueHolder = none) :
    Act s t rest (.terminate .drain) (.discard s.queue (.count s.queue.length) :: rest)
      { s with
        queue := []
        workersHolder := none
        log := s.log ++ s.queue.map fun q => .discarded q.serial t }
  | terminateReturn {n} :
    Act s t rest (.discard [] (.count n)) (giveAnswer (.count n) rest)
      { s with log := s.log ++ [.terminated t n] }
  | discardEnd {a} (ha : ∀ n, a ≠ .count n) : Act s t rest (.discard [] a) (giveAnswer a rest) s
  | discard {q left a} :
    Act s t rest (.discard (q :: left) a)
      (.script (.destructor q.serial) q.callback.owns (q.callback.destructor.map Action.relax) [] ::
        .discard left a :: rest) s
  -- the end of the pool
  | retireEmpty (ha : s.atWork = []) :
    Act s t rest .retire (.discard s.queue (.alive false) :: rest) { s with retired := true, queue := [] }
  | retire (ha : s.atWork ≠ []) :
    Act s t rest .retire (giveAnswer (.alive false) rest) { s with retired := true }
  -- workers
  | boot : Act s t rest (.worker .boot) (.worker .ready :: rest) { s with live := s.live + 1 }
  | ready : Act s t rest (.worker .ready) (.worker .seek :: rest) { s with ready := s.ready + 1 }
  | seek (hq : s.queueHolder = none) :
    Act s t rest (.worker .seek) (.worker .check :: rest) { s with queueHolder := some t }
  | checkStop (hs : s.stop = true) :
    Act s t rest (.worker .check) (.worker .leave :: rest) { s with queueHolder := none }
  | checkGo (hs : s.stop = false) : Act s t rest (.worker .check) (.worker .take :: rest) s
  | park (hq : s.queue = []) :
    Act s t rest (.worker .take) (.worker .parked :: rest) { s with queueHolder := none }
  | take {q queue} (hq : s.queue = q :: queue) :
    Act s t rest (.worker .take) (.worker (.execute q (.start q.statement q.args)) :: rest)
      { s with queue := queue, queueHolder := none, log := s.log ++ [.taken q.serial t] }
  | execute {q x x' w} (hx : x.step t s.world = some (x', w)) :
    Act s t rest (.worker (.execute q x)) (.worker (.execute q x') :: rest)
      { s with world := w, log := s.log ++ x.events q.serial }
  | executed {q x o} (hx : x.phase = .finished o) :
    Act s t rest (.worker (.execute q x)) (.worker (.deliver q o) :: rest)
      { s with log := s.log ++ [.executed q.serial o] }
  | deliver {q o} :
    Act s t rest (.worker (.deliver q o))
      (.script (.callback q.serial (s.notification q o)) q.callback.owns q.callback.script [] ::
        .worker .seek :: rest)
      { s with log := s.log ++ [.notified q.serial (s.notification q o)] }
  | leave : Act s t rest (.worker .leave) (.worker .exit :: rest) { s with live := s.live - 1 }
  | exit : Act s t rest (.worker .exit) rest s
  | exitLast (hr : s.retired = true) :
    Act s t rest (.worker .exit) (.discard s.queue .unit :: rest) { s with queue := [] }
  | wake : Act s t rest (.worker .parked) (.worker .seek :: rest) s

/-- A step of a thread: it does something on its first frame. -/
def Steps (s : Pool) (t : ThreadId) (s' : Pool) : Prop :=
  ∃ f rest fs s₁, s.framesOf t = f :: rest ∧ Act s t rest f fs s₁ ∧ s' = s₁.setFrames t fs

/-! ## Every step is one of these -/

variable {s s' : Pool} {t : ThreadId} {rest : List Frame}

theorem leaving_releaseHandle (s : Pool) (t : ThreadId) (rest : List Frame) :
    ∃ owners fs, Leaving s.owners rest true owners fs ∧
      s.releaseHandle t rest = { s with owners := owners }.setFrames t fs := by
  unfold releaseHandle
  by_cases h : s.owners - 1 = 0
  · exact ⟨_, _, .last h, by simp [h]⟩
  · exact ⟨_, _, .share h, by simp [h]⟩

theorem act_endScript {role owns answers} (h : s.endScript t role owns answers rest = some s') :
    ∃ fs s₁, Act s t rest (.script role owns [] answers) fs s₁ ∧ s' = s₁.setFrames t fs := by
  cases role with
  | outside => cases h
  | callback i n =>
    cases h
    cases owns with
    | false => exact ⟨_, _, .returned .keep, rfl⟩
    | true =>
      obtain ⟨owners, fs, hl, e⟩ := leaving_releaseHandle (s.record (.returned i n answers)) t rest
      exact ⟨_, _, .returned hl, e⟩
  | destructor i =>
    cases h
    cases owns with
    | false => exact ⟨_, _, .dropped .keep, rfl⟩
    | true =>
      obtain ⟨owners, fs, hl, e⟩ := leaving_releaseHandle (s.record (.dropped i answers)) t rest
      exact ⟨_, _, .dropped hl, e⟩

theorem act_stepAction {role owns a todo answers}
    (h : s.stepAction t role owns a todo answers rest = some s') :
    ∃ fs s₁, Act s t rest (.script role owns (a :: todo) answers) fs s₁ ∧ s' = s₁.setFrames t fs := by
  cases a with
  | panic => cases h; exact ⟨_, _, .answer (.inr (.inl rfl)), rfl⟩
  | pushRow table row => cases h; exact ⟨_, _, .pushRow, rfl⟩
  | openGate gate => cases h; exact ⟨_, _, .openGate, rfl⟩
  | release =>
    simp only [stepAction] at h
    split at h
    · rename_i ho
      subst ho
      cases h
      obtain ⟨owners, fs, hl, e⟩ := leaving_releaseHandle s t (.script role false todo answers :: rest)
      exact ⟨_, _, .release hl, e⟩
    · cases h; exact ⟨_, _, .answer (.inl rfl), rfl⟩
  | submit st args script destructor handle =>
    simp only [stepAction] at h
    split at h
    · cases h; exact ⟨_, _, .answer (.inl rfl), rfl⟩
    · rename_i ho
      cases h; exact ⟨_, _, .submit ho, rfl⟩
  | start =>
    simp only [stepAction] at h
    split at h
    · cases h; exact ⟨_, _, .answer (.inl rfl), rfl⟩
    · rename_i ho
      cases h; exact ⟨_, _, .callStart ho, rfl⟩
  | terminate =>
    simp only [stepAction] at h
    split at h
    · cases h; exact ⟨_, _, .answer (.inl rfl), rfl⟩
    · rename_i ho
      cases h; exact ⟨_, _, .callTerminate ho, rfl⟩
  | isRunning | queued =>
    simp only [stepAction] at h
    split at h
    · cases h; exact ⟨_, _, .answer (.inl rfl), rfl⟩
    · split at h
      · cases h
      · cases h; exact ⟨_, _, .answer (.inl rfl), rfl⟩
  | isStopping | live =>
    simp only [stepAction] at h
    split at h
    · cases h; exact ⟨_, _, .answer (.inl rfl), rfl⟩
    · cases h; exact ⟨_, _, .answer (.inl rfl), rfl⟩
  | status =>
    simp only [stepAction] at h
    split at h
    · cases h; exact ⟨_, _, .answer (.inl rfl), rfl⟩
    · cases h; exact ⟨_, _, .answer (.inr (.inr rfl)), rfl⟩

theorem act_stepPush {q} (h : s.stepPush t q rest = some s') :
    ∃ fs s₁, Act s t rest (.push q) fs s₁ ∧ s' = s₁.setFrames t fs := by
  unfold stepPush at h
  split at h
  · cases h
  · cases h; exact ⟨_, _, .push (by assumption), rfl⟩

theorem act_stepNotify {i target} (ht : s.framesOf t = .notify i :: rest)
    (h : s.stepNotify t i target rest = some s') :
    ∃ fs s₁, Act s t rest (.notify i) fs s₁ ∧ s' = s₁.setFrames t fs := by
  unfold stepNotify at h
  cases target with
  | none =>
    simp only at h
    split at h
    · rename_i hp
      cases h
      exact ⟨_, _, .notifyNone (List.isEmpty_iff.1 hp), rfl⟩
    · cases h
  | some u =>
    simp only at h
    split at h
    · rename_i hu
      cases h
      obtain ⟨urest, hu⟩ := mem_parked.1 hu
      have hne : u ≠ t := by
        rintro rfl
        rw [ht] at hu
        cases hu
      refine ⟨_, _, .notifyOne hu hne, ?_⟩
      unfold unpark
      rw [framesOf_setFrames_ne hne, hu]
      exact setFrames_comm hne ..
    · cases h

theorem act_stepStart {p} (h : s.stepStart t p rest = some s') :
    ∃ fs s₁, Act s t rest (.start p) fs s₁ ∧ s' = s₁.setFrames t fs := by
  cases p with
  | lock =>
    simp only [stepStart] at h
    split at h
    · cases h
    · cases h; exact ⟨_, _, .startLock (by assumption), rfl⟩
  | check =>
    simp only [stepStart] at h
    split at h
    · rename_i he
      split at h
      · rename_i hn
        cases h; exact ⟨_, _, .startBegin (List.isEmpty_iff.1 he) hn, rfl⟩
      · rename_i hn
        cases h; exact ⟨_, _, .startPanic (List.isEmpty_iff.1 he) (Bool.eq_false_of_not_eq_true hn), rfl⟩
    · rename_i he
      cases h; exact ⟨_, _, .startRefused (fun e => he (List.isEmpty_iff.2 e)), rfl⟩
  | spawn k =>
    simp only [stepStart] at h
    split at h
    · rename_i hk
      cases h; exact ⟨_, _, .spawn hk, rfl⟩
    · rename_i hk
      cases h; exact ⟨_, _, .spawned hk, rfl⟩
  | wait refusal =>
    simp only [stepStart] at h
    split at h
    · rename_i hr
      cases refusal with
      | none => cases h; exact ⟨_, _, .started hr, rfl⟩
      | some cause => cases h; exact ⟨_, _, .abandoned hr, rfl⟩
    · cases h

theorem steps_of_refuse {cause} (h : s.refuse t cause = some s') : s.Steps t s' := by
  unfold refuse at h
  split at h
  · rename_i k rest ht
    split at h
    · rename_i hk
      cases h; exact ⟨_, rest, _, s, ht, .spawnFails hk, rfl⟩
    · cases h
  · cases h

theorem act_stepHalt {caller p} (h : s.stepHalt t caller p rest = some s') :
    ∃ fs s₁, Act s t rest (.halt caller p) fs s₁ ∧ s' = s₁.setFrames t fs := by
  cases p with
  | stop => cases h; exact ⟨_, _, .haltStop, rfl⟩
  | wake =>
    simp only [stepHalt] at h
    split at h
    · cases h
    · rename_i hq
      cases h
      refine ⟨_, _, .haltWake hq, ?_⟩
      rw [unparkAll_eq s]
  | join left =>
    cases left with
    | nil =>
      cases caller with
      | terminate => cases h; exact ⟨_, _, .joined, rfl⟩
      | start cause => cases h; exact ⟨_, _, .startFailed, rfl⟩
    | cons u left =>
      simp only [stepHalt] at h
      split at h
      · rename_i hu
        cases h; exact ⟨_, _, .join hu, rfl⟩
      · cases h

/-- Discarding records one event for each query, in order. -/
theorem foldl_record (s : Pool) (e : Query → Event) (qs : List Query) :
    qs.foldl (fun s q => s.record (e q)) s = { s with log := s.log ++ qs.map e } := by
  induction qs generalizing s with
  | nil => simp
  | cons q qs ih =>
    rw [List.foldl_cons, ih]
    simp [record]

theorem act_stepTerminate {p} (h : s.stepTerminate t p rest = some s') :
    ∃ fs s₁, Act s t rest (.terminate p) fs s₁ ∧ s' = s₁.setFrames t fs := by
  cases p with
  | lock =>
    simp only [stepTerminate] at h
    split at h
    · cases h
    · cases h; exact ⟨_, _, .terminateLock (by assumption), rfl⟩
  | check =>
    simp only [stepTerminate] at h
    split at h
    · rename_i he
      cases h; exact ⟨_, _, .terminateIdle (List.isEmpty_iff.1 he), rfl⟩
    · rename_i he
      cases h; exact ⟨_, _, .terminateRunning (fun e => he (List.isEmpty_iff.2 e)), rfl⟩
  | drain =>
    simp only [stepTerminate] at h
    split at h
    · cases h
    · rename_i hq
      cases h
      refine ⟨_, _, .drain hq, ?_⟩
      rw [foldl_record]

theorem act_stepDiscard (left : List Query) (a : Answer) :
    ∃ fs s₁, Act s t rest (.discard left a) fs s₁ ∧ s.stepDiscard t left a rest = s₁.setFrames t fs := by
  cases left with
  | nil =>
    by_cases ha : ∃ n, a = .count n
    · obtain ⟨n, rfl⟩ := ha
      exact ⟨_, _, .terminateReturn, rfl⟩
    · refine ⟨_, _, .discardEnd fun n e => ha ⟨n, e⟩, ?_⟩
      cases a <;> first | rfl | exact absurd ⟨_, rfl⟩ ha
  | cons q left => exact ⟨_, _, .discard, rfl⟩

theorem act_stepRetire :
    ∃ fs s₁, Act s t rest .retire fs s₁ ∧ s.stepRetire t rest = s₁.setFrames t fs := by
  unfold stepRetire
  split
  · rename_i ha
    exact ⟨_, _, .retireEmpty (List.isEmpty_iff.1 ha), rfl⟩
  · rename_i ha
    exact ⟨_, _, .retire (fun e => ha (List.isEmpty_iff.2 e)), rfl⟩

theorem act_stepWorker {p} (h : s.stepWorker t p rest = some s') :
    ∃ fs s₁, Act s t rest (.worker p) fs s₁ ∧ s' = s₁.setFrames t fs := by
  cases p with
  | boot => cases h; exact ⟨_, _, .boot, rfl⟩
  | ready => cases h; exact ⟨_, _, .ready, rfl⟩
  | seek =>
    simp only [stepWorker] at h
    split at h
    · cases h
    · cases h; exact ⟨_, _, .seek (by assumption), rfl⟩
  | check =>
    simp only [stepWorker] at h
    split at h
    · rename_i hs
      cases h; exact ⟨_, _, .checkStop hs, rfl⟩
    · rename_i hs
      cases h; exact ⟨_, _, .checkGo (Bool.eq_false_of_not_eq_true hs), rfl⟩
  | take =>
    simp only [stepWorker] at h
    split at h
    · cases h; exact ⟨_, _, .park (by assumption), rfl⟩
    · cases h; exact ⟨_, _, .take (by assumption), rfl⟩
  | parked => cases h
  | execute q x =>
    simp only [stepWorker] at h
    split at h
    · rename_i o hx
      cases h; exact ⟨_, _, .executed hx, rfl⟩
    · split at h
      · cases h
      · rename_i x' w hx
        cases h
        refine ⟨_, _, .execute hx, ?_⟩
        unfold Execution.events
        split <;> simp_all [record]
  | deliver q o => cases h; exact ⟨_, _, .deliver, rfl⟩
  | leave => cases h; exact ⟨_, _, .leave, rfl⟩
  | exit =>
    simp only [stepWorker] at h
    split at h
    · rename_i hr
      rw [Bool.and_eq_true] at hr
      cases h; exact ⟨_, _, .exitLast hr.1, rfl⟩
    · cases h; exact ⟨_, _, .exit, rfl⟩

theorem step_cases {target} (h : s.step t target = some s') : s.Steps t s' := by
  unfold step at h
  split at h
  · cases h
  · rename_i f rest hf
    suffices hact : ∃ fs s₁, Act s t rest f fs s₁ ∧ s' = s₁.setFrames t fs by
      obtain ⟨fs, s₁, ha, e⟩ := hact
      exact ⟨f, rest, fs, s₁, hf, ha, e⟩
    cases f with
    | script role owns todo answers =>
      cases todo with
      | nil => exact act_endScript h
      | cons a todo => exact act_stepAction h
    | push q => exact act_stepPush h
    | notify i => exact act_stepNotify hf h
    | start p => exact act_stepStart h
    | terminate p => exact act_stepTerminate h
    | halt caller p => exact act_stepHalt h
    | discard left a => cases h; exact act_stepDiscard left a
    | retire => cases h; exact act_stepRetire
    | worker p => exact act_stepWorker h

end Pool

/-- The thread that a label is about. -/
def Label.thread : Label → ThreadId
  | .run t _ | .refuse t _ | .wake t => t

namespace Pool

variable {s s' : Pool} {t : ThreadId} {rest : List Frame}

/-- Whatever happens next is a step of the thread that the label is about. -/
theorem next_steps {l : Label} (h : s.next l = some s') : s.Steps l.thread s' := by
  cases l with
  | run t target => exact step_cases h
  | refuse t cause => exact steps_of_refuse h
  | wake t =>
    simp only [next] at h
    split at h
    · rename_i ht
      cases h
      obtain ⟨rest, ht⟩ := mem_parked.1 ht
      refine ⟨_, rest, _, s, ht, .wake, ?_⟩
      simp [unpark, ht, isParked, Label.thread]
    · cases h

theorem next_cases {l : Label} (h : s.next l = some s') : ∃ t, s.Steps t s' := ⟨l.thread, next_steps h⟩

/-! ## What a step leaves alone -/

variable {M : Type} [AddCommMonoid M] {w : ThreadId → Frame → M} {f : Frame} {fs : List Frame} {s₁ : Pool}

@[simp] theorem act_options (h : Act s t rest f fs s₁) : s₁.options = s.options := by
  cases h <;> rfl

theorem act_length_le (h : Act s t rest f fs s₁) : s.threads.length ≤ s₁.threads.length := by
  cases h <;> simp

theorem act_isWorker (h : Act s t rest f fs s₁) {u : ThreadId} (hu : u < s.threads.length) :
    s₁.isWorker u = s.isWorker u := by
  cases h
  case spawn => exact isWorker_append rfl hu
  case notifyOne => exact isWorker_setFrames ..
  case haltWake => exact (isWorker_congr rfl u).trans (isWorker_unparkAll s u)
  all_goals rfl

/-- What another thread is doing stays the same, or it is woken, or it has just been started. -/
theorem act_framesOf (h : Act s t rest f fs s₁) (u : ThreadId) :
    s₁.framesOf u = s.framesOf u ∨ s₁.framesOf u = wokenFrames (s.framesOf u) ∨
      (u = s.threads.length ∧ s₁.framesOf u = [.worker .boot] ∧ s₁.isWorker u = true ∧
        s₁.handles = s.handles ++ [u] ∧ ∃ k, f = .start (.spawn k)) := by
  cases h
  case spawn k hk =>
    rcases Nat.lt_trichotomy u s.threads.length with hu | rfl | hu
    · exact .inl (framesOf_append rfl hu)
    · refine .inr (.inr ⟨rfl, framesOf_append_self rfl, ?_, rfl, k, rfl⟩)
      simp [isWorker]
    · rw [framesOf_eq_nil (Nat.le_of_lt hu), framesOf_eq_nil (by simp; omega)]
      exact .inl rfl
  case notifyOne i v vrest hv hne =>
    by_cases e : u = v
    · subst e
      rw [framesOf_setFrames_self (lt_of_framesOf hv), hv]
      exact .inr (.inl rfl)
    · exact .inl (framesOf_setFrames_ne e _)
  case haltWake =>
    rcases framesOf_unparkAll s u with e | e
    · exact .inl e
    · exact .inr (.inl e)
  all_goals exact .inl rfl

/-- A steady weight of the other threads grows with each new worker. -/
theorem act_others_add {b : M} (hw : Steady w) (hb : ∀ u, w u (.worker .boot) = b) (ht : t < s.threads.length)
    (h : Act s t rest f fs s₁) :
    s₁.others t w = s.others t w + (s₁.threads.length - s.threads.length) • b := by
  have same : ∀ {s'' : Pool}, s''.threads = s.threads →
      s''.others t w = s.others t w + (s''.threads.length - s.threads.length) • b := fun e => by
    rw [others_congr e, e, Nat.sub_self, zero_nsmul, add_zero]
  cases h
  case spawn =>
    rw [others_append rfl ht, List.length_append, Nat.add_sub_cancel_left, stackWeight_cons, stackWeight_nil, hb,
      add_zero]
    exact congrArg _ (one_nsmul b).symm
  case notifyOne i u urest hu hne =>
    rw [length_setFrames, Nat.sub_self, zero_nsmul, add_zero]
    apply others_setFrames_of_eq
    rw [hu, stackWeight_cons, stackWeight_cons, hw.parked]
  case haltWake =>
    simp only [length_unparkAll, Nat.sub_self, zero_nsmul, add_zero]
    exact (others_congr rfl t).trans (others_unparkAll hw s t)
  all_goals exact same rfl

theorem act_total_add {b : M} (hw : Steady w) (hb : ∀ u, w u (.worker .boot) = b) (ht : s.framesOf t = f :: rest)
    (h : Act s t rest f fs s₁) : (s₁.setFrames t fs).total w =
      stackWeight (w t) fs + (s.others t w + (s₁.threads.length - s.threads.length) • b) := by
  have hlt := lt_of_framesOf ht
  rw [total_setFrames (Nat.lt_of_lt_of_le hlt (act_length_le h)), act_others_add hw hb hlt h]

/-- The sum of a steady weight that a new worker does not have: the step changes one summand. -/
theorem act_total (hw : Steady w) (hb : ∀ u, w u (.worker .boot) = 0) (ht : s.framesOf t = f :: rest)
    (h : Act s t rest f fs s₁) : (s₁.setFrames t fs).total w = stackWeight (w t) fs + s.others t w := by
  rw [act_total_add hw hb ht h, nsmul_zero, add_zero]

theorem leaving_weight (hw : Steady w) (hl : ∀ u, w u (.terminate .lock) = 0) (hr : ∀ u, w u .retire = 0)
    {owners owns owners' fs} (h : Leaving owners rest owns owners' fs) (t : ThreadId) :
    stackWeight (w t) fs = stackWeight (w t) rest := by
  cases h with
  | keep => rfl
  | share => exact stackWeight_giveAnswer hw t _ _
  | last => simp [hl, hr]

/-- A property of the frames of each thread is kept if the step keeps it for its own thread, waking
keeps it and a new worker has it. -/
theorem act_threadwise {P : List Frame → Prop} (h : Act s t rest f fs s₁) (ht : s.framesOf t = f :: rest)
    (all : ∀ u, P (s.framesOf u)) (self : P fs) (woken : ∀ gs, P gs → P (wokenFrames gs))
    (new : P [.worker .boot]) (u : ThreadId) : P ((s₁.setFrames t fs).framesOf u) := by
  by_cases e : u = t
  · subst e
    rw [framesOf_setFrames_self (Nat.lt_of_lt_of_le (lt_of_framesOf ht) (act_length_le h))]
    exact self
  · rw [framesOf_setFrames_ne e]
    rcases act_framesOf h u with h' | h' | ⟨-, h', -⟩
    · rw [h']; exact all u
    · rw [h']; exact woken _ (all u)
    · rw [h']; exact new

end Pool

/-- What holds of the first state and is kept by every step holds of every reachable state. -/
theorem Reachable.keeps {o : Options} {w : World} {scripts : List (List Action)} {P : Pool → Prop}
    (first : P (.initial o w scripts))
    (step : ∀ {s s' t}, Reachable o w scripts s → P s → s.Steps t s' → P s') {s : Pool}
    (h : Reachable o w scripts s) : P s := by
  induction h with
  | initial => exact first
  | next l hr hn ih =>
    obtain ⟨t, ht⟩ := Pool.next_cases hn
    exact step hr ih ht

/-- What a pool can become while all that it is on the way has a property. -/
inductive ReachableWhile (P : Pool → Prop) (o : Options) (w : World) (scripts : List (List Action)) : Pool → Prop where
  | initial : P (.initial o w scripts) → ReachableWhile P o w scripts (.initial o w scripts)
  | next {s s' : Pool} (l : Label) : ReachableWhile P o w scripts s → s.next l = some s' → P s' →
      ReachableWhile P o w scripts s'

namespace ReachableWhile

variable {P : Pool → Prop} {o : Options} {w : World} {scripts : List (List Action)} {s : Pool}

theorem reachable (h : ReachableWhile P o w scripts s) : Reachable o w scripts s := by
  induction h with
  | initial => exact .initial
  | next l _ hn _ ih => exact .next l ih hn

theorem here (h : ReachableWhile P o w scripts s) : P s := by
  cases h with
  | initial hp => exact hp
  | next _ _ _ hp => exact hp

/-- What holds of the first state and is kept by every step holds of all that is reachable. -/
theorem keeps {Q : Pool → Prop} (first : Q (.initial o w scripts))
    (step : ∀ {s s' t}, ReachableWhile P o w scripts s → Q s → s.Steps t s' → Q s')
    (h : ReachableWhile P o w scripts s) : Q s := by
  induction h with
  | initial => exact first
  | next l hr hn _ ih =>
    obtain ⟨t, ht⟩ := Pool.next_cases hn
    exact step hr ih ht

end ReachableWhile

theorem Reachable.options {o : Options} {w : World} {scripts : List (List Action)} {s : Pool}
    (h : Reachable o w scripts s) : s.options = o := by
  refine h.keeps (P := fun s => s.options = o) rfl ?_
  rintro s s' t - hs ⟨f, rest, fs, s₁, -, ha, rfl⟩
  exact (Pool.act_options ha).trans hs

theorem Reachable.run {o : Options} {w : World} {scripts : List (List Action)} {s s' : Pool} {ls : List Label}
    (h : Reachable o w scripts s) (hr : s.run ls = some s') : Reachable o w scripts s' := by
  induction ls generalizing s with
  | nil => cases hr; exact h
  | cons l ls ih =>
    simp only [Pool.run] at hr
    split at hr
    · cases hr
    · rename_i s₁ hs
      exact ih (h.next l hs) hr

/-- The pool after several labels if all that it is on the way has a property. -/
def Pool.runWhile (P : Pool → Prop) [DecidablePred P] (s : Pool) : List Label → Option Pool
  | [] => some s
  | l :: ls => match s.next l with
    | none => none
    | some s => if P s then s.runWhile P ls else none

theorem ReachableWhile.runWhile {P : Pool → Prop} [DecidablePred P] {o : Options} {w : World}
    {scripts : List (List Action)} {s s' : Pool} {ls : List Label} (h : ReachableWhile P o w scripts s)
    (hr : s.runWhile P ls = some s') : ReachableWhile P o w scripts s' := by
  induction ls generalizing s with
  | nil => cases hr; exact h
  | cons l ls ih =>
    simp only [Pool.runWhile] at hr
    split at hr
    · cases hr
    · rename_i s₁ hs
      split at hr
      · rename_i hp
        exact ih (h.next l hs hp) hr
      · cases hr

/-- Several steps of one thread, which wake nobody. -/
def stepsOf (t : ThreadId) (n : Nat) : List Label := List.replicate n (.run t none)

end StatementPool
