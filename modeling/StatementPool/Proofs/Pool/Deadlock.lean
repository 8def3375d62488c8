import StatementPool.Proofs.Pool.Custody
import StatementPool.Proofs.Pool.Wakeup
/-!
# Deadlocks

A call that stops the workers joins them while it has the lock of the handles: one of `terminate`, or
one of `start` that gives up because a worker could not be spawned. A worker whose callback waits for
that lock then waits for the call, and the call for the worker (`Pool.Entangled`).
`Reachable.stuck_iff` says that this is the only way in which a pool gets stuck, provided that the
gates of its statements open: at rest, somebody waits for the lock or for a worker exactly if some
call and a worker wait for each other. `stuck_of_two_calls` is a run that ends so: the callbacks of
two queries terminate the pool at the same time. In `stuck_of_failed_start` nobody terminates it.
-/

namespace StatementPool

/-- Whether a frame is one that takes the lock of the handles first. -/
def Frame.wantsHandles : Frame → Bool
  | .start .lock | .terminate .lock | .script _ _ (.isRunning :: _) _ => true
  | _ => false

/-- Whether a frame is an execution that waits at a gate that is closed. -/
def Frame.isHeldUp (w : World) : Frame → Bool
  | .worker (.execute _ x) => match x.phase with
    | .wait gate => !w.isOpen gate
    | _ => false
  | _ => false

namespace Pool

/-- A thread waits for the lock of the handles. -/
def AwaitsLock (s : Pool) (t : ThreadId) : Prop :=
  s.workersHolder ≠ none ∧ ∃ f rest, s.framesOf t = f :: rest ∧ f.wantsHandles = true

/-- A thread waits for another thread to exit. -/
def AwaitsExit (s : Pool) (t u : ThreadId) : Prop :=
  u ≠ t ∧ s.isFinished u = false ∧ ∃ caller left rest, s.framesOf t = .halt caller (.join (u :: left)) :: rest

/-- No thread can take a step, and one waits for the lock of the handles or for a worker to exit. -/
structure Stuck (s : Pool) : Prop where
  atRest : s.AtRest
  waiting : ∃ t, s.AwaitsLock t ∨ ∃ u, s.AwaitsExit t u

/-- A call that stops the workers waits for one of them to exit, and that worker for the lock that the call
has. -/
def Entangled (s : Pool) : Prop := ∃ t u, s.AwaitsExit t u ∧ s.AwaitsLock u

/-- No execution waits at a gate that is closed. -/
def GatesOpen (s : Pool) : Prop :=
  ∀ t ∈ List.range s.threads.length, ∀ f ∈ s.framesOf t, f.isHeldUp s.world = false

instance : DecidablePred GatesOpen := fun s =>
  inferInstanceAs (Decidable (∀ t ∈ List.range s.threads.length, ∀ f ∈ s.framesOf t, f.isHeldUp s.world = false))

end Pool

/-! ## Outside threads and workers -/

/-- Whether a frame is the script of an outside thread. -/
def outsideIn (_ : ThreadId) : Frame → Nat
  | .script .outside _ _ _ => 1
  | _ => 0

theorem steady_outsideIn : Steady outsideIn where
  answers _ role _ _ _ _ := by cases role <;> rfl
  parked _ := rfl

namespace Pool

variable {s s₁ : Pool} {t : ThreadId} {f : Frame} {rest fs : List Frame}

/-- A thread stays an outside thread, or stays none. -/
theorem act_outside (ha : Act s t rest f fs s₁) :
    stackWeight (outsideIn t) fs = stackWeight (outsideIn t) (f :: rest) := by
  rw [stackWeight_cons]
  cases ha
  case returned hl | dropped hl =>
    rw [leaving_weight steady_outsideIn (fun _ => rfl) (fun _ => rfl) hl]
    simp [outsideIn]
  case release role _ _ _ hl =>
    rw [leaving_weight steady_outsideIn (fun _ => rfl) (fun _ => rfl) hl]
    cases role <;> simp [outsideIn]
  case answer role _ _ _ _ _ _ _ => cases role <;> simp [outsideIn]
  case pushRow role _ _ _ _ _ => cases role <;> simp [outsideIn]
  case openGate role _ _ _ _ => cases role <;> simp [outsideIn]
  case submit role _ _ _ _ _ _ _ _ _ => cases role <;> simp [outsideIn]
  case callStart role _ _ _ _ => cases role <;> simp [outsideIn]
  case callTerminate role _ _ _ _ => cases role <;> simp [outsideIn]
  all_goals simp [outsideIn, stackWeight_giveAnswer steady_outsideIn]

/-- The threads that are joined are workers. -/
def JoinsWorkers (s : Pool) : Prop :=
  ∀ caller left, .halt caller (.join left) ∈ s.phases → ∀ u ∈ left, s.isWorker u = true

theorem act_joinsWorkers (hm : s.Manned) (ht : s.framesOf t = f :: rest) (ha : Act s t rest f fs s₁)
    (h : s.JoinsWorkers) : (s₁.setFrames t fs).JoinsWorkers := by
  intro caller left hl u hu
  rw [isWorker_setFrames]
  suffices hw : s.isWorker u = true by rwa [act_isWorker ha (lt_of_isWorker hw)]
  rcases act_mem_phases ht ha hl with hl | hnext
  · exact h caller left (mem_phases_below ht hl) u hu
  · cases hnext with
    | joins => exact (hm.2 u hu).1
    | joined => exact h _ _ (mem_phases_before ht (Multiset.mem_singleton_self _)) u (List.mem_cons_of_mem _ hu)

/-- The phase of a call that has the lock is the only one. -/
theorem phase_unique (hs : s.Staged) (ht : s.framesOf t = f :: rest) {p : Phase} (hp : phasesIn t f = {p})
    {u : ThreadId} (hne : u ≠ t) {g : Frame} (hg : g ∈ s.framesOf u) : phasesIn u g = 0 := by
  have hz := phases_alone hs ht hp
  rw [phasesBelow, add_eq_zero] at hz
  exact others_eq_zero.1 hz.2 u hne g hg

end Pool

variable {o : Options} {w : World} {scripts : List (List Action)} {s : Pool}

theorem Reachable.joinsWorkers (h : Reachable o w scripts s) : s.JoinsWorkers := by
  refine h.keeps (P := Pool.JoinsWorkers) ?_ ?_
  · intro caller left hl
    rw [Pool.phases, total_initial fun _ _ => rfl] at hl
    cases hl
  · rintro s s' t hr hs ⟨f, rest, fs, s₁, hf, ha, rfl⟩
    exact Pool.act_joinsWorkers hr.manned hf ha hs

/-- A worker makes no calls of an outside thread. -/
theorem Reachable.not_outside (h : Reachable o w scripts s) {t : ThreadId} (ht : s.isWorker t = true) :
    stackWeight (outsideIn t) (s.framesOf t) = 0 := by
  revert t
  refine h.keeps (P := fun s => ∀ {t}, s.isWorker t = true → stackWeight (outsideIn t) (s.framesOf t) = 0) ?_ ?_
  · intro t ht
    rw [isWorker_initial] at ht
    cases ht
  · rintro s s' t - hs ⟨f, rest, fs, s₁, hf, ha, rfl⟩ u hu
    rw [Pool.isWorker_setFrames] at hu
    have old : u < s.threads.length → s.isWorker u = true := fun hlt => (Pool.act_isWorker ha hlt).symm.trans hu
    by_cases e : u = t
    · subst e
      have hlt := Pool.lt_of_framesOf hf
      rw [Pool.framesOf_setFrames_self (Nat.lt_of_lt_of_le hlt (Pool.act_length_le ha)), Pool.act_outside ha, ← hf]
      exact hs (old hlt)
    · rw [Pool.framesOf_setFrames_ne e]
      by_cases hlt : u < s.threads.length
      · rcases Pool.act_framesOf ha u with e | e | ⟨-, e, -⟩
        · rw [e]; exact hs (old hlt)
        · rw [e, Pool.stackWeight_wokenFrames steady_outsideIn]; exact hs (old hlt)
        · rw [e]; rfl
      · rcases Pool.act_framesOf ha u with e | e | ⟨-, e, -⟩
        · rw [e, Pool.framesOf_eq_nil (Nat.le_of_not_lt hlt)]; rfl
        · rw [e, Pool.framesOf_eq_nil (Nat.le_of_not_lt hlt)]; rfl
        · rw [e]; rfl

/-! ## What is left to wait for -/

/-- Whoever has the lock of the handles is in a call of `start` or of `terminate`. -/
theorem Reachable.phases_ne_zero (h : Reachable o w scripts s) (hh : s.workersHolder ≠ none) : s.phases ≠ 0 := by
  obtain ⟨x, hx, hst⟩ := h.staged
  rw [hx]
  cases x with
  | some x => simp [single]
  | none =>
    obtain ⟨t, ht⟩ := Option.ne_none_iff_exists'.1 hh
    rw [ht] at hst
    cases hst

/-- In a pool at rest, a call that has the lock of the handles waits for a worker to exit. -/
theorem Reachable.awaitsExit_of_atRest (h : Reachable o w scripts s) (hs : s.AtRest) (hp : s.phases ≠ 0) :
    ∃ t u, s.AwaitsExit t u := by
  obtain ⟨p, hp⟩ := Multiset.exists_mem_of_ne_zero hp
  obtain ⟨t, f, hf, hpf⟩ := Pool.mem_total.1 hp
  obtain ⟨g, rest, ht⟩ := List.exists_cons_of_ne_nil (List.ne_nil_of_mem hf)
  have hheap := h.heaped t
  have hqueue := h.queueHolder_of_atRest hs
  rw [ht] at hf hheap
  -- the frame of the call is the first one of its thread, so the call is blocked
  obtain rfl : f = g := hheap.first hf (by cases f <;> first | rfl | cases hpf)
  cases hs.blocked h.backed ht with
  | startLock | terminateLock | outside | isRunning | queued | push | seek | parked | execution => cases hpf
  | wake hq | drain hq => exact absurd hqueue hq
  | join hu hfin => exact ⟨t, _, hu, hfin, _, _, rest, ht⟩
  | @ready refusal hr =>
    -- all workers that were spawned have said that they are ready, also when one was refused
    obtain ⟨held, hst⟩ := h.staged.of_mem (Pool.mem_phases_before ht (Multiset.mem_singleton_self _))
    have hfresh := h.fresh_of_atRest hs
    cases hst with
    | waiting hh _ hr' => omega
    | refused cause hh _ hr' => omega

/-- A pool at rest in which somebody waits for the lock of the handles or for a worker to exit is one in
which a call and a worker wait for each other, as long as no gate keeps an execution. -/
theorem Reachable.stuck_iff (hw : ∀ c, w.holder c = none) (h : Reachable o w scripts s) (hg : s.GatesOpen) :
    s.Stuck ↔ s.AtRest ∧ s.Entangled := by
  constructor
  · rintro ⟨hs, t, ht⟩
    refine ⟨hs, ?_⟩
    have hp : s.phases ≠ 0 := by
      rcases ht with ⟨hh, -⟩ | ⟨u, -, -, caller, left, rest, ht⟩
      · exact h.phases_ne_zero hh
      · intro e
        have hm := Pool.mem_phases_halt.2 ⟨t, ht ▸ List.mem_cons_self⟩
        rw [e] at hm
        cases hm
    obtain ⟨t, u, hu⟩ := h.awaitsExit_of_atRest hs hp
    refine ⟨t, u, hu, ?_⟩
    obtain ⟨hne, hfin, caller, left, rest, ht⟩ := hu
    obtain ⟨g, urest, hu⟩ := List.exists_cons_of_ne_nil (l := s.framesOf u) (by
      intro e
      simp [Pool.isFinished, e] at hfin)
    have hjoin : .halt caller (.join (u :: left)) ∈ s.phases := Pool.mem_phases_halt.2 ⟨t, ht ▸ List.mem_cons_self⟩
    have hunique : phasesIn u g = 0 := Pool.phase_unique h.staged ht rfl hne (hu ▸ List.mem_cons_self)
    have hqueue := h.queueHolder_of_atRest hs
    -- what the worker waits for is none of the things that nobody has, so it is the lock
    cases hs.blocked h.backed hu with
    | isRunning hh | startLock hh | terminateLock hh => exact ⟨hh, _, urest, hu, rfl⟩
    | outside =>
      have hz := h.not_outside (h.joinsWorkers _ _ hjoin u List.mem_cons_self)
      rw [hu] at hz
      simp [outsideIn] at hz
    | ready | join => simp [phasesIn] at hunique
    | queued hq | push hq | wake hq | drain hq | seek hq => exact absurd hqueue hq
    | parked =>
      -- the call has woken all workers, and no other call is about to
      have alone := Pool.phases_of_first h.staged ht (p := .halt caller (.join (u :: left))) rfl
      obtain ⟨held, hst⟩ := h.staged.of_mem hjoin
      have hq := h.quiet (h.telling _ hjoin) hst.joins.1 (by simp [alone]) u _ (hu ▸ List.mem_cons_self)
      cases hq
    | execution =>
      obtain ⟨v, q, x, vrest, gate, hv, hp, hclosed⟩ := h.gate_of_atRest hw hs hu
      have hopen := hg v (List.mem_range.2 (Pool.lt_of_framesOf hv)) _ (hv ▸ List.mem_cons_self)
      simp [Frame.isHeldUp, hp, hclosed] at hopen
  · rintro ⟨hs, t, u, hu, -⟩
    exact ⟨hs, t, .inr ⟨u, hu⟩⟩

/-- A query whose callback asks whether the pool runs, and an end. -/
def askInCallback : List (List Action) :=
  [[.start, .submit (.fail "no") .empty [.isRunning] [] false, .terminate]]

/-- The pool is terminated while the callback is about to ask. -/
def askInCallbackRun : List Label :=
  stepsOf 0 5 ++ stepsOf 1 2 ++ stepsOf 0 4 ++ stepsOf 1 12 ++ stepsOf 0 5

/-- The call of `terminate` waits for the worker whose callback waits for the call. -/
theorem stuck_of_question :
    ∃ s, (Pool.initial .standard ⟨[], [], [], []⟩ askInCallback).run askInCallbackRun = some s ∧ s.Stuck := by
  obtain ⟨s, hr⟩ : ∃ s, (Pool.initial .standard ⟨[], [], [], []⟩ askInCallback).run askInCallbackRun = some s :=
    ⟨_, rfl⟩
  have hs : s.GatesOpen ∧ s.AtRest ∧ s.Entangled := by
    cases hr
    exact ⟨by decide, by decide, 0, 1, ⟨by decide, rfl, _, _, _, rfl⟩, by decide, _, _, rfl, rfl⟩
  exact ⟨s, hr, ((Reachable.initial.run hr).stuck_iff (fun _ => rfl) hs.1).2 hs.2⟩

/-- Two queries whose callbacks terminate the pool. -/
def terminateInTwoCallbacks : List (List Action) :=
  [[.start, .submit (.fail "no") .empty [.terminate] [] false, .submit (.fail "no") .empty [.terminate] [] false]]

/-- Two workers run the callbacks at the same time; the call of the first one gets the lock. -/
def terminateInTwoCallbacksRun : List Label :=
  stepsOf 0 6 ++ stepsOf 1 2 ++ stepsOf 2 2 ++ stepsOf 0 7 ++ stepsOf 1 13 ++ stepsOf 2 13 ++ stepsOf 1 5

/-- With two workers, the pool is stuck though no execution is in progress: the first worker joins the
second one, which waits for the lock. Nobody can be woken either. -/
theorem stuck_of_two_calls :
    ∃ s, (Pool.initial (.ofThreads 2) ⟨[], [], [], []⟩ terminateInTwoCallbacks).run terminateInTwoCallbacksRun = some s ∧
      s.Stuck ∧ s.parked = [] ∧ s.GatesOpen ∧ passed [.executed] s.log = passed [.submitted] s.log :=
  ⟨_, rfl, ⟨by decide, 1, .inr ⟨2, by decide, rfl, _, _, _, rfl⟩⟩, rfl, by decide, rfl⟩

/-- A query for a stopped pool whose callback asks whether the pool runs, and a start. -/
def askBeforeStart : List (List Action) :=
  [[.submit (.fail "no") .empty [.isRunning] [] false, .start]]

/-- The first worker takes the query while the system refuses the second one. -/
def askBeforeStartRun : List Label :=
  stepsOf 0 7 ++ [.refuse 0 "no thread"] ++ stepsOf 1 14 ++ stepsOf 0 3

/-- Nobody terminates the pool: the call of `start` joins the worker that it has spawned. -/
theorem stuck_of_failed_start :
    ∃ s, (Pool.initial (.ofThreads 2) ⟨[], [], [], []⟩ askBeforeStart).run askBeforeStartRun = some s ∧
      s.Stuck ∧ s.phases = {.halt (.start "no thread") (.join [1])} ∧ s.GatesOpen :=
  ⟨_, rfl, ⟨by decide, 0, .inr ⟨1, by decide, rfl, _, _, _, rfl⟩⟩, rfl, by decide⟩

end StatementPool
