import StatementPool.Proofs.Pool.Alone
import StatementPool.Proofs.Pool.Deadlock
import StatementPool.Proofs.Pool.Reports
import StatementPool.Proofs.Pool.Submission
/-!
# One worker executes queries as if one after the other

A pool with one worker that nobody terminates, and whose data nobody else touches, executes the
queries that are submitted to it as `executeEach` does: it calls their callbacks with the reports of
these executions, in order, and it leaves the same tables, collections and counters
(`ReachableWith.as_if_alone`). Once such a pool is started it is at rest only when all queries have
been reported.
-/

namespace StatementPool

/-- Whether a step on a frame takes part in terminating a pool, or touches the data that statements
work on. -/
def Frame.disturbs : Frame → Bool
  | .terminate _ | .halt .terminate _ | .retire => true
  | .script _ _ (.pushRow _ _ :: _) _ | .script _ _ (.openGate _ :: _) _ => true
  | _ => false

namespace Pool

/-- A step of a run in which no call of `terminate` gets anywhere and nobody but the executions touches
shared data. -/
def Undisturbed (_ : Pool) (f : Frame) : Prop := f.disturbs = false

instance (s : Pool) : DecidablePred s.Undisturbed := fun f => inferInstanceAs (Decidable (f.disturbs = false))

/-! ## A pool that is not terminated -/

/-- The workers at work are those that the pool has the handles of, and none of them is told to stop. -/
structure GoesOn (s : Pool) : Prop where
  stop : s.handles ≠ [] → s.stop = false
  retired : s.retired = false
  handled : ∀ u, s.isAtWork u = true → u ∈ s.handles
  phases : (∀ p, .terminate p ∉ s.phases) ∧ ∀ p, .halt .terminate p ∉ s.phases

variable {s s₁ : Pool} {t : ThreadId} {f : Frame} {rest fs : List Frame}

/-- A call of `start` that gives up has no worker to stop if it asked for one only. -/
theorem single_worker_refused (hm : s.options.maxThreads = 1) (hs : s.Staged) {refusal : String} {p : HaltPhase}
    (hp : s.phases = {.halt (.start refusal) p}) : s.handles = [] ∧ ∀ left, p = .join left → left = [] := by
  obtain ⟨held, hst⟩ := hs.of_mem (hp ▸ Multiset.mem_singleton_self _)
  rw [hm] at hst
  cases hst with
  | halting _ _ hp hh => exact ⟨List.length_eq_zero_iff.1 (Nat.le_zero.1 hh), by rintro left rfl; simp at hp⟩
  | joining _ left hh hl =>
    refine ⟨hh, ?_⟩
    rintro left' e
    cases e
    exact List.length_eq_zero_iff.1 (Nat.le_zero.1 hl)

theorem act_handles_subset (hm : s.options.maxThreads = 1) (hs : s.Staged) (ht : s.framesOf t = f :: rest)
    (ha : Act s t rest f fs s₁) (hf : f.disturbs = false) : s.handles ⊆ s₁.handles := by
  cases ha
  case spawn => exact List.subset_append_left _ _
  case haltWake caller _ =>
    cases caller with
    | terminate => cases hf
    | start refusal => simp [(single_worker_refused hm hs (phases_of_first hs ht rfl)).1]
  all_goals exact fun _ h => h

theorem act_goesOn (hm : s.options.maxThreads = 1) (hs : s.Staged) (ht : s.framesOf t = f :: rest)
    (ha : Act s t rest f fs s₁) (hf : f.disturbs = false) (h : s.GoesOn) : (s₁.setFrames t fs).GoesOn where
  stop := by
    have old := h.stop
    cases ha
    case startBegin | startPanic => exact fun _ => rfl
    case spawn =>
      obtain ⟨held, hst⟩ := hs.of_mem (mem_phases_before ht (Multiset.mem_singleton_self _))
      cases hst with
      | spawning _ _ _ hs => exact fun _ => hs
    case haltStop caller =>
      cases caller with
      | terminate => cases hf
      | start refusal => exact fun hne => absurd (single_worker_refused hm hs (phases_of_first hs ht rfl)).1 hne
    case haltWake => exact fun hne => absurd rfl hne
    all_goals exact old
  retired := by
    have hr := h.retired
    cases ha
    case retireEmpty | retire => cases hf
    all_goals exact hr
  handled u hu := by
    rw [handles_setFrames]
    rcases isAtWork_before ht ha hu with hu | hu
    · exact act_handles_subset hm hs ht ha hf (h.handled u hu)
    · exact hu
  phases := by
    constructor
    · intro p hp
      rcases act_mem_phases ht ha hp with hp | hnext
      · exact h.phases.1 p (mem_phases_below ht hp)
      · cases hnext <;> cases hf
    · intro p hp
      rcases act_mem_phases ht ha hp with hp | hnext
      · exact h.phases.2 p (mem_phases_below ht hp)
      · cases hnext <;> cases hf

theorem atWork_unique {u v : ThreadId} (hone : s.atWork.length ≤ 1) (hu : u ∈ s.atWork) (hv : v ∈ s.atWork) : u = v := by
  by_contra hne
  have hnodup : [u, v].Nodup := by simpa using hne
  have hsub : [u, v] ⊆ s.atWork := by
    intro x hx
    rcases List.mem_pair.1 hx with rfl | rfl
    · exact hu
    · exact hv
  exact absurd ((hnodup.length_le_of_subset hsub).trans hone) (by simp)

theorem GoesOn.atWork_le {o : Options} {w : World} {scripts : List (List Action)} (hr : Reachable o w scripts s)
    (h : s.GoesOn) : s.atWork.length ≤ o.maxThreads.toNat := by
  obtain ⟨x, -, hst⟩ := hr.staged
  refine ((nodup_atWork s).length_le_of_subset fun u hu => h.handled u (mem_atWork.1 hu)).trans ?_
  exact hr.options ▸ hst.handles_le

end Pool

/-! ## The query that is worked on -/

/-- What a worker has to do for the query that it holds. -/
inductive Job where
  | executing (t : ThreadId) (q : Query) (x : Execution)
  | delivering (q : Query) (o : Outcome)

def jobsIn (t : ThreadId) : Frame → Multiset Job
  | .worker (.execute q x) => {.executing t q x}
  | .worker (.deliver q o) => {.delivering q o}
  | _ => 0

theorem steady_jobsIn : Steady jobsIn where
  answers _ _ _ _ _ _ := rfl
  parked _ := rfl

theorem jobsIn_eq_zero {t : ThreadId} {f : Frame} (h : workIn t f = 0) : jobsIn t f = 0 := by
  cases f with
  | worker p => cases p <;> first | rfl | simp [workIn] at h
  | _ => rfl

theorem mem_jobsIn_executing {t u : ThreadId} {f : Frame} {q : Query} {x : Execution} :
    .executing u q x ∈ jobsIn t f ↔ u = t ∧ f = .worker (.execute q x) := by
  cases f with
  | worker p => cases p <;> simp [jobsIn, eq_comm]
  | _ => simp [jobsIn]

/-- Whether a frame is that of a worker that takes a query or holds one. -/
def Frame.isJob : Frame → Bool
  | .worker .take | .worker (.execute _ _) | .worker (.deliver _ _) => true
  | _ => false

theorem Pool.act_jobs {s s₁ : Pool} {t : ThreadId} {f : Frame} {rest fs : List Frame} (ht : s.framesOf t = f :: rest)
    (ha : Act s t rest f fs s₁) (hf : f.isJob = false) : (s₁.setFrames t fs).total jobsIn = s.total jobsIn := by
  rw [act_total steady_jobsIn (fun _ => rfl) ht ha, total_cons ht]
  cases ha
  case returned hl | dropped hl | release hl =>
    rw [leaving_weight steady_jobsIn (fun _ => rfl) (fun _ => rfl) hl]
    simp [jobsIn]
  case park | take | execute | executed | deliver => cases hf
  all_goals simp [jobsIn, stackWeight_giveAnswer steady_jobsIn]

/-- While nobody works on a query, no collection is locked. -/
theorem Reachable.holder_of_idle {o : Options} {w : World} {scripts : List (List Action)} {s : Pool}
    (h : Reachable o w scripts s) (hw : ∀ c, w.holder c = none) (hjobs : s.total jobsIn = 0) (c : Nat) :
    s.world.holder c = none := by
  by_contra hc
  obtain ⟨u, hu⟩ := Option.ne_none_iff_exists'.1 hc
  obtain ⟨q, x, rest, hu, -⟩ := h.collectionsLocked hw c u hu
  have hm : .executing u q x ∈ s.total jobsIn :=
    Pool.mem_total.2 ⟨u, _, hu ▸ List.mem_cons_self, mem_jobsIn_executing.2 ⟨rfl, rfl⟩⟩
  rw [hjobs] at hm
  cases hm

/-- The reports of queries that ended in certain ways. -/
def reports (m : UInt32) (qs : List Query) (os : List Outcome) : List Notification :=
  List.zipWith (fun q o => reportOf m q.serial o) qs os

theorem reports_append {m : UInt32} {qs qs' : List Query} {os os' : List Outcome} (h : os.length = qs.length) :
    reports m (qs ++ qs') (os ++ os') = reports m qs os ++ reports m qs' os' :=
  List.zipWith_append h.symm

theorem length_reports {m : UInt32} {qs : List Query} {os : List Outcome} (h : os.length = qs.length) :
    (reports m qs os).length = qs.length := by
  simp [reports, h]

theorem reported_reports {m : UInt32} {qs : List Query} {os : List Outcome} (h : os.length = qs.length) :
    Reported m qs os (reports m qs os) := by
  induction qs generalizing os with
  | nil =>
    obtain rfl := List.length_eq_zero_iff.1 h
    exact .nil
  | cons q qs ih =>
    obtain ⟨x, os, rfl⟩ := List.exists_cons_of_length_eq_add_one h
    exact .cons (Notification.isReport_reportOf m q x) (ih (Nat.succ.inj h))

/-- How far a pool has come with the queries that were taken: all of them are reported, or all but the
last one, which is being executed or about to be reported. Here `w` is what the data was at first and
`v` what it is. -/
inductive Progress (m : UInt32) (w v : World) (notes : List Notification) : List Query → Option Job → Prop where
  | idle {done os} (hd : executeEach w done = some (v, os)) (hn : notes = reports m done os) :
    Progress m w v notes done none
  | executing {done os v₁ t q x v' o} (hd : executeEach w done = some (v₁, os)) (hn : notes = reports m done os)
    (hq : q.args.executeWith q.statement v₁ = some (v', o)) (hx : x.Ends t v v' o) :
    Progress m w v notes (done ++ [q]) (some (.executing t q x))
  | delivering {done os v₁ q o} (hd : executeEach w done = some (v₁, os)) (hn : notes = reports m done os)
    (hq : q.args.executeWith q.statement v₁ = some (v, o)) :
    Progress m w v notes (done ++ [q]) (some (.delivering q o))

namespace Pool

variable {s s₁ : Pool} {t : ThreadId} {f : Frame} {rest fs : List Frame} {w : World} {qs : List Query}

/-- The queries that were taken and those that wait are the ones that were submitted, and the pool has
come to the only one that is worked on. -/
def InProgress (w : World) (qs : List Query) (s : Pool) : Prop :=
  ∃ taken job, qs = taken ++ s.queue ∧ s.total jobsIn = single job ∧
    Progress s.options.messageType w s.world s.notifications taken job

theorem inProgress_of_same {s' : Pool} {es : List Event} (h : s.InProgress w qs) (hj : s'.total jobsIn = s.total jobsIn)
    (hl : s'.log = s.log ++ es) (hes : es.filterMap Event.notification? = [])
    (hs : (s'.options, s'.queue, s'.world) = (s.options, s.queue, s.world)) : s'.InProgress w qs := by
  simp only [Prod.mk.injEq] at hs
  obtain ⟨ho, hq, hw⟩ := hs
  obtain ⟨taken, job, hqs, hjob, hp⟩ := h
  refine ⟨taken, job, hq ▸ hqs, hj.trans hjob, ?_⟩
  rwa [ho, hw, notifications, hl, List.filterMap_append, hes, List.append_nil]

/-- The only worker goes on with the query that it holds. -/
theorem inProgress_of_next {s' : Pool} {es : List Event} {j : Job} {r : Multiset Job} (h : s.InProgress w qs)
    (y : Option Job) (hb : s.total jobsIn = {j} + r) (ha : s'.total jobsIn = (y.elim 0 fun y => {y}) + r)
    (hl : s'.log = s.log ++ es) (hs : (s'.options, s'.queue) = (s.options, s.queue))
    (hp : ∀ {taken}, Progress s.options.messageType w s.world s.notifications taken (some j) →
      Progress s.options.messageType w s'.world (s.notifications ++ es.filterMap Event.notification?) taken y) :
    s'.InProgress w qs := by
  simp only [Prod.mk.injEq] at hs
  obtain ⟨ho, hq⟩ := hs
  obtain ⟨taken, job, hqs, hjob, hprog⟩ := h
  obtain ⟨rfl, rfl⟩ := single_eq_add (hjob.symm.trans hb)
  refine ⟨taken, y, hq ▸ hqs, ha.trans (by cases y <;> simp [single]), ?_⟩
  rw [ho, notifications, hl, List.filterMap_append]
  exact hp hprog

theorem act_inProgress {o : Options} {w₀ : World} {scripts : List (List Action)} (hr : Reachable o w₀ scripts s)
    (hw : ∀ c, w₀.holder c = none) (hone : s.atWork.length ≤ 1) (hret : s.retired = false)
    (hg : ∀ q ∈ qs, ∀ gate, q.statement ≠ .gated gate) (ht : s.framesOf t = f :: rest) (ha : Act s t rest f fs s₁)
    (hf : f.disturbs = false) (h : s.InProgress w qs) : (s₁.setFrames t fs).InProgress w (qs ++ f.puts) := by
  have before := total_cons (w := jobsIn) ht
  have after := act_total steady_jobsIn (fun _ => rfl) ht ha
  have same := act_jobs ht ha
  cases ha
  case push q hq =>
    obtain ⟨taken, job, hqs, hjob, hp⟩ := h
    refine ⟨taken, job, by simp [hqs, Frame.puts], (same rfl).trans hjob, ?_⟩
    simpa [notifications, List.filterMap_cons, Event.notification?] using hp
  case take q queue hq =>
    -- nobody works on a query, so all that were taken are reported and no collection is locked
    obtain ⟨hbelow, -⟩ : Ordered (.worker .take :: rest) := ht ▸ hr.ordered t
    obtain rfl : rest = [] := hbelow
    have hothers : s.others t jobsIn = 0 := others_eq_zero.2 fun u hu g hg =>
      jobsIn_eq_zero (others_eq_zero.1 (others_workIn hr hone (ht ▸ List.mem_cons_self)) u hu g hg)
    rw [hothers] at before after
    obtain ⟨taken, job, hqs, hjob, hp⟩ := h
    obtain rfl : job = none := by
      cases job with
      | none => rfl
      | some j => simp [before, jobsIn, single] at hjob
    have hfree := hr.holder_of_idle hw hjob
    rw [hq] at hqs
    have hgq := hg q (by simp [hqs])
    obtain ⟨v', o', hv'⟩ := q.args.exists_executeWith hgq s.world
    refine ⟨taken ++ [q], some (.executing t q (.start q.statement q.args)), by simp [hqs, Frame.puts], after, ?_⟩
    cases hp with
    | idle hd hn =>
      have hx := Execution.ends_start hgq (fun c _ => hfree c) hv' t
      simpa [notifications, List.filterMap_cons, Event.notification?] using Progress.executing hd hn hv' hx
  case execute q x x' v hx =>
    simp only [Frame.puts, List.append_nil]
    refine inProgress_of_next h (some (.executing t q x')) before (by rw [after]; simp [jobsIn]) rfl rfl ?_
    intro taken hp
    have hes : (x.events q.serial).filterMap Event.notification? = [] := by
      unfold Execution.events
      split <;> rfl
    rw [hes, List.append_nil]
    cases hp with
    | executing hd hn hq he => exact .executing hd hn hq (he.next hx)
  case executed q x o' hx =>
    simp only [Frame.puts, List.append_nil]
    refine inProgress_of_next h (some (.delivering q o')) before (by rw [after]; simp [jobsIn]) rfl rfl ?_
    intro taken hp
    cases hp with
    | executing hd hn hq he =>
      obtain ⟨rfl, rfl⟩ := he.of_finished hx
      simpa [List.filterMap_cons, Event.notification?] using Progress.delivering hd hn hq
  case deliver q o' =>
    simp only [Frame.puts, List.append_nil]
    refine inProgress_of_next h none before (by rw [after]; simp [jobsIn]) rfl rfl ?_
    intro taken hp
    cases hp with
    | delivering hd hn hq =>
      refine .idle (executeEach_snoc hd hq) ?_
      rw [hn, reports_append (length_executeEach hd)]
      rfl
  case terminateLock | terminateIdle | terminateRunning | joined | drain
    | retireEmpty | retire | pushRow | openGate => cases hf
  case exitLast hr' => cases hret.symm.trans hr'
  case park =>
    simp only [Frame.puts, List.append_nil]
    exact inProgress_of_same h (by rw [after, before]; simp [jobsIn]) (List.append_nil _).symm rfl rfl
  all_goals
    simp only [Frame.puts, List.append_nil]
    first
      | exact inProgress_of_same h (same rfl) (List.append_nil _).symm rfl rfl
      | exact inProgress_of_same h (same rfl) rfl (by simp [Event.notification?]) rfl

end Pool

namespace ReachableWith

variable {o : Options} {w : World} {scripts : List (List Action)} {qs : List Query} {s : Pool}

theorem goesOn (hm : o.maxThreads = 1) (h : ReachableWith Pool.Undisturbed o w scripts qs s) : s.GoesOn := by
  refine h.keeps (Q := fun _ s => s.GoesOn) ⟨fun _ => rfl, rfl, fun u hu => ?_, ?_⟩ ?_
  · have hw := (Pool.isAtWork_iff.1 hu).1
    rw [isWorker_initial] at hw
    cases hw
  · have idle : (Pool.initial o w scripts).phases = 0 := total_initial fun _ _ => rfl
    simp [idle]
  · rintro qs s t f rest fs s₁ hr hs hp ht ha
    exact Pool.act_goesOn (hr.reachable.options ▸ hm) hr.reachable.staged ht ha hp hs

theorem inProgress (hm : o.maxThreads = 1) (hw : ∀ c, w.holder c = none)
    (hg : ∀ q ∈ qs, ∀ gate, q.statement ≠ .gated gate) (h : ReachableWith Pool.Undisturbed o w scripts qs s) :
    s.InProgress w qs := by
  revert hg
  refine h.keeps (Q := fun qs s => (∀ q ∈ qs, ∀ gate, q.statement ≠ .gated gate) → s.InProgress w qs) ?_ ?_
  · intro _
    exact ⟨[], none, rfl, total_initial fun _ _ => rfl, .idle rfl rfl⟩
  · intro qs s t f rest fs s₁ hr hs hp ht ha hg
    have hg : ∀ q ∈ qs, ∀ gate, q.statement ≠ .gated gate := fun q hq => hg q (List.mem_append_left _ hq)
    have hone : s.atWork.length ≤ 1 := by
      have hle := (hr.goesOn hm).atWork_le hr.reachable
      rwa [hm] at hle
    exact Pool.act_inProgress hr.reachable hw hone (hr.goesOn hm).retired hg ht ha hp (hs hg)

/-- At rest, nobody starts or terminates the pool. -/
theorem phases_of_atRest (hm : o.maxThreads = 1) (h : ReachableWith Pool.Undisturbed o w scripts qs s)
    (hs : s.AtRest) : s.phases = 0 := by
  by_contra hne
  obtain ⟨t, u, -, -, caller, left, rest, ht⟩ := h.reachable.awaitsExit_of_atRest hs hne
  have hr := h.reachable
  cases caller with
  | terminate => exact (h.goesOn hm).phases.2 _ (Pool.mem_phases_halt.2 ⟨t, ht ▸ List.mem_cons_self⟩)
  | start refusal =>
    have joins := (Pool.single_worker_refused (hr.options ▸ hm) hr.staged (Pool.phases_of_first hr.staged ht rfl)).2
    cases joins _ rfl

/-- At rest, nobody works on a query. -/
theorem jobs_of_atRest (hm : o.maxThreads = 1) (hw : ∀ c, w.holder c = none)
    (hg : ∀ q ∈ qs, ∀ gate, q.statement ≠ .gated gate) (h : ReachableWith Pool.Undisturbed o w scripts qs s)
    (hs : s.AtRest) : s.total jobsIn = 0 := by
  have hr := h.reachable
  by_contra hne
  obtain ⟨j, hj⟩ := Multiset.exists_mem_of_ne_zero hne
  obtain ⟨t, f, hf, hjf⟩ := Pool.mem_total.1 hj
  obtain ⟨g, rest, ht⟩ := List.exists_cons_of_ne_nil (List.ne_nil_of_mem hf)
  have hheap := hr.heaped t
  rw [ht] at hf hheap
  obtain rfl : f = g := hheap.first hf (by
    cases f with
    | worker p => cases p <;> first | rfl | cases hjf
    | _ => cases hjf)
  cases f with
  | worker p =>
    cases p with
    | execute q x =>
      -- an execution that waits, though nobody has locked its collection, waits at a gate
      obtain ⟨u, q', x', urest, gate, hu, hp, hclosed⟩ := hr.gate_of_atRest hw hs ht
      obtain ⟨taken, job, -, hjob, hprog⟩ := h.inProgress hm hw hg
      have hm : .executing u q' x' ∈ s.total jobsIn :=
        Pool.mem_total.2 ⟨u, _, hu ▸ List.mem_cons_self, mem_jobsIn_executing.2 ⟨rfl, rfl⟩⟩
      rw [hjob] at hm
      obtain rfl : job = some (.executing u q' x') := by
        cases job with
        | none => cases hm
        | some j => rw [← Multiset.mem_singleton.1 hm]
      cases hprog with
      | executing _ _ _ hx =>
        cases hx with
        | finished hp' => cases hp.symm.trans hp'
        | step hx => simp [Execution.step, hp, hclosed] at hx
    | deliver q x => cases hs.blocked hr.backed ht
    | _ => cases hjf
  | _ => cases hjf

/-- In a pool that was started and is at rest, the worker is parked. -/
theorem parked_of_atRest (hm : o.maxThreads = 1) (hw : ∀ c, w.holder c = none)
    (hg : ∀ q ∈ qs, ∀ gate, q.statement ≠ .gated gate) (h : ReachableWith Pool.Undisturbed o w scripts qs s)
    (hs : s.AtRest) (hh : s.handles ≠ []) : ∃ u, s.framesOf u = [.worker .parked] := by
  have hr := h.reachable
  have hphases := h.phases_of_atRest hm hs
  -- the worker of the last start is there: what else can it wait for than work?
  obtain ⟨u, hu⟩ := List.exists_mem_of_ne_nil _ hh
  obtain ⟨hworker, hworking⟩ := hr.manned.2 u hu
  obtain ⟨p, hp⟩ := Pool.exists_worker (fun u g hg => by cases g <;> simp_all [workingIn])
    (hworking.resolve_left (by simp [(h.goesOn hm).stop hh]))
  obtain ⟨f, rest, hf⟩ := List.exists_cons_of_ne_nil (List.ne_nil_of_mem hp)
  have hqueue := hr.queueHolder_of_atRest hs
  have hlock : s.workersHolder = none := by
    by_contra hne
    exact hr.phases_ne_zero hne hphases
  have hidle : ∀ p, p ∉ phasesIn u f := fun p hp => by
    have hm := Pool.mem_phases_before hf hp
    rw [hphases] at hm
    cases hm
  cases hs.blocked hr.backed hf with
  | outside =>
    have hz := hr.not_outside hworker
    rw [hf] at hz
    simp [outsideIn] at hz
  | isRunning hh | startLock hh | terminateLock hh => exact absurd hlock hh
  | ready | join | wake | drain => exact absurd (Multiset.mem_singleton_self _) (hidle _)
  | queued hq | push hq | seek hq => exact absurd hqueue hq
  | execution =>
    have hz := Pool.total_cons (w := jobsIn) hf
    rw [h.jobs_of_atRest hm hw hg hs] at hz
    simp [jobsIn] at hz
  | parked =>
    obtain ⟨hbelow, -⟩ : Ordered (.worker .parked :: rest) := hf ▸ hr.ordered u
    obtain rfl : rest = [] := hbelow
    exact ⟨u, hf⟩

/-- In a pool that was started and is at rest, no query waits. -/
theorem queue_of_atRest (hm : o.maxThreads = 1) (hw : ∀ c, w.holder c = none)
    (hg : ∀ q ∈ qs, ∀ gate, q.statement ≠ .gated gate) (h : ReachableWith Pool.Undisturbed o w scripts qs s)
    (hs : s.AtRest) (hh : s.handles ≠ []) : s.queue = [] := by
  have hr := h.reachable
  by_contra hq
  -- somebody is going to wake the worker, but who? It is the only one, and no submission is in progress
  obtain ⟨u, hu⟩ := h.parked_of_atRest hm hw hg hs hh
  obtain ⟨v, g, hg', hstirs⟩ := hr.alert ((h.goesOn hm).stop hh) hq (List.ne_nil_of_mem (Pool.mem_parked.2 ⟨[], hu⟩))
  obtain ⟨g', vrest, hv⟩ := List.exists_cons_of_ne_nil (List.ne_nil_of_mem hg')
  cases g with
  | notify i =>
    have hheap := hr.heaped v
    rw [hv] at hg' hheap
    obtain rfl := hheap.first hg' rfl
    cases hs.blocked hr.backed hv
  | worker p' =>
    have hle := (h.goesOn hm).atWork_le hr
    rw [hm] at hle
    have hp : .worker .parked ∈ s.framesOf u := hu ▸ List.mem_cons_self
    obtain rfl : v = u := Pool.atWork_unique hle (Pool.mem_atWork.2 (hr.isAtWork_of_mem hg'))
      (Pool.mem_atWork.2 (hr.isAtWork_of_mem hp))
    rw [hu, List.mem_singleton] at hg'
    cases hg'
    cases hstirs
  | _ => cases hstirs

end ReachableWith

/-- A pool has executed queries as if one after the other; `w` is what the data was at first. -/
structure Pool.AsIfAlone (s : Pool) (m : UInt32) (w : World) (qs : List Query) : Prop where
  /-- Executed at once, one after the other, the queries end. The callbacks are called with the
  notifications that report these executions, in order, and when all were called the data is what these
  executions leave. -/
  reported : ∃ v os ns, executeEach w qs = some (v, os) ∧ Reported m qs os ns ∧ s.notifications <+: ns ∧
    (s.notifications.length = qs.length → s.notifications = ns ∧ s.world = v)
  /-- In a pool that was started and is at rest, all callbacks were called. -/
  through : s.AtRest → s.handles ≠ [] → s.notifications.length = qs.length
  /-- Each of the queries leaves in the counters what its statement left in its slots, and the counters
  alone if it panicked. -/
  counters : ∀ done q left, qs = done ++ q :: left → ∃ v os v' o w' y, executeEach w done = some (v, os) ∧
    q.args.executeWith q.statement v = some (v', o) ∧ q.statement.execute v (q.args.slots v) = some (w', y, o) ∧
    ∀ c < v.counters.length, v'.counter c = q.args.leaves v y o c

/-- One worker executes queries as if one after the other. -/
theorem ReachableWith.as_if_alone {o : Options} {w : World} {scripts : List (List Action)} {qs : List Query} {s : Pool}
    (hm : o.maxThreads = 1) (hw : ∀ c, w.holder c = none) (hg : ∀ q ∈ qs, ∀ gate, q.statement ≠ .gated gate)
    (h : ReachableWith Pool.Undisturbed o w scripts qs s) : s.AsIfAlone o.messageType w qs where
  reported := by
    obtain ⟨taken, job, hqs, -, hp⟩ := h.inProgress hm hw hg
    rw [h.reachable.options] at hp
    suffices each : ∃ v os, executeEach w qs = some (v, os) ∧ s.notifications <+: reports o.messageType qs os ∧
        (s.notifications.length = qs.length → s.notifications = reports o.messageType qs os ∧ s.world = v) by
      obtain ⟨v, os, he, hpre, hall⟩ := each
      exact ⟨v, os, _, he, reported_reports (length_executeEach he), hpre, hall⟩
    -- what is reported is a part of what all executions report
    have part : ∀ {done left v os}, qs = done ++ left → executeEach w done = some (v, os) →
        s.notifications = reports o.messageType done os → (s.notifications.length = qs.length → s.world = v) →
        ∃ v os, executeEach w qs = some (v, os) ∧ s.notifications <+: reports o.messageType qs os ∧
          (s.notifications.length = qs.length → s.notifications = reports o.messageType qs os ∧ s.world = v) := by
      intro done left v os e hd hn hlast
      have hleft : ∀ q ∈ left, ∀ gate, q.statement ≠ .gated gate := fun q hq => hg q (by simp [e, hq])
      obtain ⟨v', os', hl⟩ := exists_executeEach hleft v
      have hpre : s.notifications <+: reports o.messageType qs (os ++ os') := by
        rw [hn, e, reports_append (length_executeEach hd)]
        exact List.prefix_append _ _
      refine ⟨v', os ++ os', e ▸ executeEach_append hd hl, hpre, fun hlen => ?_⟩
      have hall : s.notifications = reports o.messageType qs (os ++ os') := by
        apply hpre.eq_of_length
        rw [hlen, length_reports]
        rw [e, List.length_append, List.length_append, length_executeEach hd, length_executeEach hl]
      refine ⟨hall, ?_⟩
      obtain rfl : left = [] := by
        rw [hn, length_reports (length_executeEach hd), e, List.length_append] at hlen
        exact List.length_eq_zero_iff.1 (by omega)
      cases hl
      exact hlast hlen
    have short : ∀ {done left v os}, qs = done ++ left → left ≠ [] → executeEach w done = some (v, os) →
        s.notifications = reports o.messageType done os → s.notifications.length ≠ qs.length := by
      intro done left v os e hne hd hn hlen
      rw [hn, length_reports (length_executeEach hd), e, List.length_append] at hlen
      exact hne (List.length_eq_zero_iff.1 (by omega))
    cases hp with
    | idle hd hn => exact part hqs hd hn fun _ => rfl
    | executing hd hn =>
      rw [List.append_assoc] at hqs
      exact part hqs hd hn fun hlen => absurd hlen (short hqs (by simp) hd hn)
    | delivering hd hn =>
      rw [List.append_assoc] at hqs
      exact part hqs hd hn fun hlen => absurd hlen (short hqs (by simp) hd hn)
  through hs hh := by
    have hjobs := h.jobs_of_atRest hm hw hg hs
    obtain ⟨taken, job, hqs, hjob, hp⟩ := h.inProgress hm hw hg
    rw [h.queue_of_atRest hm hw hg hs hh, List.append_nil] at hqs
    subst hqs
    cases hp with
    | idle hd hn => rw [hn, length_reports (length_executeEach hd)]
    | executing | delivering => simp [hjobs, single] at hjob
  counters done q left e := by
    have hdone : ∀ q ∈ done, ∀ gate, q.statement ≠ .gated gate := fun q hq => hg q (by simp [e, hq])
    obtain ⟨v, os, hd⟩ := exists_executeEach hdone w
    obtain ⟨v', x, hv⟩ := q.args.exists_executeWith (hg q (by simp [e])) v
    obtain ⟨w', y, he, -, -, hc⟩ := Args.executeWith_counters hv
    exact ⟨v, os, v', x, w', y, hd, hv, he, hc⟩

/-- A record of the number seven. -/
def seven : Record := .ofFields [.plain (.integer .bigint) ⟨7, by decide, by decide⟩]

/-- An empty table, a collection for records of one number, and two counters. -/
def oneTable : World :=
  ⟨[[]], [], [⟨.empty (.ofFields [.plain (.integer .bigint) (Width.zero .bigint)]), none⟩], [5, 9]⟩

/-- A row is stored and searched for, then a query fails and one panics. -/
def fourQueries : List (List Action) :=
  [[.start, .submit (.insert 0) ⟨some seven, none, some 0, some 1⟩ [] [] false,
    .submit (.select 0) ⟨none, some 0, none, some 1⟩ [] [] false,
    .submit (.fail "no") ⟨none, none, some 0, none⟩ [] [] false,
    .submit (.panic "oh") ⟨none, none, some 0, some 1⟩ [] [] false]]

/-- The last query is submitted while the first one is executed. -/
def fourQueriesRun : List Label :=
  stepsOf 0 5 ++ stepsOf 1 2 ++ stepsOf 0 10 ++ stepsOf 1 8 ++ stepsOf 0 3 ++ stepsOf 1 47

theorem four_as_if_alone :
    ∃ qs s, (Pool.initial .standard oneTable fourQueries).runWith Pool.Undisturbed [] fourQueriesRun = some (qs, s) ∧
      s.AsIfAlone 1 oneTable qs ∧ s.AtRest ∧ s.notifications.length = 4 ∧ s.world.counters = [1, 1] := by
  obtain ⟨⟨qs, s⟩, hr⟩ := Option.isSome_iff_exists.1 (show ((Pool.initial .standard oneTable fourQueries).runWith
    Pool.Undisturbed [] fourQueriesRun).isSome = true from rfl)
  have hw : ∀ c, oneTable.holder c = none := by
    intro c
    match c with
    | 0 => rfl
    | c + 1 => rfl
  have hv : (qs.map Query.statement, s.notifications.length, s.world.counters, decide s.AtRest) =
      ([.insert 0, .select 0, .fail "no", .panic "oh"], 4, [1, 1], true) := by
    rw [← Option.some_inj, ← Option.map_some (f := fun r : List Query × Pool =>
      (r.1.map Query.statement, r.2.notifications.length, r.2.world.counters, decide r.2.AtRest)) (a := (qs, s)), ← hr]
    rfl
  simp only [Prod.mk.injEq] at hv
  have hg : ∀ q ∈ qs, ∀ gate, q.statement ≠ .gated gate := by
    intro q hq gate e
    have hm := List.mem_map_of_mem (f := Query.statement) hq
    rw [hv.1, e] at hm
    simp at hm
  exact ⟨qs, s, hr, (ReachableWith.initial.runWith hr).as_if_alone rfl hw hg, of_decide_eq_true hv.2.2.2, hv.2.1, hv.2.2.1⟩

end StatementPool
