import StatementPool.Proofs.Pool.Return
/-!
# A pool as a machine

A pool is stopped or running. With one call at a time, `Pool.StartCall`, `Pool.TerminateCall` and
`Pool.SubmitCall` say what each call does to either, whatever the workers do in between. A stopped pool keeps
what is submitted to it, and the workers of the next start take that first. All this is
`ReachableWhile.machine`. It needs threads that can be named after the options: `start_panics`. A start
to which the system refuses a worker leaves a pool behind that is stopped.
-/

namespace StatementPool

variable {o : Options} {w : World} {scripts : List (List Action)} {s s' : Pool} {t : ThreadId} {rest : List Frame}

/-! ## Terminate -/

namespace Pool

variable {s₁ : Pool} {u : ThreadId} {f g : Frame} {fs below : List Frame} {n : Nat}

/-- What a call of `terminate` keeps that thread `t` makes on its frames `rest` in `s`. -/
structure TerminateCall (t : ThreadId) (rest : List Frame) (s : Pool) : Prop where
  /-- A stopped pool stays as it was, its queue too. -/
  idle : s.handles = [] → ∀ s', Serves t rest s s' →
    s'.framesOf t = giveAnswer (.count 0) rest ∧ s'.Stopped ∧ s'.stop = s.stop ∧ s'.queue = s.queue
  untouched : s.handles = [] → ∀ a b target, Leads (During t rest) s a → a.step t target = some b → a.Untouched t b
  returns : s.handles = [] → ∀ a, Leads (During t rest) s a → ∃ b, Serves t rest a b
  /-- A running pool is stopped. What its workers did not take in the meantime is discarded and counted, and
  nothing is left. -/
  ends : s.handles ≠ [] → ∀ s', Serves t rest s s' → s'.Stopped ∧ s'.queue = [] ∧
    ∃ es, s'.log = s.log ++ es ∧ s.waiting = passed [.taken] es ++ passed [.discarded] es ∧
      s'.framesOf t = giveAnswer (.count (passed [.discarded] es).length) rest
  /-- The call does not get stuck as long as no gate is closed and no worker waits for the lock of the handles. -/
  proceeds : ∀ a, Leads (During t rest) s a → a.GatesOpen → (∀ u, a.isWorker u = true → ¬ a.AwaitsLock u) →
    ¬ a.AtRest

/-- What a call of `terminate` that was made in `s` knows in a phase: it is going to look at the handles, or it
has found some, and stops the workers or is going to empty the queue. -/
inductive Ending (s : Pool) : Frame → Pool → Prop where
  | looking {p a} (hp : p = .lock ∨ p = .check) (hs : s.Spares a) : Ending s (.terminate p) a
  | halting {p a} (hne : s.handles ≠ []) (hs : s.Unfed a) : Ending s (.halt .terminate p) a
  | draining {a} (hne : s.handles ≠ []) (hs : s.Unfed a) : Ending s (.terminate .drain) a

theorem Ending.calls {a : Pool} (h : Ending s g a) : callsIn t g = {t} := by
  cases h <;> rfl

/-- The call has taken `n` queries that waited, and everything is still. -/
structure Ended (s : Pool) (n : Nat) (a : Pool) : Prop where
  handles : a.handles = []
  queue : a.queue = []
  log : ∃ es, a.log = s.log ++ es ∧ s.waiting = passed [.taken] es ++ passed [.discarded] es ∧
    n = (passed [.discarded] es).length

/-- A step that leaves alone what the call is about. -/
theorem Ended.spares (h : s.Ended n s') (ha : Act s' u below f fs s₁) (hb : s'.Spares (s₁.setFrames u fs)) :
    s.Ended n (s₁.setFrames u fs) where
  handles := hb.handles.trans h.handles
  queue := List.suffix_nil.1 (h.queue ▸ hb.queue)
  log := by
    obtain ⟨es, hes, hw, hn⟩ := h.log
    obtain ⟨more, hmore, hcases⟩ := act_log ha
    have htaken : passed [.taken] more = [] := by
      rcases hcases with hno | ⟨i, later, -, hwaiting, -⟩
      · exact passed_taken_eq_nil hno
      · simp [waiting, h.queue] at hwaiting
    have hdiscarded : passed [.discarded] more = [] := passed_eq_nil hmore hb.discarded
    refine ⟨es ++ more, by rw [log_setFrames, hmore, hes, List.append_assoc], ?_, ?_⟩
    · rw [passed_append, passed_append, htaken, hdiscarded, List.append_nil, List.append_nil, hw]
    · rw [passed_append, hdiscarded, List.append_nil, hn]

/-- While a call drops queries, nothing else happens to what it is about. -/
theorem OneAtATime.drops (h : s.OneAtATime) (hd : s.Drops t rest n) (hu : s.framesOf u = f :: below)
    (ha : Act s u below f fs s₁) : s.Spares (s₁.setFrames u fs) := by
  obtain ⟨above, left, hshape⟩ := hd
  refine act_spares ?_ ha
  by_cases e : u = t
  · subst e
    cases above with
    | nil =>
      cases hshape.symm.trans hu
      exact .inr ⟨_, _, rfl⟩
    | cons g gs =>
      cases hshape.symm.trans hu
      exact .inl ((h.alone hshape rfl).1 f List.mem_cons_self)
  · exact .inl (h.elsewhere hshape rfl e (hu ▸ List.mem_cons_self))

/-- The call empties the queue: what is left there has been waiting since the call was made. -/
theorem ended_of_drain {P : Pool → Frame → Pool → Prop} (hr : Reachable o w scripts s) (hl : Leads P s s')
    (hret : s'.retired = false) (hs : s.Unfed s') (ht : s'.framesOf t = .terminate .drain :: rest)
    (ha : Act s' t rest (.terminate .drain) fs s₁) : s.Ended s'.queue.length (s₁.setFrames t fs) := by
  obtain ⟨es, hes, hw⟩ := hs.onlyTaken hr hl hret
  have hdiscarded : passed [.discarded] es = [] := passed_eq_nil hes hs.discarded
  have hhandles : s'.handles = [] := by
    obtain ⟨held, hst⟩ := (hl.reachable hr).staged.of_mem (mem_phases_before ht (Multiset.mem_singleton_self _))
    cases hst with
    | draining hh => exact hh
  cases ha with
  | drain hq =>
    refine ⟨hhandles, rfl, es ++ s'.queue.map fun q => .discarded q.serial t, by simp [hes], ?_, ?_⟩
    · rw [hw]
      simp [passed_discarded, hdiscarded, waiting]
    · simp [passed_discarded, hdiscarded]

/-- Until it comes back, a call of `terminate` is in one of its phases, or it drops the queries that it took. -/
theorem ending_of_leads (h : ReachableWhile OneAtATime o w scripts s) (ht : s.framesOf t = .terminate .lock :: rest)
    {a : Pool} (hl : Leads (During t rest) s a) :
    (∃ g, a.framesOf t = g :: rest ∧ Ending s g a) ∨ ∃ n, a.Drops t rest n ∧ s.handles ≠ [] ∧ s.Ended n a := by
  refine hl.keeps (Q := fun a => (∃ g, a.framesOf t = g :: rest ∧ Ending s g a) ∨
    ∃ n, a.Drops t rest n ∧ s.handles ≠ [] ∧ s.Ended n a) (.inl ⟨_, ht, .looking (.inl rfl) (.refl s)⟩) ?_
  rintro a u f below fs a₁ hl ha hin hu hact
  have hra := hl.reachableWhile h fun _ _ _ hp => hp.1
  rcases ha with ⟨g, hg, hq⟩ | ⟨n, hd, hne, he⟩
  · rcases hra.here.act hg hq.calls hu hact with ⟨rfl, rfl, rfl, after⟩ | ⟨after, hsame⟩
    · have hlen := hin.2
      rw [Within, after] at hlen
      cases hq with
      | looking hp hs =>
        cases hact with
        | terminateLock =>
          exact .inl ⟨_, after, .looking (.inr rfl) ⟨⟨hs.submitted, hs.discarded⟩, hs.handles, hs.stop, hs.queue⟩⟩
        | terminateIdle => simp at hlen
        | terminateRunning he =>
          exact .inl ⟨_, after, .halting (hs.handles ▸ he) ⟨hs.submitted, hs.discarded⟩⟩
        | drain => simp at hp
      | halting hne hs =>
        cases hact with
        | haltStop | haltWake | join => exact .inl ⟨_, after, .halting hne ⟨hs.submitted, hs.discarded⟩⟩
        | joined => exact .inl ⟨_, after, .draining hne ⟨hs.submitted, hs.discarded⟩⟩
      | draining hne hs =>
        cases hact with
        | drain hq =>
          refine .inr ⟨_, ⟨[], a.queue, after⟩, hne, ?_⟩
          exact ended_of_drain h.reachable hl hra.not_retired.1 hs hu (.drain hq)
    · refine .inl ⟨g, after, ?_⟩
      cases hq with
      | looking hp hs => exact .looking hp (hs.trans hsame)
      | halting hne hs => exact .halting hne (hs.trans hsame.toUnfed)
      | draining hne hs => exact .draining hne (hs.trans hsame.toUnfed)
  · refine .inr ⟨n, (hd.act hu hact).resolve_right ?_, hne, he.spares hact (hra.here.drops hd hu hact)⟩
    rintro ⟨-, e, -⟩
    have hlen := hin.2
    rw [Within, e, length_giveAnswer] at hlen
    exact Nat.lt_irrefl _ hlen

/-- How a call of `terminate` comes back. -/
theorem terminate_answers (h : ReachableWhile OneAtATime o w scripts s) (ht : s.framesOf t = .terminate .lock :: rest)
    (hs : Serves t rest s s') :
    (s.handles = [] ∧ s.Spares s' ∧ s'.framesOf t = giveAnswer (.count 0) rest) ∨
      ∃ n, s.handles ≠ [] ∧ s.Ended n s' ∧ s'.phases = 0 ∧ s'.framesOf t = giveAnswer (.count n) rest := by
  obtain ⟨a, hl, hret, hone⟩ := hs
  have hra := hl.reachableWhile h fun _ _ _ hp => hp.1
  rcases ending_of_leads h ht hl with ⟨g, hg, hq⟩ | ⟨n, hd, hne, he⟩
  · obtain ⟨fs, a₁, hact, rfl, after, hlen⟩ := hret.own hg hq.calls
    cases hq with
    | looking hp hs =>
      cases hact with
      | terminateIdle he =>
        refine .inl ⟨hs.handles ▸ he, ⟨⟨?_, ?_⟩, hs.handles, hs.stop, hs.queue⟩, after⟩
        · simp [passed_cons, Event.milestone?, hs.submitted]
        · simp [Pool.discarded, passed_cons, Event.milestone?]
          exact hs.discarded
      | terminateLock | terminateRunning => simp at hlen
      | drain => simp at hp
    | halting =>
      cases hact with
      | haltStop | haltWake | join | joined => simp at hlen
    | draining =>
      cases hact with
      | drain => simp at hlen
  · obtain ⟨l, hn, -, hlen⟩ := hret
    obtain ⟨f, below, fs, a₁, hu, hact, rfl⟩ := next_steps hn
    obtain ⟨rfl, hanswer, -⟩ := (hd.act hu hact).resolve_left (by
      rintro ⟨above, left, e⟩
      rw [e] at hlen
      simp at hlen
      omega)
    refine .inr ⟨n, hne, he.spares hact (hra.here.drops hd hu hact), ?_, hanswer⟩
    obtain ⟨above, left, hshape⟩ := hd
    have hzero := (hra.here.unlocked hra.reachable hshape rfl rfl).2
    refine Multiset.eq_zero_of_forall_notMem fun p hp => ?_
    rcases act_mem_phases hu hact hp with hp | hnext
    · have hmem := mem_phases_below hu hp
      rw [hzero] at hmem
      cases hmem
    · cases hnext

/-- A call of `terminate` on a stopped pool is no start. -/
theorem resting_of_leads (h : ReachableWhile OneAtATime o w scripts s) (ht : s.framesOf t = .terminate .lock :: rest)
    (he : s.handles = []) (hs : Serves t rest s s') : Leads Resting s s' := by
  obtain ⟨a, hl, hret, hone⟩ := hs
  -- whoever takes a step, it is not a call of `start`
  have quiet : ∀ {b f l}, Leads (During t rest) s b → b.acting l = some f → ∀ b', b.next l = some b' →
      f.looksForHandles = false := by
    intro b f l hl hf b' hn
    have hrb := hl.reachableWhile h fun _ _ _ hp => hp.1
    obtain ⟨u, below, fs, b₁, hu, hact, -⟩ := next_acting hf hn
    rcases ending_of_leads h ht hl with ⟨g, hg, hq⟩ | ⟨n, -, hne, -⟩
    · by_cases e : u = t
      · subst e
        cases hg.symm.trans hu
        cases hq <;> rfl
      · have hfirst : b.framesOf t = [] ++ g :: rest := hg
        have hzero := hrb.here.elsewhere hfirst hq.calls e (hu ▸ List.mem_cons_self : f ∈ b.framesOf u)
        cases f with
        | start => simp [callsIn] at hzero
        | _ => rfl
    · exact absurd he hne
  have hrest : Leads Resting s a := by
    clear hret
    induction hl with
    | refl => exact .refl
    | next l hl hf hn hp ih => exact ih.next l hf hn ⟨hp.1, fun e => absurd e (by simp [quiet hl hf _ hn])⟩
  obtain ⟨l, hn, -⟩ := hret
  obtain ⟨f, below, fs, a₁, hu, hact, -⟩ := next_steps hn
  have hf : a.acting l = some f := by
    cases l <;> exact congrArg List.head? hu
  exact hrest.next l hf hn ⟨hone, fun e => absurd e (by simp [quiet hl hf _ hn])⟩

theorem stopped_of_call (h : ReachableWhile OneAtATime o w scripts s) (ht : s.framesOf t = .terminate .lock :: rest)
    (he : s.handles = []) : s.Stopped :=
  ⟨he, fun p hp => by
    rw [(h.here.unlocked_first h.reachable ht rfl rfl).2] at hp
    cases hp⟩

theorem terminate_comes_back {p : TerminatePhase} (hp : p = .lock ∨ p = .check)
    (h : ReachableWhile OneAtATime o w scripts s) (ht : s.framesOf t = .terminate p :: rest) (he : s.handles = []) :
    ∃ b, Grants t rest s b := by
  -- the call looks at the handles
  have looks : ∀ {s}, ReachableWhile OneAtATime o w scripts s → s.framesOf t = .terminate .check :: rest →
      s.handles = [] → ∃ b, Grants t rest s b := by
    intro s h ht he
    have hg := h.here.granted ht rfl (by simp [phasesIn, Phase.isRefused])
    refine exists_grants h hg (by simp [ht]) ht (fun hb => by cases hb) (fun ha => ?_) fun ha _ _ => .inl ?_
    · cases ha with
      | terminateIdle => simp [stackWeight_giveAnswer steady_callsIn]
      | terminateRunning hne => exact absurd he hne
    · rw [framesOf_act ht ha]
      cases ha with
      | terminateIdle => simp
      | terminateRunning hne => exact absurd he hne
  rcases hp with rfl | rfl
  · have hfree := (h.here.unlocked_first h.reachable ht rfl rfl).1
    have hg := h.here.granted ht rfl (by simp [phasesIn])
    refine exists_grants h hg (by simp [ht]) ht (fun hb => ?_) (fun ha => ?_) fun ha _ hnext => .inr ?_
    · cases hb with
      | terminateLock hh => exact hh hfree
    · cases ha with
      | terminateLock => simp [callsIn]
    · have after := framesOf_act ht ha
      cases ha with
      | terminateLock => exact looks hnext after he
  · exact looks h ht he

/-- While a call of `terminate` is in progress, somebody can take a step. -/
theorem terminate_proceeds (hw : ∀ c, w.holder c = none) (h : ReachableWhile OneAtATime o w scripts s)
    (ht : s.framesOf t = .terminate .lock :: rest) {a : Pool} (hl : Leads (During t rest) s a) (hg : a.GatesOpen)
    (hno : ∀ u, a.isWorker u = true → ¬ a.AwaitsLock u) : ¬ a.AtRest := by
  have hra := (hl.reachableWhile h fun _ _ _ hp => hp.1).reachable
  rcases ending_of_leads h ht hl with ⟨g, hg', hend⟩ | ⟨n, ⟨above, left, hshape⟩, -⟩
  · have hfirst : a.framesOf t = [] ++ g :: rest := hg'
    exact hra.call_proceeds hw hfirst hend.calls hg hno
  · exact hra.call_proceeds hw hshape rfl hg hno

theorem terminateCall (hw : ∀ c, w.holder c = none) (h : ReachableWhile OneAtATime o w scripts s)
    (ht : s.framesOf t = .terminate .lock :: rest) : s.TerminateCall t rest where
  idle he s' hs := by
    rcases terminate_answers h ht hs with ⟨-, hspares, hanswer⟩ | ⟨n, hne, -⟩
    · obtain ⟨hstopped, es, hes, hwaiting⟩ := h.keeps_queue (stopped_of_call h ht he) (resting_of_leads h ht he hs)
      rw [passed_eq_nil hes hspares.submitted, List.append_nil] at hwaiting
      refine ⟨hanswer, hstopped, hspares.stop, hspares.queue.eq_of_length ?_⟩
      simpa [waiting] using congrArg List.length hwaiting
    · exact absurd he hne
  untouched he a b target hl hs := by
    rcases ending_of_leads h ht hl with ⟨g, hg, hq⟩ | ⟨n, -, hne, -⟩
    · obtain ⟨f, below, fs, a₁, hf, hact, rfl⟩ := step_cases hs
      cases hg.symm.trans hf
      cases hq with
      | looking hp hspares =>
        cases hact with
        | terminateLock | terminateIdle => exact ⟨⟨_, _, _, rfl⟩, fun u hu => framesOf_setFrames_ne hu _⟩
        | terminateRunning hne => exact absurd (hspares.handles.trans he) hne
        | drain => simp at hp
      | halting hne | draining hne => exact absurd he hne
    · exact absurd he hne
  returns he a hl := by
    have hra := hl.reachableWhile h fun _ _ _ hp => hp.1
    rcases ending_of_leads h ht hl with ⟨g, hg, hq⟩ | ⟨n, -, hne, -⟩
    · cases hq with
      | looking hp hspares =>
        exact (terminate_comes_back hp hra hg (hspares.handles.trans he)).imp fun _ hb => hb.serves
      | halting hne | draining hne => exact absurd he hne
    · exact absurd he hne
  ends hne s' hs := by
    rcases terminate_answers h ht hs with ⟨he, -⟩ | ⟨n, -, hended, hphases, hanswer⟩
    · exact absurd he hne
    · obtain ⟨hh, hq, es, hes, hwaiting, rfl⟩ := hended
      exact ⟨⟨hh, fun p hp => by rw [hphases] at hp; cases hp⟩, hq, es, hes, hwaiting, hanswer⟩
  proceeds a hl hg hno := terminate_proceeds hw h ht hl hg hno

end Pool

/-! ## The machine -/

/-- Before another query is taken, all that waited are gone, the first ones first. -/
theorem Leads.waiting_first {P : Pool → Frame → Pool → Prop} (hr : Reachable o w scripts s) (hl : Leads P s s')
    (hret : s'.retired = false) {pre post : List Event} {i : Nat} {u : ThreadId}
    (hlog : s'.log = s.log ++ (pre ++ .taken i u :: post)) (hi : i ∉ s.waiting) :
    s.waiting <+: passed [.taken, .discarded] pre := by
  have hin := (hl.reachable hr).inOrder
  obtain ⟨earlier, later, hsubmitted, -, hgone⟩ := hin.first (s.log ++ pre) i u post (by rw [hlog, List.append_assoc])
  have before := hr.inOrder.complete (hl.retired hret)
  rw [← hgone hret, passed_append, passed_append, ← before, List.append_assoc, List.append_assoc,
    List.append_cancel_left_eq] at hsubmitted
  rcases List.append_eq_append_iff.1 hsubmitted with ⟨more, hmore, -⟩ | ⟨left, hwaiting, hleft⟩
  · exact ⟨more, hmore.symm⟩
  · cases left with
    | nil => exact ⟨[], by rw [hwaiting, List.append_nil, List.append_nil]⟩
    | cons j left =>
      cases hleft
      exact absurd (by simp [hwaiting]) hi

namespace Pool

/-- What a pool keeps in a run with one call at a time. -/
structure Machine (o : Options) (s : Pool) : Prop where
  start : ∀ t rest, s.framesOf t = .start .lock :: rest → s.StartCall o.maxThreads.toNat t rest
  terminate : ∀ t rest, s.framesOf t = .terminate .lock :: rest → s.TerminateCall t rest
  submit : ∀ t q rest, s.framesOf t = .push q :: rest → s.SubmitCall q t rest
  /-- Without handles, and while no call is in progress, it is stopped. -/
  rests : s.handles = [] → s.calls = 0 → s.Stopped
  /-- Until the next start a stopped pool keeps all that waits, in order. -/
  keeps : s.Stopped → ∀ s', Leads Resting s s' → s'.Stopped ∧
    ∃ es, s'.log = s.log ++ es ∧ s'.waiting = s.waiting ++ passed [.submitted] es
  /-- Before a query is taken that was submitted later, all that wait now are gone, and they are taken in order
  unless something is discarded. -/
  first : ∀ s', Leads (fun _ _ a => a.OneAtATime) s s' → ∀ pre i u post,
    s'.log = s.log ++ (pre ++ .taken i u :: post) → i ∉ s.waiting →
    s.waiting <+: passed [.taken, .discarded] pre ∧ (passed [.discarded] pre = [] → s.waiting <+: passed [.taken] pre)

theorem stopped_of_calls (hh : s.handles = []) (hc : s.calls = 0) : s.Stopped := by
  refine ⟨hh, fun p hp => ?_⟩
  obtain ⟨u, f, hf, hmem⟩ := mem_total.1 hp
  have hnone : callsIn u f = 0 := by
    refine Multiset.eq_zero_of_forall_notMem fun v hv => ?_
    have hcall : v ∈ s.calls := mem_total.2 ⟨u, f, hf, hv⟩
    rw [hc] at hcall
    cases hcall
  rw [phasesIn_eq_zero hnone] at hmem
  cases hmem

end Pool

/-- With one call of `start` or `terminate` or one submission at a time, and none by a worker, a pool whose threads
can be named is a machine that is stopped or running, and each call does to it what the contracts say. In the run
the system may refuse workers to calls of `start`. -/
theorem ReachableWhile.machine (hw : ∀ c, w.holder c = none) (hn : Pool.namesThreads o = true)
    (h : ReachableWhile Pool.OneAtATime o w scripts s) : s.Machine o where
  start _ _ ht := Pool.startCall hw h hn ht
  terminate _ _ ht := Pool.terminateCall hw h ht
  submit _ _ _ ht := Pool.submitCall h ht
  rests := Pool.stopped_of_calls
  keeps hs _ hl := h.keeps_queue hs hl
  first s' hl pre i u post hlog hi := by
    have hret := (hl.reachableWhile h fun _ _ _ hp => hp).not_retired.1
    have hfirst := hl.waiting_first h.reachable hret hlog hi
    refine ⟨hfirst, fun hd => ?_⟩
    have hgone : passed [.taken, .discarded] pre = passed [.taken] pre :=
      passed_congr fun k => by cases k <;> simp [hd]
    exact hgone ▸ hfirst

/-- Two queries for a stopped pool, a start and another one, a third query, and the end. -/
def restarts : List (List Action) :=
  [[.submit (.fail "no") .empty [] [] false, .submit (.fail "no") .empty [] [] false, .start, .start,
    .submit (.fail "no") .empty [] [] false, .terminate]]

/-- The stopped pool keeps both queries, and is started. The second start is refused while the worker takes the
first query. Of the two queries that wait when the pool is told to end, the worker takes the older one, and the
other one is discarded and counted. -/
theorem machine_of_restarts :
    ∃ s s₁ s₂ s₃ s₄ s₅ s₆ s₇ rest rest₁ rest₂,
      (Pool.initial .standard ⟨[], [], [], []⟩ restarts).runWhile Pool.OneAtATime (stepsOf 0 3) = some s ∧
      s.Machine .standard ∧ s.Stopped ∧ s.waiting = [0] ∧
      s.runThrough Pool.Resting (stepsOf 0 3) = some s₁ ∧ s₁.Stopped ∧ s₁.waiting = [0, 1] ∧
      s₁.runWhile Pool.OneAtATime (stepsOf 0 1) = some s₂ ∧ s₂.framesOf 0 = .start .lock :: rest ∧
      Pool.Grants 0 rest s₂ s₃ ∧ s₃.framesOf 0 = giveAnswer (.outcome (.ok ())) rest ∧ s₃.handles.length = 1 ∧
      s₃.runWhile Pool.OneAtATime (stepsOf 0 1) = some s₄ ∧ s₄.framesOf 0 = .start .lock :: rest₁ ∧
      Pool.Serves 0 rest₁ s₄ s₅ ∧
      s₅.framesOf 0 = giveAnswer (.outcome (.error (.lifecycle .alreadyStarted))) rest₁ ∧ s₅.handles = s₄.handles ∧
      passed [.taken] s₅.log = [0] ∧ s₅.runWhile Pool.OneAtATime (stepsOf 0 4) = some s₆ ∧
      s₆.framesOf 0 = .terminate .lock :: rest₂ ∧ s₆.waiting = [1, 2] ∧
      Pool.Serves 0 rest₂ s₆ s₇ ∧ s₇.Stopped ∧ s₇.queue = [] ∧ passed [.taken] s₇.log = [0, 1] ∧
      s₇.framesOf 0 = giveAnswer (.count 1) rest₂ := by
  obtain ⟨s, s₁, s₂, a₂, s₃, s₄, a₄, s₅, s₆, a₆, s₇, rest, rest₁, rest₂, hr, hh, hc, hw, hsub, hr₁, hsub₁, hr₂, ht₂,
      hh₂, hl₂, hret₂, hone₃, hr₄, ht₄, hh₄, hl₄, hret₄, hone₅, htaken₅, hr₆, ht₆, hh₆, hw₆, hdisc₆, hl₆, hret₆, hone₇,
      htaken₇, hdisc₇⟩ :
      ∃ s s₁ s₂ a₂ s₃ s₄ a₄ s₅ s₆ a₆ s₇ rest rest₁ rest₂,
      (Pool.initial .standard ⟨[], [], [], []⟩ restarts).runWhile Pool.OneAtATime (stepsOf 0 3) = some s ∧
      s.handles = [] ∧ s.calls = 0 ∧ s.waiting = [0] ∧ passed [.submitted] s.log = [0] ∧
      s.runThrough Pool.Resting (stepsOf 0 3) = some s₁ ∧ passed [.submitted] s₁.log = [0, 1] ∧
      s₁.runWhile Pool.OneAtATime (stepsOf 0 1) = some s₂ ∧ s₂.framesOf 0 = .start .lock :: rest ∧ s₂.handles = [] ∧
      s₂.runThrough (Pool.Granting 0 rest) (stepsOf 0 4 ++ stepsOf 1 2) = some a₂ ∧ Pool.Returns 0 rest a₂ s₃ ∧
      s₃.OneAtATime ∧ s₃.runWhile Pool.OneAtATime (stepsOf 0 1) = some s₄ ∧
      s₄.framesOf 0 = .start .lock :: rest₁ ∧ s₄.handles ≠ [] ∧
      s₄.runThrough (Pool.During 0 rest₁) (stepsOf 0 1 ++ stepsOf 1 3) = some a₄ ∧ Pool.Returns 0 rest₁ a₄ s₅ ∧
      s₅.OneAtATime ∧ passed [.taken] s₅.log = [0] ∧ s₅.runWhile Pool.OneAtATime (stepsOf 0 4) = some s₆ ∧
      s₆.framesOf 0 = .terminate .lock :: rest₂ ∧ s₆.handles ≠ [] ∧ s₆.waiting = [1, 2] ∧
      passed [.discarded] s₆.log = [] ∧
      s₆.runThrough (Pool.During 0 rest₂) (stepsOf 1 13 ++ stepsOf 0 4 ++ stepsOf 1 14 ++ stepsOf 0 5) = some a₆ ∧
      Pool.Returns 0 rest₂ a₆ s₇ ∧ s₇.OneAtATime ∧ passed [.taken] s₇.log = [0, 1] ∧
      passed [.discarded] s₇.log = [2] :=
    ⟨_, _, _, _, _, _, _, _, _, _, _, _, _, _, rfl, rfl, by decide, rfl, rfl, rfl, rfl, rfl, rfl, rfl, rfl,
      ⟨.run 0 none, rfl, by decide, by decide⟩, by decide, rfl, rfl, by decide, rfl,
      ⟨.run 0 none, rfl, by decide, by decide⟩, by decide, rfl, rfl, rfl, by decide, rfl, rfl, rfl,
      ⟨.run 0 none, rfl, by decide, by decide⟩, by decide, rfl, rfl⟩
  have machine : ∀ {a}, ReachableWhile Pool.OneAtATime .standard ⟨[], [], [], []⟩ restarts a → a.Machine .standard :=
    fun h => h.machine (fun c => by simp [World.holder]) (by decide)
  have h := (ReachableWhile.initial (by decide)).runWhile hr
  have hstopped := (machine h).rests hh hc
  obtain ⟨hstopped₁, es, hes, hw₁⟩ := (machine h).keeps hstopped s₁ (Leads.refl.runThrough hr₁)
  have hmore : passed [.submitted] es = [1] := by
    rw [hes, passed_append, hsub] at hsub₁
    exact List.append_cancel_left hsub₁
  have h₂ := ((Leads.refl.runThrough hr₁).reachableWhile h fun _ _ _ hp => hp.1).runWhile hr₂
  have hs₂ : Pool.Grants 0 rest s₂ s₃ := ⟨a₂, Leads.refl.runThrough hl₂, hret₂, hone₃⟩
  obtain ⟨hanswer₃, hh₃, -⟩ := ((machine h₂).start 0 rest ht₂).starts hh₂ s₃ hs₂
  have h₄ := (hs₂.serves.reachableWhile h₂).runWhile hr₄
  have hs₄ : Pool.Serves 0 rest₁ s₄ s₅ := ⟨a₄, Leads.refl.runThrough hl₄, hret₄, hone₅⟩
  obtain ⟨hanswer₅, hh₅, -⟩ := ((machine h₄).start 0 rest₁ ht₄).refuses hh₄ s₅ hs₄
  have h₆ := (hs₄.reachableWhile h₄).runWhile hr₆
  have hs₆ : Pool.Serves 0 rest₂ s₆ s₇ := ⟨a₆, Leads.refl.runThrough hl₆, hret₆, hone₇⟩
  obtain ⟨hstopped₇, hq₇, ends, hends, -, hanswer₇⟩ := ((machine h₆).terminate 0 rest₂ ht₆).ends hh₆ s₇ hs₆
  have hlast : passed [.discarded] ends = [2] := by
    rw [hends, passed_append, hdisc₆] at hdisc₇
    exact hdisc₇
  rw [hlast] at hanswer₇
  rw [hw, hmore] at hw₁
  exact ⟨s, s₁, s₂, s₃, s₄, s₅, s₆, s₇, rest, rest₁, rest₂, hr, machine h, hstopped, hw, hr₁, hstopped₁, hw₁, hr₂, ht₂,
    hs₂, hanswer₃, hh₃, hr₄, ht₄, hs₄, hanswer₅, hh₅, htaken₅, hr₆, ht₆, hw₆, hs₆, hstopped₇, hq₇, htaken₇, hanswer₇⟩

/-- Options that are valid, with a name that no thread can have. -/
def unnameable : Options := { Options.standard with threadName := "a\x00b" }

/-- With such options a start of a stopped pool does not succeed: it panics. -/
theorem start_panics :
    ∃ s s₁ rest, unnameable.validate = .ok () ∧
      (Pool.initial unnameable ⟨[], [], [], []⟩ [[.start]]).runWhile Pool.OneAtATime (stepsOf 0 1) = some s ∧
      s.Stopped ∧ s.framesOf 0 = .start .lock :: rest ∧ Pool.Serves 0 rest s s₁ ∧
      s₁.framesOf 0 = giveAnswer .panicked rest := by
  obtain ⟨s, a, s₁, rest, hv, hr, hp, ht, hl, hret, hone, hanswer⟩ : ∃ s a s₁ rest, unnameable.validate = .ok () ∧
      (Pool.initial unnameable ⟨[], [], [], []⟩ [[.start]]).runWhile Pool.OneAtATime (stepsOf 0 1) = some s ∧
      s.handles = [] ∧ s.framesOf 0 = .start .lock :: rest ∧
      s.runThrough (Pool.During 0 rest) (stepsOf 0 1) = some a ∧ Pool.Returns 0 rest a s₁ ∧ s₁.OneAtATime ∧
      s₁.framesOf 0 = giveAnswer .panicked rest :=
    ⟨_, _, _, _, rfl, rfl, rfl, rfl, rfl, ⟨.run 0 none, rfl, by decide, by decide⟩, by decide, rfl⟩
  have h := (ReachableWhile.initial (by decide)).runWhile hr
  have hphases := (h.here.unlocked_first h.reachable ht rfl rfl).2
  refine ⟨s, s₁, rest, hv, hr, ⟨hp, fun p hp => ?_⟩, ht, ⟨a, Leads.refl.runThrough hl, hret, hone⟩, hanswer⟩
  rw [hphases] at hp
  cases hp

end StatementPool
