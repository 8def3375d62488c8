import StatementPool.Proofs.Pool.OneCall
/-!
# Calls that come back

With one call at a time a submission (`Pool.SubmitCall`) and a call of `start` (`Pool.StartCall`) come back
whatever the workers do in between, and this is what they do from the moment when they are made. The system
may refuse to spawn a worker. A call of `start` comes back if it is refused none (`Pool.Grants`); one that is
refused a worker stops those that it has, and goes on like a call of `terminate`.
-/

namespace StatementPool

variable {o : Options} {w : World} {scripts : List (List Action)} {s s' : Pool} {t : ThreadId} {rest : List Frame}

/-! ## Starts that are refused no worker -/

/-- Whether a phase is one of a call of `start` that was refused a worker. -/
def Phase.isRefused : Phase → Bool
  | .start (.wait (some _)) | .halt (.start _) _ => true
  | _ => false

namespace Pool

variable {s₁ : Pool} {f : Frame} {fs : List Frame}

/-- No call of `start` that is in progress was refused a worker. -/
def Granted (s : Pool) : Prop := ∀ p ∈ s.phases, p.isRefused = false

instance : DecidablePred Granted := fun s => inferInstanceAs (Decidable (∀ p ∈ s.phases, p.isRefused = false))

/-- A step of a run with one call at a time, before the call that thread `t` made on its frames `rest` comes
back, and while the system spawns each worker that the call asks for. -/
def Granting (t : ThreadId) (rest : List Frame) (s : Pool) (f : Frame) (s' : Pool) : Prop :=
  During t rest s f s' ∧ s'.Granted

instance (t : ThreadId) (rest : List Frame) (s : Pool) (f : Frame) (s' : Pool) : Decidable (Granting t rest s f s') :=
  inferInstanceAs (Decidable (During t rest s f s' ∧ s'.Granted))

/-- Between `s` and `s'`, the call that thread `t` makes on its frames `rest` comes back, it is the only one, and
the system spawns each worker that it asks for. -/
def Grants (t : ThreadId) (rest : List Frame) (s s' : Pool) : Prop :=
  ∃ a, Leads (Granting t rest) s a ∧ Returns t rest a s' ∧ s'.OneAtATime

theorem Grants.serves (h : Grants t rest s s') : Serves t rest s s' := by
  obtain ⟨a, hl, hret, hone⟩ := h
  exact ⟨a, hl.mono fun _ _ _ hp => hp.1, hret, hone⟩

theorem Granted.leads (h : s.Granted) (hl : Leads (Granting t rest) s s') : s'.Granted := by
  cases hl with
  | refl => exact h
  | next _ _ _ _ hp => exact hp.2

/-- A call that goes on was not refused a worker before, and so it is not now unless the system refuses one in
this very step. -/
theorem act_granted (ht : s.framesOf t = f :: rest) (ha : Act s t rest f fs s₁)
    (hf : ∀ k cause, f = .start (.spawn k) → fs ≠ .start (.wait (some cause)) :: rest) (h : s.Granted) :
    (s₁.setFrames t fs).Granted := by
  intro p hp
  have own : ∀ {q}, phasesIn t f = {q} → q.isRefused = false := fun hq => h _ (mem_phases_before ht (by simp [hq]))
  by_cases hspawn : ∃ k, f = .start (.spawn k)
  · obtain ⟨k, rfl⟩ := hspawn
    have hbelow : p ∈ s.phasesBelow t rest → p.isRefused = false := fun hp => h p (mem_phases_below ht hp)
    rw [phases, act_total steady_phasesIn (fun _ => rfl) ht ha] at hp
    cases ha with
    | spawnFails => exact absurd rfl (hf _ _ rfl)
    | spawn | spawned =>
      rw [stackWeight_cons, add_assoc] at hp
      rcases Multiset.mem_add.1 hp with hp | hp
      · rw [Multiset.mem_singleton.1 hp]
        rfl
      · exact hbelow hp
  · rcases act_mem_phases ht ha hp with hp | hnext
    · exact h p (mem_phases_below ht hp)
    · cases hnext with
      | started | begun | drains | terminated | stops => rfl
      | spawned | awaits => exact absurd ⟨_, rfl⟩ hspawn
      | abandons => exact absurd (own (q := .start (.wait (some _))) rfl) (by simp [Phase.isRefused])
      | @wakes caller =>
        have hcaller := own (q := .halt caller .stop) rfl
        cases caller <;> exact hcaller
      | @joins caller =>
        have hcaller := own (q := .halt caller .wake) rfl
        cases caller <;> exact hcaller
      | @joined caller u left =>
        have hcaller := own (q := .halt caller (.join (u :: left))) rfl
        cases caller <;> exact hcaller

/-- A step of a call of `start` spawns the worker that it asks for; only `refuse` does not. -/
theorem step_spawn {k : Nat} {target : Option ThreadId} (ht : s.framesOf t = .start (.spawn k) :: rest)
    (hs : s.step t target = some s') :
    s'.framesOf t = .start (.spawn (k + 1)) :: rest ∨ s'.framesOf t = .start (.wait none) :: rest := by
  have hlt := lt_of_framesOf ht
  simp only [step, ht, stepStart] at hs
  split at hs
  · obtain rfl := Option.some.inj hs
    exact .inl (framesOf_setFrames_self (Nat.lt_of_lt_of_le hlt (by simp)) _)
  · obtain rfl := Option.some.inj hs
    exact .inr (framesOf_setFrames_self hlt _)

theorem step_granted {target : Option ThreadId} (hs : s.step t target = some s') (h : s.Granted) : s'.Granted := by
  obtain ⟨f, rest, fs, s₁, ht, ha, rfl⟩ := step_cases hs
  refine act_granted ht ha ?_ h
  rintro k cause rfl rfl
  have hspawn := step_spawn ht hs
  rw [framesOf_act ht ha] at hspawn
  simp at hspawn

end Pool

/-! ## Calls come back -/

namespace Pool

variable {s₁ : Pool} {u : ThreadId} {f : Frame} {fs below : List Frame}

theorem Serves.leads {b : Pool} (h : Serves t rest s b) : ∃ P, Leads P s b := by
  obtain ⟨a, hl, ⟨l, hn, -⟩, -⟩ := h
  obtain ⟨f, below, fs, s₁, ht, ha, e⟩ := next_steps hn
  have hact : a.acting l = some f := by
    cases l <;> exact congrArg List.head? ht
  exact ⟨fun _ _ _ => True, (hl.mono fun _ _ _ _ => trivial).next l hact hn trivial⟩

theorem Serves.reachableWhile (h : ReachableWhile OneAtATime o w scripts s) (hs : Serves t rest s s') :
    ReachableWhile OneAtATime o w scripts s' := by
  obtain ⟨a, hl, ⟨l, hn, -⟩, hone⟩ := hs
  exact (hl.reachableWhile h fun _ _ _ hp => hp.1).next l hn hone

/-- A call goes on being the only one if the step makes no new one. -/
theorem act_oneAtATime (ht : s.framesOf t = f :: rest) (ha : Act s t rest f fs s₁) (h : s.OneAtATime)
    (hle : stackWeight (callsIn t) fs ≤ stackWeight (callsIn t) (f :: rest)) : (s₁.setFrames t fs).OneAtATime := by
  have hcalls : (s₁.setFrames t fs).calls ≤ s.calls := by
    rw [calls, calls, act_total steady_callsIn (fun _ => rfl) ht ha, total_eq (lt_of_framesOf ht), ht]
    exact add_le_add_left hle _
  refine ⟨(Multiset.card_le_card hcalls).trans h.1, fun u hu => ?_⟩
  have hu := Multiset.mem_of_le hcalls hu
  obtain ⟨v, g, hg, hmem⟩ := mem_total.1 hu
  obtain rfl : u = v := by
    cases g <;> first | exact Multiset.mem_singleton.1 hmem | cases hmem
  rw [isWorker_setFrames, act_isWorker ha (lt_of_mem_framesOf hg)]
  exact h.2 u hu

/-- A call comes back if a thread takes a step from which on it does. -/
theorem exists_grants (h : ReachableWhile OneAtATime o w scripts s) (hg : s.Granted)
    (hin : rest.length < (s.framesOf t).length) (hu : s.framesOf u = f :: below) (hb : ¬ s.Blocked u f)
    (hnew : ∀ {fs s₁}, Act s u below f fs s₁ → stackWeight (callsIn u) fs ≤ stackWeight (callsIn u) (f :: below))
    (hnext : ∀ {fs s₁}, Act s u below f fs s₁ → (s₁.setFrames u fs).Granted →
      ReachableWhile OneAtATime o w scripts (s₁.setFrames u fs) →
      ((s₁.setFrames u fs).framesOf t).length ≤ rest.length ∨ ∃ b, Grants t rest (s₁.setFrames u fs) b) :
    ∃ b, Grants t rest s b := by
  obtain ⟨target, s', hs⟩ := exists_step hu h.reachable.backed hb
  have hg' := step_granted hs hg
  obtain ⟨f', below', fs, s₁, hu', ha, rfl⟩ := step_cases hs
  cases hu.symm.trans hu'
  have hone := act_oneAtATime hu ha h.here (hnew ha)
  have hreturn : ((s₁.setFrames u fs).framesOf t).length ≤ rest.length → ∃ b, Grants t rest s b :=
    fun hlen => ⟨_, s, .refl, ⟨.run u target, hs, hin, hlen⟩, hone⟩
  rcases hnext ha hg' (h.next (.run u target) hs hone) with hlen | ⟨b, a, hl, hret, hone'⟩
  · exact hreturn hlen
  · by_cases hlen : rest.length < ((s₁.setFrames u fs).framesOf t).length
    · have hfirst : s.acting (.run u target) = some f := congrArg List.head? hu
      exact ⟨b, a, (Leads.refl.next (.run u target) hfirst hs ⟨⟨hone, hlen⟩, hg'⟩).trans hl, hret, hone'⟩
    · exact hreturn (Nat.le_of_not_lt hlen)

/-- Whoever has the lock of the handles is the only call that is in progress. -/
theorem OneAtATime.phase_of_call {above : List Frame} (h : s.OneAtATime) (ht : s.framesOf t = above ++ f :: rest)
    (hf : callsIn t f = {t}) {p : Phase} (hp : p ∈ s.phases) : p ∈ phasesIn t f := by
  obtain ⟨habove, hbelow, -⟩ := h.alone ht hf
  obtain ⟨u, g, hg, hmem⟩ := mem_total.1 hp
  by_cases e : u = t
  · subst e
    rw [ht, List.mem_append, List.mem_cons] at hg
    rcases hg with hg | rfl | hg
    · simp [phasesIn_eq_zero (habove g hg)] at hmem
    · exact hmem
    · simp [phasesIn_eq_zero (hbelow g hg)] at hmem
  · simp [phasesIn_eq_zero (h.elsewhere ht hf e hg)] at hmem

theorem OneAtATime.granted (h : s.OneAtATime) (ht : s.framesOf t = f :: rest) (hf : callsIn t f = {t})
    (hp : ∀ p ∈ phasesIn t f, p.isRefused = false) : s.Granted := by
  intro p hmem
  have hfirst : s.framesOf t = [] ++ f :: rest := ht
  exact hp p (h.phase_of_call hfirst hf hmem)

/-- While the only call that is in progress does not have the lock of the handles, nobody has it. -/
theorem OneAtATime.unlocked {above : List Frame} (hr : Reachable o w scripts s) (h : s.OneAtATime)
    (ht : s.framesOf t = above ++ f :: rest) (hf : callsIn t f = {t}) (hp : phasesIn t f = 0) :
    s.workersHolder = none ∧ s.phases = 0 := by
  have hzero : s.phases = 0 := by
    refine Multiset.eq_zero_of_forall_notMem fun p hmem => ?_
    simpa [hp] using h.phase_of_call ht hf hmem
  refine ⟨?_, hzero⟩
  by_contra hh
  exact hr.phases_ne_zero hh hzero

theorem OneAtATime.unlocked_first (hr : Reachable o w scripts s) (h : s.OneAtATime) (ht : s.framesOf t = f :: rest)
    (hf : callsIn t f = {t}) (hp : phasesIn t f = 0) : s.workersHolder = none ∧ s.phases = 0 :=
  have hfirst : s.framesOf t = [] ++ f :: rest := ht
  h.unlocked hr hfirst hf hp

end Pool

/-- In a pool at rest nobody has the lock of the handles, unless a worker waits for it. -/
theorem Reachable.unlocked_of_atRest (hw : ∀ c, w.holder c = none) (h : Reachable o w scripts s) (hg : s.GatesOpen)
    (hno : ∀ u, s.isWorker u = true → ¬ s.AwaitsLock u) (hrest : s.AtRest) :
    s.phases = 0 ∧ s.workersHolder = none := by
  have hzero : s.phases = 0 := by
    by_contra hp
    obtain ⟨t, u, hu⟩ := h.awaitsExit_of_atRest hrest hp
    obtain ⟨-, v, u, ⟨-, -, caller, left, rest, hv⟩, hlock⟩ := (h.stuck_iff hw hg).1 ⟨hrest, t, .inr ⟨u, hu⟩⟩
    have hjoin := Pool.mem_phases_halt.2 ⟨v, hv ▸ List.mem_cons_self⟩
    exact hno u (h.joinsWorkers _ _ hjoin u List.mem_cons_self) hlock
  exact ⟨hzero, by_contra fun hh => h.phases_ne_zero hh hzero⟩

/-- While a call is in progress, somebody can take a step, as long as no gate is closed and no worker waits for the
lock of the handles. -/
theorem Reachable.call_proceeds {f : Frame} {above : List Frame} (hw : ∀ c, w.holder c = none)
    (h : Reachable o w scripts s) (ht : s.framesOf t = above ++ f :: rest) (hf : callsIn t f = {t}) (hg : s.GatesOpen)
    (hno : ∀ u, s.isWorker u = true → ¬ s.AwaitsLock u) : ¬ s.AtRest := by
  intro hrest
  obtain ⟨hzero, hfree⟩ := h.unlocked_of_atRest hw hg hno hrest
  have hqueue := h.queueHolder_of_atRest hrest
  obtain ⟨g, below, hfirst⟩ := List.exists_cons_of_ne_nil (l := s.framesOf t) (by simp [ht])
  -- a frame that stands on nothing is the call itself
  have hlast : below = [] → callsIn t g = {t} := by
    rintro rfl
    cases above with
    | nil => cases ht.symm.trans hfirst; exact hf
    | cons => simp [ht] at hfirst
  obtain ⟨hord, -⟩ : Ordered (g :: below) := hfirst ▸ h.ordered t
  cases hrest.blocked h.backed hfirst with
  | isRunning hh | startLock hh | terminateLock hh => exact hh hfree
  | queued hq | push hq | wake hq | drain hq | seek hq => exact hq hqueue
  | ready | join =>
    have hp := Pool.mem_phases_before hfirst (Multiset.mem_singleton_self _)
    rw [hzero] at hp
    cases hp
  | outside | parked | execution => simpa [callsIn] using hlast hord

/-! ## Submission -/

namespace Pool

variable {s₁ : Pool} {u : ThreadId} {f g : Frame} {fs below : List Frame} {q : Query}

/-- What a submission keeps that thread `t` makes on its frames `rest` in `s`. -/
structure SubmitCall (q : Query) (t : ThreadId) (rest : List Frame) (s : Pool) : Prop where
  /-- The query is put behind all that wait, and the handles and the flag stay as they were. -/
  queues : ∀ s', Serves t rest s s' → s'.framesOf t = giveAnswer (.id (queryId q.serial)) rest ∧
    s'.handles = s.handles ∧ s'.stop = s.stop ∧
    ∃ es, s'.log = s.log ++ es ∧ s.waiting ++ [q.serial] = passed [.taken] es ++ s'.waiting
  returns : ∀ a, Leads (During t rest) s a → ∃ b, Serves t rest a b

/-- Between `s` and `s'` query `i` alone is submitted, none is discarded, and the handles and the flag stay as they
are. -/
structure Fed (i : Nat) (s s' : Pool) : Prop where
  submitted : passed [.submitted] s'.log = passed [.submitted] s.log ++ [i]
  discarded : s'.discarded = s.discarded
  handles : s'.handles = s.handles
  stop : s'.stop = s.stop

/-- What a submission that was made in `s` knows: it has not got to the queue yet, or it has. -/
inductive Submitting (q : Query) (s : Pool) : Frame → Pool → Prop where
  | before {a} (hs : s.Spares a) : Submitting q s (.push q) a
  | behind {a} (hs : s.Fed q.serial a) : Submitting q s (.notify q.serial) a

theorem Submitting.calls {a : Pool} (h : Submitting q s g a) : callsIn t g = {t} := by
  cases h <;> rfl

theorem submitting_of_leads (hone : s.OneAtATime) (ht : s.framesOf t = .push q :: rest) {a : Pool}
    (hl : Leads (During t rest) s a) : ∃ g, a.framesOf t = g :: rest ∧ Submitting q s g a := by
  refine hl.call ht hone (.before (.refl s)) Submitting.calls ?_ ?_
  · rintro a g fs a₁ - hq hg hact hlen
    cases hq with
    | before hs =>
      cases hact with
      | push =>
        refine ⟨_, rfl, .behind ⟨?_, ?_, hs.handles, hs.stop⟩⟩
        · simp [passed_cons, Event.milestone?, hs.submitted]
        · simp [discarded, passed_cons, Event.milestone?]
          exact hs.discarded
    | behind hs =>
      cases hact with
      | notifyNone | notifyOne => simp at hlen
  · intro a b g hq hab
    cases hq with
    | before hs => exact .before (hs.trans hab)
    | behind hs =>
      exact .behind ⟨hab.submitted.trans hs.submitted, hab.discarded.trans hs.discarded, hab.handles.trans hs.handles,
        hab.stop.trans hs.stop⟩

/-- How a submission comes back. -/
theorem submit_answers (h : ReachableWhile OneAtATime o w scripts s) (ht : s.framesOf t = .push q :: rest)
    (hs : Serves t rest s s') : s'.framesOf t = giveAnswer (.id (queryId q.serial)) rest ∧ s.Fed q.serial s' := by
  obtain ⟨a, hl, hret, -⟩ := hs
  obtain ⟨g, hg, hq⟩ := submitting_of_leads h.here ht hl
  obtain ⟨fs, a₁, hact, rfl, after, hlen⟩ := hret.own hg hq.calls
  cases hq with
  | before => cases hact with
    | push => simp at hlen
  | behind hs =>
    cases hact with
    | notifyNone | notifyOne => exact ⟨after, hs.submitted, hs.discarded, hs.handles, hs.stop⟩

/-- A worker that has locked the queue gives the lock back, or is one step away from it. -/
theorem act_queueHolder {p : WorkerPhase} (hp : p = .check ∨ p = .take) (hu : s.framesOf u = .worker p :: below)
    (ha : Act s u below (.worker p) fs s₁) : (∃ p', fs = .worker p' :: below) ∧
      ((s₁.setFrames u fs).queueHolder = none ∨
        p = .check ∧ (s₁.setFrames u fs).framesOf u = .worker .take :: below) := by
  have after := framesOf_act hu ha
  cases ha with
  | checkStop | park | take => exact ⟨⟨_, rfl⟩, .inl rfl⟩
  | checkGo => exact ⟨⟨_, rfl⟩, .inr ⟨rfl, after⟩⟩
  | _ => simp at hp

theorem notify_comes_back {i : Nat} (h : ReachableWhile OneAtATime o w scripts s)
    (ht : s.framesOf t = .notify i :: rest) : ∃ b, Grants t rest s b := by
  have hg := h.here.granted ht rfl (by simp [phasesIn])
  refine exists_grants h hg (by simp [ht]) ht (fun hb => by cases hb) (fun ha => ?_) fun ha _ _ => .inl ?_
  · cases ha with
    | notifyNone | notifyOne => simp [stackWeight_giveAnswer steady_callsIn]
  · rw [framesOf_act ht ha]
    cases ha with
    | notifyNone | notifyOne => simp

/-- A submission waits for nothing but the worker that looks at the queue. -/
theorem push_comes_back (h : ReachableWhile OneAtATime o w scripts s) (ht : s.framesOf t = .push q :: rest) :
    ∃ b, Grants t rest s b := by
  have granted : ∀ {s}, ReachableWhile OneAtATime o w scripts s → s.framesOf t = .push q :: rest → s.Granted :=
    fun h ht => h.here.granted ht rfl (by simp [phasesIn])
  -- the queue is free
  have free : ∀ {s}, ReachableWhile OneAtATime o w scripts s → s.framesOf t = .push q :: rest → s.queueHolder = none →
      ∃ b, Grants t rest s b := by
    intro s h ht hfree
    refine exists_grants h (granted h ht) (by simp [ht]) ht (fun hb => ?_) (fun ha => ?_) fun ha _ hnext => .inr ?_
    · cases hb with
      | push hq => exact hq hfree
    · cases ha with
      | push => simp [callsIn]
    · have after := framesOf_act ht ha
      cases ha with
      | push => exact notify_comes_back hnext after
  -- a worker looks at it
  have looked : ∀ {s u p below}, ReachableWhile OneAtATime o w scripts s → s.framesOf t = .push q :: rest →
      (p = .check ∨ p = .take) → s.framesOf u = .worker p :: below →
      (∀ {s'}, ReachableWhile OneAtATime o w scripts s' → s'.framesOf t = .push q :: rest →
        p = .check → s'.framesOf u = .worker .take :: below → ∃ b, Grants t rest s' b) →
      ∃ b, Grants t rest s b := by
    intro s u p below h ht hp hu hnext
    have hne : t ≠ u := by
      rintro rfl
      cases ht.symm.trans hu
    refine exists_grants h (granted h ht) (by simp [ht]) hu (fun hb => ?_) (fun ha => ?_) fun ha _ hra => .inr ?_
    · rcases hp with rfl | rfl <;> cases hb
    · obtain ⟨⟨p', rfl⟩, -⟩ := act_queueHolder hp hu ha
      simp [callsIn]
    · have hstays := act_elsewhere_first hne ht rfl ha
      obtain ⟨-, hfree | ⟨hcheck, htake⟩⟩ := act_queueHolder hp hu ha
      · exact free hra hstays hfree
      · exact hnext hra hstays hcheck htake
  cases hq : s.queueHolder with
  | none => exact free h ht hq
  | some u =>
    obtain ⟨below, hu | hu⟩ := h.reachable.queueHolder_iff.1 hq
    · refine looked h ht (.inl rfl) hu fun h' ht' _ hu' => ?_
      exact looked h' ht' (.inr rfl) hu' fun _ _ hp => by cases hp
    · exact looked h ht (.inr rfl) hu fun _ _ hp => by cases hp

theorem submitCall (h : ReachableWhile OneAtATime o w scripts s) (ht : s.framesOf t = .push q :: rest) :
    s.SubmitCall q t rest where
  queues s' hs := by
    obtain ⟨P, hl⟩ := hs.leads
    have hret := (hs.reachableWhile h).not_retired.1
    obtain ⟨hanswer, hfed⟩ := submit_answers h ht hs
    obtain ⟨es, hes, hqueue⟩ := hl.queue_kept h.reachable hret hfed.discarded
    have hsubmitted : passed [.submitted] es = [q.serial] := by
      have e := hfed.submitted
      rw [hes, passed_append] at e
      exact List.append_cancel_left e
    rw [hsubmitted] at hqueue
    exact ⟨hanswer, hfed.handles, hfed.stop, es, hes, hqueue⟩
  returns a hl := by
    obtain ⟨g, hg, hq⟩ := submitting_of_leads h.here ht hl
    have hra := hl.reachableWhile h fun _ _ _ hp => hp.1
    cases hq with
    | before => exact (push_comes_back hra hg).imp fun _ hb => hb.serves
    | behind => exact (notify_comes_back hra hg).imp fun _ hb => hb.serves

end Pool

/-! ## Start -/

namespace Pool

variable {s₁ : Pool} {u : ThreadId} {f g : Frame} {fs below : List Frame} {n : Nat}

/-- A step of thread `t` changes nothing but the frames of this thread, the lock of the handles and the log. -/
def Untouched (t : ThreadId) (s s' : Pool) : Prop :=
  (∃ holder threads log, s' = { s with workersHolder := holder, threads := threads, log := log }) ∧
    ∀ u, u ≠ t → s'.framesOf u = s.framesOf u

/-- A call of `start` has succeeded between `s` and `s'`, in a pool for `n` workers. -/
structure Succeeds (n : Nat) (t : ThreadId) (rest : List Frame) (s s' : Pool) : Prop where
  answer : s'.framesOf t = giveAnswer (.outcome (.ok ())) rest
  handles : s'.handles.length = n
  stop : s'.stop = false
  queue : s.OnlyTaken s'

/-- A call of `start` has given up between `s` and `s'`: no worker is left. -/
structure GivesUp (cause : String) (t : ThreadId) (rest : List Frame) (s s' : Pool) : Prop where
  answer : s'.framesOf t = giveAnswer (.outcome (.error (.lifecycle (.spawnFailed cause)))) rest
  stopped : s'.Stopped
  workers : s'.atWork = []
  queue : s.OnlyTaken s'

/-- What a call of `start` keeps that thread `t` makes on its frames `rest` in `s`, in a pool for `n` workers. -/
structure StartCall (n : Nat) (t : ThreadId) (rest : List Frame) (s : Pool) : Prop where
  /-- A stopped pool is started, if the system spawns all workers. -/
  starts : s.handles = [] → ∀ s', Grants t rest s s' → s.Succeeds n t rest s'
  /-- If the system refuses a worker, those that were spawned are stopped again, and the call says why. -/
  givesUp : s.handles = [] → ∀ s', Serves t rest s s' → s.Succeeds n t rest s' ∨ ∃ cause, s.GivesUp cause t rest s'
  /-- A running pool refuses, and its workers, its flag and its queue stay as they were: only the workers
  themselves go on. -/
  refuses : s.handles ≠ [] → ∀ s', Serves t rest s s' →
    s'.framesOf t = giveAnswer (.outcome (.error (.lifecycle .alreadyStarted))) rest ∧
    s'.handles = s.handles ∧ s'.stop = s.stop ∧ s.OnlyTaken s'
  untouched : s.handles ≠ [] → ∀ a b target, Leads (During t rest) s a → a.step t target = some b → a.Untouched t b
  /-- It comes back, unless it starts a stopped pool and was refused a worker. -/
  returns : ∀ a, Leads (During t rest) s a → (s.handles = [] → a.Granted) → ∃ b, Grants t rest a b
  /-- A call that was refused a worker does not get stuck as long as no gate is closed and no worker waits for the
  lock of the handles. -/
  proceeds : ∀ a, Leads (During t rest) s a → a.GatesOpen → (∀ u, a.isWorker u = true → ¬ a.AwaitsLock u) →
    ¬ a.AtRest

/-- What a call of `start` that was made in `s` knows in a phase: it is going to look at the handles, or it has
found none and spawns workers, waits for them, or stops them. -/
inductive Starting (s : Pool) : Frame → Pool → Prop where
  | looking {p a} (hp : p = .lock ∨ p = .check) (hs : s.Spares a) : Starting s (.start p) a
  | spawning {k a} (he : s.handles = []) (hs : s.Unfed a) : Starting s (.start (.spawn k)) a
  | waiting {refusal a} (he : s.handles = []) (hs : s.Unfed a) : Starting s (.start (.wait refusal)) a
  | halting {cause p a} (he : s.handles = []) (hs : s.Unfed a) : Starting s (.halt (.start cause) p) a

theorem Starting.calls {a : Pool} (h : Starting s g a) : callsIn t g = {t} := by
  cases h <;> rfl

theorem starting_of_leads (hone : s.OneAtATime) (ht : s.framesOf t = .start .lock :: rest) {a : Pool}
    (hl : Leads (During t rest) s a) : ∃ g, a.framesOf t = g :: rest ∧ Starting s g a := by
  refine hl.call ht hone (.looking (.inl rfl) (.refl s)) Starting.calls ?_ ?_
  · rintro a g fs a₁ - hq hg hact hlen
    cases hq with
    | looking hp hs =>
      cases hact with
      | startLock => exact ⟨_, rfl, .looking (.inr rfl) ⟨⟨hs.submitted, hs.discarded⟩, hs.handles, hs.stop, hs.queue⟩⟩
      | startBegin he => exact ⟨_, rfl, .spawning (hs.handles ▸ he) ⟨hs.submitted, hs.discarded⟩⟩
      | startPanic | startRefused => simp at hlen
      | spawn | spawned | spawnFails | started | abandoned => simp at hp
    | spawning he hs =>
      cases hact with
      | spawn => exact ⟨_, rfl, .spawning he ⟨hs.submitted, hs.discarded⟩⟩
      | spawned | spawnFails => exact ⟨_, rfl, .waiting he ⟨hs.submitted, hs.discarded⟩⟩
    | waiting he hs =>
      cases hact with
      | started => simp at hlen
      | abandoned => exact ⟨_, rfl, .halting he ⟨hs.submitted, hs.discarded⟩⟩
    | halting he hs =>
      cases hact with
      | haltStop | haltWake | join => exact ⟨_, rfl, .halting he ⟨hs.submitted, hs.discarded⟩⟩
      | startFailed => simp at hlen
  · intro a b g hq hab
    cases hq with
    | looking hp hs => exact .looking hp (hs.trans hab)
    | spawning he hs => exact .spawning he (hs.trans hab.toUnfed)
    | waiting he hs => exact .waiting he (hs.trans hab.toUnfed)
    | halting he hs => exact .halting he (hs.trans hab.toUnfed)

/-- A call of `start` that has joined all workers which it spawned leaves a stopped pool behind. -/
theorem stopped_of_failed {cause : String} (hr : Reachable o w scripts s)
    (ht : s.framesOf t = .halt (.start cause) (.join []) :: rest)
    (ha : Act s t rest (.halt (.start cause) (.join [])) fs s₁) : (s₁.setFrames t fs).Stopped := by
  refine ⟨?_, fun p hp => ?_⟩
  · obtain ⟨held, hst⟩ := hr.staged.of_mem (mem_phases_before ht (Multiset.mem_singleton_self _))
    cases ha with
    | startFailed => exact hst.joins.1
  · cases next_of_mem_phases hr.staged ht ha rfl hp

/-- How a call of `start` comes back: with an error if it has found handles, else as a start, unless it was refused
a worker. -/
theorem start_answers {a : Pool} (h : ReachableWhile OneAtATime o w scripts s) (hn : namesThreads o = true)
    (ht : s.framesOf t = .start .lock :: rest) (hl : Leads (During t rest) s a) (hret : Returns t rest a s') :
    (s.handles ≠ [] ∧ s.Spares s' ∧ s'.framesOf t = giveAnswer (.outcome (.error (.lifecycle .alreadyStarted))) rest) ∨
      s.handles = [] ∧ s.Unfed s' ∧
        (s'.framesOf t = giveAnswer (.outcome (.ok ())) rest ∧ s'.Complete o.maxThreads.toNat ∨
          ¬ a.Granted ∧ s'.Stopped ∧
            ∃ cause, s'.framesOf t = giveAnswer (.outcome (.error (.lifecycle (.spawnFailed cause)))) rest) := by
  have hra := (hl.reachableWhile h fun _ _ _ hp => hp.1).reachable
  obtain ⟨g, hg, hq⟩ := starting_of_leads h.here ht hl
  obtain ⟨fs, a₁, hact, rfl, after, hlen⟩ := hret.own hg hq.calls
  cases hq with
  | looking hp hs =>
    cases hact with
    | startLock | startBegin => simp at hlen
    | startPanic he hn' => rw [hra.options, hn] at hn'; cases hn'
    | startRefused he =>
      exact .inl ⟨hs.handles ▸ he, ⟨⟨hs.submitted, hs.discarded⟩, hs.handles, hs.stop, hs.queue⟩, after⟩
    | spawn | spawned | spawnFails | started | abandoned => simp at hp
  | spawning he hs =>
    cases hact with
    | spawn | spawned | spawnFails => simp at hlen
  | waiting he hs =>
    cases hact with
    | started hr =>
      have hstep : a.step t none = some ({ a with workersHolder := none }.setFrames t
          (giveAnswer (.outcome (.ok ())) rest)) := by
        simp only [step, hg, stepStart, if_pos hr]
      have hstarts : a.Starts _ := ⟨t, none, rest, hg, hstep, after⟩
      exact .inr ⟨he, ⟨hs.submitted, hs.discarded⟩, .inl ⟨after, hstarts.complete hra⟩⟩
    | abandoned => simp at hlen
  | @halting cause _ _ he hs =>
    cases hact with
    | haltStop | haltWake | join => simp at hlen
    | startFailed =>
      refine .inr ⟨he, ⟨hs.submitted, hs.discarded⟩, .inr ⟨fun hgranted => ?_, ?_, cause, after⟩⟩
      · cases hgranted _ (mem_phases_before hg (Multiset.mem_singleton_self _))
      · exact stopped_of_failed hra hg .startFailed

/-- How many steps of its thread and of new workers a call of `start` is away from its end, at most. -/
def startSteps (n : Nat) : StartPhase → Nat
  | .lock => 3 * n + 4
  | .check => 3 * n + 3
  | .spawn k => 3 * (n - k) + 2
  | .wait _ => 1

/-- How many steps a new worker is away from saying that it is ready. -/
def bootSteps (_ : ThreadId) : Frame → Nat
  | .worker .boot => 2
  | .worker .ready => 1
  | _ => 0

theorem steady_bootSteps : Steady bootSteps where
  answers _ _ _ _ _ _ := rfl
  parked _ := rfl

theorem act_startSteps {p : StartPhase} (hr : s.options = o) (hg : s.Granted) (ht : s.framesOf t = .start p :: rest)
    (ha : Act s t rest (.start p) fs s₁) : (∃ a, fs = giveAnswer a rest) ∨ ∃ q, fs = .start q :: rest ∧
      startSteps o.maxThreads.toNat q + (s₁.setFrames t fs).total bootSteps <
        startSteps o.maxThreads.toNat p + s.total bootSteps := by
  have before := total_cons (w := bootSteps) ht
  have after := act_total_add steady_bootSteps (fun _ => rfl) ht ha
  cases ha with
  | startPanic | startRefused | started => exact .inl ⟨_, rfl⟩
  | abandoned => cases hg _ (mem_phases_before ht (Multiset.mem_singleton_self _))
  | spawn hk =>
    refine .inr ⟨_, rfl, ?_⟩
    rw [hr] at hk
    simp [bootSteps] at before after
    simp [before, after, startSteps]
    omega
  | startLock | startBegin | spawned | spawnFails =>
    refine .inr ⟨_, rfl, ?_⟩
    simp [bootSteps] at before after
    simp [before, after, startSteps]

/-- A worker that has not said that it is ready comes closer to it. -/
theorem act_bootSteps {p : WorkerPhase} (hp : p = .boot ∨ p = .ready) (hu : s.framesOf u = .worker p :: below)
    (ha : Act s u below (.worker p) fs s₁) :
    (s₁.setFrames u fs).total bootSteps < s.total bootSteps ∧ ∃ p', fs = .worker p' :: below := by
  have before := total_cons (w := bootSteps) hu
  have after := act_total_add steady_bootSteps (fun _ => rfl) hu ha
  cases ha with
  | boot | ready =>
    refine ⟨?_, _, rfl⟩
    simp [bootSteps] at before after
    rw [before, after]
    omega
  | _ => simp at hp

/-- While a call of `start` waits for its workers, one of them is about to say that it is ready. -/
theorem exists_booting {refusal : Option String} (hr : Reachable o w scripts s)
    (ht : s.framesOf t = .start (.wait refusal) :: rest) (hw : s.ready < s.handles.length) :
    ∃ u p below, (p = .boot ∨ p = .ready) ∧ s.framesOf u = .worker p :: below := by
  have hfresh : s.total freshIn ≠ 0 := by
    obtain ⟨held, hst⟩ := hr.staged.of_mem (mem_phases_before ht (Multiset.mem_singleton_self _))
    cases hst with
    | waiting hh _ hr => omega
    | refused _ hh _ hr => omega
  have hnot := mt total_eq_zero.2 hfresh
  simp only [not_forall] at hnot
  obtain ⟨u, f, hf, hne⟩ := hnot
  obtain ⟨p, hp, rfl⟩ : ∃ p, (p = .boot ∨ p = .ready) ∧ f = .worker p := by
    cases f with
    | worker p => cases p <;> simp [freshIn] at hne ⊢
    | _ => simp [freshIn] at hne
  obtain ⟨g, below, hg⟩ := List.exists_cons_of_ne_nil (List.ne_nil_of_mem hf)
  have hheap := hr.heaped u
  rw [hg] at hf hheap
  obtain rfl := hheap.first hf (by rcases hp with rfl | rfl <;> rfl)
  exact ⟨u, p, below, hp, hg⟩

/-- A call of `start` comes back: it waits for nothing but workers that are about to say that they are ready. -/
theorem start_comes_back (m : Nat) {p : StartPhase} (h : ReachableWhile OneAtATime o w scripts s) (hg : s.Granted)
    (ht : s.framesOf t = .start p :: rest) (hm : startSteps o.maxThreads.toNat p + s.total bootSteps ≤ m) :
    ∃ b, Grants t rest s b := by
  induction m generalizing s p with
  | zero => cases p <;> simp [startSteps] at hm
  | succ m ih =>
    have hin : rest.length < (s.framesOf t).length := by simp [ht]
    by_cases hb : s.Blocked t (.start p)
    · cases hb with
      | startLock hh => exact absurd (h.here.unlocked_first h.reachable ht rfl rfl).1 hh
      | ready hr =>
        obtain ⟨u, p, below, hp, hu⟩ := exists_booting h.reachable ht hr
        have hfree : ¬ s.Blocked u (.worker p) := by
          intro hb
          rcases hp with rfl | rfl <;> cases hb
        refine exists_grants h hg hin hu hfree (fun ha => ?_) fun {fs s₁} ha hg hnext => .inr ?_
        · obtain ⟨-, p', rfl⟩ := act_bootSteps hp hu ha
          simp [callsIn]
        · have hne : t ≠ u := by
            rintro rfl
            cases ht.symm.trans hu
          obtain ⟨hless, -⟩ := act_bootSteps hp hu ha
          exact ih hnext hg (act_elsewhere_first hne ht rfl ha) (by omega)
    · refine exists_grants h hg hin ht hb (fun ha => ?_) fun {fs s₁} ha hg' hnext => ?_
      · rcases act_startSteps h.reachable.options hg ht ha with ⟨a, rfl⟩ | ⟨q, rfl, -⟩
        · simp [stackWeight_giveAnswer steady_callsIn]
        · simp [callsIn]
      · rcases act_startSteps h.reachable.options hg ht ha with ⟨a, rfl⟩ | ⟨q, rfl, hq⟩
        · exact .inl (by rw [framesOf_act ht ha, length_giveAnswer])
        · exact .inr (ih hnext hg' (framesOf_act ht ha) (by omega))

/-- Until it has looked at the handles, a call of `start` was refused no worker. -/
theorem granted_of_looking {p : StartPhase} (hp : p = .lock ∨ p = .check) (h : s.OneAtATime)
    (ht : s.framesOf t = .start p :: rest) : s.Granted := by
  rcases hp with rfl | rfl
  · exact h.granted ht rfl (by simp [phasesIn])
  · exact h.granted ht rfl (by simp [phasesIn, Phase.isRefused])

theorem start_returns (h : ReachableWhile OneAtATime o w scripts s) (ht : s.framesOf t = .start .lock :: rest)
    {a : Pool} (hl : Leads (During t rest) s a) (hg : s.handles = [] → a.Granted) : ∃ b, Grants t rest a b := by
  obtain ⟨g, ha, hq⟩ := starting_of_leads h.here ht hl
  have hra := hl.reachableWhile h fun _ _ _ hp => hp.1
  cases hq with
  | looking hp => exact start_comes_back _ hra (granted_of_looking hp hra.here ha) ha (Nat.le_refl _)
  | spawning he | waiting he => exact start_comes_back _ hra (hg he) ha (Nat.le_refl _)
  | halting he => cases hg he _ (mem_phases_before ha (Multiset.mem_singleton_self _))

/-- A start of a stopped pool succeeds if it is refused no worker. -/
theorem start_succeeds (h : ReachableWhile OneAtATime o w scripts s) (hn : namesThreads o = true)
    (ht : s.framesOf t = .start .lock :: rest) (he : s.handles = []) (hs : Grants t rest s s') :
    s.Unfed s' ∧ s'.framesOf t = giveAnswer (.outcome (.ok ())) rest ∧ s'.Complete o.maxThreads.toNat := by
  obtain ⟨a, hl, hret, -⟩ := hs
  have hg := (granted_of_looking (.inl rfl) h.here ht).leads hl
  rcases start_answers h hn ht (hl.mono fun _ _ _ hp => hp.1) hret with ⟨hne, -⟩ | ⟨-, hunfed, hok | ⟨hrefused, -⟩⟩
  · exact absurd he hne
  · exact ⟨hunfed, hok⟩
  · exact absurd hg hrefused

theorem startCall (hw : ∀ c, w.holder c = none) (h : ReachableWhile OneAtATime o w scripts s)
    (hn : namesThreads o = true) (ht : s.framesOf t = .start .lock :: rest) :
    s.StartCall o.maxThreads.toNat t rest where
  starts he s' hs := by
    obtain ⟨P, hl⟩ := hs.serves.leads
    have hret := (hs.serves.reachableWhile h).not_retired.1
    obtain ⟨hunfed, hanswer, hcomplete⟩ := start_succeeds h hn ht he hs
    exact ⟨hanswer, hcomplete.handles, hcomplete.stop, hunfed.onlyTaken h.reachable hl hret⟩
  givesUp he s' hs := by
    obtain ⟨P, hl⟩ := hs.leads
    have hr' := hs.reachableWhile h
    obtain ⟨a, ha, hret, -⟩ := hs
    rcases start_answers h hn ht ha hret with
      ⟨hne, -⟩ | ⟨-, hunfed, ⟨hanswer, hcomplete⟩ | ⟨-, hstopped, cause, hanswer⟩⟩
    · exact absurd he hne
    · exact .inl ⟨hanswer, hcomplete.handles, hcomplete.stop, hunfed.onlyTaken h.reachable hl hr'.not_retired.1⟩
    · refine .inr ⟨cause, hanswer, hstopped, hr'.atWork_of_stopped hstopped, ?_⟩
      exact hunfed.onlyTaken h.reachable hl hr'.not_retired.1
  refuses hne s' hs := by
    obtain ⟨P, hl⟩ := hs.leads
    have hr' := (hs.reachableWhile h).not_retired.1
    obtain ⟨a, ha, hret, -⟩ := hs
    rcases start_answers h hn ht ha hret with ⟨-, hspares, hanswer⟩ | ⟨he, -⟩
    · exact ⟨hanswer, hspares.handles, hspares.stop, hspares.toUnfed.onlyTaken h.reachable hl hr'⟩
    · exact absurd he hne
  untouched hne a b target hl hs := by
    obtain ⟨g, hg, hq⟩ := starting_of_leads h.here ht hl
    obtain ⟨f, below, fs, a₁, hf, hact, rfl⟩ := step_cases hs
    cases hg.symm.trans hf
    cases hq with
    | looking hp hspares =>
      cases hact with
      | startLock | startRefused => exact ⟨⟨_, _, _, rfl⟩, fun u hu => framesOf_setFrames_ne hu _⟩
      | startBegin he | startPanic he => exact absurd (hspares.handles ▸ he) hne
      | spawn | spawned | spawnFails | started | abandoned => simp at hp
    | spawning he | waiting he | halting he => exact absurd he hne
  returns _ hl hg := start_returns h ht hl hg
  proceeds a hl hg hno := by
    obtain ⟨g, ha, hq⟩ := starting_of_leads h.here ht hl
    have hra := (hl.reachableWhile h fun _ _ _ hp => hp.1).reachable
    have hfirst : a.framesOf t = [] ++ g :: rest := ha
    exact hra.call_proceeds hw hfirst hq.calls hg hno

end Pool

end StatementPool
