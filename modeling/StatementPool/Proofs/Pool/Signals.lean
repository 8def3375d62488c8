import StatementPool.Proofs.Pool.Periods
/-!
# Signals reach the workers

A submission signals one worker after it has put its query into the queue, and a call that stops the
workers signals all of them after it has set the flag: one of `terminate`, or one of `start` that gives up.
`Reachable.heeded` says that neither signal is lost, whatever comes between the steps of submissions, workers
and calls: while the pool is running and the flag is not set, queries that wait are seen by a worker that is
not parked, or by one that a submission is about to wake; and once such a call has signalled, nobody is
parked or parks before the next start.
-/

namespace StatementPool

namespace Pool

variable {s : Pool}

/-- A call that stops the workers wakes all of them. -/
def WakesAll (s s' : Pool) : Prop :=
  ∃ t target caller rest, s.framesOf t = .halt caller .wake :: rest ∧ s.step t target = some s'

/-- A worker that has not decided to leave and is not parked. -/
def IsAwake (s : Pool) (t : ThreadId) : Prop := t ∈ s.atWork ∧ s.IsWorking t ∧ t ∉ s.parked

/-- A submission whose query is in the queue is about to wake a worker. -/
def IsNotifying (s : Pool) (t : ThreadId) : Prop := ∃ i rest, s.framesOf t = .notify i :: rest

/-- When all workers have been woken, the flag is set, there are no handles, and no call makes new ones. -/
theorem WakesAll.dormant {o : Options} {w : World} {scripts : List (List Action)} {s' : Pool}
    (hr : Reachable o w scripts s) (h : s.WakesAll s') : s'.stop = true ∧ s'.Dormant := by
  obtain ⟨t, target, caller, rest, ht, hstep⟩ := h
  obtain ⟨f, rest', fs, s₁, ht', ha, rfl⟩ := step_cases hstep
  cases ht.symm.trans ht'
  obtain ⟨-, told⟩ := hr.telling (.halt caller .wake) (mem_phases_before ht (by simp [phasesIn]))
  have next : ∀ {p}, p ∈ (s₁.setFrames t fs).phases → NextPhase s.handles (.halt caller .wake) p :=
    next_of_mem_phases hr.staged ht ha rfl
  cases ha with
  | haltWake hq =>
    refine ⟨told, rfl, fun p hp => ?_, fun cause p hp => ?_⟩
    · cases next hp
    · cases next hp with
      | joins => exact ⟨_, rfl⟩

end Pool

variable {o : Options} {w : World} {scripts : List (List Action)} {s : Pool}

theorem stackWeight_ne_zero {v : Frame → Nat} {f : Frame} {fs : List Frame} (hf : f ∈ fs) (hv : v f ≠ 0) :
    stackWeight v fs ≠ 0 := by
  intro hz
  exact hv (List.sum_eq_zero_iff.1 hz _ (List.mem_map_of_mem hf))

/-- Whoever stirs is a worker that is awake, or a submission that is about to wake one. -/
theorem Reachable.awake_of_stirs (h : Reachable o w scripts s) {t : ThreadId} {f : Frame} (hf : f ∈ s.framesOf t)
    (hs : f.stirs = true) : s.IsAwake t ∨ s.IsNotifying t := by
  obtain ⟨g, rest, ht⟩ := List.exists_cons_of_ne_nil (List.ne_nil_of_mem hf)
  cases f with
  | notify i =>
    have hheap := h.heaped t
    rw [ht] at hf hheap
    exact .inr ⟨i, rest, hheap.first hf rfl ▸ ht⟩
  | worker p =>
    refine .inl ⟨Pool.mem_atWork.2 (h.isAtWork_of_mem hf), ?_, ?_⟩
    · apply stackWeight_ne_zero hf
      cases p with
      | parked | leave | exit => cases hs
      | _ => exact Nat.one_ne_zero
    · intro hp
      obtain ⟨below, hp⟩ := Pool.mem_parked.1 hp
      -- a parked worker has no other frame
      obtain ⟨hbelow, -⟩ : Ordered (.worker .parked :: below) := hp ▸ h.ordered t
      obtain rfl : below = [] := hbelow
      rw [hp] at hf
      obtain rfl : p = .parked := by simpa using hf
      cases hs
  | _ => cases hs

/-- The worker behind a handle is awake if it was not told to stop and is not parked. -/
theorem Reachable.awake_of_handle (h : Reachable o w scripts s) (hs : s.stop = false) {u : ThreadId}
    (hu : u ∈ s.handles) (hp : u ∉ s.parked) : s.IsAwake u := by
  have hwork : s.IsWorking u := (h.manned.2 u hu).2.resolve_left (by simp [hs])
  obtain ⟨p, hmem⟩ := Pool.exists_worker (fun u g hg => by cases g <;> simp_all [workingIn]) hwork
  exact ⟨Pool.mem_atWork.2 (h.isAtWork_of_mem hmem), hwork, hp⟩

/-- No signal is lost: while the pool runs and the flag is not set, a worker is awake or about to be woken
if queries wait; and from the moment when a call that stops the workers has woken them until the next start,
the flag stays set and no worker is parked or about to park. -/
theorem Reachable.heeded (h : Reachable o w scripts s) :
    (s.handles ≠ [] → s.stop = false → s.queue ≠ [] → ∃ t, s.IsAwake t ∨ s.IsNotifying t) ∧
    ∀ s' s'', s.WakesAll s' → Leads Pool.BeforeStart s' s'' →
      s''.stop = true ∧ s''.parked = [] ∧ ∀ t, ∀ f ∈ s''.framesOf t, f.mayPark = false := by
  constructor
  · intro hh hs hq
    by_cases hp : s.parked = []
    · obtain ⟨u, hu⟩ := List.exists_mem_of_ne_nil _ hh
      exact ⟨u, .inl (h.awake_of_handle hs hu (by simp [hp]))⟩
    · obtain ⟨t, f, hf, hstirs⟩ := h.alert hs hq hp
      exact ⟨t, h.awake_of_stirs hf hstirs⟩
  · intro s' s'' hw hl
    have h' : Reachable o w scripts s' := by
      obtain ⟨t, target, caller, rest, -, hstep⟩ := hw
      exact h.next (.run t target) hstep
    have hkept : s''.stop = true ∧ s''.Dormant := by
      refine hl.keeps (Q := fun a => a.stop = true ∧ a.Dormant) (hw.dormant h) ?_
      rintro a t f rest fs a₁ - ⟨hs, hd⟩ hb ht ha
      exact ⟨Pool.act_stop_of_beforeStart ha hb hs, Pool.act_dormant ht ha hb hd⟩
    have h'' := hl.reachable h'
    have hquiet := h''.quiet hkept.1 hkept.2.handles (hkept.2.not_waking h''.telling)
    refine ⟨hkept.1, List.eq_nil_iff_forall_not_mem.2 fun t ht => ?_, hquiet⟩
    obtain ⟨rest, ht⟩ := Pool.mem_parked.1 ht
    cases hquiet t _ (ht ▸ List.mem_cons_self)

/-- A query that is submitted while the only worker is parked, and a call of `terminate`. -/
def queryWhileParked : List (List Action) := [[.start, .submit (.fail "no") .empty [] [] false, .terminate]]

/-- The query is in the queue, and the worker has not been woken yet. -/
def queryWhileParkedRun : List Label :=
  stepsOf 0 5 ++ stepsOf 1 2 ++ stepsOf 0 1 ++ stepsOf 1 3 ++ stepsOf 0 2

theorem heeded_while_parked :
    ∃ s₁ s₂ s₃ s₄, (Pool.initial .standard ⟨[], [], [], []⟩ queryWhileParked).run queryWhileParkedRun = some s₁ ∧
      s₁.handles = [1] ∧ s₁.stop = false ∧ s₁.waiting = [0] ∧ s₁.parked = [1] ∧
      (∃ t, s₁.IsAwake t ∨ s₁.IsNotifying t) ∧
      s₁.run (.run 0 (some 1) :: stepsOf 1 16 ++ stepsOf 0 4) = some s₂ ∧ s₂.parked = [1] ∧
      s₂.WakesAll s₃ ∧ s₃.runThrough Pool.BeforeStart (stepsOf 1 2) = some s₄ ∧
      s₄.stop = true ∧ s₄.parked = [] ∧ ∀ t, ∀ f ∈ s₄.framesOf t, f.mayPark = false := by
  obtain ⟨s₁, s₂, s₃, s₄, h₁, hh, hs, hq, hp, h₂, hp₂, hw, h₄⟩ : ∃ s₁ s₂ s₃ s₄,
      (Pool.initial .standard ⟨[], [], [], []⟩ queryWhileParked).run queryWhileParkedRun = some s₁ ∧
      s₁.handles = [1] ∧ s₁.stop = false ∧ s₁.waiting = [0] ∧ s₁.parked = [1] ∧
      s₁.run (.run 0 (some 1) :: stepsOf 1 16 ++ stepsOf 0 4) = some s₂ ∧ s₂.parked = [1] ∧
      s₂.WakesAll s₃ ∧ s₃.runThrough Pool.BeforeStart (stepsOf 1 2) = some s₄ :=
    ⟨_, _, _, _, rfl, rfl, rfl, rfl, rfl, rfl, rfl, ⟨0, none, _, _, rfl, rfl⟩, rfl⟩
  have w₁ := Reachable.initial.run h₁
  have hqueue : s₁.queue ≠ [] := by
    intro e
    simp [Pool.waiting, e] at hq
  refine ⟨s₁, s₂, s₃, s₄, h₁, hh, hs, hq, hp, ?_, h₂, hp₂, hw, h₄, ?_⟩
  · exact w₁.heeded.1 (by simp [hh]) hs hqueue
  · exact (w₁.run h₂).heeded.2 s₃ s₄ hw (Leads.refl.runThrough h₄)

end StatementPool
