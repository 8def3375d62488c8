import StatementPool.Pool.Schedule
import StatementPool.Proofs.Pool.Bound
import StatementPool.Proofs.Pool.Pieces
/-!
# What threads wait for

`Pool.Blocked` lists what keeps a thread from its next step, and `Pool.exists_step` says that nothing
else does. The locks that threads wait for are held by threads that are about to give them back: the
queue by a worker that looks at it, a collection by an execution that has not ended. So in a pool in
which no thread can take a step (`Pool.AtRest`) nobody waits for the queue
(`Reachable.queueHolder_of_atRest`) or for a worker to be ready (`Reachable.fresh_of_atRest`), and an
execution waits only behind one that waits at a gate (`Reachable.gate_of_atRest`).
-/

namespace StatementPool

/-! ## The first frame -/

/-- Whether a frame can lie below another one. -/
def Frame.lies : Frame → Bool
  | .script .. | .discard .. | .retire | .worker .seek => true
  | _ => false

/-- All frames but the first one can lie below another one. -/
def Heaped (fs : List Frame) : Prop := ∀ f ∈ fs.tail, f.lies = true

theorem Heaped.first {f g : Frame} {rest : List Frame} (h : Heaped (f :: rest)) (hg : g ∈ f :: rest)
    (hl : g.lies = false) : g = f := by
  rcases List.mem_cons.1 hg with e | hg
  · exact e
  · exact absurd (h g hg) (by simp [hl])

theorem heaped_of_all {fs : List Frame} (h : ∀ f ∈ fs, f.lies = true) : Heaped fs :=
  fun f hf => h f (List.mem_of_mem_tail hf)

theorem lies_giveAnswer {a : Answer} {fs : List Frame} (h : ∀ f ∈ fs, f.lies = true) :
    ∀ f ∈ giveAnswer a fs, f.lies = true := by
  unfold giveAnswer
  split
  · intro f hf
    rcases List.mem_cons.1 hf with rfl | hf
    · rfl
    · exact h f (List.mem_cons_of_mem _ hf)
  · exact h

namespace Pool

variable {s s₁ : Pool} {t : ThreadId} {f : Frame} {rest fs : List Frame}

theorem leaving_heaped {owners owns owners' fs} (h : Leaving owners rest owns owners' fs)
    (hr : ∀ g ∈ rest, g.lies = true) : Heaped fs := by
  cases h with
  | keep => exact heaped_of_all hr
  | share => exact heaped_of_all (lies_giveAnswer hr)
  | last =>
    intro g hg
    rcases List.mem_cons.1 hg with rfl | hg
    · rfl
    · exact hr g hg

theorem act_heaped (h : Act s t rest f fs s₁) (hr : ∀ g ∈ rest, g.lies = true) : Heaped fs := by
  cases h
  case returned hl | dropped hl => exact leaving_heaped hl hr
  case release hl =>
    refine leaving_heaped hl fun g hg => ?_
    rcases List.mem_cons.1 hg with rfl | hg
    · rfl
    · exact hr g hg
  case notifyNone | notifyOne | startPanic | startRefused | started | startFailed | terminateIdle | terminateReturn
    | discardEnd | retire => exact heaped_of_all (lies_giveAnswer hr)
  case exit => exact heaped_of_all hr
  case submit | callStart | callTerminate | discard | deliver =>
    intro g hg
    rcases List.mem_cons.1 hg with rfl | hg
    · rfl
    · exact hr g hg
  all_goals exact hr

end Pool

variable {o : Options} {w : World} {scripts : List (List Action)} {s : Pool}

theorem Reachable.heaped (h : Reachable o w scripts s) (t : ThreadId) : Heaped (s.framesOf t) := by
  revert t
  refine h.keeps (P := fun s => ∀ t, Heaped (s.framesOf t)) (fun t => ?_) ?_
  · rcases framesOf_initial o w scripts t with e | ⟨actions, e⟩ <;> simp [e, Heaped]
  · rintro s s' t - all ⟨f, rest, fs, s₁, hf, ha, rfl⟩
    have hr : Heaped (f :: rest) := hf ▸ all t
    refine Pool.act_threadwise ha hf all (Pool.act_heaped ha hr) ?_ (by simp [Heaped])
    intro gs hg
    unfold Pool.wokenFrames
    split <;> exact hg

/-! ## The lock of the queue -/

/-- The thread of a frame that has locked the queue. -/
def lockersIn (t : ThreadId) : Frame → Multiset ThreadId
  | .worker .check | .worker .take => {t}
  | _ => 0

theorem steady_lockersIn : Steady lockersIn where
  answers _ _ _ _ _ _ := rfl
  parked _ := rfl

theorem mem_lockersIn {t u : ThreadId} {f : Frame} :
    u ∈ lockersIn t f ↔ u = t ∧ (f = .worker .check ∨ f = .worker .take) := by
  cases f with
  | worker p => cases p <;> simp [lockersIn]
  | _ => simp [lockersIn]

namespace Pool

variable {s s₁ : Pool} {t : ThreadId} {f : Frame} {rest fs : List Frame}

/-- The queue is locked by the worker that looks at it, and by nobody else. -/
def QueueLocked (s : Pool) : Prop := s.total lockersIn = single s.queueHolder

theorem act_queueLocked (ht : s.framesOf t = f :: rest) (ha : Act s t rest f fs s₁) (h : s.QueueLocked) :
    (s₁.setFrames t fs).QueueLocked := by
  have before := total_cons (w := lockersIn) ht
  have after := act_total steady_lockersIn (fun _ => rfl) ht ha
  unfold QueueLocked at h ⊢
  -- who gives the lock back has it, so nobody else does
  have alone : lockersIn t f = {t} → stackWeight (lockersIn t) rest + s.others t lockersIn = 0 := by
    intro hf
    rw [before, hf] at h
    exact (single_eq_add h.symm).2
  cases ha
  case seek hq =>
    rw [before, hq] at h
    have hz : stackWeight (lockersIn t) rest + s.others t lockersIn = 0 := by simpa [lockersIn, single] using h
    rw [after, stackWeight_cons, add_assoc, hz]
    rfl
  case checkStop | park | take =>
    rw [after, stackWeight_cons, add_assoc, alone rfl]
    rfl
  case returned hl | dropped hl | release hl =>
    rw [leaving_weight steady_lockersIn (fun _ => rfl) (fun _ => rfl) hl] at after
    refine (after.trans ?_).trans h
    rw [before]
    simp [lockersIn]
  all_goals
    refine (after.trans ?_).trans h
    rw [before]
    simp [lockersIn, stackWeight_giveAnswer steady_lockersIn]

end Pool

theorem Reachable.queueLocked (h : Reachable o w scripts s) : s.QueueLocked := by
  refine h.keeps (P := Pool.QueueLocked) (total_initial fun _ _ => rfl) ?_
  rintro s s' t - hs ⟨f, rest, fs, s₁, hf, ha, rfl⟩
  exact Pool.act_queueLocked hf ha hs

theorem Reachable.queueHolder_iff (h : Reachable o w scripts s) {t : ThreadId} : s.queueHolder = some t ↔
    ∃ rest, s.framesOf t = .worker .check :: rest ∨ s.framesOf t = .worker .take :: rest := by
  have hm : s.queueHolder = some t ↔ t ∈ s.total lockersIn := by
    rw [h.queueLocked]
    cases s.queueHolder <;> simp [single, eq_comm]
  rw [hm, Pool.mem_total]
  simp only [mem_lockersIn]
  constructor
  · rintro ⟨u, f, hf, rfl, hw⟩
    obtain ⟨g, rest, hg⟩ := List.exists_cons_of_ne_nil (List.ne_nil_of_mem hf)
    have hh := h.heaped t
    rw [hg] at hf hh
    obtain rfl := hh.first hf (by rcases hw with rfl | rfl <;> rfl)
    refine ⟨rest, ?_⟩
    rw [hg]
    rcases hw with rfl | rfl
    · exact .inl rfl
    · exact .inr rfl
  · rintro ⟨rest, e | e⟩
    · exact ⟨t, _, e ▸ List.mem_cons_self, rfl, .inl rfl⟩
    · exact ⟨t, _, e ▸ List.mem_cons_self, rfl, .inr rfl⟩

/-! ## The locks of the collections -/

namespace Pool

variable {s s₁ : Pool} {t : ThreadId} {f : Frame} {rest fs : List Frame}

/-- A collection is locked only by an execution that has not ended. -/
def CollectionsLocked (s : Pool) : Prop :=
  ∀ c t, s.world.holder c = some t → ∃ q x rest, s.framesOf t = .worker (.execute q x) :: rest ∧ x.Holds c

/-- An execution that copies rows has a collection for them. -/
def AllBacked (s : Pool) : Prop := ∀ t q x, .worker (.execute q x) ∈ s.framesOf t → x.Backed s.world

/-- Steps other than those of executions lock no collection. -/
theorem act_holder (ha : Act s t rest f fs s₁) (hf : ∀ q x, f ≠ .worker (.execute q x)) (c : Nat) :
    s₁.world.holder c = s.world.holder c := by
  cases ha
  case execute q x _ _ _ => exact absurd rfl (hf q x)
  all_goals rfl

theorem act_length_collections (ha : Act s t rest f fs s₁) :
    s₁.world.collections.length = s.world.collections.length := by
  cases ha
  case execute hx => exact (Execution.step_pieces hx).length_collections
  all_goals rfl

/-- A thread that executes goes on with that when others take a step. -/
theorem act_executing (ha : Act s t rest f fs s₁) {u : ThreadId} (hu : u ≠ t) {q x urest} :
    (s₁.setFrames t fs).framesOf u = .worker (.execute q x) :: urest ↔
      s.framesOf u = .worker (.execute q x) :: urest := by
  rw [framesOf_setFrames_ne hu]
  have woken : ∀ gs, wokenFrames gs = .worker (.execute q x) :: urest ↔ gs = .worker (.execute q x) :: urest := by
    intro gs
    unfold wokenFrames
    split <;> simp
  rcases act_framesOf ha u with e | e | ⟨rfl, e, -⟩
  · rw [e]
  · rw [e, woken]
  · rw [e, framesOf_eq_nil (Nat.le_refl _)]
    simp

theorem act_collectionsLocked (ht : s.framesOf t = f :: rest) (ha : Act s t rest f fs s₁) (h : s.CollectionsLocked) :
    (s₁.setFrames t fs).CollectionsLocked := by
  have hlt := Nat.lt_of_lt_of_le (lt_of_framesOf ht) (act_length_le ha)
  intro c u hu
  by_cases hf : ∃ q x, f = .worker (.execute q x)
  · obtain ⟨q, x, rfl⟩ := hf
    -- an execution that locked the collection before the step is that of `t`
    have mine : s.world.holder c = some t → x.Holds c := by
      intro hc
      obtain ⟨q', x', rest', e, hx⟩ := h c t hc
      rw [ht] at e
      cases e
      exact hx
    cases ha with
    | execute hx =>
      obtain ⟨hme, hother⟩ := (Execution.step_pieces hx).holder hu mine
      by_cases e : u = t
      · subst e
        exact ⟨_, _, _, framesOf_setFrames_self hlt _, hme rfl⟩
      · obtain ⟨q', x', rest', hf, hx'⟩ := h c u (hother e)
        exact ⟨q', x', rest', (act_executing (.execute hx) e).2 hf, hx'⟩
    | executed hx =>
      by_cases e : u = t
      · subst e
        exact absurd hx ((mine hu).2.2 _)
      · obtain ⟨q', x', rest', hf, hx'⟩ := h c u hu
        exact ⟨q', x', rest', (act_executing (.executed hx) e).2 hf, hx'⟩
  · have hf : ∀ q x, f ≠ .worker (.execute q x) := fun q x e => hf ⟨q, x, e⟩
    change s₁.world.holder c = some u at hu
    rw [act_holder ha hf] at hu
    obtain ⟨q, x, urest, hu, hx⟩ := h c u hu
    have e : u ≠ t := by
      rintro rfl
      rw [ht] at hu
      cases hu
      exact hf q x rfl
    exact ⟨q, x, urest, (act_executing ha e).2 hu, hx⟩

/-- An execution goes on, or a query has just been taken, or the execution was there before the step. -/
theorem act_mem_execute (ha : Act s t rest f fs s₁) {q x} (hx : .worker (.execute q x) ∈ fs) :
    .worker (.execute q x) ∈ rest ∨ (f = .worker .take ∧ x = .start q.statement q.args) ∨
      ∃ x₀, f = .worker (.execute q x₀) ∧ x₀.step t s.world = some (x, s₁.world) := by
  cases ha
  case returned hl | dropped hl => exact .inl (leaving_mem_worker hl hx)
  case release hl => exact .inl (by simpa using leaving_mem_worker hl hx)
  case notifyNone | notifyOne | startPanic | startRefused | started | startFailed | terminateIdle | terminateReturn
    | discardEnd | retire => exact .inl (mem_worker_giveAnswer hx)
  case exit => exact .inl hx
  case take q' queue hq =>
    rcases List.mem_cons.1 hx with e | hx
    · cases e; exact .inr (.inl ⟨rfl, rfl⟩)
    · exact .inl hx
  case execute hs =>
    rcases List.mem_cons.1 hx with e | hx
    · cases e; exact .inr (.inr ⟨_, rfl, hs⟩)
    · exact .inl hx
  all_goals exact .inl (by simpa using hx)

theorem act_backed (ht : s.framesOf t = f :: rest) (ha : Act s t rest f fs s₁) (h : s.AllBacked) :
    (s₁.setFrames t fs).AllBacked := by
  have hlt := Nat.lt_of_lt_of_le (lt_of_framesOf ht) (act_length_le ha)
  have hl := act_length_collections ha
  intro u q x hu
  by_cases e : u = t
  · subst e
    rw [framesOf_setFrames_self hlt] at hu
    rcases act_mem_execute ha hu with hu | ⟨-, rfl⟩ | ⟨x₀, rfl, hs⟩
    · exact (h u q x (ht ▸ List.mem_cons_of_mem _ hu)).mono hl
    · intro left n hp
      cases hp
    · exact (Execution.step_pieces hs).backed (h u q x₀ (ht ▸ List.mem_cons_self))
  · rw [framesOf_setFrames_ne e] at hu
    refine Execution.Backed.mono (h u q x ?_) hl
    rcases act_framesOf ha u with e | e | ⟨-, e, -⟩
    · exact e ▸ hu
    · rw [e] at hu
      unfold wokenFrames at hu
      split at hu
      · rename_i hw
        rw [hw]
        simpa using hu
      · exact hu
    · simp [e] at hu

end Pool

theorem Reachable.backed (h : Reachable o w scripts s) : s.AllBacked := by
  refine h.keeps (P := Pool.AllBacked) ?_ ?_
  · intro t q x hx
    rcases framesOf_initial o w scripts t with e | ⟨actions, e⟩ <;> simp [e] at hx
  · rintro s s' t - hs ⟨f, rest, fs, s₁, hf, ha, rfl⟩
    exact Pool.act_backed hf ha hs

/-- Collections that nobody has locked at first are locked by executions only. -/
theorem Reachable.collectionsLocked (hw : ∀ c, w.holder c = none) (h : Reachable o w scripts s) :
    s.CollectionsLocked := by
  refine h.keeps (P := Pool.CollectionsLocked) ?_ ?_
  · intro c t hc
    cases (hw c).symm.trans hc
  · rintro s s' t - hs ⟨f, rest, fs, s₁, hf, ha, rfl⟩
    exact Pool.act_collectionsLocked hf ha hs

/-! ## What keeps a thread from its next step -/

namespace Pool

/-- What keeps thread `t`, with a first frame, from its next step. -/
inductive Blocked (s : Pool) (t : ThreadId) : Frame → Prop where
  /-- An outside thread has made all its calls. -/
  | outside {owns answers} : Blocked s t (.script .outside owns [] answers)
  | isRunning {role owns todo answers} (hh : s.workersHolder ≠ none) :
    Blocked s t (.script role owns (.isRunning :: todo) answers)
  | startLock (hh : s.workersHolder ≠ none) : Blocked s t (.start .lock)
  | terminateLock (hh : s.workersHolder ≠ none) : Blocked s t (.terminate .lock)
  | ready {refusal} (hr : s.ready < s.handles.length) : Blocked s t (.start (.wait refusal))
  | join {caller u left} (hu : u ≠ t) (hf : s.isFinished u = false) : Blocked s t (.halt caller (.join (u :: left)))
  | queued {role owns todo answers} (hq : s.queueHolder ≠ none) :
    Blocked s t (.script role owns (.queued :: todo) answers)
  | push {q} (hq : s.queueHolder ≠ none) : Blocked s t (.push q)
  | wake {caller} (hq : s.queueHolder ≠ none) : Blocked s t (.halt caller .wake)
  | drain (hq : s.queueHolder ≠ none) : Blocked s t (.terminate .drain)
  | seek (hq : s.queueHolder ≠ none) : Blocked s t (.worker .seek)
  | parked : Blocked s t (.worker .parked)
  | execution {q x} (hx : x.Waits s.world) : Blocked s t (.worker (.execute q x))

variable {s : Pool} {t : ThreadId} {rest : List Frame}

theorem exists_stepAction {role owns a todo answers} (hb : ¬ s.Blocked t (.script role owns (a :: todo) answers)) :
    ∃ s', s.stepAction t role owns a todo answers rest = some s' := by
  cases a with
  | isRunning =>
    cases hh : s.workersHolder with
    | none => simp only [stepAction, hh]; split <;> exact ⟨_, rfl⟩
    | some u => exact absurd (.isRunning (by simp [hh])) hb
  | queued =>
    cases hh : s.queueHolder with
    | none => simp only [stepAction, hh]; split <;> exact ⟨_, rfl⟩
    | some u => exact absurd (.queued (by simp [hh])) hb
  | panic | pushRow | openGate => exact ⟨_, rfl⟩
  | release | submit | start | terminate | isStopping | live | status =>
    simp only [stepAction]
    split <;> exact ⟨_, rfl⟩

theorem exists_stepStart {p} (hb : ¬ s.Blocked t (.start p)) : ∃ s', s.stepStart t p rest = some s' := by
  cases p with
  | lock =>
    cases hh : s.workersHolder with
    | none => simp only [stepStart, hh]; exact ⟨_, rfl⟩
    | some u => exact absurd (.startLock (by simp [hh])) hb
  | check =>
    simp only [stepStart]
    split
    · split <;> exact ⟨_, rfl⟩
    · exact ⟨_, rfl⟩
  | spawn k => simp only [stepStart]; split <;> exact ⟨_, rfl⟩
  | wait refusal =>
    by_cases hr : s.handles.length ≤ s.ready
    · simp only [stepStart, if_pos hr]
      split <;> exact ⟨_, rfl⟩
    · exact absurd (.ready (Nat.lt_of_not_le hr)) hb

theorem exists_stepHalt {caller p} (hb : ¬ s.Blocked t (.halt caller p)) :
    ∃ s', s.stepHalt t caller p rest = some s' := by
  cases p with
  | stop => exact ⟨_, rfl⟩
  | wake =>
    cases hh : s.queueHolder with
    | none => simp only [stepHalt, hh]; exact ⟨_, rfl⟩
    | some u => exact absurd (.wake (by simp [hh])) hb
  | join left =>
    cases left with
    | nil => exact ⟨_, rfl⟩
    | cons u left =>
      by_cases hu : u = t ∨ s.isFinished u = true
      · exact ⟨_, if_pos hu⟩
      · simp only [not_or, Bool.not_eq_true] at hu
        exact absurd (.join hu.1 hu.2) hb

theorem exists_stepTerminate {p} (hb : ¬ s.Blocked t (.terminate p)) :
    ∃ s', s.stepTerminate t p rest = some s' := by
  cases p with
  | lock =>
    cases hh : s.workersHolder with
    | none => simp only [stepTerminate, hh]; exact ⟨_, rfl⟩
    | some u => exact absurd (.terminateLock (by simp [hh])) hb
  | check => simp only [stepTerminate]; split <;> exact ⟨_, rfl⟩
  | drain =>
    cases hh : s.queueHolder with
    | none => simp only [stepTerminate, hh]; exact ⟨_, rfl⟩
    | some u => exact absurd (.drain (by simp [hh])) hb

theorem exists_stepWorker {p} (hb : ¬ s.Blocked t (.worker p)) (hx : ∀ q x, p = .execute q x → x.Backed s.world) :
    ∃ s', s.stepWorker t p rest = some s' := by
  cases p with
  | seek =>
    cases hh : s.queueHolder with
    | none => simp only [stepWorker, hh]; exact ⟨_, rfl⟩
    | some u => exact absurd (.seek (by simp [hh])) hb
  | parked => exact absurd .parked hb
  | execute q x =>
    by_cases hf : ∃ o, x.phase = .finished o
    · obtain ⟨o, hf⟩ := hf
      simp only [stepWorker, hf]
      exact ⟨_, rfl⟩
    · have hf : ∀ o, x.phase ≠ .finished o := fun o e => hf ⟨o, e⟩
      obtain ⟨r, hr⟩ := Execution.exists_step hf (hx q x rfl) (fun h => hb (.execution h)) t
      simp only [stepWorker, hr]
      split
      · exact ⟨_, rfl⟩
      · exact ⟨_, rfl⟩
  | check | take | exit => simp only [stepWorker]; split <;> exact ⟨_, rfl⟩
  | boot | ready | deliver | leave => exact ⟨_, rfl⟩

/-- A thread takes a step unless it is blocked. -/
theorem exists_step {f : Frame} (ht : s.framesOf t = f :: rest) (hs : s.AllBacked) (hb : ¬ s.Blocked t f) :
    ∃ target s', s.step t target = some s' := by
  unfold step
  rw [ht]
  cases f with
  | script role owns todo answers =>
    cases todo with
    | nil =>
      cases role with
      | outside => exact absurd .outside hb
      | callback | destructor => exact ⟨none, _, rfl⟩
    | cons a todo => exact ⟨none, exists_stepAction hb⟩
  | push q =>
    cases hq : s.queueHolder with
    | none => simp only [stepPush, hq]; exact ⟨none, _, rfl⟩
    | some u => exact absurd (.push (by simp [hq])) hb
  | notify i =>
    cases hp : s.parked with
    | nil => exact ⟨none, _, by simp only [stepNotify, hp]; rfl⟩
    | cons u us => exact ⟨some u, _, by simp only [stepNotify, hp]; exact if_pos (List.mem_cons_self)⟩
  | start p => exact ⟨none, exists_stepStart hb⟩
  | terminate p => exact ⟨none, exists_stepTerminate hb⟩
  | halt caller p => exact ⟨none, exists_stepHalt hb⟩
  | discard | retire => exact ⟨none, _, rfl⟩
  | worker p =>
    refine ⟨none, exists_stepWorker hb ?_⟩
    rintro q x rfl
    exact hs t q x (ht ▸ List.mem_cons_self)

/-! ## A pool at rest -/

/-- No thread can take a step. -/
def AtRest (s : Pool) : Prop := ∀ t target, s.step t target = none

variable {f : Frame}

theorem AtRest.blocked (h : s.AtRest) (hs : s.AllBacked) (ht : s.framesOf t = f :: rest) : s.Blocked t f := by
  by_contra hb
  obtain ⟨target, s', hs'⟩ := exists_step ht hs hb
  cases (h t target).symm.trans hs'

/-- Only a step that wakes a worker depends on the worker. -/
theorem step_target (ht : s.framesOf t = f :: rest) (hf : ∀ i, f ≠ .notify i) (a b : Option ThreadId) :
    s.step t a = s.step t b := by
  unfold step
  rw [ht]
  cases f with
  | notify i => exact absurd rfl (hf i)
  | script _ _ todo _ => cases todo <;> rfl
  | _ => rfl

/-- Whether a pool is at rest shows when each thread tries one step. -/
theorem atRest_iff : s.AtRest ↔ ∀ t ∈ List.range s.threads.length, s.stepFirst t = none := by
  refine ⟨fun h t _ => h t _, ?_⟩
  intro h t target
  by_contra hs
  obtain ⟨s', hs'⟩ := Option.ne_none_iff_exists'.1 hs
  obtain ⟨f, rest, fs, s₁, ht, -, -⟩ := step_cases hs'
  have hfirst := h t (List.mem_range.2 (lt_of_framesOf ht))
  unfold stepFirst at hfirst
  by_cases hn : ∃ i, f = .notify i
  · obtain ⟨i, rfl⟩ := hn
    unfold step at hfirst
    rw [ht] at hfirst
    cases hp : s.parked with
    | nil => simp [hp, stepNotify] at hfirst
    | cons u us => simp [hp, stepNotify] at hfirst
  · rw [step_target ht (fun i e => hn ⟨i, e⟩) _ target] at hfirst
    exact hs hfirst

instance : DecidablePred AtRest := fun _ => decidable_of_iff' _ atRest_iff

end Pool

/-- In a pool at rest nobody has locked the queue. -/
theorem Reachable.queueHolder_of_atRest (h : Reachable o w scripts s) (hs : s.AtRest) : s.queueHolder = none := by
  by_contra hq
  obtain ⟨t, hq⟩ := Option.ne_none_iff_exists'.1 hq
  obtain ⟨rest, e | e⟩ := h.queueHolder_iff.1 hq
  · cases hs.blocked h.backed e
  · cases hs.blocked h.backed e

/-- In a pool at rest every worker of the last start has said that it is ready. -/
theorem Reachable.fresh_of_atRest (h : Reachable o w scripts s) (hs : s.AtRest) : s.total freshIn = 0 := by
  rw [Pool.total_eq_zero]
  intro t f hf
  by_contra hne
  obtain ⟨g, rest, ht⟩ := List.exists_cons_of_ne_nil (List.ne_nil_of_mem hf)
  have hh := h.heaped t
  rw [ht] at hf hh
  cases f with
  | worker p =>
    cases p with
    | boot | ready =>
      obtain rfl := hh.first hf rfl
      cases hs.blocked h.backed ht
    | _ => exact hne rfl
  | _ => exact hne rfl

/-- In a pool at rest an execution that waits for its collection waits for one that waits at a gate. -/
theorem Reachable.gate_of_atRest (hw : ∀ c, w.holder c = none) (h : Reachable o w scripts s) (hs : s.AtRest)
    {t : ThreadId} {q : Query} {x : Execution} {rest : List Frame} (ht : s.framesOf t = .worker (.execute q x) :: rest) :
    ∃ u q x rest gate, s.framesOf u = .worker (.execute q x) :: rest ∧ x.phase = .wait gate ∧
      s.world.isOpen gate = false := by
  cases hs.blocked h.backed ht with
  | execution hx =>
    cases hx with
    | gate hp hg => exact ⟨t, q, x, rest, _, ht, hp, hg⟩
    | @collection c hp hr hh =>
      obtain ⟨u, hu⟩ := Option.ne_none_iff_exists'.1 hh
      obtain ⟨q', x', rest', hu, -, hl, -⟩ := h.collectionsLocked hw c u hu
      cases hs.blocked h.backed hu with
      | execution hx =>
        cases hx with
        | gate hp hg => exact ⟨u, q', x', rest', _, hu, hp, hg⟩
        | collection hp' => exact absurd hp' hl

end StatementPool
