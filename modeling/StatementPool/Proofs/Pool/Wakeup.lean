import StatementPool.Proofs.Pool.Waiting
/-!
# Parking and waking

A worker that finds no query parks until it is woken. Once a call that stops the workers has woken
them all, none parks before the pool is started again (`Reachable.quiet`). While the pool is to go on,
no wake-up is lost: if queries wait and a worker is parked, then another worker is awake or a
submission is about to wake one (`Reachable.alert`).
-/

namespace StatementPool

/-! ## What a call that stops the workers has done so far -/

/-- What such a call knows in its phases: a call of `terminate` has workers to stop, and the flag is set. -/
def Told (stop : Bool) (handles : List ThreadId) : Phase → Prop
  | .halt caller .stop => caller = .terminate → handles ≠ []
  | .halt caller .wake => (caller = .terminate → handles ≠ []) ∧ stop = true
  | .halt _ (.join _) | .terminate .drain => stop = true
  | _ => True

namespace Pool

def Telling (s : Pool) : Prop := ∀ p ∈ s.phases, Told s.stop s.handles p

variable {s s₁ : Pool} {t : ThreadId} {f : Frame} {rest fs : List Frame}

/-- The phases of the calls that have the lock of the handles, but for the first frame of a thread. -/
def phasesBelow (s : Pool) (t : ThreadId) (rest : List Frame) : Multiset Phase :=
  stackWeight (phasesIn t) rest + s.others t phasesIn

theorem mem_phases_below (ht : s.framesOf t = f :: rest) {p : Phase} (hp : p ∈ s.phasesBelow t rest) : p ∈ s.phases := by
  rw [phases, total_cons ht]
  exact Multiset.mem_add.2 (.inr hp)

/-- While a call has the lock of the handles, no other call has it. -/
theorem phases_alone (hs : s.Staged) (ht : s.framesOf t = f :: rest) {p : Phase} (hp : phasesIn t f = {p}) :
    s.phasesBelow t rest = 0 := by
  obtain ⟨x, hx, -⟩ := hs
  rw [phases, total_cons ht, hp] at hx
  exact (single_eq_add hx.symm).2

theorem phases_of_first (hs : s.Staged) (ht : s.framesOf t = f :: rest) {p : Phase} (hp : phasesIn t f = {p}) :
    s.phases = {p} := by
  rw [phases, total_cons ht, hp]
  exact (congrArg _ (phases_alone hs ht hp)).trans (add_zero _)

/-- The phase that a call is in after a step on its frame. -/
inductive NextPhase (handles : List ThreadId) : Frame → Phase → Prop where
  | started : NextPhase handles (.start .lock) (.start .check)
  | begun (he : handles = []) : NextPhase handles (.start .check) (.start (.spawn 0))
  | spawned {k} : NextPhase handles (.start (.spawn k)) (.start (.spawn (k + 1)))
  | awaits {k refusal} : NextPhase handles (.start (.spawn k)) (.start (.wait refusal))
  | abandons {cause} : NextPhase handles (.start (.wait (some cause))) (.halt (.start cause) .stop)
  | wakes {caller} : NextPhase handles (.halt caller .stop) (.halt caller .wake)
  | joins {caller} : NextPhase handles (.halt caller .wake) (.halt caller (.join handles))
  | joined {caller u left} : NextPhase handles (.halt caller (.join (u :: left))) (.halt caller (.join left))
  | drains : NextPhase handles (.halt .terminate (.join [])) (.terminate .drain)
  | terminated : NextPhase handles (.terminate .lock) (.terminate .check)
  | stops (he : handles ≠ []) : NextPhase handles (.terminate .check) (.halt .terminate .stop)

/-- A call that has the lock after a step had it before, or is the one that the step was about. -/
theorem act_mem_phases (ht : s.framesOf t = f :: rest) (ha : Act s t rest f fs s₁) {p : Phase}
    (hp : p ∈ (s₁.setFrames t fs).phases) : p ∈ s.phasesBelow t rest ∨ NextPhase s.handles f p := by
  rw [phases, act_total steady_phasesIn (fun _ => rfl) ht ha] at hp
  -- the call goes on
  have next : ∀ {g q}, phasesIn t g = {q} → p ∈ stackWeight (phasesIn t) (g :: rest) + s.others t phasesIn →
      NextPhase s.handles f q → p ∈ s.phasesBelow t rest ∨ NextPhase s.handles f p := by
    intro g q hg hp hq
    rw [stackWeight_cons, hg, add_assoc] at hp
    rcases Multiset.mem_add.1 hp with hp | hp
    · exact .inr (Multiset.mem_singleton.1 hp ▸ hq)
    · exact .inl hp
  cases ha
  case startLock => exact next rfl hp .started
  case startBegin he _ => exact next rfl hp (.begun he)
  case spawn => exact next rfl hp .spawned
  case spawned | spawnFails => exact next rfl hp .awaits
  case abandoned => exact next rfl hp .abandons
  case terminateLock => exact next rfl hp .terminated
  case terminateRunning he => exact next rfl hp (.stops he)
  case haltStop => exact next rfl hp .wakes
  case haltWake => exact next rfl hp .joins
  case join => exact next rfl hp .joined
  case joined => exact next rfl hp .drains
  case returned hl | dropped hl =>
    rw [leaving_weight steady_phasesIn (fun _ => rfl) (fun _ => rfl) hl] at hp
    exact .inl hp
  case release hl =>
    rw [leaving_weight steady_phasesIn (fun _ => rfl) (fun _ => rfl) hl, stackWeight_cons] at hp
    exact .inl (by simpa [phasesIn, phasesBelow] using hp)
  all_goals
    refine .inl ?_
    simpa [phasesIn, phasesBelow, stackWeight_giveAnswer steady_phasesIn, add_assoc] using hp

/-- After a step of the call that has the lock, only this call may have it, in its next phase. -/
theorem next_of_mem_phases (hs : s.Staged) (ht : s.framesOf t = f :: rest) (ha : Act s t rest f fs s₁) {p q : Phase}
    (hp : phasesIn t f = {p}) (hq : q ∈ (s₁.setFrames t fs).phases) : NextPhase s.handles f q := by
  refine (act_mem_phases ht ha hq).resolve_left fun hbelow => ?_
  rw [phases_alone hs ht hp] at hbelow
  cases hbelow

theorem act_telling (hs : s.Staged) (ht : s.framesOf t = f :: rest) (ha : Act s t rest f fs s₁) (h : s.Telling) :
    (s₁.setFrames t fs).Telling := by
  intro p hp
  have told : ∀ {q}, phasesIn t f = {q} → Told s.stop s.handles q := fun hq =>
    h _ (mem_phases_before ht (by simp [hq]))
  rcases act_mem_phases ht ha hp with hp | hnext
  · -- while another call has the lock, a step changes neither the flag nor the handles
    have alone : ∀ {q}, phasesIn t f ≠ {q} := fun hq => by simp [phases_alone hs ht hq] at hp
    have old := h p (mem_phases_below ht hp)
    cases ha
    case startBegin | startPanic | spawn | haltStop | haltWake => exact absurd rfl alone
    all_goals exact old
  · cases ha
    case terminateRunning he => cases hnext; exact fun _ => he
    case abandoned => cases hnext; exact nofun
    case haltStop => cases hnext; exact ⟨told rfl, rfl⟩
    case haltWake => cases hnext; exact (told rfl : _ ∧ _).2
    case joined | join => cases hnext; exact (told rfl : s.stop = true)
    all_goals
      cases hnext
      all_goals trivial

end Pool

variable {o : Options} {w : World} {scripts : List (List Action)} {s : Pool}

theorem Reachable.telling (h : Reachable o w scripts s) : s.Telling := by
  refine h.keeps (P := Pool.Telling) ?_ ?_
  · intro p hp
    rw [Pool.phases, total_initial fun _ _ => rfl] at hp
    cases hp
  · rintro s s' t hr hs ⟨f, rest, fs, s₁, hf, ha, rfl⟩
    exact Pool.act_telling hr.staged hf ha hs

/-! ## Nobody parks -/

/-- Whether a frame is that of a worker that is parked or parks if it finds no query. -/
def Frame.mayPark : Frame → Bool
  | .worker .take | .worker .parked => true
  | _ => false

namespace Pool

variable {s s₁ : Pool} {t : ThreadId} {f : Frame} {rest fs : List Frame}

theorem framesOf_unpark_self (s : Pool) (t : ThreadId) : (s.unpark t).framesOf t = wokenFrames (s.framesOf t) := by
  unfold unpark
  split
  · rename_i hp
    unfold isParked at hp
    split at hp
    · rename_i rest e
      rw [framesOf_setFrames_self (lt_of_framesOf e), e]
      rfl
    · cases hp
  · rename_i hp
    unfold wokenFrames
    split
    · rename_i rest e
      exact absurd (by rw [e]; rfl) hp
    · rfl

theorem framesOf_unpark_ne {u : ThreadId} (h : t ≠ u) : (s.unpark u).framesOf t = s.framesOf t := by
  rcases unpark_eq s u with e | e
  · rw [e, framesOf_setFrames_ne h]
  · rw [e]

/-- Waking all workers wakes every one of them. -/
theorem framesOf_unparkAll_eq (s : Pool) (t : ThreadId) : s.unparkAll.framesOf t = wokenFrames (s.framesOf t) := by
  have woken : ∀ (us : List ThreadId) (s : Pool), t ∈ us → (us.foldl unpark s).framesOf t = wokenFrames (s.framesOf t) := by
    intro us
    induction us with
    | nil => intro s h; cases h
    | cons u us ih =>
      intro s h
      rw [List.foldl_cons]
      by_cases hu : t ∈ us
      · rw [ih _ hu]
        rcases framesOf_unpark s u t with e | e
        · rw [e]
        · rw [e, wokenFrames_idem]
      · obtain rfl : t = u := (List.mem_cons.1 h).resolve_right hu
        have same : ∀ (vs : List ThreadId) (s : Pool), t ∉ vs → (vs.foldl unpark s).framesOf t = s.framesOf t := by
          intro vs
          induction vs with
          | nil => intro s _; rfl
          | cons v vs ih =>
            intro s hv
            rw [List.mem_cons, not_or] at hv
            rw [List.foldl_cons, ih _ hv.2, framesOf_unpark_ne hv.1]
        rw [same us _ hu, framesOf_unpark_self]
  by_cases hp : t ∈ s.parked
  · exact woken _ s hp
  · rcases framesOf_unparkAll s t with e | e
    · rw [e]
      unfold wokenFrames
      split
      · rename_i rest e
        exact absurd (mem_parked.2 ⟨rest, e⟩) hp
      · rfl
    · exact e

/-- A pool that is to stop and whose workers have been told so: nobody is parked or about to park. -/
def Quiet (s : Pool) : Prop :=
  s.stop = true → s.handles = [] → (∀ caller, .halt caller .wake ∉ s.phases) →
    ∀ t, ∀ f ∈ s.framesOf t, f.mayPark = false

/-- A thread is about to park only after it looked at the flag. -/
theorem act_mayPark (ha : Act s t rest f fs s₁) {g : Frame} (hg : g ∈ fs) (hp : g.mayPark = true) :
    g ∈ rest ∨ (f = .worker .check ∧ s.stop = false) ∨ (f = .worker .take ∧ s.queue = []) := by
  obtain ⟨p, rfl⟩ : ∃ p, g = .worker p := by
    cases g with
    | worker p => exact ⟨p, rfl⟩
    | _ => cases hp
  cases ha
  case returned hl | dropped hl => exact .inl (leaving_mem_worker hl hg)
  case release hl => exact .inl (by simpa using leaving_mem_worker hl hg)
  case notifyNone | notifyOne | startPanic | startRefused | started | startFailed | terminateIdle | terminateReturn
    | discardEnd | retire => exact .inl (mem_worker_giveAnswer hg)
  case exit => exact .inl hg
  case checkGo hs => exact .inr (.inl ⟨rfl, hs⟩)
  case park hq => exact .inr (.inr ⟨rfl, hq⟩)
  all_goals
    simp only [List.mem_cons, Frame.worker.injEq, reduceCtorEq, false_or] at hg
    first
      | exact .inl hg
      | rcases hg with rfl | hg
        · cases hp
        · exact .inl hg

theorem mayPark_wokenFrames {gs : List Frame} {g : Frame} (hg : g ∈ wokenFrames gs) (hp : g.mayPark = true) :
    g ∈ gs := by
  unfold wokenFrames at hg
  split at hg
  · rcases List.mem_cons.1 hg with rfl | hg
    · cases hp
    · exact List.mem_cons_of_mem _ hg
  · exact hg

theorem mayPark_of_lies {g : Frame} (h : g.lies = true) : g.mayPark = false := by
  cases g with
  | worker p => cases p <;> first | rfl | cases h
  | _ => rfl

/-- When all workers are woken while nobody looks at the queue, none of them is about to park. -/
theorem mayPark_unparkAll {o : Options} {w : World} {scripts : List (List Action)} (hr : Reachable o w scripts s)
    (hq : s.queueHolder = none) {u : ThreadId} {g : Frame} (hg : g ∈ s.unparkAll.framesOf u) : g.mayPark = false := by
  rw [framesOf_unparkAll_eq] at hg
  by_contra hp
  rw [Bool.not_eq_false] at hp
  have hmem := mayPark_wokenFrames hg hp
  obtain ⟨f, rest, hf⟩ := List.exists_cons_of_ne_nil (List.ne_nil_of_mem hmem)
  have hheap := hr.heaped u
  rw [hf] at hmem hheap
  have hlies : g.lies = false := by
    by_contra hl
    rw [mayPark_of_lies (by simpa using hl)] at hp
    cases hp
  obtain rfl := hheap.first hmem hlies
  cases g with
  | worker p =>
    cases p with
    | take => cases hq.symm.trans (hr.queueHolder_iff.2 ⟨rest, .inr hf⟩)
    | parked =>
      rw [hf] at hg
      rcases List.mem_cons.1 hg with e | hg
      · cases e
      · cases hheap _ hg
    | _ => cases hp
  | _ => cases hp

theorem act_quiet {o : Options} {w : World} {scripts : List (List Action)} (hr : Reachable o w scripts s)
    (ht : s.framesOf t = f :: rest) (ha : Act s t rest f fs s₁) (h : s.Quiet) : (s₁.setFrames t fs).Quiet := by
  have hlt := Nat.lt_of_lt_of_le (lt_of_framesOf ht) (act_length_le ha)
  intro hstop hh hwake u g hg
  by_contra hp
  rw [Bool.not_eq_false] at hp
  -- before the step as well the flag was set, the handles were gone and all had been woken
  have same : s.stop = true → s.handles = [] → (∀ caller, f ≠ .halt caller .wake) → False := by
    intro hstop' hh' hf
    have quiet := h hstop' hh' fun caller hmem => by
      rw [phases, total_cons ht] at hmem
      rcases Multiset.mem_add.1 hmem with hmem | hmem
      · exact hf caller (mem_phasesIn_halt.1 hmem)
      · exact hwake caller (Multiset.mem_of_le (phases_le ht ha) hmem)
    by_cases e : u = t
    · subst e
      rw [framesOf_setFrames_self hlt] at hg
      rcases act_mayPark ha hg hp with hg | ⟨-, hs⟩ | ⟨rfl, -⟩
      · simp [quiet u g (ht ▸ List.mem_cons_of_mem _ hg)] at hp
      · simp [hstop'] at hs
      · have hf := quiet u _ (ht ▸ List.mem_cons_self)
        cases hf
    · rw [framesOf_setFrames_ne e] at hg
      rcases act_framesOf ha u with e | e | ⟨-, e, -⟩
      · simp [quiet u g (e ▸ hg)] at hp
      · simp [quiet u g (mayPark_wokenFrames (e ▸ hg) hp)] at hp
      · rw [e, List.mem_singleton] at hg
        subst hg
        cases hp
  cases ha
  case startBegin | startPanic => cases hstop
  case spawn => simp at hh
  case haltStop caller =>
    refine hwake caller (mem_phases_halt.2 ⟨t, ?_⟩)
    rw [framesOf_setFrames_self hlt]
    exact List.mem_cons_self
  case haltWake hq =>
    by_cases e : u = t
    · subst e
      rw [framesOf_setFrames_self hlt] at hg
      have hheap := hr.heaped u
      rw [ht] at hheap
      rcases List.mem_cons.1 hg with rfl | hg
      · cases hp
      · cases (mayPark_of_lies (hheap g hg)).symm.trans hp
    · rw [framesOf_setFrames_ne e] at hg
      have hg : g ∈ s.unparkAll.framesOf u := hg
      cases (mayPark_unparkAll hr hq hg).symm.trans hp
  all_goals exact same hstop hh (by simp)

end Pool

theorem Reachable.quiet (h : Reachable o w scripts s) : s.Quiet := by
  refine h.keeps (P := Pool.Quiet) ?_ ?_
  · intro hs
    cases hs
  · rintro s s' t hr hs ⟨f, rest, fs, s₁, hf, ha, rfl⟩
    exact Pool.act_quiet hr hf ha hs

/-! ## No wake-up is lost -/

/-- Whether a frame is that of a worker that is awake and goes on, or of a submission that is about to
wake one. -/
def Frame.stirs : Frame → Bool
  | .notify _ => true
  | .worker .parked | .worker .leave | .worker .exit => false
  | .worker _ => true
  | _ => false

namespace Pool

variable {s s₁ : Pool} {t : ThreadId} {f : Frame} {rest fs : List Frame}

/-- While the pool is to go on, if queries wait and a worker is parked, some thread stirs. -/
def Alert (s : Pool) : Prop :=
  s.stop = false → s.queue ≠ [] → s.parked ≠ [] → ∃ t, ∃ f ∈ s.framesOf t, f.stirs = true

theorem stirs_giveAnswer {a : Answer} {gs : List Frame} (h : ∃ g ∈ gs, g.stirs = true) :
    ∃ g ∈ giveAnswer a gs, g.stirs = true := by
  unfold giveAnswer
  split
  · obtain ⟨g, hg, hs⟩ := h
    rcases List.mem_cons.1 hg with rfl | hg
    · cases hs
    · exact ⟨g, List.mem_cons_of_mem _ hg, hs⟩
  · exact h

theorem stirs_wokenFrames {gs : List Frame} (h : ∃ g ∈ gs, g.stirs = true) : ∃ g ∈ wokenFrames gs, g.stirs = true := by
  unfold wokenFrames
  split
  · exact ⟨_, List.mem_cons_self, rfl⟩
  · exact h

theorem leaving_stirs {owners owns owners' fs} (h : Leaving owners rest owns owners' fs)
    (hr : ∃ g ∈ rest, g.stirs = true) : ∃ g ∈ fs, g.stirs = true := by
  cases h with
  | keep => exact hr
  | share => exact stirs_giveAnswer hr
  | last =>
    obtain ⟨g, hg, hs⟩ := hr
    exact ⟨g, List.mem_cons_of_mem _ (List.mem_cons_of_mem _ hg), hs⟩

/-- A thread that stirs goes on stirring, unless it wakes a worker, or it is a worker that is told to
stop or finds no query. -/
theorem act_stirs (ha : Act s t rest f fs s₁) (h : ∃ g ∈ f :: rest, g.stirs = true)
    (hn : ∀ i, f ≠ .notify i) (hs : s.stop = false) (hq : s.queue ≠ []) : ∃ g ∈ fs, g.stirs = true := by
  obtain ⟨g, hg, hg'⟩ := h
  -- the first frame stirs, or a frame below does
  rcases List.mem_cons.1 hg with rfl | hb
  · cases ha
    case notifyNone i _ | notifyOne i _ _ _ _ => exact absurd rfl (hn i)
    case checkStop hs' => cases hs.symm.trans hs'
    case park hq' => exact absurd hq' hq
    case boot | ready | seek | checkGo | take | execute | executed | wake | push =>
      exact ⟨_, List.mem_cons_self, rfl⟩
    case deliver => exact ⟨_, List.mem_cons_of_mem _ List.mem_cons_self, rfl⟩
    all_goals cases hg'
  · have below : ∃ g ∈ rest, g.stirs = true := ⟨g, hb, hg'⟩
    cases ha
    case returned hl | dropped hl => exact leaving_stirs hl below
    case release hl => exact leaving_stirs hl ⟨g, List.mem_cons_of_mem _ hb, hg'⟩
    case notifyNone | notifyOne | startPanic | startRefused | started | startFailed | terminateIdle | terminateReturn
      | discardEnd | retire => exact stirs_giveAnswer below
    case exit => exact below
    case submit | callStart | callTerminate | discard | deliver =>
      exact ⟨g, List.mem_cons_of_mem _ (List.mem_cons_of_mem _ hb), hg'⟩
    all_goals exact ⟨g, List.mem_cons_of_mem _ hb, hg'⟩

/-- Whoever is parked after a step was parked before it, or has just found no query. -/
theorem act_parked {o : Options} {w : World} {scripts : List (List Action)} (hr : Reachable o w scripts s)
    (ht : s.framesOf t = f :: rest) (ha : Act s t rest f fs s₁) {u : ThreadId}
    (hu : u ∈ (s₁.setFrames t fs).parked) : u ∈ s.parked ∨ (s.queue = [] ∧ s₁.queue = s.queue) := by
  obtain ⟨urest, hu⟩ := mem_parked.1 hu
  by_cases e : u = t
  · subst e
    rw [framesOf_setFrames_self (Nat.lt_of_lt_of_le (lt_of_framesOf ht) (act_length_le ha))] at hu
    subst hu
    have hheap := hr.heaped u
    rw [ht] at hheap
    rcases act_mayPark ha List.mem_cons_self rfl with hg | ⟨rfl, -⟩ | ⟨rfl, hq⟩
    · cases hheap _ hg
    · cases ha
    · cases ha with
      | park => exact .inr ⟨hq, rfl⟩
  · rw [framesOf_setFrames_ne e] at hu
    refine .inl (mem_parked.2 ⟨urest, ?_⟩)
    rcases act_framesOf ha u with e | e | ⟨-, e, -⟩
    · exact e ▸ hu
    · rw [e] at hu
      unfold wokenFrames at hu
      split at hu
      · cases hu
      · exact hu
    · rw [e] at hu
      cases hu

theorem act_alert {o : Options} {w : World} {scripts : List (List Action)} (hr : Reachable o w scripts s)
    (ht : s.framesOf t = f :: rest) (ha : Act s t rest f fs s₁) (h : s.Alert) : (s₁.setFrames t fs).Alert := by
  have hlt := Nat.lt_of_lt_of_le (lt_of_framesOf ht) (act_length_le ha)
  intro hstop hqueue hparked
  obtain ⟨u, hafter⟩ := List.exists_mem_of_ne_nil _ hparked
  have hu : u ∈ s.parked := (act_parked hr ht ha hafter).resolve_right fun ⟨hq, e⟩ => hqueue (e.trans hq)
  -- the flag was not set before the step: who sets it back finds nobody parked
  have hstop' : s.stop = false := by
    by_contra hs
    rw [Bool.not_eq_false] at hs
    have nobody : s.handles = [] → f = .start .check → False := by
      rintro he rfl
      obtain ⟨urest, hu⟩ := mem_parked.1 hu
      have told : ∀ caller, .halt caller .wake ∉ s.phases := by
        simp [phases_of_first hr.staged ht (p := .start .check) rfl]
      have hp := hr.quiet hs he told u (.worker .parked) (hu ▸ List.mem_cons_self)
      cases hp
    cases ha
    case startBegin he _ | startPanic he _ => exact nobody he rfl
    case haltStop => cases hstop
    all_goals cases hs.symm.trans hstop
  by_cases hn : ∃ i, f = .notify i
  · obtain ⟨i, rfl⟩ := hn
    cases ha with
    | notifyNone hp => rw [hp] at hu; cases hu
    | @notifyOne _ v vrest hv hne =>
      refine ⟨v, .worker .seek, ?_, rfl⟩
      rw [framesOf_setFrames_ne hne, framesOf_setFrames_self (lt_of_framesOf hv)]
      exact List.mem_cons_self
  · by_cases hq : s.queue = []
    · -- the queue was empty, so a query has just been pushed
      cases ha
      case push q hq' => exact ⟨t, _, by rw [framesOf_setFrames_self hlt]; exact List.mem_cons_self, rfl⟩
      case take hq' => cases hq.symm.trans hq'
      all_goals first | exact absurd hq hqueue | exact absurd rfl hqueue
    · obtain ⟨v, g, hg, hg'⟩ := h hstop' hq (List.ne_nil_of_mem hu)
      by_cases e : v = t
      · subst e
        refine ⟨v, ?_⟩
        rw [framesOf_setFrames_self hlt]
        exact act_stirs ha ⟨g, ht ▸ hg, hg'⟩ (fun i e => hn ⟨i, e⟩) hstop' hq
      · refine ⟨v, ?_⟩
        rw [framesOf_setFrames_ne e]
        rcases act_framesOf ha v with e | e | ⟨-, e, -⟩
        · rw [e]; exact ⟨g, hg, hg'⟩
        · rw [e]; exact stirs_wokenFrames ⟨g, hg, hg'⟩
        · rw [e]; exact ⟨_, List.mem_cons_self, rfl⟩

end Pool

theorem Reachable.alert (h : Reachable o w scripts s) : s.Alert := by
  refine h.keeps (P := Pool.Alert) ?_ ?_
  · intro _ hq
    exact absurd rfl hq
  · rintro s s' t hr hs ⟨f, rest, fs, s₁, hf, ha, rfl⟩
    exact Pool.act_alert hr hf ha hs

end StatementPool
