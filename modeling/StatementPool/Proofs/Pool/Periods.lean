import StatementPool.Proofs.Pool.Submission
import StatementPool.Proofs.Pool.Wakeup
/-!
# Between two calls of start and terminate

A call of `start` that comes back and a call of `terminate` that gives the lock of the handles back
divide a run into periods. `Leads` is the part of a run from one of these moments on, by steps that do
not end the period. Until the next start there are no handles (`Pool.Dormant`), until the flag is set
all handles are there (`Pool.Complete`), and each of these is kept by every step of its period. So, in a
run in which no worker calls `start` or `terminate`, all workers count themselves from the moment
`start` comes back until the flag is set, and from the moment `terminate` gives its lock back until the
next start there is no worker at all (`ReachableWhile.staffed`).
-/

namespace StatementPool

/-! ## Parts of runs -/

/-- What a pool can become from `s` by steps that have a property, which may speak of the pool before the
step, the frame that the step works on, and the pool after it. -/
inductive Leads (P : Pool → Frame → Pool → Prop) (s : Pool) : Pool → Prop where
  | refl : Leads P s s
  | next {s' s'' : Pool} {f : Frame} (l : Label) : Leads P s s' → s'.acting l = some f → s'.next l = some s'' →
      P s' f s'' → Leads P s s''

/-- The pool after several labels, if the steps have a property. -/
def Pool.runThrough (P : Pool → Frame → Pool → Prop) [∀ s f s', Decidable (P s f s')] (s : Pool) :
    List Label → Option Pool
  | [] => some s
  | l :: ls => match s.acting l, s.next l with
    | some f, some s' => if P s f s' then s'.runThrough P ls else none
    | _, _ => none

namespace Leads

variable {P : Pool → Frame → Pool → Prop} {o : Options} {w : World} {scripts : List (List Action)} {s s' s'' : Pool}

theorem reachable (hr : Reachable o w scripts s) (h : Leads P s s') : Reachable o w scripts s' := by
  induction h with
  | refl => exact hr
  | next l _ _ hn _ ih => exact .next l ih hn

theorem reachableWhile {R : Pool → Prop} (hr : ReachableWhile R o w scripts s) (hP : ∀ a f b, P a f b → R b)
    (h : Leads P s s') : ReachableWhile R o w scripts s' := by
  induction h with
  | refl => exact hr
  | next l _ _ hn hp ih => exact .next l ih hn (hP _ _ _ hp)

/-- What holds at first and is kept by every step of the part holds at its end. -/
theorem keeps {Q : Pool → Prop} (first : Q s)
    (step : ∀ {a t f rest fs a₁}, Leads P s a → Q a → P a f (a₁.setFrames t fs) → a.framesOf t = f :: rest →
      Pool.Act a t rest f fs a₁ → Q (a₁.setFrames t fs)) (h : Leads P s s') : Q s' := by
  induction h with
  | refl => exact first
  | next l hl hf hn hp ih =>
    obtain ⟨t, rest, fs, a₁, ht, ha, rfl⟩ := Pool.next_acting hf hn
    exact step hl ih hp ht ha

theorem runThrough [∀ a f b, Decidable (P a f b)] {ls : List Label} (h : Leads P s s')
    (hr : s'.runThrough P ls = some s'') : Leads P s s'' := by
  induction ls generalizing s' with
  | nil => cases hr; exact h
  | cons l ls ih =>
    simp only [Pool.runThrough] at hr
    split at hr
    · rename_i f a hf hn
      split at hr
      · rename_i hp
        exact ih (h.next l hf hn hp) hr
      · cases hr
    · cases hr

end Leads

/-! ## Until the next start -/

/-- Whether a frame is a call of `start` that is about to look at the handles. -/
def Frame.looksForHandles : Frame → Bool
  | .start .check => true
  | _ => false

namespace Pool

variable {s s₁ : Pool} {t : ThreadId} {f : Frame} {rest fs : List Frame}

/-- A step before the next start: no call of `start` finds that there are no handles. -/
def BeforeStart (s : Pool) (f : Frame) (_ : Pool) : Prop := f.looksForHandles = true → s.handles ≠ []

instance (s : Pool) (f : Frame) (s' : Pool) : Decidable (s.BeforeStart f s') :=
  inferInstanceAs (Decidable (f.looksForHandles = true → s.handles ≠ []))

/-- There are no handles, and no call of `start` is making new ones; one that gives up has woken all
workers. -/
structure Dormant (s : Pool) : Prop where
  handles : s.handles = []
  starting : ∀ p, .start p ∈ s.phases → p = .check
  halting : ∀ cause p, .halt (.start cause) p ∈ s.phases → ∃ left, p = .join left

theorem act_dormant (ht : s.framesOf t = f :: rest) (ha : Act s t rest f fs s₁)
    (hb : f.looksForHandles = true → s.handles ≠ []) (h : s.Dormant) : (s₁.setFrames t fs).Dormant := by
  have began : ∀ p, phasesIn t f = {.start p} → p = .check := fun p hp =>
    h.starting p (mem_phases_before ht (by simp [hp]))
  constructor
  · cases ha
    case spawn k _ => cases began (.spawn k) rfl
    case haltWake => rfl
    all_goals exact h.handles
  · intro p hp
    rcases act_mem_phases ht ha hp with hp | hnext
    · exact h.starting p (mem_phases_below ht hp)
    · cases hnext with
      | started => rfl
      | begun he => exact absurd he (hb rfl)
      | @spawned k | @awaits k => cases began (.spawn k) rfl
  · intro cause p hp
    rcases act_mem_phases ht ha hp with hp | hnext
    · exact h.halting cause p (mem_phases_below ht hp)
    · cases hnext with
      | abandons => cases began (.wait (some cause)) rfl
      | wakes =>
        obtain ⟨left, hl⟩ := h.halting cause .stop (mem_phases_before ht (Multiset.mem_singleton_self _))
        cases hl
      | joins | joined => exact ⟨_, rfl⟩

/-- Where there are no handles, no call is about to wake the workers. -/
theorem Dormant.not_waking (h : s.Dormant) (htell : s.Telling) (caller : Halter) : .halt caller .wake ∉ s.phases := by
  intro hp
  cases caller with
  | terminate => exact (htell _ hp).1 rfl h.handles
  | start cause =>
    obtain ⟨left, hl⟩ := h.halting cause .wake hp
    cases hl

/-- Only a call of `start` that finds no handles takes the flag back. -/
theorem act_stop_of_beforeStart (ha : Act s t rest f fs s₁) (hb : f.looksForHandles = true → s.handles ≠ [])
    (hs : s.stop = true) : (s₁.setFrames t fs).stop = true := by
  cases ha
  case startBegin he _ | startPanic he _ => exact absurd he (hb rfl)
  all_goals first | exact hs | rfl

/-- Where there are no handles, no call begins to join workers. -/
theorem act_not_joining (htell : s.Telling) (hd : s.Dormant) (ht : s.framesOf t = f :: rest)
    (ha : Act s t rest f fs s₁) (h : ∀ caller left, .halt caller (.join left) ∉ s.phases) (caller : Halter)
    (left : List ThreadId) : .halt caller (.join left) ∉ (s₁.setFrames t fs).phases := by
  intro hp
  rcases act_mem_phases ht ha hp with hp | hnext
  · exact h caller left (mem_phases_below ht hp)
  · cases hnext with
    | joins => exact hd.not_waking htell caller (mem_phases_before ht (Multiset.mem_singleton_self _))
    | @joined _ u => exact h caller (u :: left) (mem_phases_before ht (Multiset.mem_singleton_self _))

/-- A call of `terminate` gives the lock of the handles back. -/
def Terminates (s s' : Pool) : Prop :=
  ∃ t target p rest, s.framesOf t = .terminate p :: rest ∧ s.workersHolder ≠ none ∧ s.step t target = some s' ∧
    s'.workersHolder = none

/-- Behind such a call there are no handles, and no other call has the lock. -/
theorem Terminates.dormant {o : Options} {w : World} {scripts : List (List Action)} {s' : Pool}
    (hr : Reachable o w scripts s) (h : s.Terminates s') : s'.Dormant ∧ s'.phases = 0 := by
  obtain ⟨t, target, p, rest, ht, hl, hstep, hfree⟩ := h
  obtain ⟨f, rest', fs, s₁, ht', ha, rfl⟩ := step_cases hstep
  cases ht.symm.trans ht'
  have idle : ∀ q, phasesIn t (.terminate p) = {q} → (∀ q', ¬ NextPhase s.handles (.terminate p) q') →
      (s₁.setFrames t fs).phases = 0 := fun q hq hno =>
    Multiset.eq_zero_of_forall_notMem fun q' hq' => hno q' (next_of_mem_phases hr.staged ht ha hq hq')
  have dormant : s₁.handles = [] → (s₁.setFrames t fs).phases = 0 →
      (s₁.setFrames t fs).Dormant ∧ (s₁.setFrames t fs).phases = 0 :=
    fun hh hp => ⟨⟨hh, by simp [hp], by simp [hp]⟩, hp⟩
  cases ha
  case terminateIdle he =>
    refine dormant he (idle _ rfl ?_)
    intro q hq
    cases hq with
    | stops hne => exact hne he
  case drain hq =>
    refine dormant ?_ (idle _ rfl fun q hq => by cases hq)
    obtain ⟨held, hst⟩ := hr.staged.of_mem (mem_phases_before ht (Multiset.mem_singleton_self _))
    cases hst with
    | draining hh => exact hh
  all_goals first | exact absurd hfree hl | cases hfree

end Pool

/-! ## Until the flag is set -/

/-- Whether a frame is a call of `terminate` that is about to set the flag. -/
def Frame.setsStop : Frame → Bool
  | .halt .terminate .stop => true
  | _ => false

namespace Pool

variable {s s₁ : Pool} {t : ThreadId} {f : Frame} {rest fs : List Frame}

/-- All `n` handles are there, their workers are ready, and no call of `terminate` has told them to stop. -/
structure Complete (n : Nat) (s : Pool) : Prop where
  handles : s.handles.length = n
  stop : s.stop = false
  fresh : s.total freshIn = 0
  calls : ∀ p ∈ s.phases, p = .start .check ∨ p = .terminate .check ∨ p = .halt .terminate .stop

theorem act_complete {n : Nat} (hn : 0 < n) (ht : s.framesOf t = f :: rest) (ha : Act s t rest f fs s₁)
    (hb : f.setsStop = false) (h : s.Complete n) : (s₁.setFrames t fs).Complete n := by
  have hne : s.handles ≠ [] := List.ne_nil_of_length_pos (h.handles ▸ hn)
  -- no call is in another phase
  have calls : ∀ {p}, phasesIn t f = {p} → p = .start .check ∨ p = .terminate .check ∨ p = .halt .terminate .stop :=
    fun hp => h.calls _ (mem_phases_before ht (by simp [hp]))
  have hspawn : ∀ k, f ≠ .start (.spawn k) := by
    rintro k rfl
    simpa using calls (p := .start (.spawn k)) rfl
  have hwake : ∀ caller, f ≠ .halt caller .wake := by
    rintro caller rfl
    simpa using calls (p := .halt caller .wake) rfl
  have hstop : ∀ caller, f ≠ .halt caller .stop := by
    rintro caller rfl
    obtain rfl : caller = .terminate := by simpa using calls (p := .halt caller .stop) rfl
    cases hb
  have hready : f ≠ .worker .ready := by
    rintro rfl
    have := total_eq_zero.1 h.fresh t _ (ht ▸ List.mem_cons_self)
    simp [freshIn] at this
  refine ⟨?_, ?_, (act_fresh ht ha hspawn hready).trans h.fresh, ?_⟩
  · cases ha
    case spawn k _ => exact absurd rfl (hspawn k)
    case haltWake => exact absurd rfl (hwake _)
    all_goals exact h.handles
  · cases ha
    case haltStop => exact absurd rfl (hstop _)
    all_goals first | exact h.stop | rfl
  · intro p hp
    rcases act_mem_phases ht ha hp with hp | hnext
    · exact h.calls p (mem_phases_below ht hp)
    · cases hnext with
      | started => exact .inl rfl
      | terminated => exact .inr (.inl rfl)
      | stops => exact .inr (.inr rfl)
      | begun he => exact absurd he hne
      | spawned | awaits => exact absurd rfl (hspawn _)
      | abandons => simpa using calls (p := .start (.wait _)) rfl
      | wakes => exact absurd rfl (hstop _)
      | joins => exact absurd rfl (hwake _)
      | @joined caller u left => simpa using calls (p := .halt caller (.join (u :: left))) rfl
      | drains => simpa using calls (p := .halt .terminate (.join [])) rfl

/-- A call of `start` that comes back leaves a complete pool behind. -/
theorem Starts.complete {o : Options} {w : World} {scripts : List (List Action)} {s' : Pool}
    (hr : Reachable o w scripts s) (h : s.Starts s') : s'.Complete o.maxThreads.toNat := by
  obtain ⟨hh, hs, hf⟩ := hr.started h
  refine ⟨hh, hs, hf, ?_⟩
  obtain ⟨t, target, rest, ht, hstep, -⟩ := h
  obtain ⟨f, rest', fs, s₁, ht', ha, rfl⟩ := step_cases hstep
  cases ht.symm.trans ht'
  intro p hp
  cases next_of_mem_phases hr.staged ht ha rfl hp

end Pool

variable {o : Options} {w : World} {scripts : List (List Action)} {s s' s'' : Pool}

/-! ## A pool without workers -/

/-- A pool without handles in which no call joins workers has no workers, if none is detached. -/
theorem Pool.atWork_eq_nil (hd : s.detached = []) (hh : s.handles = [])
    (hj : ∀ caller left, .halt caller (.join left) ∉ s.phases) : s.atWork = [] := by
  have hattached : s.attached = [] := by
    apply List.filter_eq_nil_iff.2
    intro u _ hu
    rcases Pool.isAttached_iff.1 hu with hu | ⟨caller, left, hl, -⟩
    · rw [hh] at hu
      cases hu
    · exact hj caller left hl
  apply List.eq_nil_of_length_eq_zero
  rw [Pool.length_atWork, hattached, hd]
  rfl

/-- Without workers every query that was taken is finished. -/
theorem Reachable.finished_of_taken (h : Reachable o w scripts s) (hidle : s.atWork = []) {i : Nat} {t : ThreadId}
    (ht : .taken i t ∈ s.log) : ∃ n answers, .notified i n ∈ s.log ∧ .returned i n answers ∈ s.log := by
  have ht : .taken i t ∈ s.history i := (Pool.mem_history (by exact beq_self_eq_true i)).2 ht
  obtain ⟨-, x, hx, hc⟩ := h.course (List.ne_nil_of_mem ht)
  -- nobody holds the query
  have free : ∀ u y, s.tokens i = single (some y) → y.holder? = some u → False := by
    intro u y hy hu
    obtain ⟨f, hf, hi⟩ := Pool.holder_mem_tokens.1 ⟨y, by rw [hy]; exact Multiset.mem_singleton_self y, hu⟩
    obtain ⟨p, hp⟩ := (h.ordered u).worker_of_held hf hi
    have hwork := Pool.mem_atWork.2 (h.isAtWork_of_mem hp)
    rw [hidle] at hwork
    cases hwork
  have mem : ∀ {e}, e.concerns i = true → e ∈ s.history i → e ∈ s.log := fun he hm => (Pool.mem_history he).1 hm
  generalize s.history i = es at ht hc mem
  cases hc with
  | executing u => exact (free u _ hx rfl).elim
  | delivering u o' => exact (free u _ hx rfl).elim
  | reporting u o' => exact (free u _ hx rfl).elim
  | finished u o' answers =>
    refine ⟨reportOf s.options.messageType i o', answers, mem ?_ (by simp), mem ?_ (by simp)⟩
    · exact beq_self_eq_true i
    · exact beq_self_eq_true i
  | drawn | waiting | dropping | dropped | losing | lost => simp at ht

/-- Nobody is at work: no worker counts itself, nobody executes a statement or runs a callback, and every
query that was taken was reported and its callback came back. -/
structure Pool.Unstaffed (s : Pool) : Prop where
  atWork : s.atWork = []
  live : s.live = 0
  busy : s.busy = []
  finished : ∀ i t, .taken i t ∈ s.log → ∃ n answers, .notified i n ∈ s.log ∧ .returned i n answers ∈ s.log

theorem Reachable.unstaffed (h : Reachable o w scripts s) (hidle : s.atWork = []) : s.Unstaffed where
  atWork := hidle
  live := by
    have := h.live_le
    rw [hidle] at this
    exact Nat.le_zero.1 this
  busy := by
    have := h.busy_le
    rw [hidle] at this
    exact List.length_eq_zero_iff.1 (Nat.le_zero.1 this)
  finished _ _ ht := h.finished_of_taken hidle ht

/-- A worker that is about to leave still counts itself. -/
theorem Reachable.live_pos (h : Reachable o w scripts s) {t : ThreadId} {rest : List Frame}
    (ht : s.framesOf t = .worker .leave :: rest) : 0 < s.live := by
  rw [h.live_eq, Pool.total_cons ht]
  exact Nat.lt_of_lt_of_le Nat.zero_lt_one (Nat.le_add_right _ _)

/-! ## Runs without calls on workers -/

namespace Pool

/-- A step before the flag is set, in a run in which no worker calls `start` or `terminate`. -/
def CalmlyOn (_ : Pool) (f : Frame) (s' : Pool) : Prop := s'.Calm ∧ f.setsStop = false

/-- A step before the next start, in such a run. -/
def CalmlyOff (s : Pool) (f : Frame) (s' : Pool) : Prop := s'.Calm ∧ s.BeforeStart f s'

instance (s : Pool) (f : Frame) (s' : Pool) : Decidable (s.CalmlyOn f s') :=
  inferInstanceAs (Decidable (s'.Calm ∧ f.setsStop = false))

instance (s : Pool) (f : Frame) (s' : Pool) : Decidable (s.CalmlyOff f s') :=
  inferInstanceAs (Decidable (s'.Calm ∧ s.BeforeStart f s'))

end Pool

namespace ReachableWhile

/-- While no worker was told to stop, as many workers count themselves as the options ask for. -/
theorem live_eq_of_complete (h : ReachableWhile Pool.Calm o w scripts s)
    (hc : 0 < o.maxThreads.toNat → s.Complete o.maxThreads.toNat) : s.live = o.maxThreads.toNat := by
  have hle : s.live ≤ o.maxThreads.toNat := by
    have hattached := h.reachable.options ▸ Pool.length_attached_le h.reachable.staged
    have hwork := h.reachable.live_le
    rw [Pool.length_atWork, h.detached_eq_nil, List.length_nil, Nat.add_zero] at hwork
    exact hwork.trans hattached
  rcases Nat.eq_zero_or_pos o.maxThreads.toNat with hn | hn
  · omega
  · obtain ⟨hh, hs, hf, -⟩ := hc hn
    exact Nat.le_antisymm hle (h.reachable.live_of_started hh hs hf)

/-- As long as no worker calls `start` or `terminate`: from the moment when a call of `start` comes back
until the flag is set, exactly as many workers count themselves as the options ask for, and from the moment
when a call of `terminate` gives its lock back until the next start nobody is at work. A worker that takes
itself off the count has been on it. -/
theorem staffed (h : ReachableWhile Pool.Calm o w scripts s) :
    (∀ s' s'', s.Starts s' → s'.Calm → Leads Pool.CalmlyOn s' s'' → s''.live = o.maxThreads.toNat) ∧
    (∀ s' s'', s.Terminates s' → s'.Calm → Leads Pool.CalmlyOff s' s'' → s''.Unstaffed) ∧
    ∀ t rest, s.framesOf t = .worker .leave :: rest → 0 < s.live := by
  refine ⟨?_, ?_, fun t rest ht => h.reachable.live_pos ht⟩
  · intro s' s'' hs hcalm hl
    have h' : ReachableWhile Pool.Calm o w scripts s' := by
      obtain ⟨t, target, rest, -, hstep, -⟩ := hs
      exact h.next (.run t target) hstep hcalm
    refine (hl.reachableWhile h' fun _ _ _ hp => hp.1).live_eq_of_complete fun hn => ?_
    exact hl.keeps (hs.complete h.reachable) fun _ hc hp ht ha => Pool.act_complete hn ht ha hp.2 hc
  · intro s' s'' hs hcalm hl
    have h' : ReachableWhile Pool.Calm o w scripts s' := by
      obtain ⟨t, target, p, rest, -, -, hstep, -⟩ := hs
      exact h.next (.run t target) hstep hcalm
    have h'' := hl.reachableWhile h' fun _ _ _ hp => hp.1
    -- no call of `start` begins, so there are no handles and nobody is joined
    obtain ⟨hdormant, hphases⟩ := hs.dormant h.reachable
    have hkept : s''.Dormant ∧ ∀ caller left, .halt caller (.join left) ∉ s''.phases := by
      refine hl.keeps (Q := fun a => a.Dormant ∧ ∀ caller left, .halt caller (.join left) ∉ a.phases) ?_ ?_
      · exact ⟨hdormant, by simp [hphases]⟩
      · rintro a t f rest fs a₁ hla ⟨hd, hj⟩ hp ht ha
        have htell := (hla.reachable h'.reachable).telling
        exact ⟨Pool.act_dormant ht ha hp.2 hd, Pool.act_not_joining htell hd ht ha hj⟩
    exact h''.reachable.unstaffed (Pool.atWork_eq_nil h''.detached_eq_nil hkept.1.handles hkept.2)

end ReachableWhile

/-- A query whose statement panics and whose callback panics, between a start and its end. -/
def panicsTwice : List (List Action) := [[.start, .submit (.panic "oh") .empty [.panic] [] false, .terminate]]

theorem staffed_of_panics :
    ∃ s₁ s₂ s₃ s₄ s₅ s₆ s₇,
      (Pool.initial .standard ⟨[], [], [], []⟩ panicsTwice).runWhile Pool.Calm (stepsOf 0 5 ++ stepsOf 1 2) = some s₁ ∧
      s₁.Starts s₂ ∧ s₂.runThrough Pool.CalmlyOn (stepsOf 0 3 ++ stepsOf 1 15 ++ stepsOf 0 3) = some s₃ ∧
      s₃.live = 1 ∧ s₃.notifications.map Notification.isSuccess = [false] ∧
      s₃.runWhile Pool.Calm (stepsOf 0 2 ++ stepsOf 1 2) = some s₄ ∧
      s₄.framesOf 1 = [.worker .leave] ∧ 0 < s₄.live ∧
      s₄.runWhile Pool.Calm (stepsOf 1 2 ++ stepsOf 0 2) = some s₅ ∧
      s₅.Terminates s₆ ∧ s₆.runThrough Pool.CalmlyOff (stepsOf 0 1) = some s₇ ∧ s₇.Unstaffed := by
  obtain ⟨s₁, s₂, s₃, s₄, s₅, s₆, s₇, h₁, hstart, hcalm₂, h₃, hnote, h₄, hleave, h₅, hend, hcalm₆, h₇⟩ :
      ∃ s₁ s₂ s₃ s₄ s₅ s₆ s₇,
      (Pool.initial .standard ⟨[], [], [], []⟩ panicsTwice).runWhile Pool.Calm (stepsOf 0 5 ++ stepsOf 1 2) = some s₁ ∧
      s₁.Starts s₂ ∧ s₂.Calm ∧
      s₂.runThrough Pool.CalmlyOn (stepsOf 0 3 ++ stepsOf 1 15 ++ stepsOf 0 3) = some s₃ ∧
      s₃.notifications.map Notification.isSuccess = [false] ∧
      s₃.runWhile Pool.Calm (stepsOf 0 2 ++ stepsOf 1 2) = some s₄ ∧ s₄.framesOf 1 = [.worker .leave] ∧
      s₄.runWhile Pool.Calm (stepsOf 1 2 ++ stepsOf 0 2) = some s₅ ∧
      s₅.Terminates s₆ ∧ s₆.Calm ∧ s₆.runThrough Pool.CalmlyOff (stepsOf 0 1) = some s₇ :=
    ⟨_, _, _, _, _, _, _, rfl, ⟨0, none, _, rfl, rfl, rfl⟩, by decide, rfl, rfl, rfl, rfl, rfl,
      ⟨0, none, _, _, rfl, by decide, rfl, rfl⟩, by decide, rfl⟩
  have hon : Leads Pool.CalmlyOn s₂ s₃ := Leads.refl.runThrough h₃
  have hoff : Leads Pool.CalmlyOff s₆ s₇ := Leads.refl.runThrough h₇
  have w₁ := (ReachableWhile.initial (by decide)).runWhile h₁
  have w₃ : ReachableWhile Pool.Calm .standard ⟨[], [], [], []⟩ panicsTwice s₃ := by
    obtain ⟨t, target, rest, -, hstep, -⟩ := id hstart
    exact hon.reachableWhile (w₁.next (.run t target) hstep hcalm₂) fun _ _ _ hp => hp.1
  have w₄ := w₃.runWhile h₄
  refine ⟨s₁, s₂, s₃, s₄, s₅, s₆, s₇, h₁, hstart, h₃, ?_, hnote, h₄, hleave, ?_, h₅, hend, h₇, ?_⟩
  · exact w₁.staffed.1 s₂ s₃ hstart hcalm₂ hon
  · exact w₄.staffed.2.2 1 [] hleave
  · exact (w₄.runWhile h₅).staffed.2.1 s₆ s₇ hend hcalm₆ hoff

end StatementPool
