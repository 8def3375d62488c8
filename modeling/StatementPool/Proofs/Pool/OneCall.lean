import StatementPool.Proofs.Pool.Stopping
/-!
# One call at a time

In the runs of this module at most one call of `start`, `terminate` or a submission is in progress at a time,
and none is made by a worker (`Pool.OneAtATime`). What the pool does besides the call leaves the handles and
the flag alone, and changes the queue only by taking its first query (`Pool.Spares`). So what a call does is
what its own steps do (`Leads.call`), and each call keeps a contract from the moment when it is made until it
comes back.
-/

namespace StatementPool

/-! ## Calls in progress -/

/-- The thread of a frame that is a call of `start` or `terminate` or a submission. -/
def callsIn (t : ThreadId) : Frame → Multiset ThreadId
  | .push _ | .notify _ | .start _ | .terminate _ | .halt .. | .discard .. | .retire => {t}
  | _ => 0

theorem steady_callsIn : Steady callsIn where
  answers _ _ _ _ _ _ := rfl
  parked _ := rfl

theorem isClosed_of_callsIn {t : ThreadId} {f : Frame} (h : callsIn t f = {t}) : f.isClosed = true := by
  cases f with
  | script | worker => simp [callsIn] at h
  | _ => rfl

theorem phasesIn_eq_zero {t : ThreadId} {f : Frame} (h : callsIn t f = 0) : phasesIn t f = 0 := by
  cases f with
  | start | terminate | halt => simp [callsIn] at h
  | _ => rfl

namespace Pool

/-- The threads that are making a call. -/
def calls (s : Pool) : Multiset ThreadId := s.total callsIn

/-- At most one call is in progress, and no worker makes it. -/
def OneAtATime (s : Pool) : Prop := s.calls.card ≤ 1 ∧ ∀ t ∈ s.calls, s.isWorker t = false

instance : DecidablePred OneAtATime := fun s =>
  inferInstanceAs (Decidable (s.calls.card ≤ 1 ∧ ∀ t ∈ s.calls, s.isWorker t = false))

variable {s s' s'' s₁ : Pool} {t u : ThreadId} {f g b : Frame} {rest fs above below : List Frame}

theorem OneAtATime.calm (h : s.OneAtATime) : s.Calm := by
  intro t _ hw f hf
  by_contra hl
  have hmem : t ∈ s.calls := by
    refine mem_total.2 ⟨t, f, hf, ?_⟩
    cases f with
    | start | terminate | halt => exact Multiset.mem_singleton_self t
    | _ => exact absurd rfl hl
  cases hw.symm.trans (h.2 t hmem)

/-- While a call is in progress, there is no other one, neither on the same thread nor on another one. -/
theorem OneAtATime.alone (h : s.OneAtATime) (ht : s.framesOf t = above ++ b :: below) (hb : callsIn t b = {t}) :
    (∀ g ∈ above, callsIn t g = 0) ∧ (∀ g ∈ below, callsIn t g = 0) ∧ s.others t callsIn = 0 := by
  have hlt : t < s.threads.length := lt_of_mem_framesOf (f := b) (by simp [ht])
  have hcard := h.1
  have hstack : stackWeight (callsIn t) (above ++ b :: below) =
      stackWeight (callsIn t) above + ({t} + stackWeight (callsIn t) below) := by
    simp [stackWeight, hb]
  rw [calls, total_eq hlt, ht, hstack] at hcard
  simp only [Multiset.card_add, Multiset.card_singleton] at hcard
  have zero : ∀ {gs : List Frame}, (stackWeight (callsIn t) gs).card = 0 → ∀ g ∈ gs, callsIn t g = 0 := by
    intro gs hz g hg
    have hnil := Multiset.card_eq_zero.1 hz
    refine Multiset.eq_zero_of_forall_notMem fun v hv => ?_
    have hmem := mem_stackWeight.2 ⟨g, hg, hv⟩
    rw [hnil] at hmem
    cases hmem
  exact ⟨zero (by omega), zero (by omega), Multiset.card_eq_zero.1 (by omega)⟩

theorem OneAtATime.elsewhere (h : s.OneAtATime) (ht : s.framesOf t = above ++ b :: below) (hb : callsIn t b = {t})
    (hu : u ≠ t) (hg : g ∈ s.framesOf u) : callsIn u g = 0 :=
  others_eq_zero.1 (h.alone ht hb).2.2 u hu g hg

/-! ## What is left alone -/

/-- Between `s` and `s'` nothing is submitted or discarded. -/
structure Unfed (s s' : Pool) : Prop where
  submitted : passed [.submitted] s'.log = passed [.submitted] s.log
  discarded : s'.discarded = s.discarded

/-- Between `s` and `s'` the handles and the flag stay as they are, nothing is submitted or discarded, and
queries leave the queue only at its front. -/
structure Spares (s s' : Pool) : Prop extends Unfed s s' where
  handles : s'.handles = s.handles
  stop : s'.stop = s.stop
  queue : s'.queue <:+ s.queue

theorem Unfed.refl (s : Pool) : s.Unfed s := ⟨rfl, rfl⟩

theorem Unfed.trans (h : s.Unfed s') (h' : s'.Unfed s'') : s.Unfed s'' :=
  ⟨h'.submitted.trans h.submitted, h'.discarded.trans h.discarded⟩

theorem Spares.refl (s : Pool) : s.Spares s := ⟨.refl s, rfl, rfl, List.suffix_refl _⟩

theorem Spares.trans (h : s.Spares s') (h' : s'.Spares s'') : s.Spares s'' where
  toUnfed := h.toUnfed.trans h'.toUnfed
  handles := h'.handles.trans h.handles
  stop := h'.stop.trans h.stop
  queue := h'.queue.trans h.queue

/-- Whatever is no call, and dropping queries that are out of the queue, leaves all this alone. -/
theorem act_spares (hf : callsIn t f = 0 ∨ ∃ left a, f = .discard left a) (ha : Act s t rest f fs s₁) :
    s.Spares (s₁.setFrames t fs) := by
  have call : ∀ {f : Frame}, callsIn t f = {t} → (∀ left a, f ≠ .discard left a) →
      (callsIn t f = 0 ∨ ∃ left a, f = .discard left a) → False := by
    rintro f hc hn (hz | ⟨left, a, rfl⟩)
    · simp [hc] at hz
    · exact hn left a rfl
  cases ha
  case push | notifyNone | notifyOne | startLock | startBegin | startPanic | startRefused | spawn | spawned | spawnFails
    | started | abandoned | haltStop | haltWake | join | joined | startFailed | terminateLock | terminateIdle
    | terminateRunning | drain | retireEmpty | retire => exact (call rfl (by simp) hf).elim
  case take q queue hq =>
    exact ⟨⟨by simp [passed_cons, Event.milestone?], by simp [discarded, passed_cons, Event.milestone?]⟩, rfl, rfl,
      hq ▸ List.suffix_cons q queue⟩
  case exitLast => exact ⟨⟨rfl, rfl⟩, rfl, rfl, List.nil_suffix⟩
  case execute => exact ⟨⟨by simp, by simp [discarded]⟩, rfl, rfl, List.suffix_refl _⟩
  all_goals
    exact ⟨⟨by simp [passed_cons, Event.milestone?], by simp [discarded, passed_cons, Event.milestone?]⟩, rfl, rfl,
      List.suffix_refl _⟩

/-! ## From a call to its return -/

/-- A step of a run with one call at a time, before the call that thread `t` made on its frames `rest` comes
back. -/
def During (t : ThreadId) (rest : List Frame) (s : Pool) (f : Frame) (s' : Pool) : Prop :=
  s'.OneAtATime ∧ Within t rest s f s'

instance (t : ThreadId) (rest : List Frame) (s : Pool) (f : Frame) (s' : Pool) : Decidable (During t rest s f s') :=
  inferInstanceAs (Decidable (s'.OneAtATime ∧ Within t rest s f s'))

/-- Between `s` and `s'`, the call that thread `t` makes on its frames `rest` comes back, and it is the only
one. -/
def Serves (t : ThreadId) (rest : List Frame) (s s' : Pool) : Prop :=
  ∃ a, Leads (During t rest) s a ∧ Returns t rest a s' ∧ s'.OneAtATime

/-- A call comes back by a step of its own. -/
theorem Returns.own (h : Returns t rest s s') (ht : s.framesOf t = f :: rest) (hf : callsIn t f = {t}) :
    ∃ fs s₁, Act s t rest f fs s₁ ∧ s' = s₁.setFrames t fs ∧ s'.framesOf t = fs ∧ fs.length ≤ rest.length := by
  obtain ⟨l, hn, -, hlen⟩ := h
  obtain ⟨g, below, fs, s₁, hg, ha, rfl⟩ := next_steps hn
  by_cases e : t = l.thread
  · subst e
    cases ht.symm.trans hg
    have after := framesOf_act hg ha
    exact ⟨fs, s₁, ha, rfl, after, after ▸ hlen⟩
  · rw [act_elsewhere_first e ht (isClosed_of_callsIn hf) ha] at hlen
    simp at hlen

/-- While a call is in progress, a step is one of the call itself, or it leaves alone what the call is about. -/
theorem OneAtATime.act (h : s.OneAtATime) (ht : s.framesOf t = b :: rest) (hb : callsIn t b = {t})
    (hu : s.framesOf u = f :: below) (ha : Act s u below f fs s₁) :
    (t = u ∧ b = f ∧ rest = below ∧ (s₁.setFrames u fs).framesOf t = fs) ∨
      ((s₁.setFrames u fs).framesOf t = b :: rest ∧ s.Spares (s₁.setFrames u fs)) := by
  by_cases e : t = u
  · subst e
    cases ht.symm.trans hu
    exact .inl ⟨rfl, rfl, rfl, framesOf_act hu ha⟩
  · have hfirst : s.framesOf t = [] ++ b :: rest := ht
    have hother := h.elsewhere hfirst hb (Ne.symm e) (hu ▸ List.mem_cons_self : f ∈ s.framesOf u)
    exact .inr ⟨act_elsewhere_first e ht (isClosed_of_callsIn hb) ha, act_spares (.inl hother) ha⟩

end Pool

namespace Leads

variable {o : Options} {w : World} {scripts : List (List Action)} {s s' : Pool} {t : ThreadId} {f : Frame}
variable {rest : List Frame}

theorem oneAtATime (h : Leads (Pool.During t rest) s s') (hs : s.OneAtATime) : s'.OneAtATime := by
  cases h with
  | refl => exact hs
  | next _ _ _ _ hp => exact hp.1

/-- What a call knows of itself holds until it comes back, if its own steps keep it and it does not depend on
anything that the rest of the pool changes. -/
theorem call {Q : Frame → Pool → Prop} (hs : s.framesOf t = f :: rest) (hone : s.OneAtATime) (first : Q f s)
    (calls : ∀ {g a}, Q g a → callsIn t g = {t})
    (own : ∀ {a g fs a₁}, Leads (Pool.During t rest) s a → Q g a → a.framesOf t = g :: rest →
      Pool.Act a t rest g fs a₁ → rest.length < fs.length → ∃ g', fs = g' :: rest ∧ Q g' (a₁.setFrames t fs))
    (others : ∀ {a b g}, Q g a → a.Spares b → Q g b) (h : Leads (Pool.During t rest) s s') :
    ∃ g, s'.framesOf t = g :: rest ∧ Q g s' := by
  refine h.keeps (Q := fun a => ∃ g, a.framesOf t = g :: rest ∧ Q g a) ⟨f, hs, first⟩ ?_
  rintro a u f' below fs a₁ hl ⟨g, hg, hq⟩ hp hu hact
  rcases (hl.oneAtATime hone).act hg (calls hq) hu hact with ⟨rfl, rfl, rfl, after⟩ | ⟨after, hsame⟩
  · obtain ⟨g', rfl, hq'⟩ := own hl hq hu hact (after ▸ hp.2)
    exact ⟨g', after, hq'⟩
  · exact ⟨g, after, others hq hsame⟩

end Leads

/-! ## A pool that is not taken down -/

namespace Pool

variable {s s' s₁ : Pool} {t u : ThreadId} {f b : Frame} {rest fs : List Frame}

theorem mem_giveAnswer_of_closed (hb : b.isClosed = true) {a : Answer} {gs : List Frame} (h : b ∈ giveAnswer a gs) :
    b ∈ gs := by
  unfold giveAnswer at h
  split at h
  · rcases List.mem_cons.1 h with rfl | h
    · cases hb
    · exact List.mem_cons_of_mem _ h
  · exact h

theorem leaving_retire {owners owns owners'} (hl : Leaving owners rest owns owners' fs) (h : .retire ∈ fs) :
    .retire ∈ rest ∨ ∃ below, fs = .terminate .lock :: .retire :: below := by
  cases hl with
  | keep => exact .inl h
  | share => exact .inl (mem_giveAnswer_of_closed rfl h)
  | last => exact .inr ⟨rest, rfl⟩

/-- Only whoever gives up the last handle takes the pool down, after a call of `terminate`. -/
theorem act_retire (ha : Act s t rest f fs s₁) (h : .retire ∈ fs) :
    .retire ∈ rest ∨ ∃ below, fs = .terminate .lock :: .retire :: below := by
  cases ha
  case returned hl | dropped hl => exact leaving_retire hl h
  case release hl => exact (leaving_retire hl h).imp_left fun h => by simpa using h
  case notifyNone | notifyOne | startPanic | startRefused | started | startFailed | terminateIdle | terminateReturn
    | discardEnd | retire => exact .inl (mem_giveAnswer_of_closed rfl h)
  case exit => exact .inl h
  all_goals exact .inl (by simpa using h)

end Pool

variable {o : Options} {w : World} {scripts : List (List Action)} {s s' : Pool}

/-- With one call at a time, the pool is not taken down: the call that ends it would be two. -/
theorem ReachableWhile.not_retired (h : ReachableWhile Pool.OneAtATime o w scripts s) :
    s.retired = false ∧ ∀ t, .retire ∉ s.framesOf t := by
  induction h with
  | initial =>
    refine ⟨rfl, fun t ht => ?_⟩
    rcases framesOf_initial o w scripts t with e | ⟨actions, e⟩ <;> simp [e] at ht
  | next l _ hn hone ih =>
    obtain ⟨hr, hno⟩ := ih
    obtain ⟨f, rest, fs, s₁, ht, ha, rfl⟩ := Pool.next_steps hn
    have hf : f ≠ .retire := by
      rintro rfl
      exact hno _ (ht ▸ List.mem_cons_self)
    refine ⟨?_, fun u => ?_⟩
    · cases ha
      case retireEmpty | retire => exact absurd rfl hf
      all_goals exact hr
    · refine Pool.act_threadwise (P := fun gs => .retire ∉ gs) ha ht hno ?_ ?_ (by simp) u
      · intro hmem
        rcases Pool.act_retire ha hmem with hmem | ⟨below, rfl⟩
        · exact hno _ (ht ▸ List.mem_cons_of_mem _ hmem)
        · have hfirst : (s₁.setFrames l.thread (.terminate .lock :: .retire :: below)).framesOf l.thread =
              [] ++ .terminate .lock :: .retire :: below := Pool.framesOf_act ht ha
          have hzero := (hone.alone hfirst rfl).2.1 .retire List.mem_cons_self
          simp [callsIn] at hzero
      · intro gs hgs hmem
        unfold Pool.wokenFrames at hmem
        split at hmem
        · exact hgs (by simpa using hmem)
        · exact hgs hmem

/-- Between `s` and `s'` queries leave the queue only because workers take them, the first ones first. -/
def Pool.OnlyTaken (s s' : Pool) : Prop := ∃ es, s'.log = s.log ++ es ∧ s.waiting = passed [.taken] es ++ s'.waiting

theorem Pool.Unfed.onlyTaken {P : Pool → Frame → Pool → Prop} (h : s.Unfed s') (hr : Reachable o w scripts s)
    (hl : Leads P s s') (hret : s'.retired = false) : s.OnlyTaken s' := by
  obtain ⟨es, hes, hqueue⟩ := hl.queue_kept hr hret h.discarded
  rw [passed_eq_nil hes h.submitted, List.append_nil] at hqueue
  exact ⟨es, hes, hqueue⟩

/-! ## A stopped pool -/

namespace Pool

variable {s₁ : Pool} {t : ThreadId} {f : Frame} {rest fs : List Frame}

/-- There are no handles, and calls of `start` and `terminate` have at most got as far as to look at these. -/
structure Stopped (s : Pool) : Prop where
  handles : s.handles = []
  looking : ∀ p ∈ s.phases, p = .start .check ∨ p = .terminate .check

theorem act_stopped (ht : s.framesOf t = f :: rest) (ha : Act s t rest f fs s₁)
    (hb : f.looksForHandles = true → s.handles ≠ []) (h : s.Stopped) : (s₁.setFrames t fs).Stopped := by
  have looks : ∀ {p}, phasesIn t f = {p} → p = .start .check ∨ p = .terminate .check := fun hp =>
    h.looking _ (mem_phases_before ht (by simp [hp]))
  constructor
  · cases ha
    case spawn k _ => simpa using looks (p := .start (.spawn k)) rfl
    case haltWake => rfl
    all_goals exact h.handles
  · intro p hp
    rcases act_mem_phases ht ha hp with hp | hnext
    · exact h.looking p (mem_phases_below ht hp)
    · cases hnext with
      | started => exact .inl rfl
      | terminated => exact .inr rfl
      | begun he => exact absurd he (hb rfl)
      | stops he => exact absurd h.handles he
      | spawned | awaits => simpa using looks (p := .start (.spawn _)) rfl
      | abandons => simpa using looks (p := .start (.wait _)) rfl
      | wakes => simpa using looks (p := .halt _ .stop) rfl
      | joins => simpa using looks (p := .halt _ .wake) rfl
      | joined => simpa using looks (p := .halt _ (.join _)) rfl
      | drains => simpa using looks (p := .halt .terminate (.join [])) rfl

/-- A step of a run with one call at a time, before the next start. -/
def Resting (s : Pool) (f : Frame) (s' : Pool) : Prop := s'.OneAtATime ∧ s.BeforeStart f s'

instance (s : Pool) (f : Frame) (s' : Pool) : Decidable (s.Resting f s') :=
  inferInstanceAs (Decidable (s'.OneAtATime ∧ s.BeforeStart f s'))

end Pool

theorem ReachableWhile.calm (h : ReachableWhile Pool.OneAtATime o w scripts s) :
    ReachableWhile Pool.Calm o w scripts s := by
  induction h with
  | initial hp => exact .initial hp.calm
  | next l _ hn hp ih => exact .next l ih hn hp.calm

/-- A stopped pool has no workers. -/
theorem ReachableWhile.atWork_of_stopped (h : ReachableWhile Pool.OneAtATime o w scripts s) (hs : s.Stopped) :
    s.atWork = [] := by
  refine Pool.atWork_eq_nil h.calm.detached_eq_nil hs.handles fun caller left hl => ?_
  simpa using hs.looking _ hl

/-- Until the next start a stopped pool keeps what waits in its queue, in order, and puts what is submitted
behind it. -/
theorem ReachableWhile.keeps_queue (h : ReachableWhile Pool.OneAtATime o w scripts s) (hs : s.Stopped)
    (hl : Leads Pool.Resting s s') :
    s'.Stopped ∧ ∃ es, s'.log = s.log ++ es ∧ s'.waiting = s.waiting ++ passed [.submitted] es := by
  -- there is no worker that takes a query, and no call that discards the queries
  have inv : s'.Stopped ∧ ∃ es, s'.log = s.log ++ es ∧ passed [.taken, .discarded] es = [] := by
    refine hl.keeps (Q := fun a => a.Stopped ∧ ∃ es, a.log = s.log ++ es ∧ passed [.taken, .discarded] es = [])
      ⟨hs, [], (List.append_nil _).symm, rfl⟩ ?_
    rintro a t f rest fs a₁ hl ⟨ha, es, hes, hnil⟩ hp ht hact
    have hra := hl.reachableWhile h fun _ _ _ hp => hp.1
    refine ⟨Pool.act_stopped ht hact hp.2 ha, ?_⟩
    obtain ⟨more, hmore, hcases⟩ := Pool.act_log hact
    refine ⟨es ++ more, by rw [Pool.log_setFrames, hmore, hes, List.append_assoc], ?_⟩
    rw [passed_append, hnil, List.nil_append]
    have htaken : passed [.taken] more = [] := by
      rcases hcases with hno | ⟨i, later, -, -, rfl⟩
      · exact passed_taken_eq_nil hno
      · have hwork := Pool.mem_atWork.2 (hra.reachable.isAtWork_of_mem (ht ▸ List.mem_cons_self))
        rw [hra.atWork_of_stopped ha] at hwork
        cases hwork
    have hdiscarded : passed [.discarded] more = [] := by
      have hf : f ≠ .terminate .drain := by
        rintro rfl
        simpa using ha.looking (.terminate .drain) (Pool.mem_phases_before ht (by simp [phasesIn]))
      exact passed_eq_nil hmore (Pool.act_discarded hact hf)
    have hgone : passed [.taken, .discarded] more = passed [.taken] more :=
      passed_congr fun k => by cases k <;> simp [hdiscarded]
    rw [hgone, htaken]
  obtain ⟨hs', es, hes, hnil⟩ := inv
  have hret := (hl.reachableWhile h fun _ _ _ hp => hp.1).not_retired.1
  have hqueue := hl.queue h.reachable hret hes
  rw [hnil] at hqueue
  exact ⟨hs', es, hes, hqueue.symm⟩

end StatementPool
