import StatementPool.Proofs.Pool.Calls
/-!
# What is still taken when a pool is told to stop

A call of `terminate` sets the flag without the lock of the queue, so the flag can be set between the
moment when a worker looks at it and the moment when the worker takes a query. `Reachable.stop_bound` says
that this is all that can happen: at most one more query is taken until the next start, by the worker that
had the lock of the queue when the flag was set; none is taken once the call has woken the workers; and what
waits then, with all that is submitted until the call empties the queue, is discarded and counted.
-/

namespace StatementPool

namespace Pool

variable {s s' s₁ : Pool} {t u : ThreadId} {f : Frame} {rest fs below : List Frame}
variable {o : Options} {w : World} {scripts : List (List Action)}

/-! ## The worker that has looked at the flag -/

/-- A worker has seen that the flag is not set, and takes the first query next. -/
def TakesNext (s : Pool) (t : ThreadId) : Prop := ∃ rest, s.framesOf t = .worker .take :: rest

theorem TakesNext.queueHolder (hr : Reachable o w scripts s) (h : s.TakesNext t) : s.queueHolder = some t :=
  let ⟨rest, h⟩ := h
  hr.queueHolder_iff.2 ⟨rest, .inr h⟩

/-- While the flag is set, nobody decides to take a query. -/
theorem act_takesNext (hr : Reachable o w scripts s) (hs : s.stop = true) (ht : s.framesOf t = f :: rest)
    (ha : Act s t rest f fs s₁) (h : (s₁.setFrames t fs).TakesNext u) : u ≠ t ∧ s.TakesNext u := by
  obtain ⟨urest, hu⟩ := h
  by_cases e : u = t
  · subst e
    rw [framesOf_act ht ha] at hu
    subst hu
    have hheap := hr.heaped u
    rw [ht] at hheap
    rcases act_mayPark ha List.mem_cons_self rfl with hg | ⟨-, hs'⟩ | ⟨rfl, -⟩
    · cases hheap _ hg
    · cases hs.symm.trans hs'
    · cases ha
  · refine ⟨e, urest, ?_⟩
    rw [framesOf_setFrames_ne e] at hu
    rcases act_framesOf ha u with e | e | ⟨-, e, -⟩
    · exact e ▸ hu
    · rw [e] at hu
      unfold wokenFrames at hu
      split at hu
      · cases hu
      · exact hu
    · rw [e] at hu
      cases hu

end Pool

theorem passed_taken_eq_nil {es : List Event} (h : ∀ i u, .taken i u ∉ es) : passed [.taken] es = [] := by
  refine List.filterMap_eq_nil_iff.2 fun e he => ?_
  cases e with
  | taken i u => exact absurd he (h i u)
  | _ => rfl

/-- While the flag is set, at most one query is taken, by the worker that was about to take one. -/
theorem Leads.taken_of_stop {o : Options} {w : World} {scripts : List (List Action)} {s s' : Pool}
    (hr : Reachable o w scripts s) (hs : s.stop = true) (h : Leads Pool.BeforeStart s s') :
    ∃ es, s'.log = s.log ++ es ∧ (passed [.taken] es).length ≤ 1 ∧
      ∀ i u, .taken i u ∈ es → s.TakesNext u ∧ s.queueHolder = some u := by
  -- whoever takes a query next was going to at first, and nobody has taken one yet
  suffices hinv : s'.stop = true ∧ ∃ es, s'.log = s.log ++ es ∧ (passed [.taken] es).length ≤ 1 ∧
      (∀ i u, .taken i u ∈ es → s.TakesNext u) ∧
      ∀ u, s'.TakesNext u → s.TakesNext u ∧ passed [.taken] es = [] by
    obtain ⟨-, es, hl, hle, htaken, -⟩ := hinv
    exact ⟨es, hl, hle, fun i u hi => ⟨htaken i u hi, (htaken i u hi).queueHolder hr⟩⟩
  refine h.keeps (Q := fun a => a.stop = true ∧ ∃ es, a.log = s.log ++ es ∧ (passed [.taken] es).length ≤ 1 ∧
    (∀ i u, .taken i u ∈ es → s.TakesNext u) ∧ ∀ u, a.TakesNext u → s.TakesNext u ∧ passed [.taken] es = []) ?_ ?_
  · exact ⟨hs, [], (List.append_nil _).symm, Nat.zero_le _, by simp, fun u hu => ⟨hu, rfl⟩⟩
  · rintro a t f rest fs a₁ hl ⟨hstop, es, hes, hle, htaken, hnext⟩ hb ht ha
    have hra := hl.reachable hr
    refine ⟨Pool.act_stop_of_beforeStart ha hb hstop, ?_⟩
    obtain ⟨more, hmore, hcases⟩ := Pool.act_log ha
    refine ⟨es ++ more, by rw [Pool.log_setFrames, hmore, hes, List.append_assoc], ?_⟩
    rcases hcases with hno | ⟨i, later, rfl, -, rfl⟩
    · have hnil := passed_taken_eq_nil hno
      refine ⟨by rw [passed_append, hnil, List.append_nil]; exact hle, ?_, ?_⟩
      · intro i u hi
        exact htaken i u ((List.mem_append.1 hi).resolve_right (hno i u))
      · intro u hu
        obtain ⟨-, hu⟩ := Pool.act_takesNext hra hstop ht ha hu
        obtain ⟨hu, he⟩ := hnext u hu
        exact ⟨hu, by rw [passed_append, he, hnil]; rfl⟩
    · obtain ⟨hmine, he⟩ := hnext t ⟨rest, ht⟩
      refine ⟨by rw [passed_append, he]; exact Nat.le_refl 1, ?_, ?_⟩
      · intro j u hj
        rcases List.mem_append.1 hj with hj | hj
        · exact htaken j u hj
        · cases List.mem_singleton.1 hj
          exact hmine
      · intro u hu
        -- two workers that are about to take a query would both have the lock of the queue
        obtain ⟨hne, hu⟩ := Pool.act_takesNext hra hstop ht ha hu
        have hboth := (hu.queueHolder hra).symm.trans (Pool.TakesNext.queueHolder hra ⟨rest, ht⟩)
        exact absurd (Option.some.inj hboth) hne

/-! ## The call of terminate that has the lock -/

/-- Whether a frame is a call of `terminate` that has the lock of the handles. -/
def Frame.terminates : Frame → Bool
  | .terminate .lock => false
  | .terminate _ | .halt .terminate _ => true
  | _ => false

namespace Pool

variable {s s' s₁ : Pool} {t u : ThreadId} {f : Frame} {rest fs below : List Frame}
variable {o : Options} {w : World} {scripts : List (List Action)}

/-- Thread `t` is in a call of `terminate` on its frames `rest`, and the call has the lock of the handles. -/
def Stops (t : ThreadId) (rest : List Frame) (s : Pool) : Prop :=
  ∃ f, f.terminates = true ∧ s.framesOf t = f :: rest

theorem Stops.not_drops {n : Nat} (h : s.Stops t rest) : ¬ s.Drops t rest n := by
  obtain ⟨f, hf, ht⟩ := h
  rintro ⟨above, left, e⟩
  have hlen := congrArg List.length (ht.symm.trans e)
  obtain rfl : above = [] := by simpa using hlen
  cases ht.symm.trans e
  cases hf

theorem isClosed_of_terminates (h : f.terminates = true) : f.isClosed = true := by
  cases f with
  | terminate | halt => rfl
  | _ => cases h

theorem phase_of_terminates (t : ThreadId) (h : f.terminates = true) : ∃ p, phasesIn t f = {p} := by
  cases f with
  | terminate p =>
    cases p with
    | lock => cases h
    | check | drain => exact ⟨_, rfl⟩
  | halt caller p => exact ⟨_, rfl⟩
  | _ => cases h

/-- The call goes on, or it has taken the queries to drop them, or it comes back because there is nothing to
stop. -/
theorem Stops.act (h : s.Stops u below) (ht : s.framesOf t = f :: rest) (ha : Act s t rest f fs s₁) :
    (s₁.setFrames t fs).Stops u below ∨
      (f = .terminate .drain ∧ (s₁.setFrames t fs).Drops u below s.queue.length) ∨
      (s.handles = [] ∧ (s₁.setFrames t fs).framesOf u = giveAnswer (.count 0) below) := by
  obtain ⟨g, hg, hu⟩ := h
  by_cases e : u = t
  · subst e
    cases ht.symm.trans hu
    have after := framesOf_act ht ha
    cases ha
    case terminateIdle he => exact .inr (.inr ⟨he, after⟩)
    case drain => exact .inr (.inl ⟨rfl, [], s.queue, after⟩)
    case haltStop caller | haltWake caller _ | join caller _ _ _ => exact .inl ⟨_, by cases caller <;> exact hg, after⟩
    case terminateRunning | joined => exact .inl ⟨_, rfl, after⟩
    all_goals cases hg
  · exact .inl ⟨g, hg, act_elsewhere_first e hu (isClosed_of_terminates hg) ha⟩

/-- While such a call goes on, nobody starts the pool and nobody else takes its queries to drop them. -/
theorem Stops.apart (hr : Reachable o w scripts s) (h : s.Stops u below) (ht : s.framesOf t = f :: rest)
    (ha : Act s t rest f fs s₁) (h' : (s₁.setFrames t fs).Stops u below) :
    f.looksForHandles = false ∧ f ≠ .terminate .drain := by
  obtain ⟨g, hg, hu⟩ := id h
  by_cases e : t = u
  · subst e
    cases ht.symm.trans hu
    constructor
    · cases f with
      | start p => cases hg
      | _ => rfl
    · rintro rfl
      cases ha with
      | drain hq => exact h'.not_drops ⟨[], s.queue, framesOf_act ht (.drain hq)⟩
  · obtain ⟨p, hp⟩ := phase_of_terminates u hg
    have hz := phase_unique hr.staged hu hp e (ht ▸ List.mem_cons_self : f ∈ s.framesOf t)
    constructor
    · by_contra hf
      rw [Bool.not_eq_false] at hf
      unfold Frame.looksForHandles at hf
      split at hf
      · simp [phasesIn] at hz
      · cases hf
    · rintro rfl
      simp [phasesIn] at hz

end Pool

namespace Leads

variable {o : Options} {w : World} {scripts : List (List Action)} {s s' : Pool} {t : ThreadId} {rest : List Frame}

theorem stops_or_drops (h : Leads (Pool.Within t rest) s s') (hs : s.Stops t rest) :
    s'.Stops t rest ∨ ∃ n, s'.Drops t rest n := by
  refine h.keeps (Q := fun a => a.Stops t rest ∨ ∃ n, a.Drops t rest n) (.inl hs) ?_
  rintro a u f below fs a₁ - ha hp hu hact
  have away : ∀ {n}, (a₁.setFrames u fs).framesOf t ≠ giveAnswer (.count n) rest := fun e => by
    rw [Pool.Within, e, length_giveAnswer] at hp
    exact Nat.lt_irrefl _ hp
  rcases ha with ha | ⟨n, ha⟩
  · rcases ha.act hu hact with h | ⟨-, h⟩ | ⟨-, e⟩
    · exact .inl h
    · exact .inr ⟨_, h⟩
    · exact absurd e away
  · rcases ha.act hu hact with h | ⟨-, e, -⟩
    · exact .inr ⟨n, h⟩
    · exact absurd e away

/-- A call of `terminate` that still has the lock has had it all the time. -/
theorem stops (h : Leads (Pool.Within t rest) s s') (hs : s.Stops t rest) (hs' : s'.Stops t rest) :
    Leads (fun _ _ b => b.Stops t rest) s s' := by
  induction h with
  | refl => exact .refl
  | next l hl hf hn hp ih =>
    refine .next l (ih ((hl.stops_or_drops hs).resolve_right ?_)) hf hn hs'
    rintro ⟨n, hd⟩
    exact hs'.not_drops ((Leads.refl.next l hf hn hp).drops hd)

/-- While a call of `terminate` has the lock, nobody starts the pool. -/
theorem beforeStart (hr : Reachable o w scripts s) (hs : s.Stops t rest)
    (h : Leads (fun _ _ b => b.Stops t rest) s s') : Leads Pool.BeforeStart s s' ∧ s'.Stops t rest := by
  induction h with
  | refl => exact ⟨.refl, hs⟩
  | @next a b f l hl hf hn hp ih =>
    obtain ⟨hl', ha⟩ := ih
    obtain ⟨u, below, fs, a₁, hu, hact, rfl⟩ := Pool.next_acting hf hn
    obtain ⟨hlook, -⟩ := ha.apart (hl.reachable hr) hu hact hp
    exact ⟨hl'.next l hf hn fun e => absurd e (by simp [hlook]), hp⟩

end Leads

/-- Only a call of `terminate` that empties the queue discards queries. -/
theorem Pool.act_discarded {s s₁ : Pool} {t : ThreadId} {f : Frame} {rest fs : List Frame}
    (ha : Act s t rest f fs s₁) (hf : f ≠ .terminate .drain) : s₁.discarded = s.discarded := by
  unfold discarded
  cases ha
  case drain => exact absurd rfl hf
  case execute => simp
  all_goals simp [passed_cons, Event.milestone?]

/-- A thread that has finished stays so. -/
theorem Pool.act_isFinished {s s₁ : Pool} {t u : ThreadId} {f : Frame} {rest fs : List Frame}
    (ht : s.framesOf t = f :: rest) (ha : Act s t rest f fs s₁) (hlt : u < s.threads.length)
    (hu : s.isFinished u = true) : (s₁.setFrames t fs).isFinished u = true := by
  have hu : s.framesOf u = [] := List.isEmpty_iff.1 hu
  have hne : u ≠ t := by
    rintro rfl
    cases ht.symm.trans hu
  apply List.isEmpty_iff.2
  rw [framesOf_setFrames_ne hne]
  rcases act_framesOf ha u with e | e | ⟨rfl, -⟩
  · rw [e, hu]
  · rw [e, hu]; rfl
  · exact absurd hlt (Nat.lt_irrefl _)

namespace Leads

variable {o : Options} {w : World} {scripts : List (List Action)} {s s' : Pool} {t : ThreadId} {rest : List Frame}

/-- While a call of `terminate` has the lock, nothing is discarded. -/
theorem discarded_of_stops (hr : Reachable o w scripts s) (hs : s.Stops t rest)
    (h : Leads (fun _ _ b => b.Stops t rest) s s') : s'.discarded = s.discarded := by
  refine (h.keeps (Q := fun a => a.Stops t rest ∧ a.discarded = s.discarded) ⟨hs, rfl⟩ ?_).2
  rintro a u f below fs a₁ hl ⟨ha, hd⟩ hp hu hact
  obtain ⟨-, hdrain⟩ := ha.apart (hl.reachable hr) hu hact hp
  exact ⟨hp, (Pool.act_discarded hact hdrain).trans hd⟩

/-- When a call of `terminate` has joined all workers, these have finished, but for the one that makes the
call. -/
theorem joined {handles : List ThreadId} (hlt : ∀ u ∈ handles, u < s.threads.length)
    (hs : s.framesOf t = .halt .terminate (.join handles) :: rest) (h : Leads (fun _ _ b => b.Stops t rest) s s')
    (hs' : s'.framesOf t = .terminate .drain :: rest) : ∀ u ∈ handles, u = t ∨ s'.isFinished u = true := by
  -- the call is still going to join the others
  have inv : (∀ u ∈ handles, u < s'.threads.length) ∧ ∃ left,
      (s'.framesOf t = .halt .terminate (.join left) :: rest ∨ (left = [] ∧ s'.framesOf t = .terminate .drain :: rest)) ∧
      ∀ u ∈ handles, u ∈ left ∨ u = t ∨ s'.isFinished u = true := by
    refine h.keeps (Q := fun a => (∀ u ∈ handles, u < a.threads.length) ∧ ∃ left,
      (a.framesOf t = .halt .terminate (.join left) :: rest ∨ (left = [] ∧ a.framesOf t = .terminate .drain :: rest)) ∧
      ∀ u ∈ handles, u ∈ left ∨ u = t ∨ a.isFinished u = true) ⟨hlt, handles, .inl hs, fun u hu => .inl hu⟩ ?_
    rintro a v f below fs a₁ - ⟨hlt, left, hleft, hall⟩ hp hv hact
    have kept : ∀ u ∈ handles, u ∈ left ∨ u = t ∨ (a₁.setFrames v fs).isFinished u = true := fun u hu =>
      (hall u hu).imp_right (Or.imp_right (Pool.act_isFinished hv hact (hlt u hu)))
    refine ⟨fun u hu => ?_, ?_⟩
    · rw [Pool.length_setFrames]
      exact Nat.lt_of_lt_of_le (hlt u hu) (Pool.act_length_le hact)
    · by_cases e : t = v
      · subst e
        have after := Pool.framesOf_act hv hact
        rcases hleft with hleft | ⟨rfl, hleft⟩
        · cases hv.symm.trans hleft
          cases hact with
          | joined => exact ⟨[], .inr ⟨rfl, after⟩, kept⟩
          | @join _ u left hu =>
            refine ⟨left, .inl after, fun v hv' => ?_⟩
            rcases kept v hv' with hmem | hdone
            · rcases List.mem_cons.1 hmem with rfl | hmem
              · refine .inr (hu.imp_right fun hfin => ?_)
                exact Pool.act_isFinished hv (.join hu) (hlt v hv') hfin
              · exact .inl hmem
            · exact .inr hdone
        · cases hv.symm.trans hleft
          cases hact with
          | drain hq => exact absurd ⟨[], a.queue, after⟩ hp.not_drops
      · refine ⟨left, ?_, kept⟩
        exact hleft.imp (Pool.act_elsewhere_first e · rfl hact) (And.imp_right (Pool.act_elsewhere_first e · rfl hact))
  obtain ⟨-, left, hleft, hall⟩ := inv
  rcases hleft with hleft | ⟨rfl, -⟩
  · cases hs'.symm.trans hleft
  · intro u hu
    exact (hall u hu).resolve_left (by simp)

end Leads

/-! ## The bound -/

/-- Between `s` and `s'`, a call of `terminate` that thread `t` makes on its frames `rest` takes the queries
`is` out of the queue: all that there are. They are discarded, and the call answers with their number when it
comes back. -/
structure Pool.Empties (t : ThreadId) (rest : List Frame) (is : List Nat) (s s' : Pool) : Prop where
  queue : s'.queue = []
  discarded : s'.log = s.log ++ is.map fun i => .discarded i t
  counted : ∀ a b, Leads (Pool.Within t rest) s' a → Pool.Returns t rest a b →
    b.framesOf t = giveAnswer (.count is.length) rest ∧ b.log = a.log ++ [.terminated t is.length]

/-- The last phase of a call of `terminate` that has the lock takes out whatever waits. -/
theorem Pool.empties {s s' : Pool} {t : ThreadId} {target : Option ThreadId} {rest : List Frame}
    (ht : s.framesOf t = .terminate .drain :: rest) (hs : s.step t target = some s') :
    Pool.Empties t rest s.waiting s s' := by
  obtain ⟨f, rest', fs, s₁, ht', ha, rfl⟩ := step_cases hs
  cases ht.symm.trans ht'
  cases ha with
  | drain hq =>
    refine ⟨rfl, by simp [waiting, Function.comp_def], fun a b hl hr => ?_⟩
    rw [waiting, List.length_map]
    exact hl.terminate_returns ⟨[], s.queue, framesOf_act ht (.drain hq)⟩ hr

variable {o : Options} {w : World} {scripts : List (List Action)} {s s₁ : Pool}

/-- After a call of `terminate` on a running pool has set the flag, and until the next start, at most one more
query is taken, by a worker that had seen the flag unset and had the lock of the queue; and after the call has
woken the workers none is taken. What waits then, at any moment until the call empties the queue, is discarded
and counted with what is submitted in the meantime, unless the pool is taken down during the call; and the call
empties the queue when all workers that it joins have finished. -/
theorem Reachable.stop_bound (h : Reachable o w scripts s) {t : ThreadId} {target : Option ThreadId}
    {rest : List Frame} (ht : s.framesOf t = .halt .terminate .stop :: rest) (hs : s.step t target = some s₁) :
    (∀ s', Leads Pool.BeforeStart s₁ s' → ∃ es, s'.log = s₁.log ++ es ∧ (passed [.taken] es).length ≤ 1 ∧
      ∀ i u, .taken i u ∈ es → s₁.TakesNext u ∧ s₁.queueHolder = some u) ∧
    ∀ s₂ s₃ target, Leads (Pool.Within t rest) s₁ s₂ → s₂.framesOf t = .halt .terminate .wake :: rest →
      s₂.step t target = some s₃ →
      (∀ s', Leads Pool.BeforeStart s₃ s' → ∃ es, s'.log = s₃.log ++ es ∧ passed [.taken] es = []) ∧
      ∀ s₄ s₅ s₆ target, Leads (Pool.Within t rest) s₃ s₄ → Leads (Pool.Within t rest) s₄ s₅ →
        s₅.framesOf t = .terminate .drain :: rest → s₅.step t target = some s₆ → s₅.retired = false →
        (∀ u ∈ s₂.handles, u = t ∨ s₅.isFinished u = true) ∧
        ∃ es, s₅.log = s₄.log ++ es ∧ Pool.Empties t rest (s₄.waiting ++ passed [.submitted] es) s₅ s₆ := by
  have h₁ : Reachable o w scripts s₁ := h.next (.run t target) hs
  have hstop : s₁.stop = true := by
    obtain ⟨f, rest', fs, a, ht', ha, rfl⟩ := Pool.step_cases hs
    cases ht.symm.trans ht'
    cases ha with
    | haltStop => rfl
  refine ⟨fun s' hl => hl.taken_of_stop h₁ hstop, ?_⟩
  intro s₂ s₃ target₂ hl₂ ht₂ hs₂
  have h₂ := hl₂.reachable h₁
  have h₃ : Reachable o w scripts s₃ := h₂.next (.run t target₂) hs₂
  obtain ⟨hq₃, hstop₃, ht₃⟩ : s₃.queueHolder = none ∧ s₃.stop = true ∧
      s₃.framesOf t = .halt .terminate (.join s₂.handles) :: rest := by
    have hstop₃ := (Pool.WakesAll.dormant h₂ ⟨t, target₂, .terminate, rest, ht₂, hs₂⟩).1
    obtain ⟨f, rest', fs, a, ht', ha, rfl⟩ := Pool.step_cases hs₂
    cases ht₂.symm.trans ht'
    cases ha with
    | haltWake hq => exact ⟨hq, hstop₃, Pool.framesOf_act ht₂ (.haltWake hq)⟩
  -- nobody has the lock of the queue when the workers are woken, so nobody takes a query afterwards
  have untaken : ∀ s', Leads Pool.BeforeStart s₃ s' → ∃ es, s'.log = s₃.log ++ es ∧ passed [.taken] es = [] := by
    intro s' hl
    obtain ⟨es, hes, -, htaken⟩ := hl.taken_of_stop h₃ hstop₃
    refine ⟨es, hes, passed_taken_eq_nil fun i u hi => ?_⟩
    cases hq₃.symm.trans (htaken i u hi).2
  refine ⟨untaken, ?_⟩
  intro s₄ s₅ s₆ target₅ hl₄ hl₅ ht₅ hs₅ hret
  have hstops₃ : s₃.Stops t rest := ⟨_, rfl, ht₃⟩
  have hstops₅ : s₅.Stops t rest := ⟨_, rfl, ht₅⟩
  have hstops₄ : s₄.Stops t rest := by
    refine (hl₄.stops_or_drops hstops₃).resolve_right ?_
    rintro ⟨n, hd⟩
    exact hstops₅.not_drops (hl₅.drops hd)
  have hl₃₅ := (hl₄.trans hl₅).stops hstops₃ hstops₅
  refine ⟨?_, ?_⟩
  · refine hl₃₅.joined (fun u hu => ?_) ht₃ ht₅
    exact Pool.lt_of_isWorker (h₃.joinsWorkers _ _ (Pool.mem_phases_halt.2 ⟨t, ht₃ ▸ List.mem_cons_self⟩) u hu)
  · obtain ⟨es, hes⟩ := hl₅.log
    refine ⟨es, hes, ?_⟩
    -- between the two moments nothing leaves the queue
    have htaken : passed [.taken] es = [] := by
      obtain ⟨early, hearly⟩ := hl₄.log
      obtain ⟨all, hall, hnil⟩ := untaken s₅ (hl₃₅.beforeStart h₃ hstops₃).1
      rw [hes, hearly, List.append_assoc, List.append_cancel_left_eq] at hall
      rw [← hall, passed_append, List.append_eq_nil_iff] at hnil
      exact hnil.2
    have hdiscarded : passed [.discarded] es = [] :=
      passed_eq_nil hes ((hl₅.stops hstops₄ hstops₅).discarded_of_stops (hl₄.reachable h₃) hstops₄)
    have hqueue := hl₅.queue (hl₄.reachable h₃) hret hes
    have hnone : passed [.taken, .discarded] es = passed [.taken] es :=
      passed_congr fun k => by cases k <;> simp [hdiscarded]
    rw [hnone, htaken, List.nil_append] at hqueue
    rw [hqueue]
    exact Pool.empties ht₅ hs₅

/-- Two queries and an end; another thread has one more query. -/
def stopBetweenQueries : List (List Action) :=
  [[.start, .submit (.fail "no") .empty [] [] false, .submit (.fail "no") .empty [] [] false, .terminate],
    [.submit (.fail "no") .empty [] [] false]]

/-- The worker has just seen that the flag is not set. -/
def stopBetweenQueriesRun : List Label := stepsOf 0 5 ++ stepsOf 2 2 ++ stepsOf 0 10 ++ stepsOf 2 2

/-- The worker takes the first query after the flag was set. The second one, which waits when the worker has
finished, and the third one, which is submitted then, are discarded, and the call answers two. -/
theorem stop_bound_between_queries :
    ∃ s s₁ s₂ s₃ s₄ s₅ s₆ s₇ s₈ rest,
      (Pool.initial .standard ⟨[], [], [], []⟩ stopBetweenQueries).run stopBetweenQueriesRun = some s ∧
      s.framesOf 0 = .halt .terminate .stop :: rest ∧ s.step 0 none = some s₁ ∧
      s₁.runThrough (Pool.Within 0 rest) (stepsOf 2 1) = some s₂ ∧ s₂.step 0 none = some s₃ ∧
      s₃.runThrough (Pool.Within 0 rest) (stepsOf 2 14) = some s₄ ∧ s₄.isFinished 2 = true ∧ s₄.waiting = [1] ∧
      passed [.taken] s₁.log = [] ∧ passed [.taken] s₄.log = [0] ∧
      (∃ es, s₄.log = s₁.log ++ es ∧ (passed [.taken] es).length ≤ 1 ∧
        ∀ i u, .taken i u ∈ es → s₁.TakesNext u ∧ s₁.queueHolder = some u) ∧
      s₄.runThrough (Pool.Within 0 rest) (stepsOf 1 3 ++ stepsOf 0 2) = some s₅ ∧ s₅.step 0 none = some s₆ ∧
      Pool.Empties 0 rest [1, 2] s₅ s₆ ∧ s₆.runThrough (Pool.Within 0 rest) (stepsOf 0 4) = some s₇ ∧
      s₇.step 0 none = some s₈ ∧ s₈.framesOf 0 = giveAnswer (.count 2) rest := by
  obtain ⟨s, s₁, s₂, s₃, s₄, s₅, s₆, s₇, s₈, rest, hr, ht, h₁, h₂, ht₂, h₃, h₄, hf, hw, h₁₄, hn₁, hn₄, h₅, ht₅, h₆,
      hret, hsub₄, hsub₅, h₇, hend, h₈⟩ : ∃ s s₁ s₂ s₃ s₄ s₅ s₆ s₇ s₈ rest,
      (Pool.initial .standard ⟨[], [], [], []⟩ stopBetweenQueries).run stopBetweenQueriesRun = some s ∧
      s.framesOf 0 = .halt .terminate .stop :: rest ∧ s.step 0 none = some s₁ ∧
      s₁.runThrough (Pool.Within 0 rest) (stepsOf 2 1) = some s₂ ∧ s₂.framesOf 0 = .halt .terminate .wake :: rest ∧
      s₂.step 0 none = some s₃ ∧ s₃.runThrough (Pool.Within 0 rest) (stepsOf 2 14) = some s₄ ∧
      s₄.isFinished 2 = true ∧ s₄.waiting = [1] ∧
      s₁.runThrough Pool.BeforeStart (stepsOf 2 1 ++ stepsOf 0 1 ++ stepsOf 2 14) = some s₄ ∧
      passed [.taken] s₁.log = [] ∧ passed [.taken] s₄.log = [0] ∧
      s₄.runThrough (Pool.Within 0 rest) (stepsOf 1 3 ++ stepsOf 0 2) = some s₅ ∧
      s₅.framesOf 0 = .terminate .drain :: rest ∧ s₅.step 0 none = some s₆ ∧ s₅.retired = false ∧
      passed [.submitted] s₄.log = [0, 1] ∧ passed [.submitted] s₅.log = [0, 1, 2] ∧
      s₆.runThrough (Pool.Within 0 rest) (stepsOf 0 4) = some s₇ ∧ Pool.Returns 0 rest s₇ s₈ ∧
      s₇.step 0 none = some s₈ :=
    ⟨_, _, _, _, _, _, _, _, _, _, rfl, rfl, rfl, rfl, rfl, rfl, rfl, rfl, rfl, rfl, rfl, rfl, rfl, rfl, rfl, rfl, rfl,
      rfl, rfl, ⟨.run 0 none, rfl, by decide, by decide⟩, rfl⟩
  obtain ⟨hone, hwake⟩ := (Reachable.initial.run hr).stop_bound ht h₁
  obtain ⟨-, hdrain⟩ := hwake s₂ s₃ none (Leads.refl.runThrough h₂) ht₂ h₃
  obtain ⟨-, es, hes, hempties⟩ :=
    hdrain s₄ s₅ s₆ none (Leads.refl.runThrough h₄) (Leads.refl.runThrough h₅) ht₅ h₆ hret
  have hmore : passed [.submitted] es = [2] := by
    rw [hes, passed_append, hsub₄] at hsub₅
    exact List.append_cancel_left hsub₅
  rw [hw, hmore] at hempties
  exact ⟨s, s₁, s₂, s₃, s₄, s₅, s₆, s₇, s₈, rest, hr, ht, h₁, h₂, h₃, h₄, hf, hw, hn₁, hn₄,
    hone s₄ (Leads.refl.runThrough h₁₄), h₅, h₆, hempties, h₇, h₈,
    (hempties.counted s₇ s₈ (Leads.refl.runThrough h₇) hend).1⟩

end StatementPool
