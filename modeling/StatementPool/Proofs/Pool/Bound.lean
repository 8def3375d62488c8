import StatementPool.Proofs.Pool.Lifecycle
/-!
# How many workers are at work

A worker is attached while the pool has its handle or a call that stops the workers is going to join
it. A worker that runs a call of `terminate` itself is not joined: it is detached from then on.
`Reachable.bounded` says that the attached workers are never more than the options allow and all of
them when a call of `start` comes back, so the bound on the workers at work is exceeded by the
detached ones, and by nothing else. `more_workers_than_allowed` is a run in which it is: a callback
that terminates the pool and starts it again stays at work beside the new worker.
-/

namespace StatementPool

/-! ## Attached and detached workers -/

/-- Whether a frame is a call that is going to join a thread. -/
def Frame.joins (t : ThreadId) : Frame → Bool
  | .halt _ (.join left) => left.contains t
  | _ => false

/-- Whether a worker that has begun has not left, as it counts itself. -/
def liveIn (_ : ThreadId) : Frame → Nat
  | .worker .boot | .worker .exit => 0
  | .worker _ => 1
  | _ => 0

theorem steady_liveIn : Steady liveIn where
  answers _ _ _ _ _ _ := rfl
  parked _ := rfl

namespace Pool

/-- Whether the pool has the handle of a thread, or is going to join the thread. -/
def isAttached (s : Pool) (t : ThreadId) : Bool :=
  s.handles.contains t || (List.range s.threads.length).any fun u => (s.framesOf u).any (Frame.joins t)

def attached (s : Pool) : List ThreadId := s.atWork.filter s.isAttached

def detached (s : Pool) : List ThreadId := s.atWork.filter fun t => !s.isAttached t

/-- The threads that execute statements or run callbacks. -/
def busy (s : Pool) : List ThreadId :=
  (List.range s.threads.length).filter fun t => (s.framesOf t).any fun f => f.held?.isSome

/-- A call of `start` comes back with success. -/
def Starts (s s' : Pool) : Prop :=
  ∃ t target rest, s.framesOf t = .start (.wait none) :: rest ∧ s.step t target = some s' ∧
    s'.framesOf t = giveAnswer (.outcome (.ok ())) rest

variable {s s₁ : Pool} {t : ThreadId} {f : Frame} {rest fs : List Frame}

theorem length_atWork (s : Pool) : s.atWork.length = s.attached.length + s.detached.length :=
  List.length_eq_length_filter_add s.isAttached

theorem nodup_atWork (s : Pool) : s.atWork.Nodup := List.nodup_range.filter _

theorem mem_phasesIn_halt {caller : Halter} {p : HaltPhase} : .halt caller p ∈ phasesIn t f ↔ f = .halt caller p := by
  cases f with
  | start p => cases p <;> simp [phasesIn]
  | terminate p => cases p <;> simp [phasesIn]
  | halt caller p => simp [phasesIn, eq_comm]
  | _ => simp [phasesIn]

theorem mem_phases_halt {caller : Halter} {p : HaltPhase} :
    .halt caller p ∈ s.phases ↔ ∃ t, .halt caller p ∈ s.framesOf t := by
  simp only [phases, mem_total, mem_phasesIn_halt, exists_eq_right]

theorem isAttached_iff {u : ThreadId} :
    s.isAttached u = true ↔ u ∈ s.handles ∨ ∃ caller left, .halt caller (.join left) ∈ s.phases ∧ u ∈ left := by
  simp only [isAttached, Bool.or_eq_true, List.contains_iff_mem, List.any_eq_true, List.mem_range, mem_phases_halt]
  refine or_congr_right ⟨?_, ?_⟩
  · rintro ⟨v, -, f, hf, hj⟩
    unfold Frame.joins at hj
    split at hj
    · exact ⟨_, _, ⟨v, hf⟩, List.contains_iff_mem.1 hj⟩
    · cases hj
  · rintro ⟨caller, left, ⟨v, hv⟩, hu⟩
    refine ⟨v, ?_, _, hv, List.contains_iff_mem.2 hu⟩
    obtain ⟨g, gs, hg⟩ := List.exists_cons_of_ne_nil (List.ne_nil_of_mem hv)
    exact lt_of_framesOf hg

/-- The attached workers are among the handles, or among those that a call joins. -/
theorem length_attached_le (h : s.Staged) : s.attached.length ≤ s.options.maxThreads.toNat := by
  obtain ⟨x, hx, hst⟩ := h
  have hsub : ∀ u ∈ s.attached, u ∈ s.handles ∨ ∃ caller left, x = some (.halt caller (.join left)) ∧ u ∈ left := by
    intro u hu
    rcases isAttached_iff.1 (List.mem_filter.1 hu).2 with h | ⟨caller, left, hl, hu⟩
    · exact .inl h
    · rw [hx] at hl
      cases x with
      | none => simp [single] at hl
      | some p => exact .inr ⟨caller, left, by rw [Multiset.mem_singleton.1 hl], hu⟩
  have hn : s.attached.Nodup := (nodup_atWork s).filter _
  by_cases hj : ∃ caller left, x = some (.halt caller (.join left))
  · obtain ⟨caller, left, rfl⟩ := hj
    obtain ⟨hh, hl⟩ := hst.joins
    refine Nat.le_trans (hn.length_le_of_subset fun u hu => ?_) (hl.trans (caller.most_le _))
    rcases hsub u hu with h | ⟨caller', left', e, h⟩
    · simp [hh] at h
    · cases e; exact h
  · refine Nat.le_trans (hn.length_le_of_subset fun u hu => (hsub u hu).resolve_right ?_) hst.handles_le
    rintro ⟨caller, left, e, -⟩
    exact hj ⟨caller, left, e⟩

/-! ## Workers that count themselves -/

theorem act_live (ht : s.framesOf t = f :: rest) (ha : Act s t rest f fs s₁) (h : s.live = s.total liveIn) :
    (s₁.setFrames t fs).live = (s₁.setFrames t fs).total liveIn := by
  have before := total_eq (w := liveIn) (lt_of_framesOf ht)
  rw [ht, stackWeight_cons] at before
  rw [act_total steady_liveIn (fun _ => rfl) ht ha, live_setFrames]
  cases ha
  case returned hl | dropped hl | release hl =>
    rw [leaving_weight steady_liveIn (fun _ => rfl) (fun _ => rfl) hl]
    simp_all [liveIn]
  case boot | leave =>
    simp only [stackWeight_cons, liveIn] at before ⊢
    omega
  all_goals simp_all [liveIn, stackWeight_giveAnswer steady_liveIn]

theorem liveIn_le_one {u : ThreadId} {gs : List Frame} (h : Ordered gs) : stackWeight (liveIn u) gs ≤ 1 := by
  induction gs with
  | nil => simp
  | cons g gs ih =>
    rw [stackWeight_cons]
    cases g with
    | worker p =>
      obtain ⟨rfl, -⟩ := h
      cases p <;> simp [liveIn]
    | _ => simpa [liveIn] using ih h.2

/-- A worker that goes on and said that it is ready counts itself. -/
theorem working_le (u : ThreadId) (gs : List Frame) :
    stackWeight (workingIn u) gs ≤ stackWeight (liveIn u) gs + stackWeight (freshIn u) gs := by
  induction gs with
  | nil => simp
  | cons g gs ih =>
    have hg : workingIn u g ≤ liveIn u g + freshIn u g := by
      cases g with
      | worker p => cases p <;> simp [workingIn, liveIn, freshIn]
      | _ => simp [workingIn]
    simp only [stackWeight_cons]
    omega

theorem exists_worker {v : ThreadId → Frame → Nat} (hv : ∀ u g, v u g ≠ 0 → ∃ p, g = .worker p) {u : ThreadId}
    {gs : List Frame} (h : stackWeight (v u) gs ≠ 0) : ∃ p, .worker p ∈ gs := by
  by_contra hn
  apply h
  apply List.sum_eq_zero
  intro x hx
  obtain ⟨g, hg, rfl⟩ := List.mem_map.1 hx
  by_contra h0
  obtain ⟨p, rfl⟩ := hv u g h0
  exact hn ⟨p, hg⟩

end Pool

theorem sum_le_length_filter {g : Nat → Nat} {p : Nat → Bool} (h : ∀ t, g t ≤ if p t then 1 else 0) (n : Nat) :
    ∑ t ∈ Finset.range n, g t ≤ ((List.range n).filter p).length := by
  induction n with
  | zero => simp
  | succ n ih =>
    rw [Finset.sum_range_succ, List.range_succ, List.filter_append, List.length_append]
    refine Nat.add_le_add ih ((h n).trans ?_)
    by_cases hp : p n <;> simp [hp]

variable {o : Options} {w : World} {scripts : List (List Action)} {s s' : Pool}

theorem Reachable.live_eq (h : Reachable o w scripts s) : s.live = s.total liveIn := by
  refine h.keeps (P := fun s => s.live = s.total liveIn) (total_initial fun _ _ => rfl).symm ?_
  rintro s s' t - hs ⟨f, rest, fs, s₁, hf, ha, rfl⟩
  exact Pool.act_live hf ha hs

theorem Reachable.isAtWork_of_mem (h : Reachable o w scripts s) {t : ThreadId} {p : WorkerPhase}
    (hp : .worker p ∈ s.framesOf t) : s.isAtWork t = true :=
  Pool.isAtWork_iff.2 ⟨h.isWorker_of_mem hp, List.ne_nil_of_mem hp⟩

theorem Reachable.live_le (h : Reachable o w scripts s) : s.live ≤ s.atWork.length := by
  rw [h.live_eq]
  apply sum_le_length_filter
  intro t
  by_cases hz : stackWeight (liveIn t) (s.framesOf t) = 0
  · simp [hz]
  · obtain ⟨p, hp⟩ := Pool.exists_worker (fun u g hg => by cases g <;> simp_all [liveIn]) hz
    rw [if_pos (h.isAtWork_of_mem hp)]
    exact Pool.liveIn_le_one (h.ordered t)

/-- Only workers at work execute statements and run callbacks. -/
theorem Reachable.busy_le (h : Reachable o w scripts s) : s.busy.length ≤ s.atWork.length := by
  apply (List.nodup_range.filter _).length_le_of_subset
  intro t ht
  obtain ⟨-, ht⟩ := List.mem_filter.1 ht
  obtain ⟨f, hf, hi⟩ := List.any_eq_true.1 ht
  obtain ⟨i, hi⟩ := Option.isSome_iff_exists.1 hi
  obtain ⟨p, hp⟩ := (h.ordered t).worker_of_held hf hi
  exact Pool.mem_atWork.2 (h.isAtWork_of_mem hp)

/-! ## When a call of start comes back -/

/-- A call of `start` that comes back has all its workers, ready. -/
theorem Reachable.started (h : Reachable o w scripts s) (hs : s.Starts s') :
    s'.handles.length = o.maxThreads.toNat ∧ s'.stop = false ∧ s'.total freshIn = 0 := by
  obtain ⟨t, target, rest, ht, hstep, -⟩ := hs
  obtain ⟨f, rest', fs, s₁, ht', ha, rfl⟩ := Pool.step_cases hstep
  rw [ht] at ht'
  cases ht'
  have fresh := Pool.act_fresh ht ha (by simp) (by simp)
  obtain ⟨held, hst⟩ := h.staged.of_mem (Pool.mem_phases_before ht (Multiset.mem_singleton_self _))
  rw [h.options] at hst
  cases hst with
  | waiting hh hs hr =>
    cases ha with
    | started hr' => exact ⟨hh, hs, by omega⟩

/-- Once a call of `start` came back, the workers that are attached are the new ones, all of them. -/
theorem Reachable.attached_of_started (h : Reachable o w scripts s)
    (hh : s.handles.length = o.maxThreads.toNat) (hs : s.stop = false) :
    s.attached.length = o.maxThreads.toNat := by
  refine Nat.le_antisymm (h.options ▸ Pool.length_attached_le h.staged) ?_
  obtain ⟨hn, hm⟩ := h.manned
  rw [← hh]
  apply hn.length_le_of_subset
  intro u hu
  obtain ⟨hw, hw'⟩ := hm u hu
  have hwork : s.IsWorking u := hw'.resolve_left (by simp [hs])
  obtain ⟨p, hp⟩ := Pool.exists_worker (fun u g hg => by cases g <;> simp_all [workingIn]) hwork
  exact List.mem_filter.2 ⟨Pool.mem_atWork.2 (h.isAtWork_of_mem hp), Pool.isAttached_iff.2 (.inl hu)⟩

theorem Reachable.live_of_started (h : Reachable o w scripts s) (hh : s.handles.length = o.maxThreads.toNat)
    (hs : s.stop = false) (hf : s.total freshIn = 0) : o.maxThreads.toNat ≤ s.live := by
  obtain ⟨hn, hm⟩ := h.manned
  rw [h.live_eq, ← hh, ← List.toFinset_card_of_nodup hn, Finset.card_eq_sum_ones]
  refine (Finset.sum_le_sum fun u hu => ?_).trans (Finset.sum_le_sum_of_subset fun u hu => ?_)
  · have hwork : s.IsWorking u := (hm u (List.mem_toFinset.1 hu)).2.resolve_left (by simp [hs])
    have hle := Pool.working_le u (s.framesOf u)
    have hz : stackWeight (freshIn u) (s.framesOf u) = 0 :=
      List.sum_eq_zero fun x hx => by
        obtain ⟨g, hg, rfl⟩ := List.mem_map.1 hx
        exact Pool.total_eq_zero.1 hf u g hg
    unfold Pool.IsWorking at hwork
    omega
  · exact Finset.mem_range.2 (Pool.lt_of_isWorker (hm u (List.mem_toFinset.1 hu)).1)

/-! ## Runs without calls on workers -/

/-- Whether a frame is a call of `start` or of `terminate`. -/
def Frame.isLifecycle : Frame → Bool
  | .start _ | .terminate _ | .halt _ _ => true
  | _ => false

namespace Pool

/-- No worker is in a call of `start` or of `terminate`: no callback makes one. -/
def Calm (s : Pool) : Prop :=
  ∀ t ∈ List.range s.threads.length, s.isWorker t = true → ∀ f ∈ s.framesOf t, f.isLifecycle = false

instance : DecidablePred Calm := fun s =>
  inferInstanceAs (Decidable (∀ t ∈ List.range s.threads.length,
    s.isWorker t = true → ∀ f ∈ s.framesOf t, f.isLifecycle = false))

variable {s₁ : Pool} {t : ThreadId} {f : Frame} {rest fs : List Frame}

/-- The phases of all frames but the one that a step works on are there after it. -/
theorem phases_le (ht : s.framesOf t = f :: rest) (ha : Act s t rest f fs s₁) :
    stackWeight (phasesIn t) rest + s.others t phasesIn ≤ (s₁.setFrames t fs).phases := by
  rw [phases, act_total steady_phasesIn (fun _ => rfl) ht ha]
  refine add_le_add_left ?_ _
  cases ha
  case returned hl | dropped hl => rw [leaving_weight steady_phasesIn (fun _ => rfl) (fun _ => rfl) hl]
  case release hl =>
    rw [leaving_weight steady_phasesIn (fun _ => rfl) (fun _ => rfl) hl]
    simp [phasesIn]
  all_goals simp [stackWeight_giveAnswer steady_phasesIn, phasesIn, Multiset.le_cons_self]

/-- Whoever is at work after a step was at work before it, or was just started. -/
theorem isAtWork_before (ht : s.framesOf t = f :: rest) (ha : Act s t rest f fs s₁) {u : ThreadId}
    (hu : (s₁.setFrames t fs).isAtWork u = true) : s.isAtWork u = true ∨ u ∈ s₁.handles := by
  obtain ⟨hw, hf⟩ := isAtWork_iff.1 hu
  rw [isWorker_setFrames] at hw
  have old : s.framesOf u ≠ [] → s.isAtWork u = true := fun hne => by
    obtain ⟨g, gs, hg⟩ := List.exists_cons_of_ne_nil hne
    exact isAtWork_iff.2 ⟨(act_isWorker ha (lt_of_framesOf hg)).symm.trans hw, hne⟩
  by_cases e : u = t
  · subst e
    exact .inl (old (by simp [ht]))
  · rw [framesOf_setFrames_ne e] at hf
    rcases act_framesOf ha u with h' | h' | ⟨-, -, -, h', -⟩
    · exact .inl (old (h' ▸ hf))
    · refine .inl (old fun hn => hf ?_)
      rw [h', hn]
      rfl
    · exact .inr (by simp [h'])

/-- While no worker calls `terminate`, no worker at work is given up. -/
theorem act_attached (ht : s.framesOf t = f :: rest) (ha : Act s t rest f fs s₁) (hc : s.Calm)
    (h : ∀ u, s.isAtWork u = true → s.isAttached u = true) {u : ThreadId}
    (hu : (s₁.setFrames t fs).isAtWork u = true) : (s₁.setFrames t fs).isAttached u = true := by
  rw [isAttached_iff]
  rcases isAtWork_before ht ha hu with hw | hu
  -- it was attached before the step, by its handle or by a call that is going to join it
  · rcases isAttached_iff.1 (h u hw) with hh | ⟨caller, left, hl, hul⟩
    · rcases act_handles ha with e | ⟨e, caller, rfl⟩ | ⟨e, -⟩
      · exact .inl (by rw [handles_setFrames, e]; exact hh)
      · refine .inr ⟨caller, s.handles, ?_, hh⟩
        rw [phases, act_total steady_phasesIn (fun _ => rfl) ht ha]
        simp [phasesIn]
      · exact .inl (by rw [handles_setFrames, e]; exact List.mem_append_left _ hh)
    · rw [phases, total_eq (lt_of_framesOf ht), ht, stackWeight_cons, add_assoc, Multiset.mem_add] at hl
      rcases hl with hl | hl
      · obtain rfl := mem_phasesIn_halt.1 hl
        cases ha with
        | joined | startFailed => cases hul
        | @join _ v left hv =>
          rcases List.mem_cons.1 hul with rfl | hul
          -- the thread that is joined has left, or it makes the call itself, which no worker does
          · obtain ⟨hw, hne⟩ := isAtWork_iff.1 hw
            rcases hv with rfl | hv
            · have hno := hc u (List.mem_range.2 (lt_of_isWorker hw)) hw (.halt caller (.join (u :: left)))
                (by simp [ht])
              cases hno
            · exact absurd (List.isEmpty_iff.1 hv) hne
          · refine .inr ⟨caller, left, ?_, hul⟩
            rw [mem_phases_halt]
            exact ⟨t, by rw [framesOf_setFrames_self (lt_of_framesOf ht)]; simp⟩
      · exact .inr ⟨caller, left, Multiset.mem_of_le (phases_le ht ha) hl, hul⟩
  · exact .inl (by rwa [handles_setFrames])

end Pool

/-- In a run in which no worker calls `start` or `terminate`, no worker is detached. -/
theorem ReachableWhile.detached_eq_nil (h : ReachableWhile Pool.Calm o w scripts s) : s.detached = [] := by
  have hall : ∀ u, s.isAtWork u = true → s.isAttached u = true := by
    refine h.keeps (Q := fun s => ∀ u, s.isAtWork u = true → s.isAttached u = true) ?_ ?_
    · intro u hu
      have hw := (Pool.isAtWork_iff.1 hu).1
      rw [isWorker_initial] at hw
      cases hw
    · rintro s s' t hr hs ⟨f, rest, fs, s₁, hf, ha, rfl⟩ u hu
      exact Pool.act_attached hf ha hr.here hs hu
  apply List.filter_eq_nil_iff.2
  intro u hu
  simp [hall u (Pool.mem_atWork.1 hu)]

/-! ## The bound -/

/-- Of the workers at work, those that are attached are never more than the options allow; whenever
a call of `start` comes back they are as many. So the bound holds as long as no detached worker is
at work, and once a call of `start` came back it holds only then. -/
theorem Reachable.bounded (h : Reachable o w scripts s) :
    s.atWork.length = s.attached.length + s.detached.length ∧
    s.attached.length ≤ o.maxThreads.toNat ∧
    (s.detached = [] → s.atWork.length ≤ o.maxThreads.toNat ∧ s.live ≤ o.maxThreads.toNat ∧
      s.busy.length ≤ o.maxThreads.toNat) ∧
    ∀ s', s.Starts s' → s'.attached.length = o.maxThreads.toNat ∧
      (s'.atWork.length = o.maxThreads.toNat ↔ s'.detached = []) ∧
      (s'.detached = [] → s'.live = o.maxThreads.toNat) := by
  have hn := Pool.length_atWork s
  have ha : s.attached.length ≤ o.maxThreads.toNat := h.options ▸ Pool.length_attached_le h.staged
  refine ⟨hn, ha, ?_, ?_⟩
  · intro hd
    have hw : s.atWork.length ≤ o.maxThreads.toNat := by
      rw [hn, hd]
      exact ha
    exact ⟨hw, h.live_le.trans hw, h.busy_le.trans hw⟩
  · intro s' hs
    have h' : Reachable o w scripts s' := by
      obtain ⟨t, target, rest, -, hstep, -⟩ := hs
      exact h.next (.run t target) hstep
    obtain ⟨hh, hstop, hf⟩ := h.started hs
    have ha' := h'.attached_of_started hh hstop
    have hn' := Pool.length_atWork s'
    refine ⟨ha', ?_, ?_⟩
    · constructor
      · intro e
        apply List.length_eq_zero_iff.1
        omega
      · intro hd
        rw [hn', ha', hd]
        rfl
    · intro hd
      have hle := h'.live_le
      rw [hn', ha', hd] at hle
      exact Nat.le_antisymm hle (h'.live_of_started hh hstop hf)

/-- A pool for one worker is started: it has one. -/
theorem bounded_of_first_start :
    ∃ s s', (Pool.initial .standard ⟨[], [], [], []⟩ [[.start]]).run (stepsOf 0 5 ++ stepsOf 1 2) = some s ∧
      s.Starts s' ∧ s'.detached = [] ∧ s'.atWork.length = 1 ∧ s'.live = 1 := by
  obtain ⟨s, hr⟩ : ∃ s, (Pool.initial .standard ⟨[], [], [], []⟩ [[.start]]).run (stepsOf 0 5 ++ stepsOf 1 2) =
    some s := ⟨_, rfl⟩
  obtain ⟨s', hs, hd⟩ : ∃ s', s.Starts s' ∧ s'.detached = [] := by
    cases hr
    exact ⟨_, ⟨0, none, _, rfl, rfl, rfl⟩, rfl⟩
  obtain ⟨-, hw, hl⟩ := (Reachable.initial.run hr).bounded.2.2.2 s' hs
  exact ⟨s, s', hr, hs, hd, hw.2 hd, hl hd⟩

/-- A query whose callback terminates the pool and starts it again, and two more queries. -/
def restartInCallback : List (List Action) :=
  [[.start, .submit (.fail "no") .empty [.terminate, .start] [] false,
    .submit (.fail "no") .empty [] [] false, .submit (.fail "no") .empty [] [] false]]

/-- The callback runs before the other queries are submitted; both workers take one of these. -/
def restartInCallbackRun : List Label :=
  stepsOf 0 5 ++ stepsOf 1 2 ++ stepsOf 0 4 ++ stepsOf 1 26 ++ stepsOf 2 2 ++ stepsOf 1 2 ++ stepsOf 0 6 ++
    stepsOf 1 3 ++ stepsOf 2 3

/-- With one worker allowed, two workers are at work and execute two queries at once. -/
theorem more_workers_than_allowed :
    ∃ s, (Pool.initial .standard ⟨[], [], [], []⟩ restartInCallback).run restartInCallbackRun = some s ∧
      s.options.maxThreads.toNat = 1 ∧ s.atWork = [1, 2] ∧ s.live = 2 ∧ s.busy = [1, 2] ∧ s.detached = [1] :=
  ⟨_, rfl, rfl, rfl, rfl, rfl, rfl⟩

end StatementPool
