import StatementPool.Proofs.Pool.Stacks
/-!
# Starting and terminating, one at a time

The lock of the handles lets one call of `start` or `terminate` go on at a time, while the others
wait for it. When a worker cannot be spawned, the call of `start` stops those that were, as a call of
`terminate` does. `Stage` lists what the handles, the stop flag and the workers look like in each phase
of such a call, and `Reachable.staged` says that a reachable pool is in one of these stages. So a
pool never has more handles than the options allow, and a call of `start` that is about to come
back with success has them all.
-/

namespace StatementPool

/-! ## Phases -/

/-- A phase of a call that holds the lock of the handles. -/
inductive Phase where
  | start (p : StartPhase)
  | halt (caller : Halter) (p : HaltPhase)
  | terminate (p : TerminatePhase)

def phasesIn (_ : ThreadId) : Frame → Multiset Phase
  | .start .lock | .terminate .lock => 0
  | .start p => {.start p}
  | .halt caller p => {.halt caller p}
  | .terminate p => {.terminate p}
  | _ => 0

/-- Whether a frame is that of a worker that has not said yet that it is ready. -/
def freshIn (_ : ThreadId) : Frame → Nat
  | .worker .boot | .worker .ready => 1
  | _ => 0

theorem steady_phasesIn : Steady phasesIn where
  answers _ _ _ _ _ _ := rfl
  parked _ := rfl

/-- Whether a frame is that of a worker that has not decided to leave. -/
def workingIn (_ : ThreadId) : Frame → Nat
  | .worker .leave | .worker .exit => 0
  | .worker _ => 1
  | _ => 0

theorem steady_workingIn : Steady workingIn where
  answers _ _ _ _ _ _ := rfl
  parked _ := rfl

theorem steady_freshIn : Steady freshIn where
  answers _ _ _ _ _ _ := rfl
  parked _ := rfl

/-- How many workers there can be to stop: one of those that a call of `start` asked for is missing when
it gives up. -/
def Halter.most (n : Nat) : Halter → Nat
  | .terminate => n
  | .start _ => n - 1

theorem Halter.most_le (n : Nat) (caller : Halter) : caller.most n ≤ n := by
  cases caller with
  | terminate => exact Nat.le_refl n
  | start => exact Nat.sub_le n 1

/-- What a pool for `n` workers looks like in each phase: its handles, its stop flag, the workers
that said that they are ready, the workers that did not yet, and whether its lock is held. -/
inductive Stage (n : Nat) (handles : List ThreadId) (stop : Bool) (ready fresh : Nat) :
    Bool → Option Phase → Prop where
  | free (hh : handles.length ≤ n) (hf : fresh = 0) : Stage n handles stop ready fresh false none
  | starting (hh : handles.length ≤ n) (hf : fresh = 0) :
    Stage n handles stop ready fresh true (some (.start .check))
  | spawning (k) (hh : handles.length = k) (hk : k ≤ n) (hs : stop = false) (hr : ready + fresh = k) :
    Stage n handles stop ready fresh true (some (.start (.spawn k)))
  | waiting (hh : handles.length = n) (hs : stop = false) (hr : ready + fresh = n) :
    Stage n handles stop ready fresh true (some (.start (.wait none)))
  | refused (cause) (hh : handles.length ≤ n - 1) (hs : stop = false) (hr : ready + fresh = handles.length) :
    Stage n handles stop ready fresh true (some (.start (.wait (some cause))))
  | terminating (hh : handles.length ≤ n) (hf : fresh = 0) :
    Stage n handles stop ready fresh true (some (.terminate .check))
  | halting (caller p) (hp : p = .stop ∨ p = .wake) (hh : handles.length ≤ caller.most n) (hf : fresh = 0) :
    Stage n handles stop ready fresh true (some (.halt caller p))
  | joining (caller left) (hh : handles = []) (hl : left.length ≤ caller.most n) (hf : fresh = 0) :
    Stage n handles stop ready fresh true (some (.halt caller (.join left)))
  | draining (hh : handles = []) (hf : fresh = 0) :
    Stage n handles stop ready fresh true (some (.terminate .drain))

namespace Stage

variable {n ready fresh : Nat} {handles left : List ThreadId} {stop held : Bool} {x : Option Phase} {caller : Halter}

theorem handles_le (h : Stage n handles stop ready fresh held x) : handles.length ≤ n := by
  cases h with
  | free hh | starting hh | terminating hh => exact hh
  | spawning k hh hk => exact hh ▸ hk
  | waiting hh => exact Nat.le_of_eq hh
  | refused cause hh => exact hh.trans (Nat.sub_le n 1)
  | halting caller p hp hh => exact hh.trans (caller.most_le n)
  | joining caller left hh | draining hh => simp [hh]

theorem joins (h : Stage n handles stop ready fresh held (some (.halt caller (.join left)))) :
    handles = [] ∧ left.length ≤ caller.most n := by
  cases h with
  | halting _ _ hp => simp at hp
  | joining _ _ hh hl => exact ⟨hh, hl⟩

end Stage

namespace Pool

def phases (s : Pool) : Multiset Phase := s.total phasesIn

/-- The pool is in the stage of the call that holds the lock, of which there is at most one. -/
def Staged (s : Pool) : Prop :=
  ∃ x, s.phases = single x ∧
    Stage s.options.maxThreads.toNat s.handles s.stop s.ready (s.total freshIn) s.workersHolder.isSome x

variable {s s₁ : Pool} {t : ThreadId} {f : Frame} {rest fs : List Frame}

theorem mem_phases_before (ht : s.framesOf t = f :: rest) {p : Phase} (hp : p ∈ phasesIn t f) : p ∈ s.phases := by
  rw [phases, mem_total]
  exact ⟨t, f, ht ▸ List.mem_cons_self, hp⟩

/-- A pool is in the stage of any call that holds the lock. -/
theorem Staged.of_mem (h : s.Staged) {p : Phase} (hp : p ∈ s.phases) :
    ∃ held, Stage s.options.maxThreads.toNat s.handles s.stop s.ready (s.total freshIn) held (some p) := by
  obtain ⟨x, hx, hst⟩ := h
  rw [hx] at hp
  cases x with
  | none => cases hp
  | some x => exact ⟨_, Multiset.mem_singleton.1 hp ▸ hst⟩

/-- A step of the call that holds the lock takes it to the next stage. -/
theorem staged_of_next {s' : Pool} {p : Phase} {r : Multiset Phase} (h : s.Staged) (y : Phase)
    (hb : s.phases = {p} + r) (ha : s'.phases = {y} + r) (hw : s'.workersHolder = s.workersHolder)
    (hs : ∀ {held}, Stage s.options.maxThreads.toNat s.handles s.stop s.ready (s.total freshIn) held (some p) →
      Stage s'.options.maxThreads.toNat s'.handles s'.stop s'.ready (s'.total freshIn) held (some y)) :
    s'.Staged := by
  obtain ⟨x, hx, hst⟩ := h
  obtain ⟨rfl, rfl⟩ := single_eq_add (hx.symm.trans hb)
  exact ⟨some y, ha, hw ▸ hs hst⟩

/-- A call that gives the lock back leaves a free pool behind. -/
theorem staged_of_unlock {s' : Pool} {p : Phase} {r : Multiset Phase} (h : s.Staged)
    (hb : s.phases = {p} + r) (ha : s'.phases = r) (hw : s'.workersHolder = none)
    (hs : ∀ {held}, Stage s.options.maxThreads.toNat s.handles s.stop s.ready (s.total freshIn) held (some p) →
      s'.handles.length ≤ s'.options.maxThreads.toNat ∧ s'.total freshIn = 0) : s'.Staged := by
  obtain ⟨x, hx, hst⟩ := h
  obtain ⟨rfl, rfl⟩ := single_eq_add (hx.symm.trans hb)
  obtain ⟨hh, hf⟩ := hs hst
  exact ⟨none, ha, hw ▸ .free hh hf⟩

/-- A call that gets the lock starts a stage. -/
theorem staged_of_lock {s' : Pool} {r : Multiset Phase} (h : s.Staged) (y : Phase) (hl : s.workersHolder = none)
    (hb : s.phases = r) (ha : s'.phases = {y} + r)
    (hs : s.handles.length ≤ s.options.maxThreads.toNat → s.total freshIn = 0 →
      Stage s'.options.maxThreads.toNat s'.handles s'.stop s'.ready (s'.total freshIn) s'.workersHolder.isSome
        (some y)) : s'.Staged := by
  obtain ⟨x, hx, hst⟩ := h
  rw [hl] at hst
  cases hst with
  | free hh hf =>
    have hr : r = 0 := hb.symm.trans hx
    exact ⟨some y, by rw [ha, hr]; rfl, hs hh hf⟩

/-- A step of a call that does not hold the lock leaves the stage alone. -/
theorem staged_of_same {s' : Pool} (h : s.Staged) (hp : s'.phases = s.phases)
    (hs : (s'.options, s'.handles, s'.stop, s'.ready, s'.total freshIn, s'.workersHolder) =
      (s.options, s.handles, s.stop, s.ready, s.total freshIn, s.workersHolder)) : s'.Staged := by
  simp only [Prod.mk.injEq] at hs
  obtain ⟨ho, hh, hs, hr, hf, hw⟩ := hs
  obtain ⟨x, hx, hst⟩ := h
  refine ⟨x, hp.trans hx, ?_⟩
  rwa [ho, hh, hs, hr, hf, hw]

/-- A worker says that it is ready: only a call of `start` waits for that. -/
theorem staged_of_ready {s' : Pool} (h : s.Staged) (hp : s'.phases = s.phases)
    (hs : (s'.options, s'.handles, s'.stop, s'.workersHolder) = (s.options, s.handles, s.stop, s.workersHolder))
    (hr : s'.ready = s.ready + 1) (hf : s.total freshIn = 1 + s'.total freshIn) : s'.Staged := by
  simp only [Prod.mk.injEq] at hs
  obtain ⟨ho, hh, hs, hw⟩ := hs
  obtain ⟨x, hx, hst⟩ := h
  refine ⟨x, hp.trans hx, ?_⟩
  rw [ho, hh, hs, hw, hr]
  generalize s.workersHolder.isSome = held at hst
  cases hst with
  | spawning k hh hk hs hr => exact .spawning k hh hk hs (by omega)
  | waiting hh hs hr => exact .waiting hh hs (by omega)
  | refused cause hh hs hr => exact .refused cause hh hs (by omega)
  | free | starting | terminating | halting | joining | draining => omega

/-- Only a new worker and a worker that says that it is ready change how many have not said so. -/
theorem act_fresh (ht : s.framesOf t = f :: rest) (ha : Act s t rest f fs s₁) (hs : ∀ k, f ≠ .start (.spawn k))
    (hr : f ≠ .worker .ready) : (s₁.setFrames t fs).total freshIn = s.total freshIn := by
  rw [act_total_add steady_freshIn (fun _ => rfl) ht ha, total_eq (lt_of_framesOf ht), ht, stackWeight_cons]
  cases ha
  case returned hl | dropped hl =>
    rw [leaving_weight steady_freshIn (fun _ => rfl) (fun _ => rfl) hl]
    simp [freshIn]
  case release hl =>
    rw [leaving_weight steady_freshIn (fun _ => rfl) (fun _ => rfl) hl]
    simp [freshIn]
  case spawn k hk => exact absurd rfl (hs k)
  case ready => exact absurd rfl hr
  all_goals simp [freshIn, stackWeight_giveAnswer steady_freshIn]

theorem act_staged (ht : s.framesOf t = f :: rest) (ha : Act s t rest f fs s₁) (h : s.Staged) :
    (s₁.setFrames t fs).Staged := by
  have before : s.phases = phasesIn t f + (stackWeight (phasesIn t) rest + s.others t phasesIn) := by
    rw [phases, total_eq (lt_of_framesOf ht), ht, stackWeight_cons, add_assoc]
  have after : (s₁.setFrames t fs).phases = stackWeight (phasesIn t) fs + s.others t phasesIn :=
    act_total steady_phasesIn (fun _ => rfl) ht ha
  have fresh := act_fresh ht ha
  have grown := act_total_add steady_freshIn (fun _ => rfl) ht ha
  have total := total_eq (w := freshIn) (lt_of_framesOf ht)
  rw [ht, stackWeight_cons] at total
  cases ha
  -- a call gets the lock
  case startLock hl =>
    refine staged_of_lock h (.start .check) hl before (by rw [after]; simp [phasesIn]) fun hh hf => ?_
    exact .starting hh ((fresh (by simp) (by simp)).trans hf)
  case terminateLock hl =>
    refine staged_of_lock h (.terminate .check) hl before (by rw [after]; simp [phasesIn]) fun hh hf => ?_
    exact .terminating hh ((fresh (by simp) (by simp)).trans hf)
  -- the call with the lock goes on
  case startBegin he hn =>
    refine staged_of_next h (.start (.spawn 0)) before (by rw [after]; simp [phasesIn]) rfl fun hs => ?_
    cases hs with
    | starting hh hf =>
      exact .spawning 0 (by simp [he]) (Nat.zero_le _) rfl ((Nat.zero_add _).trans ((fresh (by simp) (by simp)).trans hf))
  case spawn k hk =>
    refine staged_of_next h (.start (.spawn (k + 1))) before (by rw [after]; simp [phasesIn]) rfl fun hs => ?_
    cases hs with
    | spawning _ hh hk' hs hr =>
      simp [freshIn] at grown total
      exact .spawning (k + 1) (by simp [hh]) hk hs (by simp; omega)
  case spawned k hk =>
    refine staged_of_next h (.start (.wait none)) before (by rw [after]; simp [phasesIn]) rfl fun hs => ?_
    cases hs with
    | spawning _ hh hk' hs hr =>
      have hn : k = s.options.maxThreads.toNat := by omega
      simp [freshIn] at grown total
      exact .waiting (hh.trans hn) hs (by simp; omega)
  case spawnFails k cause hk =>
    refine staged_of_next h (.start (.wait (some cause))) before (by rw [after]; simp [phasesIn]) rfl fun hs => ?_
    cases hs with
    | spawning _ hh hk' hs hr =>
      simp [freshIn] at grown total
      exact .refused cause (by simp; omega) hs (by simp; omega)
  case abandoned cause hr =>
    refine staged_of_next h (.halt (.start cause) .stop) before (by rw [after]; simp [phasesIn]) rfl fun hs => ?_
    cases hs with
    | refused _ hh hs hr' =>
      exact .halting _ _ (.inl rfl) hh ((fresh (by simp) (by simp)).trans (by omega))
  case terminateRunning he =>
    refine staged_of_next h (.halt .terminate .stop) before (by rw [after]; simp [phasesIn]) rfl fun hs => ?_
    cases hs with
    | terminating hh hf => exact .halting _ _ (.inl rfl) hh ((fresh (by simp) (by simp)).trans hf)
  case haltStop caller =>
    refine staged_of_next h (.halt caller .wake) before (by rw [after]; simp [phasesIn]) rfl fun hs => ?_
    cases hs with
    | halting _ _ hp hh hf => exact .halting _ _ (.inr rfl) hh ((fresh (by simp) (by simp)).trans hf)
  case haltWake caller hq =>
    refine staged_of_next h (.halt caller (.join s.handles)) before (by rw [after]; simp [phasesIn]) rfl fun hs => ?_
    cases hs with
    | halting _ _ hp hh hf => exact .joining _ _ rfl hh ((fresh (by simp) (by simp)).trans hf)
  case join caller u left hu =>
    refine staged_of_next h (.halt caller (.join left)) before (by rw [after]; simp [phasesIn]) rfl fun hs => ?_
    cases hs with
    | halting _ _ hp => simp at hp
    | joining _ _ hh hl hf => exact .joining _ _ hh (Nat.le_of_succ_le hl) ((fresh (by simp) (by simp)).trans hf)
  case joined =>
    refine staged_of_next h (.terminate .drain) before (by rw [after]; simp [phasesIn]) rfl fun hs => ?_
    cases hs with
    | halting _ _ hp => simp at hp
    | joining _ _ hh hl hf => exact .draining hh ((fresh (by simp) (by simp)).trans hf)
  -- the call gives the lock back
  case startPanic | startRefused =>
    refine staged_of_unlock h before (by rw [after, stackWeight_giveAnswer steady_phasesIn]) rfl fun hs => ?_
    cases hs with
    | starting hh hf => exact ⟨hh, (fresh (by simp) (by simp)).trans hf⟩
  case started hr =>
    refine staged_of_unlock h before (by rw [after, stackWeight_giveAnswer steady_phasesIn]) rfl fun hs => ?_
    cases hs with
    | waiting hh hs hr' => exact ⟨Nat.le_of_eq hh, (fresh (by simp) (by simp)).trans (by omega)⟩
  case startFailed cause =>
    refine staged_of_unlock h before (by rw [after, stackWeight_giveAnswer steady_phasesIn]) rfl fun hs => ?_
    cases hs with
    | halting _ _ hp => simp at hp
    | joining _ _ hh hl hf => exact ⟨by simp [hh], (fresh (by simp) (by simp)).trans hf⟩
  case terminateIdle he =>
    refine staged_of_unlock h before (by rw [after, stackWeight_giveAnswer steady_phasesIn]) rfl fun hs => ?_
    cases hs with
    | terminating hh hf => exact ⟨hh, (fresh (by simp) (by simp)).trans hf⟩
  case drain hq =>
    refine staged_of_unlock h before (by rw [after]; simp [phasesIn]) rfl fun hs => ?_
    cases hs with
    | draining hh hf => exact ⟨by simp [hh], (fresh (by simp) (by simp)).trans hf⟩
  -- the other calls
  case ready =>
    simp [freshIn] at grown total
    exact staged_of_ready h (by rw [after, before]; simp [phasesIn]) rfl rfl (by omega)
  case returned hl | dropped hl | release hl =>
    rw [leaving_weight steady_phasesIn (fun _ => rfl) (fun _ => rfl) hl] at after
    refine staged_of_same h (by rw [after, before]; simp [phasesIn]) ?_
    rw [fresh (by simp) (by simp)]
    rfl
  all_goals
    refine staged_of_same h (by rw [after, before]; simp [phasesIn, stackWeight_giveAnswer steady_phasesIn]) ?_
    rw [fresh (by simp) (by simp)]
    rfl

/-! ## The workers behind the handles -/

/-- Whether a thread is a worker that has not decided to leave. -/
def IsWorking (s : Pool) (t : ThreadId) : Prop := stackWeight (workingIn t) (s.framesOf t) ≠ 0

/-- The handles are those of different workers, and none of these leaves before it is told to stop. -/
def Manned (s : Pool) : Prop :=
  s.handles.Nodup ∧ ∀ u ∈ s.handles, s.isWorker u = true ∧ (s.stop = true ∨ s.IsWorking u)

theorem act_handles (ha : Act s t rest f fs s₁) :
    s₁.handles = s.handles ∨ s₁.handles = [] ∧ (∃ caller, fs = .halt caller (.join s.handles) :: rest) ∨
      s₁.handles = s.handles ++ [s.threads.length] ∧ s₁.stop = s.stop ∧
        s₁.threads = s.threads ++ [⟨true, [.worker .boot]⟩] := by
  cases ha
  case spawn => exact .inr (.inr ⟨rfl, rfl, rfl⟩)
  case haltWake caller _ => exact .inr (.inl ⟨rfl, caller, rfl⟩)
  all_goals exact .inl rfl

/-- The stop flag is taken back only when there are no handles. -/
theorem act_stop (ha : Act s t rest f fs s₁) (hs : s.stop = true) : s₁.stop = true ∨ s₁.handles = [] := by
  cases ha
  case startBegin he _ | startPanic he _ => exact .inr he
  all_goals first | exact .inl hs | exact .inl rfl

/-- A worker decides to leave only when it is told to stop. -/
theorem act_working (ha : Act s t rest f fs s₁) (hw : stackWeight (workingIn t) (f :: rest) ≠ 0) :
    s₁.stop = true ∨ stackWeight (workingIn t) fs ≠ 0 := by
  rw [stackWeight_cons] at hw
  cases ha
  case checkStop hs => exact .inl hs
  case returned hl | dropped hl | release hl =>
    rw [leaving_weight steady_workingIn (fun _ => rfl) (fun _ => rfl) hl]
    exact .inr (by simpa [workingIn] using hw)
  all_goals simp_all [workingIn, stackWeight_giveAnswer steady_workingIn]

/-- A worker that goes on goes on after a step. -/
theorem act_isWorking (ht : s.framesOf t = f :: rest) (ha : Act s t rest f fs s₁) {u : ThreadId}
    (hu : s.IsWorking u) : s₁.stop = true ∨ (s₁.setFrames t fs).IsWorking u := by
  unfold IsWorking at *
  by_cases e : u = t
  · subst e
    rw [framesOf_setFrames_self (Nat.lt_of_lt_of_le (lt_of_framesOf ht) (act_length_le ha))]
    exact act_working ha (ht ▸ hu)
  · rw [framesOf_setFrames_ne e]
    rcases act_framesOf ha u with h' | h' | ⟨-, h', -⟩
    · rw [h']; exact .inr hu
    · rw [h', stackWeight_wokenFrames steady_workingIn]; exact .inr hu
    · rw [h']; exact .inr (by simp [workingIn])

theorem act_manned (ht : s.framesOf t = f :: rest) (ha : Act s t rest f fs s₁) (h : s.Manned) :
    (s₁.setFrames t fs).Manned := by
  obtain ⟨hn, hm⟩ := h
  have hlt := lt_of_framesOf ht
  -- a handle that was there before
  have old : ∀ u ∈ s.handles, s₁.handles ≠ [] →
      (s₁.setFrames t fs).isWorker u = true ∧ ((s₁.setFrames t fs).stop = true ∨ (s₁.setFrames t fs).IsWorking u) := by
    intro u hu hne
    obtain ⟨hw, hs⟩ := hm u hu
    refine ⟨by rw [isWorker_setFrames, act_isWorker ha (lt_of_isWorker hw), hw], ?_⟩
    rcases hs with hs | hs
    · exact .inl ((act_stop ha hs).resolve_right hne)
    · exact act_isWorking ht ha hs
  rcases act_handles ha with e | ⟨e, -⟩ | ⟨e, hs, hth⟩
  · refine ⟨by rw [handles_setFrames, e]; exact hn, fun u hu => ?_⟩
    rw [handles_setFrames, e] at hu
    exact old u hu (by rw [e]; exact List.ne_nil_of_mem hu)
  · exact ⟨by rw [handles_setFrames, e]; exact List.nodup_nil, fun u hu => by simp [e] at hu⟩
  · have hnew : s.threads.length ∉ s.handles := fun hmem => Nat.lt_irrefl _ (lt_of_isWorker (hm _ hmem).1)
    refine ⟨?_, fun u hu => ?_⟩
    · rw [handles_setFrames, e]
      exact List.Nodup.append hn (List.nodup_singleton _) (by simpa using hnew)
    · rw [handles_setFrames, e, List.mem_append, List.mem_singleton] at hu
      rcases hu with hu | rfl
      · exact old u hu (by simp [e])
      · refine ⟨by rw [isWorker_setFrames]; simp [isWorker, hth], .inr ?_⟩
        rw [IsWorking, framesOf_setFrames_ne (Nat.ne_of_gt hlt), framesOf_append_self hth]
        simp [workingIn]

end Pool

variable {o : Options} {w : World} {scripts : List (List Action)} {s : Pool}

theorem Reachable.staged (h : Reachable o w scripts s) : s.Staged := by
  refine h.keeps (P := Pool.Staged) ?_ ?_
  · exact ⟨none, total_initial fun _ _ => rfl, .free (Nat.zero_le _) (total_initial fun _ _ => rfl)⟩
  · rintro s s' t - hs ⟨f, rest, fs, s₁, hf, ha, rfl⟩
    exact Pool.act_staged hf ha hs

theorem Reachable.manned (h : Reachable o w scripts s) : s.Manned := by
  refine h.keeps (P := Pool.Manned) ⟨List.nodup_nil, fun u hu => by cases hu⟩ ?_
  rintro s s' t - hs ⟨f, rest, fs, s₁, hf, ha, rfl⟩
  exact Pool.act_manned hf ha hs

end StatementPool
