import StatementPool.Proofs.Pool.Transition
/-!
# The order of frames

What a frame can stand on: a worker and the script of an outside thread are the last frames of
their thread, a callback runs on its worker, and a destructor runs for a list of queries that are
dropped. `Reachable.ordered` says so of every thread of a reachable pool, and
`Reachable.isWorker_of_mem` that only workers take queries and run callbacks.
-/

namespace StatementPool

/-- What a frame stands on. -/
def Frame.StandsOn : Frame → List Frame → Prop
  | .worker _, below => below = []
  | .script .outside _ _ _, below => below = []
  | .script (.callback _ _) _ _ _, below => below = [.worker .seek]
  | .script (.destructor _) _ _ _, below => ∃ left a rest, below = .discard left a :: rest
  | _, _ => True

/-- The query that a frame holds: it is executed, or its callback is about to run or runs. -/
def Frame.held? : Frame → Option Nat
  | .worker (.execute q _) | .worker (.deliver q _) => some q.serial
  | .script (.callback i _) _ _ _ => some i
  | _ => none

/-- Every frame stands on what it can stand on. -/
def Ordered : List Frame → Prop
  | [] => True
  | f :: rest => f.StandsOn rest ∧ Ordered rest

@[simp] theorem ordered_nil : Ordered [] := trivial

@[simp] theorem ordered_cons {f : Frame} {rest : List Frame} :
    Ordered (f :: rest) ↔ f.StandsOn rest ∧ Ordered rest := .rfl

/-- Every frame of an ordered stack stands on frames of the same stack. -/
theorem Ordered.below {f : Frame} {fs : List Frame} (h : Ordered fs) (hf : f ∈ fs) :
    ∃ below, f.StandsOn below ∧ ∀ g ∈ below, g ∈ fs := by
  induction fs with
  | nil => cases hf
  | cons g gs ih =>
    rcases List.mem_cons.1 hf with rfl | hf
    · exact ⟨gs, h.1, fun g hg => List.mem_cons_of_mem _ hg⟩
    · obtain ⟨below, hs, hb⟩ := ih h.2 hf
      exact ⟨below, hs, fun g hg => List.mem_cons_of_mem _ (hb g hg)⟩

/-- A worker holds what a frame of its thread holds. -/
theorem Ordered.worker_of_held {f : Frame} {fs : List Frame} {i : Nat} (h : Ordered fs) (hf : f ∈ fs)
    (hi : f.held? = some i) : ∃ p, .worker p ∈ fs := by
  cases f with
  | worker p => exact ⟨p, hf⟩
  | script role owns todo answers =>
    cases role with
    | callback j n =>
      obtain ⟨below, rfl, hb⟩ := h.below hf
      exact ⟨.seek, hb _ List.mem_cons_self⟩
    | outside | destructor => cases hi
  | _ => cases hi

theorem ordered_giveAnswer {a : Answer} {fs : List Frame} (h : Ordered fs) : Ordered (giveAnswer a fs) := by
  unfold giveAnswer
  split
  · rename_i role owns todo answers rest
    exact ⟨by cases role <;> exact h.1, h.2⟩
  · exact h

namespace Pool

variable {s s₁ : Pool} {t : ThreadId} {f : Frame} {rest fs : List Frame}

theorem ordered_wokenFrames {gs : List Frame} (h : Ordered gs) : Ordered (wokenFrames gs) := by
  unfold wokenFrames
  split
  · exact h
  · exact h

theorem leaving_ordered {owners owns owners' fs} (h : Leaving owners rest owns owners' fs)
    (hr : Ordered rest) : Ordered fs := by
  cases h with
  | keep => exact hr
  | share => exact ordered_giveAnswer hr
  | last => exact ⟨trivial, trivial, hr⟩

/-- What a thread does next stands on what was below. -/
theorem act_ordered (h : Act s t rest f fs s₁) (ho : Ordered (f :: rest)) : Ordered fs := by
  obtain ⟨hf, hr⟩ := ho
  cases h
  case returned hl | dropped hl => exact leaving_ordered hl hr
  case release role todo answers owners hl =>
    exact leaving_ordered hl ⟨by cases role <;> exact hf, hr⟩
  case answer role _ _ _ _ _ _ _ => exact ⟨by cases role <;> exact hf, hr⟩
  case pushRow role _ _ _ _ _ => exact ⟨by cases role <;> exact hf, hr⟩
  case openGate role _ _ _ _ => exact ⟨by cases role <;> exact hf, hr⟩
  case submit role _ _ _ _ _ _ _ _ _ => exact ⟨trivial, by cases role <;> exact hf, hr⟩
  case callStart role _ _ _ _ => exact ⟨trivial, by cases role <;> exact hf, hr⟩
  case callTerminate role _ _ _ _ => exact ⟨trivial, by cases role <;> exact hf, hr⟩
  case discard => exact ⟨⟨_, _, _, rfl⟩, trivial, hr⟩
  case deliver => cases hf; exact ⟨rfl, rfl, trivial⟩
  case exit => exact hr
  case exitLast => exact ⟨trivial, hr⟩
  case notifyNone | notifyOne | startPanic | startRefused | started | startFailed | terminateIdle | terminateReturn
    | discardEnd | retire => exact ordered_giveAnswer hr
  all_goals exact ⟨hf, hr⟩

theorem mem_worker_giveAnswer {a : Answer} {gs : List Frame} {p : WorkerPhase}
    (h : .worker p ∈ giveAnswer a gs) : .worker p ∈ gs := by
  unfold giveAnswer at h
  split at h
  · simpa using h
  · exact h

theorem mem_worker_wokenFrames {gs : List Frame} {p : WorkerPhase} (h : .worker p ∈ wokenFrames gs) :
    ∃ p, .worker p ∈ gs := by
  unfold wokenFrames at h
  split at h
  · exact ⟨.parked, by simp⟩
  · exact ⟨p, h⟩

theorem leaving_mem_worker {owners owns owners' fs p} (h : Leaving owners rest owns owners' fs)
    (hp : .worker p ∈ fs) : .worker p ∈ rest := by
  cases h with
  | keep => exact hp
  | share => exact mem_worker_giveAnswer hp
  | last => simpa using hp

/-- Only a worker goes on as a worker. -/
theorem act_mem_worker (h : Act s t rest f fs s₁) {p} (hp : .worker p ∈ fs) : ∃ p, .worker p ∈ f :: rest := by
  cases h
  case returned hl | dropped hl => exact ⟨p, List.mem_cons_of_mem _ (leaving_mem_worker hl hp)⟩
  case release hl => exact ⟨p, List.mem_cons_of_mem _ (by simpa using leaving_mem_worker hl hp)⟩
  case notifyNone | notifyOne | startPanic | startRefused | started | startFailed | terminateIdle | terminateReturn
    | discardEnd | retire => exact ⟨p, List.mem_cons_of_mem _ (mem_worker_giveAnswer hp)⟩
  case boot | ready | seek | checkStop | checkGo | park | take | execute | executed | deliver | leave | exitLast
    | wake => exact ⟨_, List.mem_cons_self⟩
  case exit => exact ⟨p, List.mem_cons_of_mem _ hp⟩
  all_goals exact ⟨p, by simpa using hp⟩

end Pool

variable {o : Options} {w : World} {scripts : List (List Action)} {s : Pool}

theorem framesOf_initial (o : Options) (w : World) (scripts : List (List Action)) (t : ThreadId) :
    (Pool.initial o w scripts).framesOf t = [] ∨
      ∃ actions, (Pool.initial o w scripts).framesOf t = [.script .outside true actions []] := by
  simp only [Pool.framesOf, Pool.initial, List.getElem?_map]
  cases scripts[t]? with
  | none => exact .inl rfl
  | some actions => exact .inr ⟨actions, rfl⟩

theorem isWorker_initial (o : Options) (w : World) (scripts : List (List Action)) (t : ThreadId) :
    (Pool.initial o w scripts).isWorker t = false := by
  simp only [Pool.isWorker, Pool.initial, List.getElem?_map]
  cases scripts[t]? <;> rfl

/-- Sums start at zero when the script of an outside thread weighs nothing. -/
theorem total_initial {M : Type} [AddCommMonoid M] {v : ThreadId → Frame → M}
    (hv : ∀ t actions, v t (.script .outside true actions []) = 0) : (Pool.initial o w scripts).total v = 0 := by
  apply Finset.sum_eq_zero
  intro t _
  rcases framesOf_initial o w scripts t with e | ⟨actions, e⟩
  · rw [e, stackWeight_nil]
  · rw [e, stackWeight_cons, stackWeight_nil, hv, add_zero]

theorem Reachable.ordered (h : Reachable o w scripts s) (t : ThreadId) : Ordered (s.framesOf t) := by
  revert t
  refine h.keeps (P := fun s => ∀ t, Ordered (s.framesOf t)) (fun t => ?_) ?_
  · rcases framesOf_initial o w scripts t with e | ⟨actions, e⟩
    · rw [e]; exact trivial
    · rw [e]; exact ⟨rfl, trivial⟩
  · rintro s s' t - all ⟨f, rest, fs, s₁, hf, ha, rfl⟩
    exact Pool.act_threadwise ha hf all (Pool.act_ordered ha (hf ▸ all t))
      (fun _ => Pool.ordered_wokenFrames) ⟨rfl, trivial⟩

/-- Only workers take queries. -/
theorem Reachable.isWorker_of_mem (h : Reachable o w scripts s) {t : ThreadId} {p : WorkerPhase}
    (hp : .worker p ∈ s.framesOf t) : s.isWorker t = true := by
  revert t p
  refine h.keeps (P := fun s => ∀ {t p}, .worker p ∈ s.framesOf t → s.isWorker t = true) ?_ ?_
  · intro t p hp
    rcases framesOf_initial o w scripts t with e | ⟨actions, e⟩ <;> simp [e] at hp
  · rintro s s' t - all ⟨f, rest, fs, s₁, hf, ha, rfl⟩ u p hp
    have hlt := Pool.lt_of_framesOf hf
    rw [Pool.isWorker_setFrames]
    -- frames of a worker come from frames of the same worker, or from its start
    by_cases e : u = t
    · subst e
      rw [Pool.framesOf_setFrames_self (Nat.lt_of_lt_of_le hlt (Pool.act_length_le ha))] at hp
      obtain ⟨p, hp⟩ := Pool.act_mem_worker ha hp
      rw [Pool.act_isWorker ha hlt]
      exact all (hf ▸ hp)
    · rw [Pool.framesOf_setFrames_ne e] at hp
      rcases Pool.act_framesOf ha u with h' | h' | ⟨-, -, h', -⟩
      · rw [h'] at hp
        have hw := all hp
        rwa [Pool.act_isWorker ha (Pool.lt_of_isWorker hw)]
      · rw [h'] at hp
        obtain ⟨p, hp⟩ := Pool.mem_worker_wokenFrames hp
        have hw := all hp
        rwa [Pool.act_isWorker ha (Pool.lt_of_isWorker hw)]
      · exact h'

theorem Reachable.isWorker_of_held (h : Reachable o w scripts s) {t : ThreadId} {f : Frame} {i : Nat}
    (hf : f ∈ s.framesOf t) (hi : f.held? = some i) : s.isWorker t = true :=
  let ⟨_, hp⟩ := (h.ordered t).worker_of_held hf hi
  h.isWorker_of_mem hp

end StatementPool
