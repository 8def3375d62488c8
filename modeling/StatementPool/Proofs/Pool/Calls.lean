import StatementPool.Proofs.Pool.Deadlock
import StatementPool.Proofs.Pool.Signals
/-!
# Calls, from their first step until they come back

A call lies on the frames of the thread that makes it, and has come back when these are on top again
(`Pool.Within`, `Pool.Returns`). Until then nobody touches what lies below it, and its own frame changes
only by its own steps (`Pool.act_above`). So a call of `terminate` that dropped the queue answers with the
number of queries that it took (`Leads.terminate_returns`), and what a part of a run puts into the queue and
takes out of it adds up (`Leads.queue`).
-/

namespace StatementPool

/-! ## What lies below a call -/

/-- Whether only its own steps change a frame: it is given no answer, and nobody wakes it. -/
def Frame.isClosed : Frame → Bool
  | .script .. | .worker .parked => false
  | _ => true

@[simp] theorem length_giveAnswer (a : Answer) (fs : List Frame) : (giveAnswer a fs).length = fs.length := by
  unfold giveAnswer
  split <;> rfl

theorem giveAnswer_above {b : Frame} (hb : b.isClosed = true) (a : Answer) (above below : List Frame) :
    ∃ above', giveAnswer a (above ++ b :: below) = above' ++ b :: below := by
  unfold giveAnswer
  split
  · rename_i e
    cases above with
    | nil => cases e; cases hb
    | cons g gs => cases e; exact ⟨_ :: gs, rfl⟩
  · exact ⟨above, rfl⟩

namespace Pool

variable {s s' s₁ : Pool} {t u : ThreadId} {f b : Frame} {rest fs above below : List Frame}

theorem framesOf_act (ht : s.framesOf t = f :: rest) (ha : Act s t rest f fs s₁) :
    (s₁.setFrames t fs).framesOf t = fs :=
  framesOf_setFrames_self (Nat.lt_of_lt_of_le (lt_of_framesOf ht) (act_length_le ha)) fs

theorem leaving_above {owners owns owners'} (hb : b.isClosed = true)
    (h : Leaving owners (above ++ b :: below) owns owners' fs) : ∃ above', fs = above' ++ b :: below := by
  cases h with
  | keep => exact ⟨above, rfl⟩
  | share => exact giveAnswer_above hb ..
  | last => exact ⟨.terminate .lock :: .retire :: above, rfl⟩

/-- A step on a frame above a closed one leaves that one and all below it alone. -/
theorem act_above (hb : b.isClosed = true) (ha : Act s t (above ++ b :: below) f fs s₁) :
    ∃ above', fs = above' ++ b :: below := by
  cases ha
  case returned hl | dropped hl => exact leaving_above hb hl
  case release role todo answers owners hl =>
    have hl : Leaving s.owners ((.script role false todo answers :: above) ++ b :: below) true owners fs := hl
    exact leaving_above hb hl
  case notifyNone | notifyOne | startPanic | startRefused | started | startFailed | terminateIdle | terminateReturn
    | discardEnd | retire => exact giveAnswer_above hb ..
  case exit => exact ⟨above, rfl⟩
  case submit | callStart | callTerminate | discard | deliver => exact ⟨_ :: _ :: above, rfl⟩
  all_goals exact ⟨_ :: above, rfl⟩

theorem wokenFrames_above (hb : b.isClosed = true) (above below : List Frame) :
    ∃ above', wokenFrames (above ++ b :: below) = above' ++ b :: below ∧ above'.length = above.length := by
  unfold wokenFrames
  split
  · rename_i e
    cases above with
    | nil => cases e; cases hb
    | cons g gs => cases e; exact ⟨_ :: gs, rfl, rfl⟩
  · exact ⟨above, rfl, rfl⟩

/-- A step of one thread leaves a closed frame of another one and all below it alone. -/
theorem act_elsewhere (hu : u ≠ t) (hf : s.framesOf u = above ++ b :: below) (hb : b.isClosed = true)
    (ha : Act s t rest f fs s₁) :
    ∃ above', (s₁.setFrames t fs).framesOf u = above' ++ b :: below ∧ above'.length = above.length := by
  rw [framesOf_setFrames_ne hu]
  rcases act_framesOf ha u with e | e | ⟨rfl, -⟩
  · exact ⟨above, e.trans hf, rfl⟩
  · rw [e, hf]
    exact wokenFrames_above hb ..
  · have hlt : s.threads.length < s.threads.length := lt_of_mem_framesOf (f := b) (by simp [hf])
    exact absurd hlt (Nat.lt_irrefl _)

theorem act_elsewhere_first (hu : u ≠ t) (hf : s.framesOf u = b :: below) (hb : b.isClosed = true)
    (ha : Act s t rest f fs s₁) : (s₁.setFrames t fs).framesOf u = b :: below := by
  have hfirst : s.framesOf u = [] ++ b :: below := hf
  obtain ⟨above, e, hl⟩ := act_elsewhere hu hfirst hb ha
  rw [e, List.length_eq_zero_iff.1 hl]
  rfl

/-! ## Calls -/

/-- A step before the call that thread `t` made on its frames `rest` comes back. -/
def Within (t : ThreadId) (rest : List Frame) (_ : Pool) (_ : Frame) (s' : Pool) : Prop :=
  rest.length < (s'.framesOf t).length

instance (t : ThreadId) (rest : List Frame) (s : Pool) (f : Frame) (s' : Pool) : Decidable (Within t rest s f s') :=
  inferInstanceAs (Decidable (rest.length < (s'.framesOf t).length))

/-- The step in which the call that thread `t` made on its frames `rest` comes back. -/
def Returns (t : ThreadId) (rest : List Frame) (s s' : Pool) : Prop :=
  ∃ l, s.next l = some s' ∧ rest.length < (s.framesOf t).length ∧ (s'.framesOf t).length ≤ rest.length

/-- A call of thread `t` on its frames `rest` has taken the queries that are left to drop, and will answer `n`. -/
def Drops (t : ThreadId) (rest : List Frame) (n : Nat) (s : Pool) : Prop :=
  ∃ above left, s.framesOf t = above ++ .discard left (.count n) :: rest

/-- Such a call goes on, or it comes back with its answer. -/
theorem Drops.act {n : Nat} (h : s.Drops u below n) (ht : s.framesOf t = f :: rest) (ha : Act s t rest f fs s₁) :
    (s₁.setFrames t fs).Drops u below n ∨
      f = .discard [] (.count n) ∧ (s₁.setFrames t fs).framesOf u = giveAnswer (.count n) below ∧
        s₁.log = s.log ++ [.terminated u n] := by
  obtain ⟨above, left, hu⟩ := h
  by_cases e : u = t
  · subst e
    cases above with
    | nil =>
      cases ht.symm.trans hu
      cases ha with
      | terminateReturn => exact .inr ⟨rfl, framesOf_act ht .terminateReturn, rfl⟩
      | discardEnd hn => exact absurd rfl (hn n)
      | @discard q left _ => exact .inl ⟨[_], left, framesOf_act ht .discard⟩
    | cons g gs =>
      cases ht.symm.trans hu
      obtain ⟨above', hfs⟩ := act_above rfl ha
      exact .inl ⟨above', left, by rw [framesOf_act ht ha, hfs]⟩
  · obtain ⟨above', hu, -⟩ := act_elsewhere e hu rfl ha
    exact .inl ⟨above', left, hu⟩

end Pool

/-! ## Parts of runs -/

/-- Milestones that no query passed make no difference. -/
theorem passed_congr {ks ks' : List Milestone} {es : List Event}
    (h : ∀ k, passed [k] es = [] ∨ (k ∈ ks ↔ k ∈ ks')) : passed ks es = passed ks' es := by
  refine List.filterMap_congr fun e he => ?_
  cases hm : e.milestone? with
  | none => rfl
  | some x =>
    rcases h x.1 with hk | hk
    · have hnone := List.filterMap_eq_nil_iff.1 hk e he
      simp [hm] at hnone
    · simp [hk]

/-- What is added to a log names no query when the log names the same ones as before. -/
theorem passed_eq_nil {ks : List Milestone} {log log' es : List Event} (hes : log' = log ++ es)
    (h : passed ks log' = passed ks log) : passed ks es = [] := by
  rw [hes, passed_append] at h
  exact List.append_right_eq_self.1 h

namespace Leads

variable {P : Pool → Frame → Pool → Prop} {o : Options} {w : World} {scripts : List (List Action)} {s s' : Pool}
variable {t : ThreadId} {rest : List Frame}

/-- The log only grows. -/
theorem log (h : Leads P s s') : ∃ es, s'.log = s.log ++ es := by
  refine h.keeps (Q := fun a => ∃ es, a.log = s.log ++ es) ⟨[], (List.append_nil _).symm⟩ ?_
  rintro a t f rest fs a₁ - ⟨es, hes⟩ - - ha
  obtain ⟨more, hmore, -⟩ := Pool.act_log ha
  exact ⟨es ++ more, by rw [Pool.log_setFrames, hmore, hes, List.append_assoc]⟩

theorem mono {R : Pool → Frame → Pool → Prop} (hP : ∀ a f b, P a f b → R a f b) (h : Leads P s s') : Leads R s s' := by
  induction h with
  | refl => exact .refl
  | next l _ hf hn hp ih => exact ih.next l hf hn (hP _ _ _ hp)

theorem retired (h : Leads P s s') (hr : s'.retired = false) : s.retired = false := by
  revert hr
  refine h.keeps (Q := fun a => a.retired = false → s.retired = false) id ?_
  rintro a t f rest fs a₁ - hs - - ha hr
  exact hs (Pool.act_retired ha hr)

/-- What waits and what is submitted is taken or discarded, or waits at the end, in this order. -/
theorem queue (hr : Reachable o w scripts s) (h : Leads P s s') (hret : s'.retired = false) {es : List Event}
    (hes : s'.log = s.log ++ es) :
    s.waiting ++ passed [.submitted] es = passed [.taken, .discarded] es ++ s'.waiting := by
  have before := hr.inOrder.complete (h.retired hret)
  have after := (h.reachable hr).inOrder.complete hret
  rw [hes, passed_append, passed_append, ← before, List.append_assoc, List.append_assoc] at after
  exact (List.append_cancel_left after).symm

/-- While nothing is discarded, it is taken or waits. -/
theorem queue_kept (hr : Reachable o w scripts s) (h : Leads P s s') (hret : s'.retired = false)
    (hd : s'.discarded = s.discarded) :
    ∃ es, s'.log = s.log ++ es ∧ s.waiting ++ passed [.submitted] es = passed [.taken] es ++ s'.waiting := by
  obtain ⟨es, hes⟩ := h.log
  have hdiscarded : passed [.discarded] es = [] := passed_eq_nil hes hd
  have hgone : passed [.taken, .discarded] es = passed [.taken] es :=
    passed_congr fun k => by cases k <;> simp [hdiscarded]
  exact ⟨es, hes, hgone ▸ h.queue hr hret hes⟩

theorem trans {s'' : Pool} (h : Leads P s s') (h' : Leads P s' s'') : Leads P s s'' := by
  induction h' with
  | refl => exact h
  | next l _ hf hn hp ih => exact ih.next l hf hn hp

theorem drops {n : Nat} (h : Leads (Pool.Within t rest) s s') (hs : s.Drops t rest n) : s'.Drops t rest n := by
  refine h.keeps hs ?_
  rintro a u f below fs a₁ - ha hp hu hact
  refine (ha.act hu hact).resolve_right ?_
  rintro ⟨-, e, -⟩
  rw [Pool.Within, e, length_giveAnswer] at hp
  exact Nat.lt_irrefl _ hp

/-- A call that has taken `n` queries to drop them answers with `n` when it comes back. -/
theorem terminate_returns {s'' : Pool} {n : Nat} (h : Leads (Pool.Within t rest) s s') (hs : s.Drops t rest n)
    (hend : Pool.Returns t rest s' s'') :
    s''.framesOf t = giveAnswer (.count n) rest ∧ s''.log = s'.log ++ [.terminated t n] := by
  obtain ⟨l, hn, -, hlen⟩ := hend
  obtain ⟨f, below, fs, s₁, hf, ha, rfl⟩ := Pool.next_steps hn
  refine (((h.drops hs).act hf ha).resolve_left ?_).2
  rintro ⟨above, left, e⟩
  rw [e] at hlen
  simp at hlen
  omega

end Leads

end StatementPool
