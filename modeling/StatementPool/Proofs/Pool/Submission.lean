import StatementPool.Proofs.Pool.Delivery
import StatementPool.Proofs.Pool.Order
/-!
# Submissions

A call that submits a query draws the number of the query before it locks the queue.
`ReachableWith` keeps the queries that were submitted, in the order in which they reached the queue.
While no two calls are between these two steps at the same time, this is also the order of the
numbers, and with one worker the callbacks are called in that order (`ReachableWhile.rising`).
`numbers_out_of_order` is a run in which two calls overlap and the order is the other one.
-/

namespace StatementPool

/-! ## The queries that were submitted -/

/-- The queries that a step on a frame puts into the queue. -/
def Frame.puts : Frame → List Query
  | .push q => [q]
  | _ => []

/-- The frame that the next step works on. -/
def Pool.acting (s : Pool) : Label → Option Frame
  | .run t _ | .refuse t _ | .wake t => (s.framesOf t).head?

/-- What a pool can become by steps on frames that have a property, and the queries that were submitted
on the way. -/
inductive ReachableWith (P : Pool → Frame → Prop) (o : Options) (w : World) (scripts : List (List Action)) :
    List Query → Pool → Prop where
  | initial : ReachableWith P o w scripts [] (.initial o w scripts)
  | next {qs : List Query} {s s' : Pool} {f : Frame} (l : Label) : ReachableWith P o w scripts qs s →
      s.acting l = some f → P s f → s.next l = some s' → ReachableWith P o w scripts (qs ++ f.puts) s'

/-- The pool after several labels and the queries that were submitted by then, if the steps are on frames
that have a property. -/
def Pool.runWith (P : Pool → Frame → Prop) [∀ s, DecidablePred (P s)] (s : Pool) (qs : List Query) :
    List Label → Option (List Query × Pool)
  | [] => some (qs, s)
  | l :: ls => match s.acting l, s.next l with
    | some f, some s' => if P s f then s'.runWith P (qs ++ f.puts) ls else none
    | _, _ => none

theorem Pool.next_acting {s s' : Pool} {l : Label} {f : Frame} (hf : s.acting l = some f) (h : s.next l = some s') :
    ∃ t rest fs s₁, s.framesOf t = f :: rest ∧ Act s t rest f fs s₁ ∧ s' = s₁.setFrames t fs := by
  obtain ⟨g, rest, fs, s₁, ht, ha, e⟩ := next_steps h
  have head : s.acting l = some g := by
    cases l <;> exact congrArg List.head? ht
  cases hf.symm.trans head
  exact ⟨l.thread, rest, fs, s₁, ht, ha, e⟩

namespace ReachableWith

variable {P : Pool → Frame → Prop} {o : Options} {w : World} {scripts : List (List Action)} {qs : List Query} {s : Pool}

theorem reachable (h : ReachableWith P o w scripts qs s) : Reachable o w scripts s := by
  induction h with
  | initial => exact .initial
  | next l _ _ _ hn ih => exact .next l ih hn

/-- What holds at first, when nothing was submitted, and is kept by every step holds of all that is
reachable. -/
theorem keeps {Q : List Query → Pool → Prop} (first : Q [] (.initial o w scripts))
    (step : ∀ {qs s t f rest fs s₁}, ReachableWith P o w scripts qs s → Q qs s → P s f → s.framesOf t = f :: rest →
      Pool.Act s t rest f fs s₁ → Q (qs ++ f.puts) (s₁.setFrames t fs))
    (h : ReachableWith P o w scripts qs s) : Q qs s := by
  induction h with
  | initial => exact first
  | next l hr hf hp hn ih =>
    obtain ⟨t, rest, fs, s₁, ht, ha, rfl⟩ := Pool.next_acting hf hn
    exact step hr ih hp ht ha

theorem runWith [∀ s, DecidablePred (P s)] {qs' : List Query} {s' : Pool} {ls : List Label}
    (h : ReachableWith P o w scripts qs s) (hr : s.runWith P qs ls = some (qs', s')) :
    ReachableWith P o w scripts qs' s' := by
  induction ls generalizing qs s with
  | nil => cases hr; exact h
  | cons l ls ih =>
    simp only [Pool.runWith] at hr
    split at hr
    · rename_i f s₁ hf hn
      split at hr
      · rename_i hp
        exact ih (h.next l hf hp hn) hr
      · cases hr
    · cases hr

/-- The log names the queries in the order in which they were submitted. -/
theorem submitted (h : ReachableWith P o w scripts qs s) : passed [.submitted] s.log = qs.map Query.serial := by
  refine h.keeps (Q := fun qs s => passed [.submitted] s.log = qs.map Query.serial) rfl ?_
  rintro qs s t f rest fs s₁ - hs - ht ha
  rw [List.map_append, ← hs]
  cases ha
  case push q hq => simp [passed_cons, Event.milestone?, Frame.puts]
  case drain hq => simp [passed_discarded, Frame.puts]
  case execute => simp [Frame.puts]
  all_goals simp [passed_cons, Event.milestone?, Frame.puts]

end ReachableWith

/-! ## Notifications -/

def Event.notification? : Event → Option Notification
  | .notified _ n => some n
  | _ => none

/-- The notifications that callbacks were called with, in order. -/
def Pool.notifications (s : Pool) : List Notification := s.log.filterMap Event.notification?

variable {o : Options} {w : World} {scripts : List (List Action)} {s : Pool}

/-- A callback is called with the report of the query. -/
theorem Reachable.notified_eq (h : Reachable o w scripts s) {i : Nat} {n : Notification} (hn : .notified i n ∈ s.log) :
    ∃ x, n = reportOf o.messageType i x := by
  have hn : .notified i n ∈ s.history i := (Pool.mem_history (by exact beq_self_eq_true i)).2 hn
  obtain ⟨-, y, -, hc⟩ := h.course (List.ne_nil_of_mem hn)
  rw [h.options] at hc
  generalize s.history i = es at hn hc
  cases hc with
  | reporting t x => exact ⟨x, by simpa using hn⟩
  | finished t x answers => exact ⟨x, by simpa using hn⟩
  | _ => simp at hn

theorem Reachable.notified_ids (h : Reachable o w scripts s) :
    s.notifications.map Notification.queryId = (passed [.notified] s.log).map queryId := by
  unfold Pool.notifications passed
  rw [List.map_filterMap, List.map_filterMap]
  apply List.filterMap_congr
  intro e he
  cases e with
  | notified i n =>
    obtain ⟨x, rfl⟩ := h.notified_eq he
    rfl
  | _ => rfl

/-! ## The order of the numbers -/

def pushesIn (_ : ThreadId) : Frame → Multiset Query
  | .push q => {q}
  | _ => 0

theorem steady_pushesIn : Steady pushesIn where
  answers _ _ _ _ _ _ := rfl
  parked _ := rfl

namespace Pool

/-- The queries that have drawn their number and are not in the queue yet. -/
def pushing (s : Pool) : Multiset Query := s.total pushesIn

/-- With one submission at a time between its number and the queue: the numbers rise. -/
structure Rising (s : Pool) : Prop where
  submitted : (passed [.submitted] s.log).Pairwise (· < ·)
  drawn : ∀ i ∈ passed [.submitted] s.log, i < s.drawn
  pushing : ∀ q ∈ s.pushing, q.serial < s.drawn ∧ ∀ i ∈ passed [.submitted] s.log, i < q.serial

variable {s s₁ : Pool} {t : ThreadId} {f : Frame} {rest fs : List Frame}

/-- A submission reaches the queue, or draws its number, or nothing happens to submissions. -/
theorem act_pushing (ht : s.framesOf t = f :: rest) (ha : Act s t rest f fs s₁) :
    (∃ q, s.pushing = {q} + (s₁.setFrames t fs).pushing ∧ s₁.drawn = s.drawn ∧
      passed [.submitted] s₁.log = passed [.submitted] s.log ++ [q.serial]) ∨
    (∃ q, (s₁.setFrames t fs).pushing = {q} + s.pushing ∧ q.serial = s.drawn ∧ s₁.drawn = s.drawn + 1 ∧
      passed [.submitted] s₁.log = passed [.submitted] s.log) ∨
    ((s₁.setFrames t fs).pushing = s.pushing ∧ s₁.drawn = s.drawn ∧
      passed [.submitted] s₁.log = passed [.submitted] s.log) := by
  have before : s.pushing = _ := total_cons ht
  have after := act_total steady_pushesIn (fun _ => rfl) ht ha
  change (s₁.setFrames t fs).pushing = _ at after
  cases ha
  case push q hq =>
    refine .inl ⟨q, ?_, rfl, by simp [passed_cons, Event.milestone?]⟩
    rw [before, after]
    simp [pushesIn]
  case submit st args script destructor handle todo answers ho =>
    refine .inr (.inl ⟨⟨s.drawn, st, args, script, destructor, handle⟩, ?_, rfl, rfl, rfl⟩)
    rw [before, after]
    simp [pushesIn]
  case returned hl | dropped hl =>
    rw [leaving_weight steady_pushesIn (fun _ => rfl) (fun _ => rfl) hl] at after
    exact .inr (.inr ⟨by rw [before, after]; simp [pushesIn], rfl, by simp [passed_cons, Event.milestone?]⟩)
  case release hl =>
    rw [leaving_weight steady_pushesIn (fun _ => rfl) (fun _ => rfl) hl] at after
    exact .inr (.inr ⟨by rw [before, after]; simp [pushesIn], rfl, rfl⟩)
  case drain => exact .inr (.inr ⟨by rw [before, after]; simp [pushesIn], rfl, by simp [passed_discarded]⟩)
  case execute => exact .inr (.inr ⟨by rw [before, after]; simp [pushesIn], rfl, by simp⟩)
  all_goals
    refine .inr (.inr ⟨?_, rfl, by simp [passed_cons, Event.milestone?]⟩)
    rw [before, after]
    simp [pushesIn, stackWeight_giveAnswer steady_pushesIn]

theorem act_rising (ht : s.framesOf t = f :: rest) (ha : Act s t rest f fs s₁) (hone : s.pushing.card ≤ 1)
    (h : s.Rising) : (s₁.setFrames t fs).Rising := by
  obtain ⟨hsub, hdrawn, hpush⟩ := h
  rcases act_pushing ht ha with ⟨q, hp, hd, hl⟩ | ⟨q, hp, hq, hd, hl⟩ | ⟨hp, hd, hl⟩
  · -- the only submission on the way reaches the queue: its number is above all that are there
    obtain ⟨hlt, habove⟩ := hpush q (by simp [hp])
    have hnone : (s₁.setFrames t fs).pushing = 0 := by
      rw [hp, Multiset.card_add, Multiset.card_singleton] at hone
      exact Multiset.card_eq_zero.1 (by omega)
    refine ⟨?_, ?_, fun q' hq' => ?_⟩
    · rw [log_setFrames, hl]
      exact List.pairwise_append.2 ⟨hsub, List.pairwise_singleton .., fun i hi j hj => by
        rw [List.mem_singleton.1 hj]; exact habove i hi⟩
    · rw [log_setFrames, hl]
      intro i hi
      change i < s₁.drawn
      rw [hd]
      rcases List.mem_append.1 hi with hi | hi
      · exact hdrawn i hi
      · rw [List.mem_singleton.1 hi]; exact hlt
    · rw [hnone] at hq'
      cases hq'
  · refine ⟨?_, ?_, fun q' hq' => ?_⟩
    · rw [log_setFrames, hl]
      exact hsub
    · rw [log_setFrames, hl]
      intro i hi
      exact (hdrawn i hi).trans (hd ▸ Nat.lt_succ_self _)
    · rw [log_setFrames, hl]
      change q'.serial < s₁.drawn ∧ _
      rw [hd]
      rw [hp] at hq'
      rcases Multiset.mem_add.1 hq' with hq' | hq'
      · rw [Multiset.mem_singleton.1 hq', hq]
        exact ⟨Nat.lt_succ_self _, hdrawn⟩
      · exact ⟨(hpush q' hq').1.trans (Nat.lt_succ_self _), (hpush q' hq').2⟩
  · refine ⟨?_, ?_, fun q' hq' => ?_⟩
    · rw [log_setFrames, hl]
      exact hsub
    · rw [log_setFrames, hl]
      exact hd ▸ hdrawn
    · rw [log_setFrames, hl]
      exact hd ▸ hpush q' (hp ▸ hq')

/-- No worker is in a call of `start` or of `terminate`, and at most one call that submits a query has
drawn a number and not reached the queue yet. -/
def OneSubmission (s : Pool) : Prop := s.Calm ∧ s.pushing.card ≤ 1

instance : DecidablePred OneSubmission := fun s => inferInstanceAs (Decidable (s.Calm ∧ s.pushing.card ≤ 1))

end Pool

namespace ReachableWhile

theorem mono {P Q : Pool → Prop} (hpq : ∀ s, P s → Q s) (h : ReachableWhile P o w scripts s) :
    ReachableWhile Q o w scripts s := by
  induction h with
  | initial hp => exact .initial (hpq _ hp)
  | next l _ hn hp ih => exact .next l ih hn (hpq _ hp)

/-- With one worker, and as long as calls that submit a query do not overlap, the numbers in the
notifications rise. -/
theorem rising (hm : o.maxThreads = 1) (h : ReachableWhile Pool.OneSubmission o w scripts s)
    (hd : s.drawn < 2 ^ 64) : (s.notifications.map Notification.queryId).Pairwise (· < ·) := by
  have hr : s.Rising := by
    refine h.keeps (Q := Pool.Rising) ⟨.nil, by simp [Pool.initial], fun q hq => ?_⟩ ?_
    · rw [Pool.pushing, total_initial fun _ _ => rfl] at hq
      cases hq
    · rintro s s' t hr hs ⟨f, rest, fs, s₁, hf, ha, rfl⟩
      exact Pool.act_rising hf ha hr.here.2 hs
  have ho := (h.mono fun _ hp => hp.1).oneByOne hm
  have hsub : (passed [.notified] s.log).Sublist (passed [.submitted] s.log) :=
    (ho.notified.trans ho.executed).sublist.trans ho.order
  rw [h.reachable.notified_ids]
  refine List.pairwise_map.2 ((hr.submitted.sublist hsub).imp_of_mem ?_)
  intro i j hi hj hij
  have hlt := hr.drawn j (hsub.subset hj)
  rw [UInt64.lt_iff_toNat_lt]
  simp only [queryId, UInt64.toNat_ofNat']
  omega

end ReachableWhile

/-- A pool that is started, and two queries from different threads. -/
def twoSubmitters : List (List Action) :=
  [[.start, .submit (.fail "no") .empty [] [] false], [.submit (.fail "no") .empty [] [] false]]

/-- One call submits its query, then the other. -/
def oneAfterTheOther : List Label :=
  stepsOf 0 5 ++ stepsOf 2 2 ++ stepsOf 0 4 ++ stepsOf 1 3 ++ stepsOf 2 26

theorem rising_of_one_after_the_other :
    ∃ s, (Pool.initial .standard ⟨[], [], [], []⟩ twoSubmitters).runWhile Pool.OneSubmission oneAfterTheOther = some s ∧
      (s.notifications.map Notification.queryId).Pairwise (· < ·) ∧ s.notifications.length = 2 := by
  obtain ⟨s, hr⟩ : ∃ s, (Pool.initial .standard ⟨[], [], [], []⟩ twoSubmitters).runWhile Pool.OneSubmission
    oneAfterTheOther = some s := ⟨_, rfl⟩
  have hw := (ReachableWhile.initial (by decide)).runWhile hr
  have hv : s.drawn = 2 ∧ s.notifications.length = 2 := by
    cases hr
    exact ⟨rfl, rfl⟩
  exact ⟨s, hr, hw.rising rfl (by rw [hv.1]; decide), hv.2⟩

/-- The first call draws its number; the second call draws the next one and reaches the queue before it. -/
def overlapping : List Label :=
  stepsOf 0 5 ++ stepsOf 2 2 ++ stepsOf 0 2 ++ stepsOf 1 3 ++ stepsOf 0 2 ++ stepsOf 2 26

/-- With one worker and no call on it, the query with the second number is run and reported first. -/
theorem numbers_out_of_order :
    ∃ s, (Pool.initial .standard ⟨[], [], [], []⟩ twoSubmitters).runWhile Pool.Calm overlapping = some s ∧
      s.options.maxThreads = 1 ∧ s.drawn < 2 ^ 64 ∧ s.notifications.map Notification.queryId = [2, 1] :=
  ⟨_, rfl, rfl, by decide, rfl⟩

end StatementPool
