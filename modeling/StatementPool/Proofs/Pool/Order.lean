import StatementPool.Proofs.Pool.Bound
import StatementPool.Proofs.Pool.Custody
/-!
# First in, first out

Workers take queries in the order in which they were put into the queue: when a query is taken, all
that were put there before it are gone, taken or discarded. With one worker, and as long as no
worker calls `start` or `terminate`, the callback of a query has come back before the next query is
taken, so statements are executed and callbacks called in that order. Both are `Reachable.fifo`.
-/

namespace StatementPool

/-! ## The order of the queue -/

/-- When query `i` is taken after the log `pre`, all that were submitted before it are gone: taken or
discarded, or lost with the pool that was taken down. -/
def TakenFirst (retired : Bool) (pre : List Event) (i : Nat) : Prop :=
  ∃ earlier later, passed [.submitted] pre = earlier ++ i :: later ∧
    (passed [.taken, .discarded] pre).Sublist earlier ∧ (retired = false → passed [.taken, .discarded] pre = earlier)

theorem TakenFirst.mono {r r' : Bool} {pre : List Event} {i : Nat} (h : TakenFirst r pre i)
    (hr : r' = false → r = false) : TakenFirst r' pre i :=
  let ⟨earlier, later, hs, hd, he⟩ := h
  ⟨earlier, later, hs, hd, fun h => he (hr h)⟩

/-- Queries leave the queue in the order in which they were put there. -/
structure Pool.InOrder (s : Pool) : Prop where
  nodup : (passed [.submitted] s.log).Nodup
  /-- What left the queue, and behind it what is there, are in the order of submission. -/
  order : (passed [.taken, .discarded] s.log ++ s.waiting).Sublist (passed [.submitted] s.log)
  /-- Until the pool is taken down, nothing else left the queue. -/
  complete : s.retired = false → passed [.taken, .discarded] s.log ++ s.waiting = passed [.submitted] s.log
  /-- Whenever a query was taken, all that were submitted before it had been taken or discarded. -/
  first : ∀ pre i t post, s.log = pre ++ .taken i t :: post → TakenFirst s.retired pre i

namespace Pool

variable {s s₁ : Pool} {t : ThreadId} {f : Frame} {rest fs : List Frame}

/-- What was submitted is what is gone and what waits, in this order. -/
def Queued (s : Pool) : Prop :=
  ∃ gone, passed [.submitted] s.log = gone ++ s.waiting ∧ (passed [.taken, .discarded] s.log).Sublist gone ∧
    (s.retired = false → passed [.taken, .discarded] s.log = gone)

/-- A step that puts queries at the end of the queue and takes some from its front. -/
theorem queued_of {s' : Pool} {es : List Event} (h : s.Queued) (hl : s'.log = s.log ++ es) (moved : List Nat)
    (hw : s.waiting ++ passed [.submitted] es = moved ++ s'.waiting)
    (hd : (passed [.taken, .discarded] es).Sublist moved)
    (hr : s'.retired = false → s.retired = false ∧ passed [.taken, .discarded] es = moved) : s'.Queued := by
  obtain ⟨gone, hg, hs, he⟩ := h
  refine ⟨gone ++ moved, ?_, ?_, ?_⟩
  · rw [hl, passed_append, hg, List.append_assoc, hw, List.append_assoc]
  · rw [hl, passed_append]
    exact hs.append hd
  · intro hr'
    obtain ⟨hr, hm⟩ := hr hr'
    rw [hl, passed_append, he hr, hm]

theorem act_queued (ha : Act s t rest f fs s₁) (h : s.Queued) : (s₁.setFrames t fs).Queued := by
  -- in each case the list is what the step takes from the front of the queue
  cases ha
  case push q hq =>
    exact queued_of h rfl [] (by simp [waiting, passed_cons, Event.milestone?]) (by simp [passed_cons, Event.milestone?])
      fun hr => ⟨hr, by simp [passed_cons, Event.milestone?]⟩
  case take q queue hq =>
    exact queued_of h rfl [q.serial] (by simp [waiting, hq, passed_cons, Event.milestone?])
      (by simp [passed_cons, Event.milestone?]) fun hr => ⟨hr, by simp [passed_cons, Event.milestone?]⟩
  case drain hq =>
    exact queued_of h rfl s.waiting (by simp [waiting, passed_discarded]) (by simp [waiting, passed_discarded])
      fun hr => ⟨hr, by simp [waiting, passed_discarded]⟩
  case retireEmpty =>
    exact queued_of h (List.append_nil _).symm s.waiting (by simp [waiting]) (by simp) fun hr => by cases hr
  case retire =>
    exact queued_of h (List.append_nil _).symm [] (by simp [waiting]) (by simp) fun hr => by cases hr
  case exitLast hr =>
    exact queued_of h (List.append_nil _).symm s.waiting (by simp [waiting]) (by simp)
      fun hr' => absurd (hr.symm.trans hr') (by simp)
  case execute q x x' w hx =>
    exact queued_of h rfl [] (by simp [waiting]) (by simp) fun hr => ⟨hr, by simp⟩
  all_goals
    first
      | exact queued_of h (List.append_nil _).symm [] (by simp [waiting]) (by simp) fun hr => ⟨hr, by simp⟩
      | exact queued_of h rfl [] (by simp [waiting, passed_cons, Event.milestone?])
          (by simp [passed_cons, Event.milestone?]) fun hr => ⟨hr, by simp [passed_cons, Event.milestone?]⟩

/-- What a step adds to the log: a query that is taken is the first one that waits. -/
theorem act_log (ha : Act s t rest f fs s₁) : ∃ es, s₁.log = s.log ++ es ∧
    ((∀ i u, .taken i u ∉ es) ∨ ∃ i later, es = [.taken i t] ∧ s.waiting = i :: later ∧ f = .worker .take) := by
  cases ha
  case take q queue hq => exact ⟨_, rfl, .inr ⟨q.serial, queue.map Query.serial, rfl, by rw [waiting, hq]; rfl, rfl⟩⟩
  case execute q x x' w hx =>
    refine ⟨_, rfl, .inl fun i u h => ?_⟩
    unfold Execution.events at h
    split at h <;> simp at h
  all_goals
    first
      | exact ⟨_, rfl, .inl (by simp)⟩
      | exact ⟨_, (List.append_nil _).symm, .inl (by simp)⟩

theorem act_retired (ha : Act s t rest f fs s₁) (hr : s₁.retired = false) : s.retired = false := by
  cases ha
  case retireEmpty | retire => cases hr
  all_goals exact hr

end Pool

/-- What held whenever a query was taken still does when the log goes on, if it holds of the log so
far in case the next query is taken. -/
theorem taken_append {Q : List Event → Nat → Prop} {log es : List Event}
    (h : ∀ pre i t post, log = pre ++ .taken i t :: post → Q pre i)
    (hs : (∀ i u, .taken i u ∉ es) ∨ ∃ i u, es = [.taken i u] ∧ Q log i) (pre : List Event) (i : Nat) (t : ThreadId)
    (post : List Event) (e : log ++ es = pre ++ .taken i t :: post) : Q pre i := by
  -- the event lies in what was added, or in the log as it was
  rcases List.append_eq_append_iff.1 e with ⟨mid, rfl, hes⟩ | ⟨mid, hlog, hmid⟩
  · rcases hs with hn | ⟨j, u, rfl, hq⟩
    · exact absurd (by rw [hes]; simp) (hn i t)
    · cases mid with
      | nil =>
        simp only [List.nil_append, List.cons.injEq, Event.taken.injEq] at hes
        rw [List.append_nil, ← hes.1.1]
        exact hq
      | cons x mid => simp at hes
  · cases mid with
    | nil =>
      simp only [List.append_nil] at hlog
      rcases hs with hn | ⟨j, u, rfl, hq⟩
      · exact absurd (by rw [← List.nil_append es, ← hmid]; simp) (hn i t)
      · simp only [List.nil_append, List.cons.injEq, Event.taken.injEq] at hmid
        rw [← hlog, hmid.1.1]
        exact hq
    | cons x mid =>
      rw [List.cons_append, List.cons.injEq] at hmid
      exact h pre i t mid (by rw [hlog, ← hmid.1])

variable {o : Options} {w : World} {scripts : List (List Action)} {s : Pool}

theorem Reachable.queued (h : Reachable o w scripts s) : s.Queued := by
  refine h.keeps (P := Pool.Queued) ⟨[], rfl, List.nil_sublist _, fun _ => rfl⟩ ?_
  rintro s s' t - hs ⟨f, rest, fs, s₁, -, ha, rfl⟩
  exact Pool.act_queued ha hs

theorem Reachable.inOrder (h : Reachable o w scripts s) : s.InOrder where
  nodup := h.nodup_passed .submitted
  order := by
    obtain ⟨gone, hg, hs, -⟩ := h.queued
    rw [hg]
    exact hs.append (List.Sublist.refl _)
  complete hr := by
    obtain ⟨gone, hg, -, he⟩ := h.queued
    rw [hg, he hr]
  first := by
    refine h.keeps (P := fun s => ∀ pre i t post, s.log = pre ++ .taken i t :: post →
      TakenFirst s.retired pre i) ?_ ?_
    · intro pre i t post e
      simp [Pool.initial] at e
    · rintro s s' t hr hs ⟨f, rest, fs, s₁, -, ha, rfl⟩
      have hret : (s₁.setFrames t fs).retired = false → s.retired = false := fun h => Pool.act_retired ha h
      obtain ⟨es, hl, htaken⟩ := Pool.act_log ha
      rw [Pool.log_setFrames, hl]
      refine taken_append (fun pre i u post e => (hs pre i u post e).mono hret) (htaken.imp id ?_)
      rintro ⟨i, later, rfl, hw, -⟩
      obtain ⟨gone, hg, hsub, he⟩ := hr.queued
      exact ⟨i, t, rfl, gone, later, by rw [hg, hw], hsub, fun h => he (hret h)⟩

/-! ## One at a time -/

/-- What is going on with the query that a worker holds. -/
inductive Work where
  | executing (i : Nat)
  | delivering (i : Nat)
  | reporting (i : Nat)

/-- The work that a script is about. -/
def Role.work : Role → Multiset Work
  | .callback i _ => {.reporting i}
  | _ => 0

def workIn (_ : ThreadId) : Frame → Multiset Work
  | .worker (.execute q _) => {.executing q.serial}
  | .worker (.deliver q _) => {.delivering q.serial}
  | .script role _ _ _ => role.work
  | _ => 0

theorem steady_workIn : Steady workIn where
  answers _ _ _ _ _ _ := rfl
  parked _ := rfl

/-- While one query at a time is worked on: the queries that were taken, executed, notified and that
have returned, in this order. -/
inductive Turn : Option Work → List Nat → List Nat → List Nat → List Nat → Prop where
  | idle (l) : Turn none l l l l
  | executing (l i) : Turn (some (.executing i)) (l ++ [i]) l l l
  | delivering (l i) : Turn (some (.delivering i)) (l ++ [i]) (l ++ [i]) l l
  | reporting (l i) : Turn (some (.reporting i)) (l ++ [i]) (l ++ [i]) (l ++ [i]) l

theorem Turn.prefixes {x : Option Work} {ts xs ns rs : List Nat} (h : Turn x ts xs ns rs) :
    xs <+: ts ∧ ns <+: xs ∧ rs <+: ns := by
  cases h <;> simp

namespace Pool

variable {s s₁ : Pool} {t : ThreadId} {f : Frame} {rest fs : List Frame}

/-- The queries that passed a milestone fit the one that is worked on. -/
def InTurn (s : Pool) : Prop :=
  ∃ x, s.total workIn = single x ∧
    Turn x (passed [.taken] s.log) (passed [.executed] s.log) (passed [.notified] s.log) (passed [.returned] s.log)

theorem inTurn_of_next {s' : Pool} {x : Work} {r : Multiset Work} {es : List Event} (h : s.InTurn) (y : Option Work)
    (hb : s.total workIn = {x} + r) (ha : s'.total workIn = (y.elim 0 fun y => {y}) + r) (hl : s'.log = s.log ++ es)
    (hs : ∀ {ts xs ns rs}, Turn (some x) ts xs ns rs →
      Turn y (ts ++ passed [.taken] es) (xs ++ passed [.executed] es) (ns ++ passed [.notified] es)
        (rs ++ passed [.returned] es)) : s'.InTurn := by
  obtain ⟨z, hz, ht⟩ := h
  obtain ⟨rfl, rfl⟩ := single_eq_add (hz.symm.trans hb)
  refine ⟨y, ha.trans (by cases y <;> simp [single]), ?_⟩
  simp only [hl, passed_append]
  exact hs ht

/-- A query is taken while none is worked on. -/
theorem inTurn_of_take {s' : Pool} {i : Nat} {t : ThreadId} (h : s.InTurn) (hb : s.total workIn = 0)
    (ha : s'.total workIn = {.executing i}) (hl : s'.log = s.log ++ [.taken i t]) : s'.InTurn := by
  obtain ⟨x, hx, hturn⟩ := h
  refine ⟨some (.executing i), ha, ?_⟩
  cases x with
  | some x => simp [hb, single] at hx
  | none =>
    simp only [hl, passed_append]
    generalize passed [.taken] s.log = ts, passed [.executed] s.log = xs, passed [.notified] s.log = ns,
      passed [.returned] s.log = rs at hturn
    cases hturn with
    | idle => simpa [passed_cons, Event.milestone?] using Turn.executing _ i

/-- While none is worked on, all that were taken have returned. -/
theorem returned_of_idle (h : s.InTurn) (hb : s.total workIn = 0) : passed [.returned] s.log = passed [.taken] s.log := by
  obtain ⟨x, hx, hturn⟩ := h
  cases x with
  | some x => simp [hb, single] at hx
  | none =>
    generalize passed [.taken] s.log = ts, passed [.executed] s.log = xs, passed [.notified] s.log = ns,
      passed [.returned] s.log = rs at hturn
    cases hturn with
    | idle => rfl

theorem inTurn_of_same {s' : Pool} {es : List Event} (h : s.InTurn) (ha : s'.total workIn = s.total workIn)
    (hl : s'.log = s.log ++ es) (hes : passed [.taken, .executed, .notified, .returned] es = []) : s'.InTurn := by
  obtain ⟨x, hx, ht⟩ := h
  refine ⟨x, ha.trans hx, ?_⟩
  have nil : ∀ k ∈ [Milestone.taken, .executed, .notified, .returned], passed [k] es = [] := fun k hk =>
    List.sublist_nil.1 (hes ▸ passed_sublist (by simpa using hk) es)
  simpa [hl, nil] using ht

/-- While at most one worker is at work, no other thread works on a query. -/
theorem others_workIn {o : Options} {w : World} {scripts : List (List Action)} (h : Reachable o w scripts s)
    (hone : s.atWork.length ≤ 1) {p : WorkerPhase} (hp : .worker p ∈ s.framesOf t) : s.others t workIn = 0 := by
  apply Finset.sum_eq_zero
  intro u hu
  apply List.sum_eq_zero
  intro x hx
  obtain ⟨g, hg, rfl⟩ := List.mem_map.1 hx
  by_contra hne
  have hheld : ∃ i, g.held? = some i := by
    cases g with
    | worker p => cases p <;> simp_all [workIn, Frame.held?]
    | script role => cases role <;> simp_all [workIn, Role.work, Frame.held?]
    | _ => exact absurd rfl hne
  obtain ⟨i, hi⟩ := hheld
  obtain ⟨p', hp'⟩ := (h.ordered u).worker_of_held hg hi
  have hut : u ≠ t := Finset.ne_of_mem_erase hu
  have hsub : [u, t] ⊆ s.atWork := by
    intro v hv
    rcases List.mem_pair.1 hv with rfl | rfl
    · exact mem_atWork.2 (h.isAtWork_of_mem hp')
    · exact mem_atWork.2 (h.isAtWork_of_mem hp)
  have hle := List.Nodup.length_le_of_subset (by simpa using hut) hsub
  exact absurd (hle.trans hone) (by simp)

theorem act_inTurn {o : Options} {w : World} {scripts : List (List Action)} (hr : Reachable o w scripts s)
    (hone : s.atWork.length ≤ 1) (ht : s.framesOf t = f :: rest) (ha : Act s t rest f fs s₁) (h : s.InTurn) :
    (s₁.setFrames t fs).InTurn := by
  have before : s.total workIn = workIn t f + (stackWeight (workIn t) rest + s.others t workIn) := by
    rw [total_eq (lt_of_framesOf ht), ht, stackWeight_cons, add_assoc]
  have after := act_total steady_workIn (fun _ => rfl) ht ha
  -- a query is taken only while none is worked on: the worker that takes it is the only one
  cases ha
  case take q queue hq =>
    obtain ⟨hbelow, -⟩ : Ordered (.worker .take :: rest) := ht ▸ hr.ordered t
    obtain rfl : rest = [] := hbelow
    rw [others_workIn hr hone (ht ▸ List.mem_cons_self)] at before after
    exact inTurn_of_take h before after rfl
  case executed q x o hx =>
    refine inTurn_of_next h (some (.delivering q.serial)) before (by rw [after]; simp [workIn]) rfl fun hs => ?_
    cases hs with
    | executing l i => simpa [passed_cons, Event.milestone?] using Turn.delivering _ _
  case deliver q o =>
    refine inTurn_of_next h (some (.reporting q.serial)) before
      (by rw [after]; simp [workIn, Role.work]) rfl fun hs => ?_
    cases hs with
    | delivering l i => simpa [passed_cons, Event.milestone?] using Turn.reporting _ _
  case returned i n owns answers owners hl =>
    rw [leaving_weight steady_workIn (fun _ => rfl) (fun _ => rfl) hl] at after
    refine inTurn_of_next h none before (by rw [after]; simp) rfl fun hs => ?_
    cases hs with
    | reporting l i => simpa [passed_cons, Event.milestone?] using Turn.idle _
  case dropped hl =>
    rw [leaving_weight steady_workIn (fun _ => rfl) (fun _ => rfl) hl] at after
    exact inTurn_of_same h (by rw [after, before]; simp [workIn, Role.work]) rfl
      (by simp [passed_cons, Event.milestone?])
  case release hl =>
    rw [leaving_weight steady_workIn (fun _ => rfl) (fun _ => rfl) hl] at after
    exact inTurn_of_same h (by rw [after, before, stackWeight_cons, add_assoc]; rfl) (List.append_nil _).symm rfl
  case drain hq =>
    exact inTurn_of_same h (by rw [after, before]; simp [workIn]) rfl (by simp [passed_discarded])
  case execute q x x' w hx =>
    exact inTurn_of_same h (by rw [after, before]; simp [workIn]) rfl (by simp)
  all_goals
    first
      | refine inTurn_of_same h ?_ (List.append_nil _).symm rfl
      | refine inTurn_of_same h ?_ rfl (by simp [passed_cons, Event.milestone?])
    rw [after, before]
    simp [workIn, Role.work, stackWeight_giveAnswer steady_workIn, add_assoc]

end Pool

/-- Queries are worked on one at a time, in the order in which they were submitted. -/
structure Pool.OneByOne (s : Pool) : Prop where
  /-- Whenever a query was taken, the callbacks of all that had been taken before had come back. -/
  apart : ∀ pre i t post, s.log = pre ++ .taken i t :: post → passed [.returned] pre = passed [.taken] pre
  /-- Statements are executed in the order in which the queries were taken. -/
  executed : passed [.executed] s.log <+: passed [.taken] s.log
  /-- Callbacks are called in the order in which the statements were executed. -/
  notified : passed [.notified] s.log <+: passed [.executed] s.log
  /-- Callbacks come back in the order in which they were called. -/
  returned : passed [.returned] s.log <+: passed [.notified] s.log
  order : (passed [.taken] s.log).Sublist (passed [.submitted] s.log)

namespace ReachableWhile

theorem atWork_le_one (hm : o.maxThreads = 1) (h : ReachableWhile Pool.Calm o w scripts s) : s.atWork.length ≤ 1 := by
  have hb := (Pool.length_atWork s).trans_le
    (Nat.add_le_add_right (Pool.length_attached_le h.reachable.staged) _)
  rw [h.detached_eq_nil, h.reachable.options, hm] at hb
  exact hb

theorem inTurn (hm : o.maxThreads = 1) (h : ReachableWhile Pool.Calm o w scripts s) : s.InTurn := by
  refine h.keeps (Q := Pool.InTurn) ⟨none, total_initial fun _ _ => rfl, .idle []⟩ ?_
  rintro s s' t hr hs ⟨f, rest, fs, s₁, hf, ha, rfl⟩
  exact Pool.act_inTurn hr.reachable (hr.atWork_le_one hm) hf ha hs

/-- A worker that is about to take a query finds none that is worked on. -/
theorem total_workIn (hm : o.maxThreads = 1) (h : ReachableWhile Pool.Calm o w scripts s) {t : ThreadId}
    {rest : List Frame} (ht : s.framesOf t = .worker .take :: rest) : s.total workIn = 0 := by
  obtain ⟨hbelow, -⟩ : Ordered (.worker .take :: rest) := ht ▸ h.reachable.ordered t
  obtain rfl : rest = [] := hbelow
  rw [Pool.total_eq (Pool.lt_of_framesOf ht), ht,
    Pool.others_workIn h.reachable (h.atWork_le_one hm) (ht ▸ List.mem_cons_self)]
  rfl

theorem oneByOne (hm : o.maxThreads = 1) (h : ReachableWhile Pool.Calm o w scripts s) : s.OneByOne := by
  have apart : ∀ pre i t post, s.log = pre ++ .taken i t :: post → passed [.returned] pre = passed [.taken] pre := by
    refine h.keeps (Q := fun s => ∀ pre i t post, s.log = pre ++ .taken i t :: post →
      passed [.returned] pre = passed [.taken] pre) ?_ ?_
    · intro pre i t post e
      simp [Pool.initial] at e
    · rintro s s' t hr hs ⟨f, rest, fs, s₁, hf, ha, rfl⟩
      obtain ⟨es, hl, htaken⟩ := Pool.act_log ha
      rw [Pool.log_setFrames, hl]
      refine taken_append (Q := fun pre _ => passed [.returned] pre = passed [.taken] pre) hs (htaken.imp id ?_)
      rintro ⟨i, later, rfl, -, rfl⟩
      exact ⟨i, t, rfl, Pool.returned_of_idle (hr.inTurn hm) (hr.total_workIn hm hf)⟩
  have order : (passed [.taken] s.log).Sublist (passed [.submitted] s.log) :=
    (passed_sublist (by simp) s.log).trans ((List.sublist_append_left _ _).trans h.reachable.inOrder.order)
  obtain ⟨x, -, hturn⟩ := h.inTurn hm
  obtain ⟨hx, hn, hr⟩ := hturn.prefixes
  exact ⟨apart, hx, hn, hr, order⟩

end ReachableWhile

/-- Workers take queries in the order in which they were submitted. With one worker, and as long as no
callback calls `start` or `terminate`, each callback has come back before the next query is taken. -/
theorem Reachable.fifo (h : Reachable o w scripts s) :
    s.InOrder ∧ (o.maxThreads = 1 → ReachableWhile Pool.Calm o w scripts s → s.OneByOne) :=
  ⟨h.inOrder, fun hm hc => hc.oneByOne hm⟩

def twoInARow : List (List Action) :=
  [[.start, .submit (.fail "no") .empty [] [] false, .submit (.fail "no") .empty [] [] false]]

/-- Both are submitted while the first one is executed. -/
def twoInARowRun : List Label :=
  stepsOf 0 5 ++ stepsOf 1 2 ++ stepsOf 0 4 ++ stepsOf 1 3 ++ stepsOf 0 3 ++ stepsOf 1 24

/-- The two queries are worked on one after the other. -/
theorem fifo_of_two :
    ∃ s, (Pool.initial .standard ⟨[], [], [], []⟩ twoInARow).runWhile Pool.Calm twoInARowRun = some s ∧
      s.InOrder ∧ s.OneByOne ∧ passed [.submitted] s.log = [0, 1] ∧ passed [.returned] s.log = [0, 1] := by
  obtain ⟨s, hr⟩ : ∃ s, (Pool.initial .standard ⟨[], [], [], []⟩ twoInARow).runWhile Pool.Calm twoInARowRun = some s :=
    ⟨_, rfl⟩
  have hw := (ReachableWhile.initial (by decide)).runWhile hr
  have hv : passed [.submitted] s.log = [0, 1] ∧ passed [.returned] s.log = [0, 1] := by
    cases hr
    exact ⟨rfl, rfl⟩
  obtain ⟨hi, ho⟩ := hw.reachable.fifo
  exact ⟨s, hr, hi, ho rfl hw, hv⟩

end StatementPool
