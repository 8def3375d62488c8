import Mathlib.Tactic.Abel
import StatementPool.Pool.Future
import StatementPool.Proofs.Pool.Stacks
/-!
# Where a query is and what the log says about it

Every number that was drawn for a query is somewhere in the pool until its query is through: a
token that a frame or the queue carries (`Pool.tokens`). The log has the history of the query
(`Pool.history`). `Course` pairs the two: it lists which token a query has after which history.
`Reachable.course` says that every query of a reachable pool is on its course, so it has at most
one token, and its history is a part of one of three: finished, discarded, or lost with the pool.
-/

namespace StatementPool

/-! ## Tokens -/

/-- What is going on with a query that is not through. -/
inductive Token where
  | drawn
  | waiting
  | executing (worker : ThreadId)
  | delivering (worker : ThreadId) (o : Outcome)
  | reporting (worker : ThreadId) (n : Notification)
  | dropping

/-- The tokens of query `i` when these queries share a place. -/
def tokensOf (i : Nat) (x : Token) (serials : List Nat) : Multiset Token := Multiset.replicate (serials.count i) x

/-- The tokens of query `i` that a script of thread `t` carries: its callback or its destructor runs. -/
def Role.tokens (i : Nat) (t : ThreadId) : Role → Multiset Token
  | .outside => 0
  | .callback j n => tokensOf i (.reporting t n) [j]
  | .destructor j => tokensOf i .dropping [j]

/-- The tokens of query `i` that a frame of thread `t` carries. -/
def tokensIn (i : Nat) (t : ThreadId) : Frame → Multiset Token
  | .push q => tokensOf i .drawn [q.serial]
  | .worker (.execute q _) => tokensOf i (.executing t) [q.serial]
  | .worker (.deliver q o) => tokensOf i (.delivering t o) [q.serial]
  | .script role _ _ _ => role.tokens i t
  | .discard left _ => tokensOf i .dropping (left.map Query.serial)
  | _ => 0

def Pool.waiting (s : Pool) : List Nat := s.queue.map Query.serial

def Pool.tokens (s : Pool) (i : Nat) : Multiset Token := s.total (tokensIn i) + tokensOf i .waiting s.waiting

@[simp] theorem tokensOf_nil (i : Nat) (x : Token) : tokensOf i x [] = 0 := rfl

theorem tokensOf_append (i : Nat) (x : Token) (js ks : List Nat) :
    tokensOf i x (js ++ ks) = tokensOf i x js + tokensOf i x ks := by
  unfold tokensOf
  rw [List.count_append, Multiset.replicate_add]

theorem tokensOf_cons (i : Nat) (x : Token) (j : Nat) (js : List Nat) :
    tokensOf i x (j :: js) = tokensOf i x [j] + tokensOf i x js :=
  tokensOf_append i x [j] js

theorem tokensOf_self (i : Nat) (x : Token) : tokensOf i x [i] = {x} := by
  simp [tokensOf]

theorem tokensOf_of_ne {i j : Nat} (h : j ≠ i) (x : Token) : tokensOf i x [j] = 0 := by
  simp [tokensOf, h]

theorem steady_tokens (i : Nat) : Steady (tokensIn i) where
  answers _ _ _ _ _ _ := rfl
  parked _ := rfl

/-! ## Histories -/

/-- Whether an event is one in the course of query `i`. -/
def Event.concerns (i : Nat) : Event → Bool
  | .submitted j | .taken j _ | .executed j _ | .notified j _ | .returned j _ _ | .discarded j _
  | .dropped j _ => j == i
  | .obtained _ _ | .terminated _ _ => false

def Pool.history (s : Pool) (i : Nat) : List Event := s.log.filter (Event.concerns i)

theorem Pool.history_append {s s' : Pool} {es : List Event} (h : s'.log = s.log ++ es) (i : Nat) :
    s'.history i = s.history i ++ es.filter (Event.concerns i) := by
  rw [history, h, List.filter_append, history]

theorem filter_discarded (i : Nat) (t : ThreadId) (js : List Nat) :
    (js.map fun j => Event.discarded j t).filter (Event.concerns i) =
      List.replicate (js.count i) (.discarded i t) := by
  induction js with
  | nil => rfl
  | cons j js ih =>
    rw [List.map_cons, List.filter_cons, ih, List.count_cons]
    by_cases h : j = i
    · subst h
      simp [Event.concerns, List.replicate_succ]
    · simp [Event.concerns, h]

@[simp] theorem filter_events (i j : Nat) (x : Execution) : (x.events j).filter (Event.concerns i) = [] := by
  unfold Execution.events
  split <;> rfl

/-! ## Milestones -/

/-- What a query passes. -/
inductive Milestone where
  | submitted
  | taken
  | executed
  | notified
  | returned
  | discarded
  deriving DecidableEq

/-- The milestone that an event is, and the query that passes it. -/
def Event.milestone? : Event → Option (Milestone × Nat)
  | .submitted i => some (.submitted, i)
  | .taken i _ => some (.taken, i)
  | .executed i _ => some (.executed, i)
  | .notified i _ => some (.notified, i)
  | .returned i _ _ => some (.returned, i)
  | .discarded i _ => some (.discarded, i)
  | .obtained _ _ | .dropped _ _ | .terminated _ _ => none

/-- The queries that passed one of the given milestones, in order. -/
def passed (ks : List Milestone) (log : List Event) : List Nat :=
  log.filterMap fun e => e.milestone?.bind fun x => if x.1 ∈ ks then some x.2 else none

@[simp] theorem passed_nil (ks : List Milestone) : passed ks [] = [] := rfl

@[simp] theorem passed_append (ks : List Milestone) (es es' : List Event) :
    passed ks (es ++ es') = passed ks es ++ passed ks es' := List.filterMap_append

theorem passed_cons (ks : List Milestone) (e : Event) (es : List Event) :
    passed ks (e :: es) = (e.milestone?.bind fun x => if x.1 ∈ ks then some x.2 else none).toList ++ passed ks es := by
  cases h : e.milestone?.bind fun x => if x.1 ∈ ks then some x.2 else none with
  | none => exact List.filterMap_cons_none h
  | some i => exact List.filterMap_cons_some h

theorem passed_sublist {ks ks' : List Milestone} (h : ks ⊆ ks') (es : List Event) :
    (passed ks es).Sublist (passed ks' es) := by
  induction es with
  | nil => exact List.Sublist.refl _
  | cons e es ih =>
    rw [passed_cons, passed_cons]
    refine List.Sublist.append ?_ ih
    cases e.milestone? with
    | none => exact List.Sublist.refl _
    | some x =>
      by_cases hx : x.1 ∈ ks
      · simp [hx, h hx]
      · simp [hx]

theorem passed_discarded (ks : List Milestone) (t : ThreadId) (qs : List Query) :
    passed ks (qs.map fun q => .discarded q.serial t) = if .discarded ∈ ks then qs.map Query.serial else [] := by
  induction qs with
  | nil => simp
  | cons q qs ih =>
    rw [List.map_cons, passed_cons, ih]
    by_cases hk : .discarded ∈ ks <;> simp [Event.milestone?, hk]

@[simp] theorem passed_events (ks : List Milestone) (j : Nat) (x : Execution) : passed ks (x.events j) = [] := by
  unfold Execution.events
  split <;> rfl

/-- How often a query passed a milestone is in its history. -/
theorem filter_passed (s : Pool) (ks : List Milestone) (i : Nat) :
    (passed ks s.log).filter (· == i) = passed ks (s.history i) := by
  rw [passed, passed, Pool.history, List.filter_filterMap, List.filterMap_filter]
  congr 1
  funext e
  cases e <;> simp [Event.milestone?, Event.concerns] <;> split <;> simp [Option.filter]

/-! ## Courses -/

/-- The notification of a query that ended in a certain way. -/
def reportOf (m : UInt32) (i : Nat) (o : Outcome) : Notification := ⟨m, queryId i, o.fault⟩

/-- What is going on with query `i` after a history: `m` is the message type of the pool, and
`retired` whether it was taken down. -/
inductive Course (m : UInt32) (retired : Bool) (i : Nat) : Option Token → List Event → Prop where
  | drawn : Course m retired i (some .drawn) []
  | waiting : Course m retired i (some .waiting) [.submitted i]
  | executing (t) : Course m retired i (some (.executing t)) [.submitted i, .taken i t]
  | delivering (t o) :
    Course m retired i (some (.delivering t o)) [.submitted i, .taken i t, .executed i o]
  | reporting (t o) : Course m retired i (some (.reporting t (reportOf m i o)))
      [.submitted i, .taken i t, .executed i o, .notified i (reportOf m i o)]
  | finished (t o answers) : Course m retired i none
      [.submitted i, .taken i t, .executed i o, .notified i (reportOf m i o),
        .returned i (reportOf m i o) answers]
  | dropping (t) : Course m retired i (some .dropping) [.submitted i, .discarded i t]
  | dropped (t answers) : Course m retired i none [.submitted i, .discarded i t, .dropped i answers]
  | losing (hr : retired = true) : Course m retired i (some .dropping) [.submitted i]
  | lost (hr : retired = true) (answers) : Course m retired i none [.submitted i, .dropped i answers]

/-- Query `i` with these tokens and this history is on its course; a number that was not drawn yet
has left no trace. -/
def OnCourse (m : UInt32) (retired : Bool) (drawn i : Nat) (tokens : Multiset Token) (es : List Event) : Prop :=
  (drawn ≤ i ∧ tokens = 0 ∧ es = []) ∨ (i < drawn ∧ ∃ x, tokens = single x ∧ Course m retired i x es)

theorem Course.mono {m : UInt32} {i : Nat} {r r' : Bool} {x : Option Token} {es : List Event}
    (h : Course m r i x es) (hr : r = true → r' = true) : Course m r' i x es := by
  cases h with
  | drawn => exact .drawn
  | waiting => exact .waiting
  | executing t => exact .executing t
  | delivering t o => exact .delivering t o
  | reporting t o => exact .reporting t o
  | finished t o a => exact .finished t o a
  | dropping t => exact .dropping t
  | dropped t a => exact .dropped t a
  | losing h => exact .losing (hr h)
  | lost h a => exact .lost (hr h) a

namespace OnCourse

variable {m : UInt32} {r : Bool} {d i : Nat} {x : Token} {rest : Multiset Token} {es : List Event}

/-- A query that has a token is on the course of that token. -/
theorem of_token (h : OnCourse m r d i ({x} + rest) es) : i < d ∧ rest = 0 ∧ Course m r i (some x) es := by
  rcases h with ⟨-, h, -⟩ | ⟨hlt, y, h, hc⟩
  · exact absurd h (by simp)
  · obtain ⟨rfl, hr⟩ := single_eq_add h.symm
    exact ⟨hlt, hr, hc⟩

theorem mono {r' : Bool} {T : Multiset Token} (h : OnCourse m r d i T es) (hr : r = true → r' = true) :
    OnCourse m r' d i T es := by
  rcases h with h | ⟨hlt, y, h, hc⟩
  · exact .inl h
  · exact .inr ⟨hlt, y, h, hc.mono hr⟩

/-- Something happens to a query that has a token: the token is exchanged and the history goes on.
For other queries than `j` nothing happens. -/
theorem move (j : Nat) (h : OnCourse m r d i (tokensOf i x [j] + rest) es) (y : Option Token) (e : Event)
    (he : e.concerns i = (j == i)) (hc : j = i → Course m r i (some x) es → Course m r i y (es ++ [e])) :
    OnCourse m r d i ((y.elim 0 fun y => tokensOf i y [j]) + rest) (es ++ [e].filter (Event.concerns i)) := by
  by_cases hj : j = i
  · subst hj
    rw [tokensOf_self] at h
    obtain ⟨hlt, rfl, hx⟩ := h.of_token
    rw [List.filter_singleton, he, beq_self_eq_true, cond_true]
    refine .inr ⟨hlt, y, ?_, hc rfl hx⟩
    cases y with
    | none => rfl
    | some y => rw [Option.elim_some, tokensOf_self, add_zero, single]
  · rw [tokensOf_of_ne hj, zero_add] at h
    rw [List.filter_singleton, he, beq_false_of_ne hj, cond_false, List.append_nil]
    cases y with
    | none => rwa [Option.elim_none, zero_add]
    | some y => rwa [Option.elim_some, tokensOf_of_ne hj, zero_add]

theorem push {j : Nat} (h : OnCourse m r d i (tokensOf i .drawn [j] + rest) es) :
    OnCourse m r d i (tokensOf i .waiting [j] + rest) (es ++ [.submitted j].filter (Event.concerns i)) :=
  h.move j (some .waiting) _ rfl fun e hc => by subst e; cases hc; exact .waiting

theorem take {j : Nat} (h : OnCourse m r d i (tokensOf i .waiting [j] + rest) es) (t : ThreadId) :
    OnCourse m r d i (tokensOf i (.executing t) [j] + rest) (es ++ [.taken j t].filter (Event.concerns i)) :=
  h.move j (some (.executing t)) _ rfl fun e hc => by subst e; cases hc; exact .executing t

theorem execute {j : Nat} {t : ThreadId} (h : OnCourse m r d i (tokensOf i (.executing t) [j] + rest) es)
    (o : Outcome) :
    OnCourse m r d i (tokensOf i (.delivering t o) [j] + rest) (es ++ [.executed j o].filter (Event.concerns i)) :=
  h.move j (some (.delivering t o)) _ rfl fun e hc => by subst e; cases hc; exact .delivering t o

theorem deliver {j : Nat} {t : ThreadId} {o : Outcome}
    (h : OnCourse m r d i (tokensOf i (.delivering t o) [j] + rest) es) :
    OnCourse m r d i (tokensOf i (.reporting t (reportOf m j o)) [j] + rest)
      (es ++ [.notified j (reportOf m j o)].filter (Event.concerns i)) :=
  h.move j (some (.reporting t (reportOf m j o))) _ rfl fun e hc => by subst e; cases hc; exact .reporting t o

theorem finish {j : Nat} {t : ThreadId} {n : Notification}
    (h : OnCourse m r d i (tokensOf i (.reporting t n) [j] + rest) es) (answers : List Answer) :
    OnCourse m r d i rest (es ++ [.returned j n answers].filter (Event.concerns i)) := by
  have hm := h.move j none (.returned j n answers) rfl fun e hc => by
    subst e
    cases hc with
    | reporting t o => exact .finished t o answers
  rwa [Option.elim_none, zero_add] at hm

theorem drop {j : Nat} (h : OnCourse m r d i (tokensOf i .dropping [j] + rest) es) (answers : List Answer) :
    OnCourse m r d i rest (es ++ [.dropped j answers].filter (Event.concerns i)) := by
  have hm := h.move j none (.dropped j answers) rfl fun e hc => by
    subst e
    cases hc with
    | dropping t => exact .dropped t answers
    | losing hr => exact .lost hr answers
  rwa [Option.elim_none, zero_add] at hm

theorem waits_once {js : List Nat} (h : OnCourse m r d i (tokensOf i .waiting js + rest) es) : js.count i ≤ 1 := by
  match e : js.count i with
  | 0 => exact Nat.zero_le _
  | 1 => exact Nat.le_refl _
  | k + 2 =>
    rw [tokensOf, e, Multiset.replicate_succ, ← Multiset.singleton_add, add_assoc] at h
    exact absurd h.of_token.2.1 (by simp [Multiset.replicate_succ])

theorem discard {js : List Nat} (h : OnCourse m r d i (tokensOf i .waiting js + rest) es) (t : ThreadId) :
    OnCourse m r d i (tokensOf i .dropping js + rest)
      (es ++ (js.map fun j => Event.discarded j t).filter (Event.concerns i)) := by
  have hk := h.waits_once
  rw [filter_discarded]
  unfold tokensOf at h ⊢
  rcases Nat.le_one_iff_eq_zero_or_eq_one.1 hk with e | e
  · rw [e] at h ⊢
    simpa using h
  · rw [e] at h ⊢
    obtain ⟨hlt, rfl, hx⟩ := OnCourse.of_token h
    cases hx
    exact .inr ⟨hlt, some .dropping, rfl, .dropping t⟩

/-- What still waits when the pool is taken down is lost. -/
theorem lose {js : List Nat} (h : OnCourse m r d i (tokensOf i .waiting js + rest) es) :
    OnCourse m true d i (tokensOf i .dropping js + rest) es := by
  have hk := h.waits_once
  have h := h.mono fun _ => rfl
  unfold tokensOf at h ⊢
  rcases Nat.le_one_iff_eq_zero_or_eq_one.1 hk with e | e
  · rw [e] at h ⊢
    exact h
  · rw [e] at h ⊢
    obtain ⟨hlt, rfl, hx⟩ := OnCourse.of_token h
    cases hx
    exact .inr ⟨hlt, some .dropping, rfl, .losing rfl⟩

/-- A number that is drawn starts a course. -/
theorem draw (h : OnCourse m r d i rest es) : OnCourse m r (d + 1) i (tokensOf i .drawn [d] + rest) es := by
  rcases h with ⟨hle, rfl, rfl⟩ | ⟨hlt, y, h, hc⟩
  · by_cases e : d = i
    · subst e
      rw [tokensOf_self]
      exact .inr ⟨Nat.lt_succ_self d, some .drawn, rfl, .drawn⟩
    · rw [tokensOf_of_ne e]
      exact .inl ⟨by omega, rfl, rfl⟩
  · rw [tokensOf_of_ne (Nat.ne_of_gt hlt), zero_add]
    exact .inr ⟨Nat.lt_succ_of_lt hlt, y, h, hc⟩

end OnCourse

/-! ## One step -/

namespace Pool

/-- Query `i` of a pool is on its course. -/
def Follows (s : Pool) (i : Nat) : Prop :=
  OnCourse s.options.messageType s.retired s.drawn i (s.tokens i) (s.history i)

variable {s s₁ : Pool} {t : ThreadId} {f : Frame} {rest fs : List Frame}

/-- The tokens of a query before a step: those of the frame that the step is about, of the frames
below, of the other threads and of the queue. -/
theorem tokens_before (i : Nat) (ht : s.framesOf t = f :: rest) :
    s.tokens i = tokensIn i t f + (stackWeight (tokensIn i t) rest +
      (s.others t (tokensIn i) + tokensOf i .waiting s.waiting)) := by
  rw [tokens, total_eq (lt_of_framesOf ht), ht, stackWeight_cons]
  abel

theorem tokens_after (i : Nat) (ht : s.framesOf t = f :: rest) (ha : Act s t rest f fs s₁) (queue : List Query)
    (hq : s₁.queue = queue) : (s₁.setFrames t fs).tokens i =
      stackWeight (tokensIn i t) fs + (s.others t (tokensIn i) + tokensOf i .waiting (queue.map Query.serial)) := by
  subst hq
  rw [tokens, act_total (steady_tokens i) (fun _ => rfl) ht ha, add_assoc]
  rfl

/-- The tokens of the queue, in front of those of the other frames. -/
theorem waiting_first (a b c : Multiset Token) : 0 + (a + (b + c)) = c + (a + b) := by
  rw [zero_add, ← add_assoc, add_comm]

theorem leaving_tokens (i : Nat) {owners owns owners' fs} (h : Leaving owners rest owns owners' fs) (t : ThreadId) :
    stackWeight (tokensIn i t) fs = stackWeight (tokensIn i t) rest :=
  leaving_weight (steady_tokens i) (fun _ => rfl) (fun _ => rfl) h t

theorem follows_of {s' : Pool} {i : Nat} {T : Multiset Token} {es : List Event}
    (h : OnCourse s'.options.messageType s'.retired s'.drawn i T es) (ht : s'.tokens i = T)
    (hh : s'.history i = es) : s'.Follows i := by
  subst ht hh
  exact h

theorem act_follows {i : Nat} (ht : s.framesOf t = f :: rest) (ha : Act s t rest f fs s₁) (h : s.Follows i) :
    (s₁.setFrames t fs).Follows i := by
  have after := tokens_after i ht ha
  unfold Follows at h
  rw [tokens_before i ht] at h
  -- a step exchanges the tokens of its own frame, or those of the queue, and the course goes along
  cases ha
  case returned j n owns answers owners hl =>
    exact follows_of (h.finish answers) (by rw [after s.queue rfl, leaving_tokens i hl]; rfl) (history_append rfl i)
  case dropped j owns answers owners hl =>
    exact follows_of (h.drop answers) (by rw [after s.queue rfl, leaving_tokens i hl]; rfl) (history_append rfl i)
  case release hl =>
    refine follows_of h ?_ rfl
    rw [after s.queue rfl, leaving_tokens i hl, stackWeight_cons, add_assoc]
    rfl
  case submit =>
    refine follows_of h.draw ?_ rfl
    rw [after s.queue rfl]
    simp only [stackWeight_cons, tokensIn, add_assoc, waiting]
  case push q hq =>
    refine follows_of h.push ?_ (history_append rfl i)
    rw [after (s.queue ++ [q]) rfl]
    simp only [stackWeight_cons, tokensIn, List.map_append, List.map_cons, List.map_nil, tokensOf_append, waiting]
    abel
  -- the whole queue changes hands at once
  case drain hq =>
    rw [show tokensIn i t (.terminate .drain) = 0 from rfl, waiting_first] at h
    refine follows_of (h.discard t) ?_ ?_
    · rw [after [] rfl]
      simp only [stackWeight_cons, tokensIn, waiting, List.map_nil, tokensOf_nil]
      abel
    · refine (history_append rfl i).trans ?_
      simp [waiting, Function.comp_def]
  case retireEmpty ha =>
    rw [show tokensIn i t .retire = 0 from rfl, waiting_first] at h
    refine follows_of h.lose ?_ rfl
    rw [after [] rfl]
    simp only [stackWeight_cons, tokensIn, waiting, List.map_nil, tokensOf_nil]
    abel
  case retire ha =>
    refine follows_of (h.mono fun _ => rfl) ?_ rfl
    rw [after s.queue rfl, stackWeight_giveAnswer (steady_tokens i)]
    simp only [tokensIn, zero_add, waiting]
  case take q queue hq =>
    rw [show tokensIn i t (.worker .take) = 0 from rfl, waiting_first, waiting, hq, List.map_cons, tokensOf_cons,
      add_assoc] at h
    refine follows_of (h.take t) ?_ (history_append rfl i)
    rw [after queue rfl]
    simp only [stackWeight_cons, tokensIn]
    abel
  case execute q x x' w hx =>
    refine follows_of h ?_ ((history_append rfl i).trans (by simp))
    rw [after s.queue rfl, stackWeight_cons, add_assoc]
    rfl
  case executed q x o hx =>
    refine follows_of (h.execute o) ?_ (history_append rfl i)
    rw [after s.queue rfl, stackWeight_cons, add_assoc]
    rfl
  case deliver q o =>
    refine follows_of h.deliver ?_ (history_append rfl i)
    rw [after s.queue rfl, stackWeight_cons, stackWeight_cons, add_assoc, add_assoc]
    simp only [tokensIn, zero_add]
    rfl
  case exitLast hr =>
    rw [show tokensIn i t (.worker .exit) = 0 from rfl, waiting_first] at h
    refine follows_of (hr ▸ h.lose) ?_ rfl
    rw [after [] rfl]
    simp only [stackWeight_cons, tokensIn, waiting, List.map_nil, tokensOf_nil]
    abel
  case terminateIdle | terminateReturn =>
    refine follows_of h ?_ ((history_append rfl i).trans (by simp [Event.concerns]))
    rw [after s.queue rfl, stackWeight_giveAnswer (steady_tokens i)]
    simp only [tokensIn, tokensOf_nil, List.map_nil, zero_add, waiting]
  case discard q left a =>
    refine follows_of h ?_ rfl
    rw [after s.queue rfl]
    simp only [stackWeight_cons, tokensIn, Role.tokens, List.map_cons, waiting, add_assoc]
    rw [tokensOf_cons i .dropping q.serial (left.map _), add_assoc]
  -- no other step moves a query
  all_goals
    refine follows_of h ?_ rfl
    rw [after s.queue rfl]
    simp [tokensIn, stackWeight_giveAnswer (steady_tokens i), waiting, add_assoc]

end Pool

variable {o : Options} {w : World} {scripts : List (List Action)} {s : Pool}

theorem Reachable.follows (h : Reachable o w scripts s) (i : Nat) : s.Follows i := by
  refine h.keeps (P := fun s => s.Follows i) (.inl ⟨Nat.zero_le i, ?_, rfl⟩) ?_
  · rw [Pool.tokens, total_initial fun _ _ => rfl]
    rfl
  · rintro s s' t - hs ⟨f, rest, fs, s₁, hf, ha, rfl⟩
    exact Pool.act_follows hf ha hs

/-- A query that left a trace has a number that was drawn, and is on its course. -/
theorem Reachable.course (h : Reachable o w scripts s) {i : Nat} (hi : s.history i ≠ []) :
    i < s.drawn ∧ ∃ x, s.tokens i = single x ∧ Course s.options.messageType s.retired i x (s.history i) := by
  rcases h.follows i with ⟨-, -, he⟩ | hc
  · exact absurd he hi
  · exact hc

theorem Reachable.nodup_passed (h : Reachable o w scripts s) (k : Milestone) : (passed [k] s.log).Nodup := by
  apply List.nodup_iff_count_le_one.2
  intro i
  rw [List.count_eq_length_filter, filter_passed]
  by_cases hi : s.history i = []
  · simp [hi]
  · obtain ⟨-, x, -, hc⟩ := h.course hi
    generalize s.history i = es at hc
    cases hc <;> cases k <;> simp [passed_cons, Event.milestone?]

end StatementPool
