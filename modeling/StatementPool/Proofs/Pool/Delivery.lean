import StatementPool.Proofs.Pool.Custody
/-!
# Every query is delivered or discarded, once

A submitted query is in one place: it waits, a worker holds it, it is finished, or a call of
`terminate` discarded it. `Reachable.exactly_once` says so of every reachable pool that was not
taken down, together with what the log tells about a query in each place, what its future has
completed with, and how the counts of `terminate` add up.
-/

namespace StatementPool

/-! ## Places -/

/-- Where a submitted query is. -/
inductive Place where
  | waiting
  | held (worker : ThreadId)
  | finished
  | discarded (caller : ThreadId)

def Pool.IsAt (s : Pool) (i : Nat) : Place → Prop
  | .waiting => i ∈ s.waiting
  | .held t => s.isWorker t = true ∧ ∃ f ∈ s.framesOf t, f.held? = some i
  | .finished => ∃ n answers, .returned i n answers ∈ s.log
  | .discarded t => .discarded i t ∈ s.log

/-- What the log tells about query `i` in a place, and what its future has completed with: `m` is
the message type of the pool. -/
inductive Account (m : UInt32) (i : Nat) :
    Place → List Event → Option (Except Error Notification) → Prop where
  | waiting : Account m i .waiting [.submitted i] none
  | executing (t) : Account m i (.held t) [.submitted i, .taken i t] none
  | delivering (t o) : Account m i (.held t) [.submitted i, .taken i t, .executed i o] none
  | reporting (t o) : Account m i (.held t)
      [.submitted i, .taken i t, .executed i o, .notified i ⟨m, queryId i, o.fault⟩]
      (some (.ok ⟨m, queryId i, o.fault⟩))
  | finished (t o answers) : Account m i .finished
      [.submitted i, .taken i t, .executed i o, .notified i ⟨m, queryId i, o.fault⟩,
        .returned i ⟨m, queryId i, o.fault⟩ answers]
      (some (.ok ⟨m, queryId i, o.fault⟩))
  | discarding (t) : Account m i (.discarded t) [.submitted i, .discarded i t] none
  | discarded (t answers) : Account m i (.discarded t)
      [.submitted i, .discarded i t, .dropped i answers] (some (.error (.lifecycle .discarded)))

/-! ## Places and tokens -/

/-- The worker that a query with a token is held by. -/
def Token.holder? : Token → Option ThreadId
  | .executing t | .delivering t _ | .reporting t _ => some t
  | .drawn | .waiting | .dropping => none

/-- What puts a query with this token and this history into a place. -/
def Place.Shows (i : Nat) (x : Option Token) (es : List Event) : Place → Prop
  | .waiting => x = some .waiting
  | .held t => x.bind Token.holder? = some t
  | .finished => ∃ n answers, .returned i n answers ∈ es
  | .discarded t => .discarded i t ∈ es

theorem mem_tokensOf {i : Nat} {x y : Token} {js : List Nat} : x ∈ tokensOf i y js ↔ x = y ∧ i ∈ js := by
  rw [tokensOf, Multiset.mem_replicate, ne_eq, List.count_eq_zero, not_not, and_comm]

theorem holder_tokensOf {i j : Nat} {t u : ThreadId} {y : Token} (hy : y.holder? = some u) :
    (∃ x ∈ tokensOf i y [j], x.holder? = some t) ↔ u = t ∧ some j = some i := by
  simp only [mem_tokensOf, List.mem_singleton, Option.some.injEq]
  constructor
  · rintro ⟨x, ⟨rfl, rfl⟩, hx⟩
    exact ⟨Option.some_inj.1 (hy.symm.trans hx), rfl⟩
  · rintro ⟨rfl, rfl⟩
    exact ⟨y, ⟨rfl, rfl⟩, hy⟩

/-- A frame holds a query when its token of the query names a worker. -/
theorem held_iff {i : Nat} {t u : ThreadId} {f : Frame} :
    (∃ x ∈ tokensIn i u f, x.holder? = some t) ↔ u = t ∧ f.held? = some i := by
  cases f with
  | worker p =>
    cases p with
    | execute q x | deliver q x => exact holder_tokensOf rfl
    | _ => simp [Frame.held?, tokensIn]
  | script role owns todo answers =>
    cases role with
    | callback j n => exact holder_tokensOf rfl
    | outside => simp [Frame.held?, tokensIn, Role.tokens]
    | destructor j => simp [Frame.held?, tokensIn, Role.tokens, mem_tokensOf, Token.holder?]
  | push | discard => simp [Frame.held?, tokensIn, mem_tokensOf, Token.holder?]
  | notify | start | terminate | halt | retire => simp [Frame.held?, tokensIn]

namespace Pool

variable {s s₁ : Pool} {t : ThreadId} {f : Frame} {rest fs : List Frame}

theorem mem_tokens {i : Nat} {x : Token} :
    x ∈ s.tokens i ↔ (∃ t, ∃ f ∈ s.framesOf t, x ∈ tokensIn i t f) ∨ x = .waiting ∧ i ∈ s.waiting := by
  rw [tokens, Multiset.mem_add, mem_total, mem_tokensOf]

theorem waiting_mem_tokens {i : Nat} : .waiting ∈ s.tokens i ↔ i ∈ s.waiting := by
  rw [mem_tokens, eq_self, true_and, or_iff_right]
  rintro ⟨t, f, -, hx⟩
  unfold tokensIn Role.tokens at hx
  split at hx <;> (try split at hx) <;> simp [mem_tokensOf] at hx

theorem holder_mem_tokens {i : Nat} {t : ThreadId} :
    (∃ x ∈ s.tokens i, x.holder? = some t) ↔ ∃ f ∈ s.framesOf t, f.held? = some i := by
  constructor
  · rintro ⟨x, hx, ht⟩
    rcases mem_tokens.1 hx with ⟨u, f, hf, hx⟩ | ⟨rfl, -⟩
    · obtain ⟨rfl, hi⟩ := held_iff.1 ⟨x, hx, ht⟩
      exact ⟨f, hf, hi⟩
    · cases ht
  · rintro ⟨f, hf, hi⟩
    obtain ⟨x, hx, ht⟩ := held_iff.2 ⟨rfl, hi⟩
    exact ⟨x, mem_tokens.2 (.inl ⟨t, f, hf, hx⟩), ht⟩

/-- The event of a query is in the log when it is in the history of the query. -/
theorem mem_history {i : Nat} {e : Event} (h : e.concerns i = true) : e ∈ s.history i ↔ e ∈ s.log := by
  rw [history, List.mem_filter, and_iff_left h]

theorem history_ne_nil {i : Nat} (h : .submitted i ∈ s.log) : s.history i ≠ [] :=
  List.ne_nil_of_mem ((mem_history (by exact beq_self_eq_true i)).2 h)

theorem future_eq (s : Pool) (i : Nat) : s.future? i = (s.history i).findSome? (Event.completion? i) := by
  rw [future?, history, ← List.head?_filterMap, ← List.head?_filterMap, List.filterMap_filter]
  congr 2
  funext e
  cases e <;> simp [Event.concerns, Event.completion?]

/-- The places of a query that has at most one token. -/
theorem isAt_iff {o : Options} {w : World} {scripts : List (List Action)} (h : Reachable o w scripts s) {i : Nat}
    {x : Option Token} (hx : s.tokens i = single x) (p : Place) : s.IsAt i p ↔ p.Shows i x (s.history i) := by
  cases p with
  | waiting =>
    refine waiting_mem_tokens.symm.trans ?_
    rw [hx]
    cases x <;> simp [single, Place.Shows, eq_comm]
  | held t =>
    refine Iff.trans ⟨And.right, fun ht => ⟨?_, ht⟩⟩ (holder_mem_tokens.symm.trans ?_)
    · obtain ⟨f, hf, hi⟩ := ht
      exact h.isWorker_of_held hf hi
    · rw [hx]
      cases x <;> simp [single, Place.Shows]
  | finished => exact exists_congr fun n => exists_congr fun a =>
    (mem_history (by exact beq_self_eq_true i)).symm
  | discarded t => exact (mem_history (by exact beq_self_eq_true i)).symm

/-- A query that was submitted to a pool that was not taken down is in one place, and the log and
its future fit that place. -/
theorem placed {o : Options} {w : World} {scripts : List (List Action)} (h : Reachable o w scripts s)
    (hr : s.retired = false) {i : Nat} (hi : .submitted i ∈ s.log) :
    ∃ p, s.IsAt i p ∧ (∀ p', s.IsAt i p' → p' = p) ∧
      Account s.options.messageType i p (s.history i) (s.future? i) := by
  have hi : .submitted i ∈ s.history i := (mem_history (by exact beq_self_eq_true i)).2 hi
  obtain ⟨-, x, hx, hc⟩ := h.course (List.ne_nil_of_mem hi)
  rw [future_eq]
  have at_iff := isAt_iff h hx
  generalize s.history i = es at hi hc at_iff
  rw [hr] at hc
  -- the course names the only token, and with the history the token shows the only place
  suffices hp : ∃ p, (∀ p', p'.Shows i x es ↔ p' = p) ∧
      Account s.options.messageType i p es (es.findSome? (Event.completion? i)) by
    obtain ⟨p, hp, ha⟩ := hp
    exact ⟨p, (at_iff p).2 ((hp p).2 rfl), fun p' h' => (hp p').1 ((at_iff p').1 h'), ha⟩
  cases hc with
  | drawn => cases hi
  | waiting => exact ⟨.waiting, fun p' => by cases p' <;> simp [Place.Shows, Token.holder?], .waiting⟩
  | executing t =>
    exact ⟨.held t, fun p' => by cases p' <;> simp [Place.Shows, Token.holder?, eq_comm], .executing t⟩
  | delivering t o =>
    exact ⟨.held t, fun p' => by cases p' <;> simp [Place.Shows, Token.holder?, eq_comm], .delivering t o⟩
  | reporting t o =>
    refine ⟨.held t, fun p' => by cases p' <;> simp [Place.Shows, Token.holder?, eq_comm], ?_⟩
    simpa [List.findSome?_cons, Event.completion?, reportOf] using Account.reporting t o
  | finished t o answers =>
    refine ⟨.finished, fun p' => by cases p' <;> simp [Place.Shows], ?_⟩
    simpa [List.findSome?_cons, Event.completion?, reportOf] using Account.finished t o answers
  | dropping t => exact ⟨.discarded t, fun p' => by cases p' <;> simp [Place.Shows, Token.holder?], .discarding t⟩
  | dropped t answers =>
    refine ⟨.discarded t, fun p' => by cases p' <;> simp [Place.Shows], ?_⟩
    simpa [List.findSome?_cons, Event.completion?] using Account.discarded t answers
  | losing hr | lost hr => cases hr

end Pool

/-! ## The counts of terminate -/

/-- The count that a call of `terminate` comes back with. -/
def Event.count? : Event → Option Nat
  | .terminated _ n => some n
  | _ => none

/-- The number in an answer that is a count. -/
def Answer.number : Answer → Nat
  | .count n => n
  | _ => 0

def Answer.isCount : Answer → Bool
  | .count _ => true
  | _ => false

/-- The count that a call of `terminate` is going to come back with. -/
def pendingCount (_ : ThreadId) : Frame → Nat
  | .discard _ a => a.number
  | _ => 0

def Frame.isTerminating : Frame → Bool
  | .terminate _ => true
  | .discard _ a => a.isCount
  | _ => false

/-- A frame that drops queries, though not for a call of `terminate`. -/
def strayDiscard (_ : ThreadId) : Frame → Nat
  | .discard _ a => if a.isCount then 0 else 1
  | _ => 0

theorem steady_strayDiscard : Steady strayDiscard where
  answers _ _ _ _ _ _ := rfl
  parked _ := rfl

theorem steady_pendingCount : Steady pendingCount where
  answers _ _ _ _ _ _ := rfl
  parked _ := rfl

namespace Pool

def discarded (s : Pool) : List Nat := passed [.discarded] s.log

def counts (s : Pool) : List Nat := s.log.filterMap Event.count?

/-- Whether a call of `terminate` is in progress. -/
def Terminating (s : Pool) : Prop := ∃ t, ∃ f ∈ s.framesOf t, f.isTerminating = true

/-- What came back and what is going to come back is what was discarded. -/
def Counted (s : Pool) : Prop := s.counts.sum + s.total pendingCount = s.discarded.length

variable {s s₁ : Pool} {t : ThreadId} {f : Frame} {rest fs : List Frame}

theorem mem_discarded {i : Nat} : i ∈ s.discarded ↔ ∃ t, .discarded i t ∈ s.log := by
  rw [discarded, passed, List.mem_filterMap]
  constructor
  · rintro ⟨e, he, hi⟩
    cases e with
    | discarded j t => exact ⟨t, by cases hi; exact he⟩
    | _ => cases hi
  · rintro ⟨t, ht⟩
    exact ⟨_, ht, rfl⟩

theorem counted_of {s s' : Pool} {es : List Event} (h : s.Counted) (hl : s'.log = s.log ++ es)
    (hp : (es.filterMap Event.count?).sum + s'.total pendingCount =
      s.total pendingCount + (passed [.discarded] es).length) : s'.Counted := by
  unfold Counted counts discarded at *
  rw [hl, List.filterMap_append, passed_append, List.sum_append, List.length_append]
  omega

theorem act_counted (ht : s.framesOf t = f :: rest) (ha : Act s t rest f fs s₁) (h : s.Counted) :
    (s₁.setFrames t fs).Counted := by
  have before := total_eq (w := pendingCount) (lt_of_framesOf ht)
  rw [ht, stackWeight_cons] at before
  have after := act_total steady_pendingCount (fun _ => rfl) ht ha
  -- what a step takes away from the pending counts is in the log afterwards, and the other way round
  cases ha
  case returned hl | dropped hl =>
    rw [leaving_weight steady_pendingCount (fun _ => rfl) (fun _ => rfl) hl] at after
    refine counted_of h rfl ?_
    rw [before, after]
    simp [pendingCount, List.filterMap_cons, Event.count?, passed_cons, Event.milestone?]
  case release hl =>
    rw [leaving_weight steady_pendingCount (fun _ => rfl) (fun _ => rfl) hl] at after
    exact counted_of h (List.append_nil _).symm (by rw [before, after]; simp [pendingCount])
  case drain =>
    refine counted_of h rfl ?_
    rw [before, after]
    simp [pendingCount, Answer.number, Event.count?, passed_discarded, List.filterMap_map, Function.comp_def]
    omega
  case terminateReturn n =>
    refine counted_of h rfl ?_
    rw [before, after, stackWeight_giveAnswer steady_pendingCount]
    simp [pendingCount, Answer.number, Event.count?, passed_cons, Event.milestone?]
    omega
  case discardEnd a hn =>
    have hz : a.number = 0 := by
      cases a with
      | count n => exact absurd rfl (hn n)
      | _ => rfl
    refine counted_of h (List.append_nil _).symm ?_
    rw [before, after, stackWeight_giveAnswer steady_pendingCount]
    simp [pendingCount, hz]
  case execute q x x' w hx =>
    refine counted_of h rfl ?_
    rw [before, after]
    unfold Execution.events
    split <;> simp [pendingCount, List.filterMap_cons, Event.count?, passed_cons, Event.milestone?]
  all_goals
    first | refine counted_of h rfl ?_ | refine counted_of h (List.append_nil _).symm ?_
    rw [before, after]
    simp [pendingCount, Answer.number, stackWeight_giveAnswer steady_pendingCount, List.filterMap_cons,
      Event.count?, passed_cons, Event.milestone?]

/-- Until the pool is taken down, queries are dropped by calls of `terminate` only. -/
theorem act_stray (ht : s.framesOf t = f :: rest) (ha : Act s t rest f fs s₁)
    (h : s.retired = false → s.total strayDiscard = 0) (hr : s₁.retired = false) :
    (s₁.setFrames t fs).total strayDiscard = 0 := by
  have hs : s.retired = false := by
    cases ha
    case retireEmpty | retire => cases hr
    all_goals exact hr
  have before := h hs
  rw [total_eq (lt_of_framesOf ht), ht, stackWeight_cons] at before
  rw [act_total steady_strayDiscard (fun _ => rfl) ht ha]
  cases ha
  case returned hl | dropped hl =>
    rw [leaving_weight steady_strayDiscard (fun _ => rfl) (fun _ => rfl) hl]
    omega
  case release hl =>
    rw [leaving_weight steady_strayDiscard (fun _ => rfl) (fun _ => rfl) hl]
    simpa [strayDiscard] using before
  case exitLast hr' => exact absurd hr' (by simp [hs])
  case retireEmpty => cases hr
  all_goals simp_all [strayDiscard, Answer.isCount, stackWeight_giveAnswer steady_strayDiscard]

end Pool

variable {o : Options} {w : World} {scripts : List (List Action)} {s : Pool}

theorem Reachable.counted (h : Reachable o w scripts s) : s.Counted := by
  refine h.keeps (P := Pool.Counted) ?_ ?_
  · exact (Nat.zero_add _).trans (total_initial fun _ _ => rfl)
  · rintro s s' t - hs ⟨f, rest, fs, s₁, hf, ha, rfl⟩
    exact Pool.act_counted hf ha hs

theorem Reachable.stray (h : Reachable o w scripts s) : s.retired = false → s.total strayDiscard = 0 := by
  refine h.keeps (P := fun s => s.retired = false → s.total strayDiscard = 0) ?_ ?_
  · exact fun _ => total_initial fun _ _ => rfl
  · rintro s s' t - hs ⟨f, rest, fs, s₁, hf, ha, rfl⟩
    exact Pool.act_stray hf ha hs

/-- While no call of `terminate` is in progress, the counts that came back are all there are. -/
theorem Reachable.sum_counts (h : Reachable o w scripts s) (hn : ¬ s.Terminating) :
    s.counts.sum = s.discarded.length := by
  have hz : s.total pendingCount = 0 := by
    rw [Pool.total_eq_zero]
    intro t f hf
    have hf : ¬ f.isTerminating = true := fun ht => hn ⟨t, f, hf, ht⟩
    cases f with
    | discard left a =>
      cases a with
      | count n => exact absurd rfl hf
      | _ => rfl
    | _ => rfl
  have hc := h.counted
  rwa [Pool.Counted, hz, Nat.add_zero] at hc

/-- While no call of `terminate` is in progress, no query is about to be dropped. -/
theorem Reachable.not_dropping (h : Reachable o w scripts s) (hr : s.retired = false) (hn : ¬ s.Terminating)
    (i : Nat) : .dropping ∉ s.tokens i := by
  have none_left : ∀ t left a, .discard left a ∉ s.framesOf t := by
    intro t left a hf
    have hz := Pool.total_eq_zero.1 (h.stray hr) t _ hf
    by_cases hc : a.isCount = true
    · exact hn ⟨t, _, hf, hc⟩
    · simp [strayDiscard, hc] at hz
  rw [Pool.mem_tokens]
  -- a destructor runs on top of the frame that drops its query
  rintro (⟨t, f, hf, hx⟩ | ⟨e, -⟩)
  · cases f with
    | discard left a => exact none_left t left a hf
    | script role owns todo answers =>
      cases role with
      | destructor j =>
        obtain ⟨below, ⟨left, a, rest, rfl⟩, hb⟩ := (h.ordered t).below hf
        exact none_left t left a (hb _ List.mem_cons_self)
      | outside => simp [tokensIn, Role.tokens] at hx
      | callback j n => simp [tokensIn, Role.tokens, mem_tokensOf] at hx
    | worker p => cases p <;> simp [tokensIn, mem_tokensOf] at hx
    | push q => simp [tokensIn, mem_tokensOf] at hx
    | _ => simp [tokensIn] at hx
  · cases e

theorem queryId_injective {i j : Nat} (hi : i + 1 < 2 ^ 64) (hj : j + 1 < 2 ^ 64)
    (e : queryId i = queryId j) : i = j := by
  have e := congrArg UInt64.toNat e
  simp only [queryId, UInt64.toNat_ofNat'] at e
  omega

/-! ## The whole -/

/-- Every submitted query is accounted for: `m` is the message type of the pool. -/
structure Pool.ExactlyOnce (s : Pool) (m : UInt32) : Prop where
  /-- A submitted query is in exactly one place, and what happened to it is what happens to the
  queries in that place. -/
  placed : ∀ i, .submitted i ∈ s.log →
    ∃ p, s.IsAt i p ∧ (∀ p', s.IsAt i p' → p' = p) ∧ Account m i p (s.history i) (s.future? i)
  nodup : s.waiting.Nodup
  /-- While no call of `terminate` is in progress, the counts add up to the discarded queries, each
  of them counted once, and the futures of these have failed. -/
  counted : ¬ s.Terminating → s.counts.sum = s.discarded.length ∧ s.discarded.Nodup ∧
    ∀ i ∈ s.discarded, s.future? i = some (.error (.lifecycle .discarded))
  /-- Below 2^64 submissions no two queries have the same number. -/
  distinct : s.drawn < 2 ^ 64 → ∀ i j, .submitted i ∈ s.log → .submitted j ∈ s.log →
    queryId i = queryId j → i = j

/-- Until the pool is taken down, every query is delivered or discarded, exactly once. -/
theorem Reachable.exactly_once (h : Reachable o w scripts s) (hr : s.retired = false) :
    s.ExactlyOnce o.messageType where
  placed i hi := h.options ▸ Pool.placed h hr hi
  nodup := by
    apply List.nodup_iff_count_le_one.2
    intro i
    have hf := h.follows i
    unfold Pool.Follows Pool.tokens at hf
    rw [add_comm] at hf
    exact hf.waits_once
  counted hn := by
    refine ⟨h.sum_counts hn, h.nodup_passed .discarded, ?_⟩
    intro i hi
    obtain ⟨t, hi⟩ := Pool.mem_discarded.1 hi
    have hi : .discarded i t ∈ s.history i := (Pool.mem_history (by exact beq_self_eq_true i)).2 hi
    obtain ⟨-, x, hx, hc⟩ := h.course (List.ne_nil_of_mem hi)
    have hd := h.not_dropping hr hn i
    rw [hx] at hd
    rw [Pool.future_eq]
    generalize s.history i = es at hi hc
    cases hc with
    | dropping u => simp [single] at hd
    | dropped u answers => simp [List.findSome?_cons, Event.completion?]
    | _ => simp at hi
  distinct hd i j hi hj e := by
    have hi := (h.course (Pool.history_ne_nil hi)).1
    have hj := (h.course (Pool.history_ne_nil hj)).1
    exact queryId_injective (by omega) (by omega) e

/-- Two queries for one worker, and an end. -/
def twoQueries : List (List Action) :=
  [[.start, .submit (.fail "no") .empty [] [] false, .submit (.fail "no") .empty [] [] false, .terminate]]

/-- The worker takes the first query, then the pool is terminated. -/
def twoQueriesRun : List Label :=
  stepsOf 0 5 ++ stepsOf 1 2 ++ stepsOf 0 4 ++ stepsOf 1 3 ++ stepsOf 0 8 ++ stepsOf 1 14 ++ stepsOf 0 6

/-- The first of two queries is delivered and the second one discarded. -/
theorem exactly_once_of_two : ∃ s, (Pool.initial .standard ⟨[], [], [], []⟩ twoQueries).run twoQueriesRun = some s ∧
    s.retired = false ∧ s.ExactlyOnce 1 ∧ s.discarded = [1] ∧ s.counts = [1] ∧ (s.future? 0).isSome := by
  obtain ⟨s, hs⟩ : ∃ s, (Pool.initial .standard ⟨[], [], [], []⟩ twoQueries).run twoQueriesRun = some s :=
    Option.isSome_iff_exists.1 (by decide)
  have hv : (s.retired, s.discarded, s.counts, (s.future? 0).isSome) = (false, [1], [1], true) := by
    rw [← Option.some_inj, ← Option.map_some (f := fun s : Pool =>
      (s.retired, s.discarded, s.counts, (s.future? 0).isSome)), ← hs]
    rfl
  simp only [Prod.mk.injEq] at hv
  exact ⟨s, hs, hv.1, (Reachable.initial.run hs).exactly_once hv.1, hv.2.1, hv.2.2.1, hv.2.2.2⟩

end StatementPool
