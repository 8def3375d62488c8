import StatementPool.Proofs.Pool.Additions
import StatementPool.Proofs.Pool.Calls
/-!
# Inserts that share a table

Executions append rows to a table and scripts push rows there, in any order. An insert encodes its record,
appends the row and reads the number of rows in one piece, and stores this number in two later ones, while
others go on. As long as no other query has the counters of an insert, the id that it leaves is the place of
its own row (`ReachableNoting.inserts`).
-/

namespace StatementPool

/-! ## How far an insert has come -/

/-- What an insert comes to, and what it leaves in its counters: its row is one of those that were added, or
it adds none and its counters keep what was there. -/
inductive Yields (table : Nat) (w : World) (adds : List Addition) (q : Query) :
    Outcome → (Nat → Nat) → (Nat → Nat) → Prop where
  | stored {row k} (hr : insertedRow q.args.params = .ok row) (hk : adds[k]? = some ⟨some q, row⟩) :
    Yields table w adds q .done (fun _ => (w.table table).length + k + 1) (fun _ => 1)
  | refused {e} (hr : insertedRow q.args.params = .error e) (hn : ∀ a ∈ adds, a.serial? ≠ some q.serial) :
    Yields table w adds q (.failed e) w.counter w.counter

/-- Nothing has happened yet. -/
structure Unserved (w world : World) (adds : List Addition) (q : Query) : Prop where
  unadded : ∀ a ∈ adds, a.serial? ≠ some q.serial
  counter : ∀ c ∈ q.args.counters, world.counter c = w.counter c

/-- An insert has been executed and has stored its numbers. -/
def Served (table : Nat) (w world : World) (adds : List Addition) (q : Query) (o : Outcome) : Prop :=
  ∃ i n, Yields table w adds q o i n ∧ (∀ c, q.args.insertId = some c → world.counter c = i c) ∧
    ∀ c, q.args.rows = some c → world.counter c = n c

/-- An execution of an insert: it has loaded what was there at first, or it stores what the insert leaves. -/
inductive Inserting (table : Nat) (w world : World) (adds : List Addition) (q : Query) (x : Execution) : Prop where
  | before (hb : x.hasBegun = false) (hu : Unserved w world adds q)
    (hi : x.phase = .loadRows ∨ x.phase = .begin → x.insertId = q.args.insertId.map w.counter)
    (hn : x.phase = .begin → x.rows = q.args.rows.map w.counter)
  | storing {o i n} (hp : x.phase = .storeInsertId o) (hy : Yields table w adds q o i n)
    (hi : x.insertId = q.args.insertId.map i) (hn : x.rows = q.args.rows.map n)
  | halfway {o i n} (hp : x.phase = .storeRows o) (hy : Yields table w adds q o i n)
    (hi : ∀ c, q.args.insertId = some c → world.counter c = i c) (hn : x.rows = q.args.rows.map n)
  | served {o} (hp : x.phase = .unlock o ∨ x.phase = .finished o) (hs : Served table w world adds q o)

section

variable {table : Nat} {w world world' : World} {adds more : List Addition} {q : Query} {x x' : Execution} {o : Outcome}
  {i n : Nat → Nat} {me : ThreadId}

theorem mem_counters {a : Args} {c : Nat} : c ∈ a.counters ↔ a.insertId = some c ∨ a.rows = some c := by
  simp [Args.counters]

theorem Yields.mono (h : Yields table w adds q o i n) (hm : ∀ a ∈ more, a.serial? ≠ some q.serial) :
    Yields table w (adds ++ more) q o i n := by
  cases h with
  | stored hr hk =>
    refine .stored hr ?_
    rw [List.getElem?_append_left (List.getElem?_eq_some_iff.1 hk).1, hk]
  | refused hr hn =>
    refine .refused hr fun a ha => ?_
    rcases List.mem_append.1 ha with ha | ha
    · exact hn a ha
    · exact hm a ha

section

variable (hc : ∀ c ∈ q.args.counters, world'.counter c = world.counter c) (hm : ∀ a ∈ more, a.serial? ≠ some q.serial)

include hc hm

theorem Unserved.mono (h : Unserved w world adds q) : Unserved w world' (adds ++ more) q where
  unadded a ha := by
    rcases List.mem_append.1 ha with ha | ha
    · exact h.unadded a ha
    · exact hm a ha
  counter c hin := (hc c hin).trans (h.counter c hin)

theorem Served.mono (h : Served table w world adds q o) : Served table w world' (adds ++ more) q o := by
  obtain ⟨i, n, hy, hi, hn⟩ := h
  exact ⟨i, n, hy.mono hm, fun c h => (hc c (mem_counters.2 (.inl h))).trans (hi c h),
    fun c h => (hc c (mem_counters.2 (.inr h))).trans (hn c h)⟩

theorem Inserting.mono (h : Inserting table w world adds q x) : Inserting table w world' (adds ++ more) q x := by
  cases h with
  | before hb hu hi hn => exact .before hb (hu.mono hc hm) hi hn
  | storing hp hy hi hn => exact .storing hp (hy.mono hm) hi hn
  | halfway hp hy hi hn =>
    exact .halfway hp (hy.mono hm) (fun c h => (hc c (mem_counters.2 (.inl h))).trans (hi c h)) hn
  | served hp hs => exact .served hp (hs.mono hc hm)

end

theorem inserting_start (h : Unserved w world adds q) : Inserting table w world adds q (.start q.statement q.args) :=
  .before rfl h (by simp [Execution.start]) (by simp [Execution.start])

/-- An insert begins: it appends its row, or it fails. -/
theorem inserting_run {w₁ : World} {y : Slots} (ht : world.table table = w.table table ++ adds.map Addition.row)
    (hlt : table < world.tables.length) (hu : Unserved w world adds q)
    (hi : x.insertId = q.args.insertId.map w.counter) (hn : x.rows = q.args.rows.map w.counter) (ha : x.args = q.args)
    (hs : x.statement = .insert table) (hp : x.phase = .begin)
    (he : x.statement.execute world (x.slots world) = some (w₁, y, o)) :
    Inserting table w (w₁.putContent x.args.results y.results) (adds ++ x.adds table q) q
      ({ x with insertId := y.insertId, rows := y.rows }.ended o) := by
  have hadds : x.adds table q = (insertedRow q.args.params).toOption.toList.map fun row => ⟨some q, row⟩ := by
    simp [Execution.adds, hp, hs, Statement.adds, ha]
  have hparams : (x.slots world).params = q.args.params := congrArg Args.params ha
  rw [hs, Statement.execute_insert, hparams, Option.some.injEq] at he
  rw [hadds]
  cases hr : insertedRow q.args.params with
  | error e =>
    simp only [hr] at he
    cases he
    refine .storing rfl (.refused hr ?_) hi hn
    simpa [Except.toOption] using hu.unadded
  | ok row =>
    simp only [hr] at he
    cases he
    refine .storing (i := fun _ => (w.table table).length + adds.length + 1) (n := fun _ => 1) rfl
      (.stored hr (by simp [Except.toOption])) ?_ ?_
    · simp [Execution.ended, Execution.slots, hi, setSlot, World.table_push hlt, ht, Function.comp_def, Nat.add_assoc]
    · simp [Execution.ended, Execution.slots, hn, setSlot, Function.comp_def]

/-- A number is stored in the counter for it. -/
theorem counter_publish_map {slot : Option Nat} {c : Nat} (hc : slot = some c) (hlt : c < world.counters.length) :
    (world.publish slot (slot.map i)).counter c = i c := by
  rw [World.counter_publish world hlt, if_pos hc, hc]
  rfl

/-- An insert goes on with its next piece. -/
theorem Inserting.of_piece (h : Inserting table w world adds q x) (hp : x.Piece me world x' world')
    (ha : x.args = q.args) (hs : x.statement = .insert table) (hown : q.args.counters.Nodup)
    (hrange : ∀ c ∈ q.args.counters, c < world.counters.length)
    (ht : world.table table = w.table table ++ adds.map Addition.row) (hlt : table < world.tables.length) :
    Inserting table w world' (adds ++ x.adds table q) q x' := by
  -- only a piece that runs the statement adds a row
  have none : x.phase ≠ .begin → adds ++ x.adds table q = adds := fun hne => by
    rw [Execution.adds_of_ne_begin hne, List.append_nil]
  cases h with
  | before hb hu hi hn =>
    cases hp
    case noLock hp _ | lock hp _ _ =>
      rw [none (by simp [hp])]
      exact .before rfl ⟨hu.unadded, hu.counter⟩ (by simp) (by simp)
    case loadInsertId hp =>
      rw [none (by simp [hp])]
      refine .before rfl hu (fun _ => ?_) (by simp)
      rw [ha]
      exact Option.map_congr fun c hc => hu.counter c (mem_counters.2 (.inl hc))
    case loadRows hp =>
      rw [none (by simp [hp])]
      refine .before rfl hu (fun _ => hi (.inl hp)) fun _ => ?_
      rw [ha]
      exact Option.map_congr fun c hc => hu.counter c (mem_counters.2 (.inr hc))
    case run hp _ he => exact inserting_run ht hlt hu (hi (.inr hp)) (hn hp) ha hs hp he
    case refuse hs' _ _ | search hs' _ _ | reach hs' => cases hs.symm.trans hs'
    case copied hp | copy hp _ _ | copyFailed hp _ _ | pass hp _ | storeInsertId hp | storeRows hp | noUnlock hp _
      | unlock hp _ => simp [Execution.hasBegun, hp] at hb
  | storing hphase hy hi hn =>
    cases hp
    case storeInsertId hp =>
      cases hphase.symm.trans hp
      rw [none (by simp [hp]), ha, hi]
      refine .halfway rfl hy (fun c hc => ?_) hn
      exact counter_publish_map hc (hrange c (mem_counters.2 (.inl hc)))
    all_goals simp_all
  | halfway hphase hy hi hn =>
    cases hp
    case storeRows hp =>
      cases hphase.symm.trans hp
      rw [none (by simp [hp]), ha, hn]
      refine .served (.inl rfl) ⟨_, _, hy, fun c hc => ?_, fun c hc => ?_⟩
      · -- the two numbers are stored in different counters
        rw [world.counter_publish_ne (fun hc' => ?_), hi c hc]
        simp [Args.counters, hc, hc'] at hown
      · exact counter_publish_map hc (hrange c (mem_counters.2 (.inr hc)))
    all_goals simp_all
  | served hphase hs' =>
    cases hp
    case noUnlock hp _ | unlock hp _ =>
      cases (hphase.resolve_right (by simp [hp])).symm.trans hp
      rw [none (by simp [hp])]
      exact .served (.inr rfl) hs'
    all_goals simp_all

end

/-! ## One step -/

/-- No other query has the counters of an insert, and they are there and differ. -/
def OwnCounters (table : Nat) (w : World) (qs : List Query) : Prop :=
  ∀ q ∈ qs, q.statement = .insert table → q.args.counters.Nodup ∧ (∀ c ∈ q.args.counters, c < w.counters.length) ∧
    ∀ q' ∈ qs, q'.serial ≠ q.serial → ∀ c ∈ q.args.counters, c ∉ q'.args.counters

/-- A query that is executed has only been submitted and taken. -/
theorem Reachable.history_of_executing {o : Options} {w : World} {scripts : List (List Action)} {s : Pool}
    (h : Reachable o w scripts s) {t : ThreadId} {q : Query} {x : Execution} {rest : List Frame}
    (ht : s.framesOf t = .worker (.execute q x) :: rest) :
    s.history q.serial = [.submitted q.serial, .taken q.serial t] := by
  have hf := h.follows q.serial
  rw [Pool.Follows, Pool.tokens_before q.serial ht, tokensIn, tokensOf_self] at hf
  obtain ⟨-, -, hc⟩ := hf.of_token
  generalize s.history q.serial = es at hc
  cases hc
  rfl

namespace Pool

variable {s s₁ : Pool} {t : ThreadId} {f : Frame} {rest fs : List Frame} {table : Nat} {w : World} {xs : List Entry}

/-- Inserts share a table that was `w` at first; `xs` is what was noted. -/
structure Fills (table : Nat) (w : World) (xs : List Entry) (s : Pool) : Prop where
  exists_table : table < s.world.tables.length
  length : s.world.counters.length = w.counters.length
  rows : s.world.table table = w.table table ++ (additionsOf xs).map Addition.row
  known : ∀ a ∈ additionsOf xs, ∀ q, a.query = some q → q ∈ queriesOf xs ∧ q.statement = .insert table
  once : ((additionsOf xs).filterMap Addition.serial?).Nodup
  queued : s.queue ⊆ queriesOf xs
  executing : ∀ t q x rest, s.framesOf t = .worker (.execute q x) :: rest →
    q ∈ queriesOf xs ∧ x.args = q.args ∧ x.statement = q.statement ∧
    (q.statement = .insert table → Inserting table w s.world (additionsOf xs) q x)
  executed : ∀ q ∈ queriesOf xs, q.statement = .insert table → ∀ o, .executed q.serial o ∈ s.log →
    Served table w s.world (additionsOf xs) q o
  untaken : ∀ q ∈ queriesOf xs, q.statement = .insert table → q.serial ∉ passed [.taken] s.log →
    Unserved w s.world (additionsOf xs) q
  /-- A counter that no query has keeps what was there. -/
  unused : ∀ c, (∀ q ∈ queriesOf xs, c ∉ q.args.counters) → s.world.counter c = w.counter c

section

variable {o : Options} {w₀ : World} {scripts : List (List Action)}

/-- A step leaves alone what an insert is about, unless it is a step of its own execution. -/
theorem Fills.spares (h : s.Fills table w xs) (hown : OwnCounters table w (queriesOf (xs ++ s.notes table f)))
    (ht : s.framesOf t = f :: rest)
    (hw : s.world.Extends table ((additionsOf (s.notes table f)).map Addition.row) f.counters s₁.world) {q : Query}
    (hq : q ∈ queriesOf (xs ++ s.notes table f)) (hs : q.statement = .insert table)
    (hne : ∀ q' x, f = .worker (.execute q' x) → q'.serial ≠ q.serial) :
    (∀ c ∈ q.args.counters, s₁.world.counter c = s.world.counter c) ∧
      ∀ a ∈ additionsOf (s.notes table f), a.serial? ≠ some q.serial := by
  constructor
  · intro c hc
    refine hw.counter c fun hf => ?_
    unfold Frame.counters at hf
    split at hf
    · rename_i q' x
      obtain ⟨hmem, hargs, -⟩ := h.executing t q' x rest ht
      exact (hown q hq hs).2.2 q' (mem_queriesOf_append hmem _) (hne q' x rfl) c hc (hargs ▸ hf)
    · cases hf
  · intro a ha hserial
    obtain ⟨q', hq', e⟩ := Option.map_eq_some_iff.1 hserial
    obtain ⟨x, rfl, -⟩ := mem_additionsOf_notes ha hq'
    exact hne q' x rfl e

/-- What a step adds to the log: that a query was executed, of the execution that is through. -/
theorem act_executed (ha : Act s t rest f fs s₁) {i : Nat} {o' : Outcome} (hi : .executed i o' ∈ s₁.log) :
    .executed i o' ∈ s.log ∨ ∃ q x, f = .worker (.execute q x) ∧ i = q.serial ∧ x.phase = .finished o' := by
  cases ha
  case executed q x o hx =>
    rcases List.mem_append.1 hi with hi | hi
    · exact .inl hi
    · cases List.mem_singleton.1 hi
      exact .inr ⟨q, x, rfl, rfl, hx⟩
  case execute q x _ _ _ =>
    rcases List.mem_append.1 hi with hi | hi
    · exact .inl hi
    · unfold Execution.events at hi
      split at hi <;> simp at hi
  all_goals exact .inl (by simpa using hi)

theorem act_mem_queue (ha : Act s t rest f fs s₁) {q : Query} (hq : q ∈ s₁.queue) : q ∈ s.queue ∨ q ∈ f.puts := by
  cases ha
  case push => exact List.mem_append.1 hq
  case take hqueue => exact .inl (hqueue ▸ List.mem_cons_of_mem _ hq)
  case drain | retireEmpty | exitLast => cases hq
  all_goals exact .inl hq

theorem mem_passed_taken {i : Nat} {u : ThreadId} {log : List Event} (h : .taken i u ∈ log) : i ∈ passed [.taken] log :=
  List.mem_filterMap.2 ⟨_, h, by simp [Event.milestone?]⟩

/-- A query that waits has not been taken. -/
theorem not_taken_of_mem_queue (hr : Reachable o w₀ scripts s) {q : Query} (hq : q ∈ s.queue) :
    q.serial ∉ passed [.taken] s.log := by
  intro htaken
  have hnodup := hr.inOrder.order.nodup hr.inOrder.nodup
  have hgone : q.serial ∈ passed [.taken, .discarded] s.log := (passed_sublist (by simp) s.log).subset htaken
  exact (List.disjoint_of_nodup_append hnodup) hgone (List.mem_map_of_mem hq)

/-- A query that the log names was submitted before the step. -/
theorem mem_queries (hnodup : ((queriesOf (xs ++ s.notes table f)).map Query.serial).Nodup)
    (hsub : passed [.submitted] s.log = (queriesOf xs).map Query.serial) {q : Query}
    (hq : q ∈ queriesOf (xs ++ s.notes table f)) (hs : q.serial ∈ passed [.submitted] s.log) : q ∈ queriesOf xs := by
  rw [hsub] at hs
  obtain ⟨q', hq', e⟩ := List.mem_map.1 hs
  rwa [← List.inj_on_of_nodup_map hnodup (mem_queriesOf_append hq' _) hq e]

variable (hr : Reachable o w₀ scripts s) (hown : OwnCounters table w (queriesOf (xs ++ s.notes table f)))
  (hnodup : ((queriesOf (xs ++ s.notes table f)).map Query.serial).Nodup) (ht : s.framesOf t = f :: rest)
  (ha : Act s t rest f fs s₁)
  (hw : s.world.Extends table ((additionsOf (s.notes table f)).map Addition.row) f.counters s₁.world)
  (h : s.Fills table w xs)

include hr hown ht ha hw h

/-- Executions of inserts go on, and begin with queries that were taken. -/
theorem Fills.act_executing {u : ThreadId} {q : Query} {x : Execution} {urest : List Frame}
    (hu : (s₁.setFrames t fs).framesOf u = .worker (.execute q x) :: urest) :
    q ∈ queriesOf (xs ++ s.notes table f) ∧ x.args = q.args ∧ x.statement = q.statement ∧
      (q.statement = .insert table → Inserting table w s₁.world (additionsOf (xs ++ s.notes table f)) q x) := by
  rw [queriesOf_append, additionsOf_append]
  by_cases e : u = t
  · subst e
    rw [framesOf_act ht ha] at hu
    subst hu
    by_cases htake : f = .worker .take
    · subst htake
      cases ha with
      | take hqueue =>
        have hq : q ∈ s.queue := hqueue ▸ List.mem_cons_self
        refine ⟨List.mem_append_left _ (h.queued hq), rfl, rfl, fun hs => ?_⟩
        have hu := h.untaken q (h.queued hq) hs (not_taken_of_mem_queue hr hq)
        exact (inserting_start hu).mono (fun _ _ => rfl) (by simp [notes, additionsOf])
    · rcases act_mem_execute ha List.mem_cons_self with hm | ⟨hf, -⟩ | ⟨x₀, rfl, hs⟩
      · have hheap := hr.heaped u
        rw [ht] at hheap
        cases hheap _ hm
      · exact absurd hf htake
      · obtain ⟨hmem, hargs, hst, hins⟩ := h.executing u q x₀ rest ht
        have piece := Execution.step_pieces hs
        obtain ⟨hargs', hst'⟩ := piece.same
        refine ⟨List.mem_append_left _ hmem, hargs'.trans hargs, hst'.trans hst, fun hi => ?_⟩
        obtain ⟨hdistinct, hrange, -⟩ := hown q (mem_queriesOf_append hmem _) hi
        rw [notes, additionsOf_added]
        exact (hins hi).of_piece piece hargs (hst.trans hi) hdistinct (fun c hc => h.length ▸ hrange c hc) h.rows
          h.exists_table
  · have hu' := (Pool.act_executing ha e).1 hu
    obtain ⟨hmem, hargs, hst, hins⟩ := h.executing u q x urest hu'
    refine ⟨List.mem_append_left _ hmem, hargs, hst, fun hi => ?_⟩
    obtain ⟨hc, hm⟩ := h.spares hown ht hw (mem_queriesOf_append hmem _) hi (by
      -- two threads do not execute one query
      rintro q' x' rfl hserial
      have hhere := hr.history_of_executing ht
      rw [hserial, hr.history_of_executing hu'] at hhere
      simp at hhere
      exact e hhere)
    exact (hins hi).mono hc hm

include hnodup

/-- What was executed stays as it is, and an execution that is through has stored its numbers. -/
theorem Fills.act_served (hsub : passed [.submitted] s.log = (queriesOf xs).map Query.serial) {q : Query}
    (hq : q ∈ queriesOf (xs ++ s.notes table f)) (hs : q.statement = .insert table) {o' : Outcome}
    (ho : .executed q.serial o' ∈ s₁.log) : Served table w s₁.world (additionsOf (xs ++ s.notes table f)) q o' := by
  rcases act_executed ha ho with ho | ⟨q', x, rfl, hserial, hx⟩
  · obtain ⟨hc, hm⟩ := h.spares hown ht hw hq hs (by
      rintro q' x' rfl hserial
      have hhere : .executed q.serial o' ∈ s.history q'.serial := (mem_history (by simp [Event.concerns, hserial])).2 ho
      rw [hr.history_of_executing ht] at hhere
      simp at hhere)
    have hin : q.serial ∈ passed [.submitted] s.log := by
      have hhere : .executed q.serial o' ∈ s.history q.serial := (mem_history (by exact beq_self_eq_true _)).2 ho
      obtain ⟨-, y, -, hcourse⟩ := hr.course (List.ne_nil_of_mem hhere)
      have hfirst : .submitted q.serial ∈ s.history q.serial := by
        generalize s.history q.serial = es at hhere hcourse
        cases hcourse <;> simp at hhere ⊢
      exact List.mem_filterMap.2 ⟨_, (mem_history (by exact beq_self_eq_true _)).1 hfirst, by simp [Event.milestone?]⟩
    rw [additionsOf_append]
    exact (h.executed q (mem_queries hnodup hsub hq hin) hs o' ho).mono hc hm
  · obtain ⟨hmem, -, -, hins⟩ := h.executing t q' x rest ht
    obtain rfl := List.inj_on_of_nodup_map hnodup hq (mem_queriesOf_append hmem _) hserial
    cases ha with
    | execute hstep => simp [Execution.step, hx] at hstep
    | executed =>
      rw [additionsOf_append, notes, additionsOf_added, Execution.adds_of_ne_begin (by simp [hx]), List.append_nil]
      cases hins hs with
      | before hb => simp [Execution.hasBegun, hx] at hb
      | storing hp | halfway hp => cases hx.symm.trans hp
      | served hp hserved =>
        cases (hp.resolve_left (by simp [hx])).symm.trans hx
        exact hserved

/-- Nothing has happened to an insert that was not taken, also when it is submitted with this step. -/
theorem Fills.act_unserved {q : Query} (hq : q ∈ queriesOf (xs ++ s.notes table f)) (hs : q.statement = .insert table)
    (hn : q.serial ∉ passed [.taken] s₁.log) : Unserved w s₁.world (additionsOf (xs ++ s.notes table f)) q := by
  have hn' : q.serial ∉ passed [.taken] s.log := by
    obtain ⟨es, hes, -⟩ := act_log ha
    rw [hes, passed_append] at hn
    exact fun hin => hn (List.mem_append_left _ hin)
  obtain ⟨hc, hm⟩ := h.spares hown ht hw hq hs (by
    rintro q' x' rfl hserial
    have hhere : .taken q'.serial t ∈ s.history q'.serial := by simp [hr.history_of_executing ht]
    exact hn' (hserial ▸ mem_passed_taken ((mem_history (by exact beq_self_eq_true _)).1 hhere)))
  have hcases := hq
  rw [queriesOf_append, queriesOf_notes] at hcases
  rw [additionsOf_append]
  refine Unserved.mono hc hm ?_
  rcases List.mem_append.1 hcases with hcases | hnew
  · exact h.untaken q hcases hs hn'
  · -- no query that was there before has this number
    have hfresh : ∀ q' ∈ queriesOf xs, q'.serial ≠ q.serial := by
      rw [queriesOf_append, queriesOf_notes, List.map_append] at hnodup
      intro q' hq' e
      exact List.disjoint_of_nodup_append hnodup (List.mem_map_of_mem hq') (e ▸ List.mem_map_of_mem hnew)
    constructor
    · intro a hmem hserial
      obtain ⟨q', hq', e⟩ := Option.map_eq_some_iff.1 hserial
      exact hfresh q' (h.known a hmem q' hq').1 e
    · intro c hin
      exact h.unused c fun q' hq' => (hown q hq hs).2.2 q' (mem_queriesOf_append hq' _) (hfresh q' hq') c hin

theorem act_fills (hsub : passed [.submitted] s.log = (queriesOf xs).map Query.serial) :
    (s₁.setFrames t fs).Fills table w (xs ++ s.notes table f) where
  exists_table := hw.tables ▸ h.exists_table
  length := hw.length.trans h.length
  rows := by
    rw [additionsOf_append, List.map_append, ← List.append_assoc, ← h.rows]
    exact hw.table
  known a hmem q hq := by
    rw [additionsOf_append] at hmem
    rw [queriesOf_append]
    rcases List.mem_append.1 hmem with hmem | hmem
    · obtain ⟨hin, hs⟩ := h.known a hmem q hq
      exact ⟨List.mem_append_left _ hin, hs⟩
    · obtain ⟨x, rfl, -, hx⟩ := mem_additionsOf_notes hmem hq
      obtain ⟨hin, -, hst, -⟩ := h.executing t q x rest ht
      exact ⟨List.mem_append_left _ hin, hst ▸ hx⟩
  once := by
    rw [additionsOf_append, List.filterMap_append]
    rcases s.additionsOf_notes_cases table f with e | ⟨row, e⟩ | ⟨q, x, row, rfl, hp, hs, e⟩
    · rw [e, List.filterMap_nil, List.append_nil]
      exact h.once
    · rw [e, show [Addition.mk none row].filterMap Addition.serial? = [] from rfl, List.append_nil]
      exact h.once
    · -- the insert begins with this step, so it has added no row before
      obtain ⟨-, -, hst, hins⟩ := h.executing t q x rest ht
      rw [e, show [Addition.mk (some q) row].filterMap Addition.serial? = [q.serial] from rfl]
      cases hins (hst ▸ hs) with
      | before _ hu =>
        refine List.Nodup.append h.once (List.nodup_singleton _) ?_
        rw [List.disjoint_singleton]
        intro hmem
        obtain ⟨a, ha, hserial⟩ := List.mem_filterMap.1 hmem
        exact hu.unadded a ha hserial
      | storing hp' | halfway hp' => cases hp.symm.trans hp'
      | served hp' => simp [hp] at hp'
  queued q hq := by
    rw [queriesOf_append, queriesOf_notes]
    exact List.mem_append.2 ((act_mem_queue ha hq).imp_left fun hq => h.queued hq)
  executing u q x urest hu := h.act_executing hr hown ht ha hw hu
  executed q hq hs o' ho := h.act_served hr hown hnodup ht ha hw hsub hq hs ho
  untaken q hq hs hn := h.act_unserved hr hown hnodup ht ha hw hq hs hn
  unused c hc := by
    have hbefore : ∀ q ∈ queriesOf xs, c ∉ q.args.counters := fun q hq => hc q (mem_queriesOf_append hq _)
    refine (hw.counter c fun hf => ?_).trans (h.unused c hbefore)
    unfold Frame.counters at hf
    split at hf
    · obtain ⟨hmem, hargs, -⟩ := h.executing t _ _ rest ht
      exact hbefore _ hmem (hargs ▸ hf)
    · cases hf

end

end Pool

/-! ## Runs -/

theorem OwnCounters.of_append {table : Nat} {w : World} {qs qs' : List Query} (h : OwnCounters table w (qs ++ qs')) :
    OwnCounters table w qs := by
  intro q hq hs
  obtain ⟨hd, hr, ho⟩ := h q (List.mem_append_left _ hq) hs
  exact ⟨hd, hr, fun q' hq' => ho q' (List.mem_append_left _ hq')⟩

namespace ReachableNoting

variable {P : Pool → Frame → Prop} {o : Options} {w : World} {scripts : List (List Action)} {table : Nat}
  {xs : List Entry} {s : Pool}

theorem reachableWith (h : ReachableNoting P (Pool.notes table) o w scripts xs s) :
    ReachableWith P o w scripts (queriesOf xs) s := by
  induction h with
  | initial => exact .initial
  | next l _ hf hp hn ih =>
    rw [queriesOf_append, Pool.queriesOf_notes]
    exact ih.next l hf hp hn

theorem fills (ht : table < w.tables.length) (hown : OwnCounters table w (queriesOf xs))
    (h : ReachableNoting P (Pool.notes table) o w scripts xs s) : s.Fills table w xs := by
  have hnodup : ((queriesOf xs).map Query.serial).Nodup :=
    h.reachableWith.submitted ▸ h.reachable.nodup_passed .submitted
  induction h with
  | initial =>
    have executing : ∀ t q x rest, (Pool.initial o w scripts).framesOf t ≠ .worker (.execute q x) :: rest := by
      intro t q x rest e
      rcases framesOf_initial o w scripts t with hf | ⟨actions, hf⟩ <;> cases hf.symm.trans e
    exact ⟨ht, rfl, (List.append_nil _).symm, fun _ ha => (nomatch ha), .nil, List.nil_subset _,
      fun t q x rest e => absurd e (executing t q x rest), fun _ hq => (nomatch hq), fun _ hq => (nomatch hq),
      fun _ _ => rfl⟩
  | next l hr hf hp hn ih =>
    have hbefore := ih (queriesOf_append .. ▸ hown).of_append (by
      rw [queriesOf_append, List.map_append] at hnodup
      exact hnodup.of_append_left)
    have hw := Pool.next_extends hbefore.exists_table hf hn
    obtain ⟨t, rest, fs, s₁, hframes, ha, rfl⟩ := Pool.next_acting hf hn
    exact Pool.act_fills hr.reachable hown hnodup hframes ha hw hbefore hr.reachableWith.submitted

end ReachableNoting

/-- A query that was taken was executed, if none is being executed. -/
theorem Reachable.executed_of_taken {o : Options} {w : World} {scripts : List (List Action)} {s : Pool}
    (h : Reachable o w scripts s) (hnone : ∀ t q x, .worker (.execute q x) ∉ s.framesOf t) {i : Nat}
    (hi : i ∈ passed [.taken] s.log) : ∃ o', .executed i o' ∈ s.log := by
  have hhistory : i ∈ passed [.taken] (s.history i) := by
    rw [← filter_passed, List.mem_filter]
    exact ⟨hi, beq_self_eq_true i⟩
  have hne : s.history i ≠ [] := fun e => by simp [e] at hhistory
  obtain ⟨-, x, htokens, hcourse⟩ := h.course hne
  have hexecuted : (∃ t, x = some (.executing t)) ∨ ∃ o', .executed i o' ∈ s.history i := by
    generalize s.history i = es at hhistory hcourse
    cases hcourse <;> simp [passed_cons, Event.milestone?] at hhistory ⊢
  rcases hexecuted with ⟨t, rfl⟩ | ⟨o', ho⟩
  · -- the frame that executes the query
    have htoken : .executing t ∈ s.tokens i := by simp [htokens, single]
    rcases Pool.mem_tokens.1 htoken with ⟨u, f, hf, hmem⟩ | ⟨e, -⟩
    · obtain ⟨q, y, rfl⟩ : ∃ q y, f = .worker (.execute q y) := by
        unfold tokensIn Role.tokens at hmem
        split at hmem <;> (try split at hmem) <;> simp [mem_tokensOf] at hmem
        exact ⟨_, _, rfl⟩
      exact absurd hf (hnone u q y)
    · cases e
  · exact ⟨o', (Pool.mem_history (by exact beq_self_eq_true i)).1 ho⟩

/-- What inserts and pushes make of a table that was `w` at first, when this was noted. -/
structure Pool.Numbered (table : Nat) (w : World) (xs : List Entry) (s : Pool) : Prop where
  /-- Behind the rows that were there come those that were added, in order. -/
  rows : s.world.table table = w.table table ++ (additionsOf xs).map Addition.row
  /-- No step changes a row, removes one or moves one. -/
  grows : ∀ l s', s.next l = some s' → s.world.table table <+: s'.world.table table
  /-- An insert that succeeded has added the row of its record, and its id is the place of this row, counted
  from one. -/
  succeeded : ∀ q ∈ queriesOf xs, q.statement = .insert table → .executed q.serial .done ∈ s.log →
    ∃ r row n, q.args.params = some r ∧ r.encode = .ok row ∧ ⟨some q, row⟩ ∈ additionsOf xs ∧
      (w.table table).length < n ∧ (s.world.table table)[n - 1]? = some row ∧
      (∀ c, q.args.insertId = some c → s.world.counter c = n) ∧ ∀ c, q.args.rows = some c → s.world.counter c = 1
  /-- An insert that failed had no row to add, has added none, and has left its counters as they were. -/
  failed : ∀ q ∈ queriesOf xs, q.statement = .insert table → ∀ o, .executed q.serial o ∈ s.log → o ≠ .done →
    (∃ e, insertedRow q.args.params = .error e ∧ o = .failed e) ∧ (∀ a ∈ additionsOf xs, a.serial? ≠ some q.serial) ∧
      ∀ c ∈ q.args.counters, s.world.counter c = w.counter c
  /-- No query has added two rows. -/
  once : ((additionsOf xs).filterMap Addition.serial?).Nodup
  /-- While none is executed, the queries that have added a row are the inserts that succeeded. -/
  settled : (∀ t q x, .worker (.execute q x) ∉ s.framesOf t) → ∀ i, i ∈ (additionsOf xs).filterMap Addition.serial? ↔
    ∃ q ∈ queriesOf xs, q.serial = i ∧ q.statement = .insert table ∧ .executed i .done ∈ s.log
  /-- Two inserts that succeeded have different ids. -/
  distinct : ∀ q ∈ queriesOf xs, ∀ q' ∈ queriesOf xs, q.statement = .insert table → q'.statement = .insert table →
    .executed q.serial .done ∈ s.log → .executed q'.serial .done ∈ s.log → q.serial ≠ q'.serial →
    ∀ c c', q.args.insertId = some c → q'.args.insertId = some c' → s.world.counter c ≠ s.world.counter c'

namespace Pool

variable {table : Nat} {w : World} {xs : List Entry} {s : Pool}

/-- The place of the row of an insert that succeeded. -/
theorem Fills.stored (h : s.Fills table w xs) {q : Query} (hq : q ∈ queriesOf xs) (hs : q.statement = .insert table)
    (ho : .executed q.serial .done ∈ s.log) :
    ∃ row k, insertedRow q.args.params = .ok row ∧ (additionsOf xs)[k]? = some ⟨some q, row⟩ ∧
      (∀ c, q.args.insertId = some c → s.world.counter c = (w.table table).length + k + 1) ∧
      ∀ c, q.args.rows = some c → s.world.counter c = 1 := by
  obtain ⟨i, n, hy, hi, hn⟩ := h.executed q hq hs _ ho
  cases hy with
  | stored hr hk => exact ⟨_, _, hr, hk, hi, hn⟩

theorem exists_encode {params : Option Record} {row : Row} (h : insertedRow params = .ok row) :
    ∃ r, params = some r ∧ r.encode = .ok row := by
  cases params with
  | none => cases h
  | some r => exact ⟨r, rfl, h⟩

end Pool

/-- Inserts that share a table, each with counters of its own, number their rows rightly and lose none: in
whatever order workers and scripts take their steps. -/
theorem ReachableNoting.inserts {P : Pool → Frame → Prop} {o : Options} {w : World} {scripts : List (List Action)}
    {table : Nat} {xs : List Entry} {s : Pool} (ht : table < w.tables.length)
    (hown : OwnCounters table w (queriesOf xs)) (h : ReachableNoting P (Pool.notes table) o w scripts xs s) :
    s.Numbered table w xs := by
  have hf := h.fills ht hown
  have succeeded : ∀ q ∈ queriesOf xs, q.statement = .insert table → .executed q.serial .done ∈ s.log →
      ∃ row, ⟨some q, row⟩ ∈ additionsOf xs := by
    intro q hq hs ho
    obtain ⟨row, k, -, hk, -⟩ := hf.stored hq hs ho
    exact ⟨row, List.mem_of_getElem? hk⟩
  refine ⟨hf.rows, ?_, ?_, ?_, hf.once, ?_, ?_⟩
  · intro l s' hn
    obtain ⟨f, rest, fs, s₁, hframes, -⟩ := Pool.next_steps hn
    have hfirst : s.acting l = some f := by
      cases l <;> exact congrArg List.head? hframes
    exact ⟨_, (Pool.next_extends hf.exists_table hfirst hn).table.symm⟩
  · intro q hq hs ho
    obtain ⟨row, k, hr, hk, hi, hn⟩ := hf.stored hq hs ho
    obtain ⟨r, hparams, hencode⟩ := Pool.exists_encode hr
    refine ⟨r, row, _, hparams, hencode, List.mem_of_getElem? hk, by omega, ?_, hi, hn⟩
    rw [hf.rows, Nat.add_sub_cancel, List.getElem?_append_right (Nat.le_add_right _ _), Nat.add_sub_cancel_left,
      List.getElem?_map, hk]
    rfl
  · intro q hq hs o' ho hne
    obtain ⟨i, n, hy, hi, hn⟩ := hf.executed q hq hs o' ho
    cases hy with
    | stored => exact absurd rfl hne
    | refused hr hunadded =>
      refine ⟨⟨_, hr, rfl⟩, hunadded, fun c hc => ?_⟩
      exact (mem_counters.1 hc).elim (hi c) (hn c)
  · intro hnone i
    rw [List.mem_filterMap]
    constructor
    · rintro ⟨a, ha, hserial⟩
      obtain ⟨q, hq, rfl⟩ := Option.map_eq_some_iff.1 hserial
      obtain ⟨hmem, hs⟩ := hf.known a ha q hq
      refine ⟨q, hmem, rfl, hs, ?_⟩
      have htaken : q.serial ∈ passed [.taken] s.log := by
        by_contra hn
        exact (hf.untaken q hmem hs hn).unadded a ha hserial
      obtain ⟨o', ho⟩ := h.reachable.executed_of_taken hnone htaken
      obtain ⟨i, n, hy, -⟩ := hf.executed q hmem hs o' ho
      cases hy with
      | stored => exact ho
      | refused _ hunadded => exact absurd hserial (hunadded a ha)
    · rintro ⟨q, hq, rfl, hs, ho⟩
      obtain ⟨row, hrow⟩ := succeeded q hq hs ho
      exact ⟨_, hrow, rfl⟩
  · intro q hq q' hq' hs hs' ho ho' hne c c' hc hc' e
    obtain ⟨row, k, -, hk, hi, -⟩ := hf.stored hq hs ho
    obtain ⟨row', k', -, hk', hi', -⟩ := hf.stored hq' hs' ho'
    rw [hi c hc, hi' c' hc'] at e
    obtain rfl : k = k' := by omega
    cases hk.symm.trans hk'
    exact hne rfl

/-- A record with one text. -/
def textRecord (text : String) : Record := .ofFields [.plain .text text]

def textRow (text : String) : Row := [.text text]

/-- A table with a row, and two counters for each of three queries. -/
def sixCounters : World := ⟨[[textRow "old"]], [], [], [40, 41, 42, 43, 44, 45]⟩

/-- Two records and none are inserted, and a row is pushed. -/
def threeInserts : List (List Action) :=
  [[.start, .submit (.insert 0) ⟨some (textRecord "early"), none, some 0, some 1⟩ [] [] false,
    .submit (.insert 0) ⟨none, none, some 2, some 3⟩ [] [] false,
    .submit (.insert 0) ⟨some (textRecord "late"), none, some 4, some 5⟩ [] [] false,
    .pushRow 0 (textRow "pushed")]]

/-- The first query has added its row and stores its numbers only after all else. -/
def threeInsertsRun : List Label :=
  stepsOf 0 6 ++ stepsOf 1 2 ++ stepsOf 2 2 ++ stepsOf 0 10 ++ stepsOf 1 3 ++ stepsOf 2 3 ++ stepsOf 1 4 ++
    stepsOf 2 4 ++ stepsOf 0 1 ++ stepsOf 2 20 ++ stepsOf 1 6

/-- The ids are two and four: the row that is pushed is the third one. -/
theorem inserts_of_three :
    ∃ xs s, (Pool.initial (.ofThreads 2) sixCounters threeInserts).runNoting (fun _ _ => True) (Pool.notes 0) []
        threeInsertsRun = some (xs, s) ∧
      s.Numbered 0 sixCounters xs ∧ s.world.table 0 = ["old", "early", "pushed", "late"].map textRow ∧
      s.world.counters = [2, 1, 42, 43, 4, 1] := by
  obtain ⟨⟨xs, s⟩, hr⟩ := Option.isSome_iff_exists.1 (show ((Pool.initial (.ofThreads 2) sixCounters
    threeInserts).runNoting (fun _ _ => True) (Pool.notes 0) [] threeInsertsRun).isSome = true from rfl)
  have hv : ((queriesOf xs).map fun q => (q.serial, q.args.counters), s.world.table 0, s.world.counters) =
      ([(0, [0, 1]), (1, [2, 3]), (2, [4, 5])], ["old", "early", "pushed", "late"].map textRow,
        [2, 1, 42, 43, 4, 1]) := by
    rw [← Option.some_inj, ← Option.map_some (f := fun r : List Entry × Pool =>
      ((queriesOf r.1).map fun q => (q.serial, q.args.counters), r.2.world.table 0, r.2.world.counters))
      (a := (xs, s)), ← hr]
    rfl
  simp only [Prod.mk.injEq] at hv
  obtain ⟨hqueries, hrows, hcounters⟩ := hv
  have hmem : ∀ q ∈ queriesOf xs, (q.serial, q.args.counters) ∈ [(0, [0, 1]), (1, [2, 3]), (2, [4, 5])] :=
    fun q hq => hqueries ▸ List.mem_map_of_mem hq
  have apart : ∀ p ∈ [(0, [0, 1]), (1, [2, 3]), (2, [4, 5])], p.2.Nodup ∧ (∀ c ∈ p.2, c < sixCounters.counters.length) ∧
      ∀ p' ∈ [(0, [0, 1]), (1, [2, 3]), (2, [4, 5])], p'.1 ≠ p.1 → ∀ c ∈ p.2, c ∉ p'.2 := by decide
  have hown : OwnCounters 0 sixCounters (queriesOf xs) := by
    rintro q hq -
    obtain ⟨hdistinct, hrange, hothers⟩ := apart _ (hmem q hq)
    exact ⟨hdistinct, hrange, fun q' hq' => hothers _ (hmem q' hq')⟩
  exact ⟨xs, s, hr, (ReachableNoting.initial.runNoting hr).inserts (by decide) hown, hrows, hcounters⟩

end StatementPool
