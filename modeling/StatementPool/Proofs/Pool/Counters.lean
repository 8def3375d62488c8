import Mathlib.Data.List.Permutation
import StatementPool.Proofs.Pool.Sequential
/-!
# Counters that executions share

An execution loads the counters that it is given before its statement runs and stores them afterwards,
also when the statement did not set them. As long as no two executions have the same counter in use at
the same time (`Pool.Apart`), it is as if they had been executed at once in the order in which their
statements began (`ReachableWith.serial`). When they overlap, an execution may store a value that it
loaded before another one published a newer value: `update_lost` is such a run, with an outcome that no
order of the executions has.
-/

namespace StatementPool

/-! ## Shared data without gates -/

/-- The data with all gates open. -/
def World.opened (w : World) : World := { w with gates := w.gates.map fun g => { g with opened := true } }

theorem World.isOpen_opened (w : World) (i : Nat) : w.opened.isOpen i = true := by
  simp only [isOpen, opened, List.getElem?_map]
  cases w.gates[i]? <;> rfl

theorem World.isOpen_reach (w : World) (i j : Nat) : (w.reach i).isOpen j = w.isOpen j := by
  simp only [isOpen, reach, List.getElem?_modify]
  cases w.gates[j]? with
  | none => rfl
  | some g => by_cases h : i = j <;> simp [h]

theorem World.counter_publish_ne (w : World) {i : Option Nat} {c : Nat} (h : i ≠ some c) (n : Option Nat) :
    (w.publish i n).counter c = w.counter c := by
  unfold publish
  split
  · rename_i i n
    have hne : i ≠ c := fun e => h (e ▸ rfl)
    simp [setCounter, counter, hne]
  · rfl

theorem Statement.isOpen_execute {st : Statement} {w w' : World} {x y : Slots} {o : Outcome}
    (h : st.execute w x = some (w', y, o)) (i : Nat) : w'.isOpen i = w.isOpen i := by
  cases st with
  | insert table =>
    simp only [execute, insertInto, Option.some.injEq] at h
    split at h
    · cases h; rfl
    · split at h
      · cases h; rfl
      · cases h; rfl
  | gated gate =>
    simp only [execute] at h
    split at h
    · cases h; exact w.isOpen_reach gate i
    · cases h
  | select | fail | panic | planned => cases h; rfl

theorem World.gates_putContent (w : World) (i : Option Nat) (c : Option Collection) :
    (w.putContent i c).gates = w.gates := by
  unfold putContent
  split <;> rfl

theorem Args.isOpen_executeWith {a : Args} {st : Statement} {w v : World} {o : Outcome}
    (h : a.executeWith st w = some (v, o)) (i : Nat) : v.isOpen i = w.isOpen i := by
  obtain ⟨w', y, he, rfl⟩ := executeWith_iff.1 h
  rw [← Statement.isOpen_execute he i, World.isOpen, World.isOpen, (a.published_keeps _ _ _ _).2.2.1,
    World.gates_putContent]

/-- A statement that waits at no gate does the same wherever the tables are the same. -/
theorem Statement.execute_congr {st : Statement} {w v w' : World} {x y : Slots} {o : Outcome}
    (hg : ∀ gate, st ≠ .gated gate) (ht : v.tables = w.tables) (h : st.execute w x = some (w', y, o)) :
    ∃ v', st.execute v x = some (v', y, o) ∧ v'.tables = w'.tables := by
  have htable : ∀ i, v.table i = w.table i := fun i => by rw [World.table, World.table, ht]
  cases st with
  | insert table =>
    simp only [execute, insertInto, Option.some.injEq] at h ⊢
    split at h
    · cases h; exact ⟨v, rfl, ht⟩
    · rename_i record _
      cases he : record.encode with
      | error e => simp only [he] at h ⊢; cases h; exact ⟨v, rfl, ht⟩
      | ok row =>
        have hpush : (v.push table row).tables = (w.push table row).tables := by
          simp only [World.push, ht]
        simp only [he] at h ⊢
        cases h
        exact ⟨_, by rw [World.table, World.table, hpush], hpush⟩
  | select table =>
    simp only [execute, selectFrom, htable, Option.some.injEq, Prod.mk.injEq] at h ⊢
    exact ⟨v, ⟨rfl, h.2⟩, by rw [← h.1]; exact ht⟩
  | gated gate => exact absurd rfl (hg gate)
  | fail | panic | planned => cases h; exact ⟨v, rfl, ht⟩

/-- A query leaves a counter alone that it is not given, and every counter if its statement panics. -/
theorem Args.counter_of_not_stored {a : Args} {st : Statement} {w v : World} {o : Outcome}
    (h : a.executeWith st w = some (v, o)) {c : Nat} (hc : c < w.counters.length)
    (hn : a.insertId = some c ∨ a.rows = some c → ∃ m, o = .panicked m) : v.counter c = w.counter c := by
  obtain ⟨w', y, -, -, -, hleft⟩ := executeWith_counters h
  rw [hleft c hc]
  by_cases hin : a.insertId = some c ∨ a.rows = some c
  · obtain ⟨m, rfl⟩ := hn hin
    rfl
  · rw [not_or] at hin
    cases o <;> simp [leaves, hin.1, hin.2]

/-- What a query leaves in a counter that it is given, unless its statement panics. -/
theorem Args.counter_of_stored {a : Args} {st : Statement} {w w' v : World} {y : Slots} {o : Outcome}
    (he : st.execute w (a.slots w) = some (w', y, o)) (h : a.executeWith st w = some (v, o)) {c : Nat}
    (hc : c < w.counters.length) (ho : ∀ m, o ≠ .panicked m) (hin : a.insertId = some c ∨ a.rows = some c) :
    v.counter c = if a.rows = some c then y.rows.getD 0 else y.insertId.getD 0 := by
  obtain ⟨w₂, y₂, he₂, -, -, hleft⟩ := executeWith_counters h
  cases he.symm.trans he₂
  rw [hleft c hc]
  cases o with
  | panicked m => exact absurd rfl (ho m)
  | done | failed =>
    simp only [leaves]
    split
    · rfl
    · rename_i hrows
      rw [if_pos (hin.resolve_right hrows)]

/-! ## What an execution does with its counters -/

namespace Execution

/-- Whether the statement of an execution has begun to run. -/
def hasBegun (x : Execution) : Bool :=
  match x.phase with
  | .lock | .loadInsertId | .loadRows | .begin => false
  | _ => true

/-- The counters that an execution has loaded and is going to store. -/
def inUse (x : Execution) : List Nat :=
  match x.phase with
  | .loadRows => x.args.insertId.toList
  | .begin | .copy _ _ | .wait _ | .storeInsertId _ => x.args.insertId.toList ++ x.args.rows.toList
  | .storeRows _ => x.args.rows.toList
  | _ => []

/-- What an execution leaves in a counter that it has in use, once its statement has run. -/
def due (x : Execution) (c : Nat) : Nat :=
  if x.args.rows = some c then x.rows.getD 0 else x.insertId.getD 0

/-- An execution of a query fits the shared data `world`, and the data `v` that all queries leave that
have begun: it has loaded what is there, and it is going to store what it leaves in `v`. -/
structure Fits (x : Execution) (q : Query) (world v : World) : Prop where
  args : x.args = q.args
  statement : x.statement = q.statement
  copies : ∀ left n, x.phase ≠ .copy left n
  insertId : x.phase = .loadRows ∨ x.phase = .begin → x.insertId = x.args.insertId.map world.counter
  rows : x.phase = .begin → x.rows = x.args.rows.map world.counter
  filled : x.hasBegun = true → x.insertId.isSome = x.args.insertId.isSome ∧ x.rows.isSome = x.args.rows.isSome
  due : x.hasBegun = true → ∀ c ∈ x.inUse, c < world.counters.length → v.counter c = x.due c

variable {x x' : Execution} {q : Query} {world world' v v' : World} {t : ThreadId}

/-- An execution fits as long as its statement has not begun, if it has loaded what is there. -/
theorem fits_of_not_begun (ha : x.args = q.args) (hs : x.statement = q.statement) (hb : x.hasBegun = false)
    (hi : x.phase = .loadRows ∨ x.phase = .begin → x.insertId = x.args.insertId.map world.counter)
    (hn : x.phase = .begin → x.rows = x.args.rows.map world.counter) : x.Fits q world v where
  args := ha
  statement := hs
  copies left n hp := by simp [hasBegun, hp] at hb
  insertId := hi
  rows := hn
  filled h := absurd h (by simp [hb])
  due h := absurd h (by simp [hb])

theorem fits_start (q : Query) (world v : World) : (start q.statement q.args).Fits q world v :=
  fits_of_not_begun rfl rfl rfl (by simp [start]) (by simp [start])

/-- An execution still fits when the counters that it has in use are left alone. -/
theorem Fits.mono (h : x.Fits q world v) (hl : world'.counters.length = world.counters.length)
    (hw : ∀ c ∈ x.inUse, world'.counter c = world.counter c)
    (hv : ∀ c ∈ x.inUse, c < world.counters.length → v'.counter c = v.counter c) : x.Fits q world' v' where
  args := h.args
  statement := h.statement
  copies := h.copies
  insertId hp := by
    rw [h.insertId hp]
    apply Option.map_congr
    intro c hc
    refine (hw c ?_).symm
    rcases hp with hp | hp <;> simp [inUse, hp, hc]
  rows hp := by
    rw [h.rows hp]
    apply Option.map_congr
    intro c hc
    exact (hw c (by simp [inUse, hp, hc])).symm
  filled := h.filled
  due hb c hc hlt := by
    rw [hl] at hlt
    rw [hv c hc hlt]
    exact h.due hb c hc hlt

/-- An execution fits once its statement has run, if it is going to store what it leaves. -/
theorem fits_of_begun (ha : x.args = q.args) (hs : x.statement = q.statement) (hb : x.hasBegun = true)
    (hcopy : ∀ left n, x.phase ≠ .copy left n)
    (hfilled : x.insertId.isSome = x.args.insertId.isSome ∧ x.rows.isSome = x.args.rows.isSome)
    (hdue : ∀ c ∈ x.inUse, c < world.counters.length → v.counter c = x.due c) : x.Fits q world v where
  args := ha
  statement := hs
  copies := hcopy
  insertId hp := by rcases hp with hp | hp <;> simp [hasBegun, hp] at hb
  rows hp := by simp [hasBegun, hp] at hb
  filled _ := hfilled
  due _ := hdue

/-- An execution whose statement has run still fits when it goes on with the same numbers. -/
theorem Fits.next (h : x.Fits q world v) (hb : x.hasBegun = true) (hb' : x'.hasBegun = true)
    (hcopy : ∀ left n, x'.phase ≠ .copy left n)
    (hx' : x'.args = x.args ∧ x'.statement = x.statement ∧ x'.insertId = x.insertId ∧ x'.rows = x.rows)
    (hsub : x'.inUse ⊆ x.inUse) (hl : world'.counters.length = world.counters.length) : x'.Fits q world' v := by
  obtain ⟨hargs, hst, hi, hn⟩ := hx'
  apply fits_of_begun (hargs.trans h.args) (hst.trans h.statement) hb' hcopy
  · rw [hi, hn, hargs]
    exact h.filled hb
  · intro c hin hlt
    rw [hl] at hlt
    rw [h.due hb c (hsub hin) hlt, Execution.due, Execution.due, hargs, hi, hn]

theorem hasBegun_ended (x : Execution) (o : Outcome) : (x.ended o).hasBegun = true := by cases o <;> rfl

theorem ended_ne_copy (x : Execution) (o : Outcome) (left : List Row) (n : Nat) : (x.ended o).phase ≠ .copy left n := by
  cases o <;> simp [ended]

end Execution

/-! ## The order in which statements begin -/

/-- An execution whose statement has begun is going to store a counter. -/
def Storing (jobs : Multiset Job) (c : Nat) : Prop :=
  ∃ t q x, .executing t q x ∈ jobs ∧ x.hasBegun = true ∧ c ∈ x.inUse

theorem storing_add {jobs r : Multiset Job} {c : Nat} : Storing (jobs + r) c ↔ Storing jobs c ∨ Storing r c := by
  constructor
  · rintro ⟨t, q, x, hm, h⟩
    exact (Multiset.mem_add.1 hm).imp (fun hm => ⟨t, q, x, hm, h⟩) fun hm => ⟨t, q, x, hm, h⟩
  · rintro (⟨t, q, x, hm, h⟩ | ⟨t, q, x, hm, h⟩)
    · exact ⟨t, q, x, Multiset.mem_add.2 (.inl hm), h⟩
    · exact ⟨t, q, x, Multiset.mem_add.2 (.inr hm), h⟩

@[simp] theorem storing_executing {t : ThreadId} {q : Query} {x : Execution} {c : Nat} :
    Storing {.executing t q x} c ↔ x.hasBegun = true ∧ c ∈ x.inUse := by
  simp [Storing]

@[simp] theorem not_storing_delivering {q : Query} {o : Outcome} {c : Nat} : ¬ Storing {.delivering q o} c := by
  simp [Storing]

/-- All executions fit the shared data and what the queries leave that have begun. -/
def AllFit (jobs : Multiset Job) (world v : World) : Prop :=
  ∀ t q x, .executing t q x ∈ jobs → x.Fits q world v

theorem allFit_add {t : ThreadId} {q : Query} {x : Execution} {r : Multiset Job} {world v : World} :
    AllFit ({.executing t q x} + r) world v ↔ x.Fits q world v ∧ AllFit r world v := by
  simp only [AllFit, Multiset.mem_add, Multiset.mem_singleton]
  constructor
  · intro h
    exact ⟨h t q x (.inl rfl), fun u q₂ x₂ hm => h u q₂ x₂ (.inr hm)⟩
  · rintro ⟨hx, hr⟩ u q₂ x₂ (e | hm)
    · cases e
      exact hx
    · exact hr u q₂ x₂ hm

/-- The executions in progress, and the data that they work on, fit the queries that have begun so far:
executed at once, one after the other, these leave `v`. A counter that nobody is going to store has its
value already. -/
structure Serial (w : World) (begun : List Query) (v : World) (jobs : Multiset Job) (world : World) : Prop where
  ends : ∃ os, executeEach w.opened begun = some (v, os)
  tables : v.tables = world.tables
  length : v.counters.length = world.counters.length
  opened : ∀ i, v.isOpen i = true
  fits : AllFit jobs world v
  settled : ∀ c < world.counters.length, ¬ Storing jobs c → v.counter c = world.counter c

namespace Serial

variable {w v world world' : World} {begun : List Query} {jobs jobs' r : Multiset Job} {t : ThreadId} {q : Query}
  {x x' : Execution}

open Execution (hasBegun inUse)

/-- Nothing happens to tables and counters. -/
theorem of_same (h : Serial w begun v jobs world) (ht : world'.tables = world.tables)
    (hc : world'.counters = world.counters) (hf : AllFit jobs' world v) (hs : ∀ c, Storing jobs c → Storing jobs' c) :
    Serial w begun v jobs' world' where
  ends := h.ends
  tables := h.tables.trans ht.symm
  length := h.length.trans (by rw [hc])
  opened := h.opened
  fits t q x hm := (hf t q x hm).mono (by rw [hc]) (fun c _ => by rw [World.counter, World.counter, hc]) fun _ _ _ => rfl
  settled c hlt hn := by
    rw [hc] at hlt
    rw [h.settled c hlt fun hst => hn (hs c hst), World.counter, World.counter, hc]

/-- An execution goes on without a change to the shared data. -/
theorem same_piece (h : Serial w begun v ({.executing t q x} + r) world) (hf : x'.Fits q world v)
    (hb : x.hasBegun = true → x'.hasBegun = true ∧ x.inUse ⊆ x'.inUse) :
    Serial w begun v ({.executing t q x'} + r) world := by
  refine h.of_same rfl rfl (allFit_add.2 ⟨hf, (allFit_add.1 h.fits).2⟩) ?_
  intro c hs
  rw [storing_add, storing_executing] at hs ⊢
  rcases hs with ⟨hx, hc⟩ | hs
  · obtain ⟨hb', hsub⟩ := hb hx
    exact .inl ⟨hb', hsub hc⟩
  · exact .inr hs

/-- No other execution uses the counters that an execution uses. -/
def Alone (x : Execution) (r : Multiset Job) : Prop :=
  ∀ u q₂ x₂, .executing u q₂ x₂ ∈ r → ∀ c ∈ x.inUse, c ∉ x₂.inUse

theorem Alone.not_storing (h : Alone x r) {c : Nat} (hc : c ∈ x.inUse) : ¬ Storing r c :=
  fun ⟨u, q₂, x₂, hm, _, hin⟩ => h u q₂ x₂ hm c hc hin

/-- What an execution has loaded when its statement begins is what the queries before it leave. -/
theorem slots_eq (h : Serial w begun v ({.executing t q x} + r) world) (hp : x.phase = .begin)
    (hres : q.args.results = none) (ha : Alone x r) : x.slots world = q.args.slots v := by
  obtain ⟨hx, -⟩ := allFit_add.1 h.fits
  have same : ∀ c ∈ x.inUse, world.counter c = v.counter c := by
    intro c hc
    by_cases hlt : c < world.counters.length
    · refine (h.settled c hlt fun hs => ?_).symm
      rcases storing_add.1 hs with hs | hs
      · simp [hasBegun, hp] at hs
      · exact ha.not_storing hc hs
    · have hlt' : ¬ c < v.counters.length := by rwa [h.length]
      simp [World.counter, hlt, hlt']
  have hi : x.insertId = q.args.insertId.map v.counter := by
    rw [hx.insertId (.inr hp), ← hx.args]
    exact Option.map_congr fun c hc => same c (by simp [inUse, hp, hc])
  have hn : x.rows = q.args.rows.map v.counter := by
    rw [hx.rows hp, ← hx.args]
    exact Option.map_congr fun c hc => same c (by simp [inUse, hp, hc])
  simp [Execution.slots, Args.slots, hi, hn, hx.args, hres]

/-- A statement begins: its query is the next one in the order. -/
theorem of_begin {v' v₁ : World} {y : Slots} {o : Outcome} (h : Serial w begun v ({.executing t q x} + r) world)
    (hp : x.phase = .begin) (ha : Alone x r) (he : q.statement.execute v (q.args.slots v) = some (v₁, y, o))
    (hv : q.args.executeWith q.statement v = some (v', o))
    (hx' : x'.args = q.args ∧ x'.statement = q.statement ∧ x'.insertId = y.insertId ∧ x'.rows = y.rows)
    (hb : x'.hasBegun = true) (hcopy : ∀ left n, x'.phase ≠ .copy left n)
    (huse : (∃ m, o = .panicked m) ∧ x'.inUse = [] ∨ (∀ m, o ≠ .panicked m) ∧ x'.inUse = x.inUse)
    (ht : v₁.tables = world'.tables) (hc : world'.counters = world.counters) :
    Serial w (begun ++ [q]) v' ({.executing t q x'} + r) world' := by
  obtain ⟨hargs, hst, hi, hn⟩ := hx'
  obtain ⟨hx, hr⟩ := allFit_add.1 h.fits
  obtain ⟨v₂, y', he', htab, hlen, -⟩ := Args.executeWith_counters hv
  cases he.symm.trans he'
  have hinUse : ∀ c, c ∈ x.inUse ↔ q.args.insertId = some c ∨ q.args.rows = some c := by
    simp [inUse, hp, hx.args]
  have hcounter : ∀ c, world'.counter c = world.counter c := fun c => by rw [World.counter, World.counter, hc]
  -- the query leaves in `v'` what is due afterwards, and the other counters as they were
  have hsame : ∀ c < world.counters.length, (c ∈ x.inUse → ∃ m, o = .panicked m) → v'.counter c = v.counter c :=
    fun c hlt hn => Args.counter_of_not_stored hv (h.length ▸ hlt) fun hin => hn ((hinUse c).2 hin)
  have hdue : ∀ c ∈ x'.inUse, c < world.counters.length → v'.counter c = x'.due c := by
    intro c hin hlt
    rcases huse with ⟨-, hu⟩ | ⟨ho, hu⟩
    · rw [hu] at hin
      cases hin
    · rw [hu, hinUse] at hin
      rw [Args.counter_of_stored he hv (h.length ▸ hlt) ho hin, Execution.due, hargs, hi, hn]
  obtain ⟨os, hos⟩ := h.ends
  refine ⟨⟨_, executeEach_snoc hos hv⟩, htab.trans ht, by rw [hlen, h.length, hc], ?_, allFit_add.2 ⟨?_, ?_⟩, ?_⟩
  · intro i
    rw [Args.isOpen_executeWith hv, h.opened]
  · refine Execution.fits_of_begun hargs hst hb hcopy ?_ (by rwa [hc])
    obtain ⟨hfilledI, hfilledR⟩ := Statement.execute_slots he
    rw [hi, hn, hargs, hfilledI, hfilledR]
    simp [Args.slots]
  · intro u q₂ x₂ hm
    refine (hr u q₂ x₂ hm).mono (by rw [hc]) (fun c _ => hcounter c) ?_
    intro c hin hlt
    exact hsame c hlt fun hin' => absurd hin (ha u q₂ x₂ hm c hin')
  · intro c hlt hnone
    rw [hc] at hlt
    rw [storing_add, storing_executing, not_or] at hnone
    obtain ⟨hmine, hothers⟩ := hnone
    rw [hcounter, hsame c hlt]
    · apply h.settled c hlt
      rw [storing_add, storing_executing]
      rintro (⟨hb₂, -⟩ | hs)
      · simp [hasBegun, hp] at hb₂
      · exact hothers hs
    · intro hin
      rcases huse with ⟨hpanic, -⟩ | ⟨-, hu⟩
      · exact hpanic
      · exact absurd ⟨hb, hu ▸ hin⟩ hmine

/-- A value is stored: it is what the queries that have begun leave there. -/
theorem of_store {i n : Option Nat} (h : Serial w begun v ({.executing t q x} + r) world) (ha : Alone x r)
    (hb : x.hasBegun = true) (hb' : x'.hasBegun = true) (hcopy : ∀ left n, x'.phase ≠ .copy left n)
    (hx' : x'.args = x.args ∧ x'.statement = x.statement ∧ x'.insertId = x.insertId ∧ x'.rows = x.rows)
    (huse : ∀ c, c ∈ x.inUse ↔ i = some c ∨ c ∈ x'.inUse)
    (hdue : ∀ c, i = some c → c ∉ x'.inUse → n = some (x.due c)) :
    Serial w begun v ({.executing t q x'} + r) (world.publish i n) := by
  obtain ⟨htab, -, -, hlen⟩ := world.publish_keeps i n
  obtain ⟨hx, hr⟩ := allFit_add.1 h.fits
  refine ⟨h.ends, h.tables.trans htab.symm, h.length.trans hlen.symm, h.opened, allFit_add.2 ⟨?_, ?_⟩, ?_⟩
  · exact hx.next hb hb' hcopy hx' (fun c hc => (huse c).2 (.inr hc)) hlen
  · intro u q₂ x₂ hm
    refine (hr u q₂ x₂ hm).mono hlen ?_ fun _ _ _ => rfl
    intro c hin
    refine world.counter_publish_ne (fun e => ?_) n
    exact ha u q₂ x₂ hm c ((huse c).2 (.inl e)) hin
  · intro c hlt hnone
    rw [hlen] at hlt
    rw [storing_add, storing_executing, not_or] at hnone
    obtain ⟨hmine, hothers⟩ := hnone
    have hmine : c ∉ x'.inUse := fun hin => hmine ⟨hb', hin⟩
    by_cases e : i = some c
    · rw [hx.due hb c ((huse c).2 (.inl e)) hlt, World.counter_publish _ hlt, if_pos e, hdue c e hmine]
      rfl
    · rw [world.counter_publish_ne e]
      apply h.settled c hlt
      rw [storing_add, storing_executing, huse]
      rintro (⟨-, e' | hin⟩ | hs)
      · exact e e'
      · exact hmine hin
      · exact hothers hs

/-- An execution without a collection does its next piece: its query is the next one in the order if its
statement begins with that. -/
theorem of_piece {me : ThreadId} (h : Serial w begun v ({.executing t q x} + r) world) (hres : q.args.results = none)
    (ha : Alone x r) (hpiece : Execution.Piece me x world x' world') :
    ∃ begun' v', Serial w begun' v' ({.executing t q x'} + r) world' ∧
      (x'.hasBegun = x.hasBegun ∧ begun' = begun ∨
        x.hasBegun = false ∧ x'.hasBegun = true ∧ begun' = begun ++ [q]) := by
  obtain ⟨hx, hr⟩ := allFit_add.1 h.fits
  have hnone : x.args.results = none := hx.args ▸ hres
  cases hpiece
  -- without a collection there is nothing to lock and nothing to copy into
  case lock hr _ | unlock hr => cases hnone.symm.trans hr
  case refuse hc _ | search hc _ | copy hc _ | copyFailed hc _ => simp [hnone] at hc
  case copied hp => exact absurd hp (hx.copies _ _)
  case noLock hp _ =>
    refine ⟨begun, v, h.same_piece ?_ ?_, .inl ⟨?_, rfl⟩⟩
    · exact Execution.fits_of_not_begun hx.args hx.statement rfl (by simp) (by simp)
    · simp [hasBegun, hp]
    · simp [hasBegun, hp]
  case loadInsertId hp =>
    refine ⟨begun, v, h.same_piece ?_ ?_, .inl ⟨?_, rfl⟩⟩
    · exact Execution.fits_of_not_begun hx.args hx.statement rfl (fun _ => rfl) (by simp)
    · simp [hasBegun, hp]
    · simp [hasBegun, hp]
  case loadRows hp =>
    refine ⟨begun, v, h.same_piece ?_ ?_, .inl ⟨?_, rfl⟩⟩
    · exact Execution.fits_of_not_begun hx.args hx.statement rfl (fun _ => hx.insertId (.inl hp)) fun _ => rfl
    · simp [hasBegun, hp]
    · simp [hasBegun, hp]
  case run w' y o hp hg he =>
    rw [h.slots_eq hp hres ha, hx.statement] at he
    have hg : ∀ gate, q.statement ≠ .gated gate := hx.statement ▸ hg
    obtain ⟨v₁, he', ht⟩ := Statement.execute_congr hg h.tables he
    have hv := Args.executeWith_iff.2 ⟨v₁, y, he', rfl⟩
    have hput : w'.putContent x.args.results y.results = w' := by rw [hnone, World.putContent]; simp
    rw [hput]
    refine ⟨_, _, h.of_begin hp ha he' hv ?_ ?_ ?_ ?_ ht (Statement.execute_keeps he).2, .inr ⟨?_, ?_, rfl⟩⟩
    · cases o <;> exact ⟨hx.args, hx.statement, rfl, rfl⟩
    · exact Execution.hasBegun_ended _ _
    · exact Execution.ended_ne_copy _ _
    · cases o with
      | panicked m => exact .inl ⟨⟨m, rfl⟩, rfl⟩
      | done | failed => exact .inr ⟨by simp, by simp [Execution.ended, inUse, hp]⟩
    · simp [hasBegun, hp]
    · exact Execution.hasBegun_ended _ _
  case reach gate hp hs =>
    have hst : q.statement = .gated gate := hx.statement ▸ hs
    have he : q.statement.execute v (q.args.slots v) = some (v.reach gate, q.args.slots v, .done) := by
      simp [hst, Statement.execute, h.opened]
    have hv := Args.executeWith_iff.2 ⟨_, _, he, rfl⟩
    have hslots := h.slots_eq hp hres ha
    refine ⟨_, _, h.of_begin hp ha he hv ?_ ?_ ?_ ?_ h.tables rfl, .inr ⟨?_, ?_, rfl⟩⟩
    · rw [← hslots]
      exact ⟨hx.args, hx.statement, rfl, rfl⟩
    · rfl
    · simp
    · exact .inr ⟨by simp, by simp [inUse, hp]⟩
    · simp [hasBegun, hp]
    · rfl
  case pass gate hp ho =>
    have hb : x.hasBegun = true := by simp [hasBegun, hp]
    refine ⟨begun, v, h.same_piece ?_ fun _ => ⟨rfl, ?_⟩, .inl ⟨hb.symm, rfl⟩⟩
    · refine hx.next hb rfl (Execution.ended_ne_copy _ _) ⟨rfl, rfl, rfl, rfl⟩ ?_ rfl
      simp [Execution.ended, inUse, hp]
    · simp [Execution.ended, inUse, hp]
  case noUnlock hp _ =>
    have hb : x.hasBegun = true := by simp [hasBegun, hp]
    refine ⟨begun, v, h.same_piece ?_ fun _ => ⟨rfl, ?_⟩, .inl ⟨hb.symm, rfl⟩⟩
    · exact hx.next hb rfl (by simp) ⟨rfl, rfl, rfl, rfl⟩ (by simp [inUse]) rfl
    · simp [inUse, hp]
  case storeInsertId o hp =>
    have hb : x.hasBegun = true := by simp [hasBegun, hp]
    refine ⟨begun, v, h.of_store ha hb rfl (by simp) ⟨rfl, rfl, rfl, rfl⟩ ?_ ?_, .inl ⟨hb.symm, rfl⟩⟩
    · simp [inUse, hp]
    · intro c hc hnot
      have hrows : x.args.rows ≠ some c := by simpa [inUse] using hnot
      have hi : x.insertId.isSome = true := by rw [(hx.filled hb).1, hc]; rfl
      obtain ⟨n, hn⟩ := Option.isSome_iff_exists.1 hi
      simp [Execution.due, hrows, hn]
  case storeRows o hp =>
    have hb : x.hasBegun = true := by simp [hasBegun, hp]
    refine ⟨begun, v, h.of_store ha hb rfl (by simp) ⟨rfl, rfl, rfl, rfl⟩ ?_ ?_, .inl ⟨hb.symm, rfl⟩⟩
    · simp [inUse, hp]
    · intro c hc hnot
      have hn : x.rows.isSome = true := by rw [(hx.filled hb).2, hc]; rfl
      obtain ⟨n, hn⟩ := Option.isSome_iff_exists.1 hn
      simp [Execution.due, hc, hn]

end Serial

/-! ## Runs in which executions do not share a counter at the same time -/

/-- The counters that a frame has in use. -/
def Frame.inUse : Frame → List Nat
  | .worker (.execute _ x) => x.inUse
  | _ => []

/-- Whether a script is about to push a row itself. -/
def Frame.pushesRow : Frame → Bool
  | .script _ _ (.pushRow _ _ :: _) _ => true
  | _ => false

/-- A query whose statement has begun to run. -/
def Job.begun? : Job → Option Nat
  | .executing _ q x => if x.hasBegun then some q.serial else none
  | .delivering _ _ => none

/-- The numbers of the queries with a job whose statements have begun to run. -/
def begunIn (jobs : Multiset Job) : Multiset Nat := jobs.filterMap Job.begun?

@[simp] theorem begunIn_add (jobs r : Multiset Job) : begunIn (jobs + r) = begunIn jobs + begunIn r :=
  Multiset.filterMap_add _ _ _

@[simp] theorem begunIn_executing (t : ThreadId) (q : Query) (x : Execution) :
    begunIn {.executing t q x} = if x.hasBegun then {q.serial} else 0 := by
  cases h : x.hasBegun <;> simp [begunIn, Job.begun?, h, ← Multiset.cons_zero]

@[simp] theorem begunIn_delivering (q : Query) (o : Outcome) : begunIn {.delivering q o} = 0 := by
  simp [begunIn, Job.begun?, ← Multiset.cons_zero, Multiset.filterMap_cons]

namespace Pool

/-- No two threads have the same counter in use. -/
def Apart (s : Pool) : Prop :=
  ∀ t ∈ List.range s.threads.length, ∀ u ∈ List.range s.threads.length, t ≠ u →
    ∀ f ∈ s.framesOf t, ∀ g ∈ s.framesOf u, ∀ c ∈ f.inUse, c ∉ g.inUse

instance : DecidablePred Apart := fun s => inferInstanceAs (Decidable
  (∀ t ∈ List.range s.threads.length, ∀ u ∈ List.range s.threads.length, t ≠ u →
    ∀ f ∈ s.framesOf t, ∀ g ∈ s.framesOf u, ∀ c ∈ f.inUse, c ∉ g.inUse))

/-- A step of a run in which only executions push rows. -/
def Unpushed (_ : Pool) (f : Frame) : Prop := f.pushesRow = false

instance (s : Pool) : DecidablePred s.Unpushed := fun f => inferInstanceAs (Decidable (f.pushesRow = false))

/-- A step of such a run in which no two executions have the same counter in use. -/
def Exclusive (s : Pool) (f : Frame) : Prop := s.Apart ∧ s.Unpushed f

instance (s : Pool) : DecidablePred s.Exclusive := fun f => inferInstanceAs (Decidable (s.Apart ∧ s.Unpushed f))

/-- The executions of a pool can be put in an order. The queries that have begun are those that were
executed and those that are at it. -/
structure InSerial (w : World) (qs : List Query) (s : Pool) : Prop where
  order : ∃ begun v, Serial w begun v (s.total jobsIn) s.world ∧ begun ⊆ qs ∧
    (begun.map Query.serial : Multiset Nat) = passed [.executed] s.log + begunIn (s.total jobsIn)
  queued : s.queue ⊆ qs
  executing : ∀ t q x, .executing t q x ∈ s.total jobsIn → q ∈ qs

variable {s s₁ : Pool} {t : ThreadId} {f : Frame} {rest fs : List Frame} {w : World} {qs : List Query}

/-- No statement begins, and nobody touches tables and counters. -/
theorem InSerial.of_next {s' : Pool} {qs' : List Query} (h : s.InSerial w qs) (hqs : qs ⊆ qs') (hq : s'.queue ⊆ qs')
    (ht : s'.world.tables = s.world.tables) (hc : s'.world.counters = s.world.counters)
    (hnew : ∀ t q x, .executing t q x ∈ s'.total jobsIn →
      .executing t q x ∈ s.total jobsIn ∨ q ∈ qs ∧ x = .start q.statement q.args)
    (hs : ∀ c, Storing (s.total jobsIn) c → Storing (s'.total jobsIn) c)
    (hn : (passed [.executed] s'.log : Multiset Nat) + begunIn (s'.total jobsIn) =
      passed [.executed] s.log + begunIn (s.total jobsIn)) : s'.InSerial w qs' where
  order := by
    obtain ⟨begun, v, hserial, hb, hbegun⟩ := h.order
    refine ⟨begun, v, hserial.of_same ht hc ?_ hs, List.Subset.trans hb hqs, hbegun.trans hn.symm⟩
    intro t q x hm
    rcases hnew t q x hm with hm | ⟨-, rfl⟩
    · exact hserial.fits t q x hm
    · exact Execution.fits_start q s.world v
  queued := hq
  executing t q x hm := by
    rcases hnew t q x hm with hm | ⟨hm, -⟩
    · exact hqs (h.executing t q x hm)
    · exact hqs hm

/-- The jobs, the tables and the counters are as before. -/
theorem InSerial.of_same {s' : Pool} {qs' : List Query} (h : s.InSerial w qs) (hqs : qs ⊆ qs') (hq : s'.queue ⊆ qs')
    (ht : s'.world.tables = s.world.tables) (hc : s'.world.counters = s.world.counters)
    (hj : s'.total jobsIn = s.total jobsIn) (hl : passed [.executed] s'.log = passed [.executed] s.log) :
    s'.InSerial w qs' := by
  apply h.of_next hqs hq ht hc
  · intro t q x hm
    exact .inl (hj ▸ hm)
  · intro c hs
    rwa [hj]
  · rw [hl, hj]

/-- An execution does its next piece. -/
theorem InSerial.of_piece {s' : Pool} {q : Query} {x x' : Execution} {r : Multiset Job} (h : s.InSerial w qs)
    (hres : q.args.results = none) (ha : Serial.Alone x r) (hx : Execution.Piece t x s.world x' s'.world)
    (before : s.total jobsIn = {.executing t q x} + r) (after : s'.total jobsIn = {.executing t q x'} + r)
    (hq : s'.queue = s.queue) (hl : passed [.executed] s'.log = passed [.executed] s.log) : s'.InSerial w qs := by
  have hmem : q ∈ qs := h.executing t q x (before ▸ Multiset.mem_add.2 (.inl (Multiset.mem_singleton_self _)))
  obtain ⟨begun, v, hserial, hb, hn⟩ := h.order
  rw [before] at hserial hn
  obtain ⟨begun', v', hserial', hbegun⟩ := hserial.of_piece hres ha hx
  refine ⟨⟨begun', v', after ▸ hserial', ?_, ?_⟩, hq ▸ h.queued, ?_⟩
  · rcases hbegun with ⟨-, rfl⟩ | ⟨-, -, rfl⟩
    · exact hb
    · exact List.append_subset.2 ⟨hb, by simpa using hmem⟩
  · rw [after, hl]
    rw [begunIn_add, begunIn_executing] at hn ⊢
    rcases hbegun with ⟨hsame, rfl⟩ | ⟨hnot, hbegun, rfl⟩
    · simpa only [hsame] using hn
    · simp only [hnot, Bool.false_eq_true, if_false, zero_add] at hn
      simp only [hbegun, if_true, List.map_append, ← Multiset.coe_add, hn]
      simp [add_comm]
  · intro u q₂ x₂ hm
    rw [after] at hm
    rcases Multiset.mem_add.1 hm with hm | hm
    · cases Multiset.mem_singleton.1 hm
      exact hmem
    · exact h.executing u q₂ x₂ (before ▸ Multiset.mem_add.2 (.inr hm))

/-- The executions of the other threads do not use the counters of this one. -/
theorem Apart.alone {q : Query} {x : Execution} (h : s.Apart) (ht : s.framesOf t = [.worker (.execute q x)]) :
    Serial.Alone x (s.others t jobsIn) := by
  intro u q₂ x₂ hm c hc
  obtain ⟨v, hne, g, hg, hj⟩ := mem_others.1 hm
  obtain ⟨-, rfl⟩ := mem_jobsIn_executing.1 hj
  have hf : .worker (.execute q x) ∈ s.framesOf t := ht ▸ List.mem_cons_self
  exact h t (List.mem_range.2 (lt_of_mem_framesOf hf)) v (List.mem_range.2 (lt_of_mem_framesOf hg)) hne.symm _ hf _ hg c hc

theorem act_inSerial {o : Options} {w₀ : World} {scripts : List (List Action)} (hr : Reachable o w₀ scripts s)
    (hres : ∀ q ∈ qs, q.args.results = none) (ht : s.framesOf t = f :: rest) (ha : Act s t rest f fs s₁)
    (hp : s.Exclusive f) (h : s.InSerial w qs) : (s₁.setFrames t fs).InSerial w (qs ++ f.puts) := by
  have before := total_cons (w := jobsIn) ht
  have after := act_total steady_jobsIn (fun _ => rfl) ht ha
  have same := act_jobs ht ha
  obtain ⟨hapart, hpush⟩ := hp
  cases ha
  case push q hq =>
    have hqueue : s.queue ++ [q] ⊆ qs ++ [q] := List.append_subset.2
      ⟨List.subset_append_of_subset_left _ h.queued, List.subset_append_right _ _⟩
    exact h.of_same (List.subset_append_left _ _) hqueue rfl rfl (same rfl) (by simp [passed_cons, Event.milestone?])
  case take q queue hq =>
    simp only [Frame.puts, List.append_nil]
    have hmem : q :: queue ⊆ qs := hq ▸ h.queued
    simp only [stackWeight_cons, jobsIn, zero_add, add_assoc] at before after
    refine h.of_next (fun _ h => h) (fun _ hm => hmem (List.mem_cons_of_mem _ hm)) rfl rfl ?_ ?_ ?_
    · intro u q₂ x hm
      rw [after] at hm
      rcases Multiset.mem_add.1 hm with hm | hm
      · cases Multiset.mem_singleton.1 hm
        exact .inr ⟨hmem List.mem_cons_self, rfl⟩
      · exact .inl (before ▸ hm)
    · intro c hs
      rw [after, storing_add]
      exact .inr (before ▸ hs)
    · rw [after, before, begunIn_add {_} _, begunIn_executing]
      simp [passed_cons, Event.milestone?, Execution.hasBegun, Execution.start]
  case execute q x x' v hx =>
    obtain ⟨hbelow, -⟩ : Ordered (.worker (.execute q x) :: rest) := ht ▸ hr.ordered t
    obtain rfl : rest = [] := hbelow
    simp only [stackWeight_nil, zero_add, stackWeight_cons, add_zero, jobsIn] at before after
    simp only [Frame.puts, List.append_nil]
    have hq : q ∈ qs := h.executing t q x (before ▸ Multiset.mem_add.2 (.inl (Multiset.mem_singleton_self _)))
    exact h.of_piece (hres q hq) (hapart.alone ht) (Execution.step_pieces hx) before after rfl (by simp)
  case executed q x o' hx =>
    simp only [Frame.puts, List.append_nil]
    simp only [stackWeight_cons, jobsIn, add_assoc] at before after
    refine h.of_next (fun _ h => h) h.queued rfl rfl ?_ ?_ ?_
    · intro u q₂ x₂ hm
      rw [after] at hm
      rcases Multiset.mem_add.1 hm with hm | hm
      · cases Multiset.mem_singleton.1 hm
      · exact .inl (before ▸ Multiset.mem_add.2 (.inr hm))
    · intro c hs
      rw [before, storing_add] at hs
      rw [after, storing_add]
      refine .inr (hs.resolve_left ?_)
      simp [Execution.inUse, hx]
    · rw [after, before, begunIn_add {_} _, begunIn_add {_} _, begunIn_executing, begunIn_delivering]
      simp [passed_cons, Event.milestone?, Execution.hasBegun, hx, ← Multiset.coe_add, add_assoc]
  case deliver q o' =>
    simp only [Frame.puts, List.append_nil]
    simp only [stackWeight_cons, jobsIn, zero_add] at before after
    refine h.of_next (fun _ h => h) h.queued rfl rfl ?_ ?_ ?_
    · intro u q₂ x₂ hm
      rw [after] at hm
      exact .inl (before ▸ Multiset.mem_add.2 (.inr hm))
    · intro c hs
      rw [before, storing_add] at hs
      rw [after]
      exact hs.resolve_left not_storing_delivering
    · rw [after, before, begunIn_add {_} _, begunIn_delivering]
      simp [passed_cons, Event.milestone?]
  case pushRow => cases hpush
  case park =>
    simp only [Frame.puts, List.append_nil]
    exact h.of_same (fun _ h => h) h.queued rfl rfl (by rw [after, before]; simp [jobsIn]) rfl
  all_goals
    simp only [Frame.puts, List.append_nil]
    exact h.of_same (fun _ h => h) (by simp [h.queued]) rfl rfl (same rfl)
      (by simp [passed_cons, passed_discarded, Event.milestone?])

end Pool

namespace ReachableWith

variable {o : Options} {w : World} {scripts : List (List Action)} {qs : List Query} {s : Pool}

theorem inSerial (hres : ∀ q ∈ qs, q.args.results = none) (h : ReachableWith Pool.Exclusive o w scripts qs s) :
    s.InSerial w qs := by
  revert hres
  refine h.keeps (Q := fun qs s => (∀ q ∈ qs, q.args.results = none) → s.InSerial w qs) ?_ ?_
  · intro _
    have hjobs : (Pool.initial o w scripts).total jobsIn = 0 := total_initial fun _ _ => rfl
    have none_there : ∀ t q x, .executing t q x ∉ (Pool.initial o w scripts).total jobsIn := by simp [hjobs]
    refine ⟨⟨[], w.opened, ⟨⟨[], rfl⟩, rfl, rfl, w.isOpen_opened, ?_, fun _ _ _ => rfl⟩, ?_, ?_⟩, ?_, ?_⟩
    · exact fun t q x hm => absurd hm (none_there t q x)
    · exact List.nil_subset _
    · rw [hjobs]
      rfl
    · exact List.nil_subset _
    · exact fun t q x hm => absurd hm (none_there t q x)
  · intro qs s t f rest fs s₁ hr hs hp ht ha hres
    have hres : ∀ q ∈ qs, q.args.results = none := fun q hq => hres q (List.mem_append_left _ hq)
    exact Pool.act_inSerial hr.reachable hres ht ha hp (hs hres)

/-- As long as no two executions have the same counter in use at the same time, they leave the tables and
the counters that they leave when they are executed at once, one after the other in some order. -/
theorem serial (hres : ∀ q ∈ qs, q.args.results = none) (h : ReachableWith Pool.Exclusive o w scripts qs s)
    (hdone : ∀ t q x, .worker (.execute q x) ∉ s.framesOf t) :
    ∃ order v os, order.Perm (qs.filter fun q => q.serial ∈ passed [.executed] s.log) ∧
      executeEach w.opened order = some (v, os) ∧ v.tables = s.world.tables ∧ v.counters = s.world.counters := by
  obtain ⟨⟨begun, v, hserial, hknown, hbegun⟩, -, -⟩ := h.inSerial hres
  have hjobs : ∀ t q x, .executing t q x ∉ s.total jobsIn := by
    intro t q x hm
    obtain ⟨u, f, hf, hj⟩ := Pool.mem_total.1 hm
    obtain ⟨-, rfl⟩ := mem_jobsIn_executing.1 hj
    exact hdone u q x hf
  have hzero : begunIn (s.total jobsIn) = 0 := by
    apply Multiset.eq_zero_of_forall_notMem
    intro i hi
    obtain ⟨j, hj, hi⟩ := (Multiset.mem_filterMap _ _).1 hi
    cases j with
    | executing t q x => exact hjobs t q x hj
    | delivering q o => cases hi
  rw [hzero, add_zero] at hbegun
  have hserials : (begun.map Query.serial).Perm (passed [.executed] s.log) := Multiset.coe_eq_coe.1 hbegun
  have hdistinct : (qs.map Query.serial).Nodup := h.submitted ▸ h.reachable.nodup_passed .submitted
  obtain ⟨os, hos⟩ := hserial.ends
  refine ⟨begun, v, os, ?_, hos, hserial.tables, ?_⟩
  · -- no query is there twice, and the same queries are on both sides
    rw [List.perm_ext_iff_of_nodup]
    · intro q
      rw [List.mem_filter, decide_eq_true_eq, ← hserials.mem_iff]
      constructor
      · intro hq
        exact ⟨hknown hq, List.mem_map_of_mem hq⟩
      · rintro ⟨hq, hm⟩
        obtain ⟨q', hq', e⟩ := List.mem_map.1 hm
        rwa [← List.inj_on_of_nodup_map hdistinct (hknown hq') hq e]
    · exact (hserials.nodup_iff.2 (h.reachable.nodup_passed .executed)).of_map
    · exact hdistinct.of_map.filter _
  · apply List.ext_getElem hserial.length
    intro c hc hc'
    have hsettled := hserial.settled c hc' fun ⟨t, q, x, hm, _⟩ => hjobs t q x hm
    simpa [World.counter, hc, hc'] using hsettled

end ReachableWith

/-- An empty table, a closed gate and two counters. -/
def closedGate : World := ⟨[[]], [⟨false, 0⟩], [], [0, 0]⟩

/-- A query that waits at the gate, with the first counter for an id that its statement does not set. -/
def waitingQuery : Query := ⟨0, .gated 0, ⟨none, none, some 0, none⟩, ⟨[], [], false⟩⟩

/-- A query that stores a row, with a counter for the id of the row. -/
def storingQuery (counter : Nat) : Query := ⟨1, .insert 0, ⟨some seven, none, some counter, none⟩, ⟨[], [], false⟩⟩

/-- Both are submitted, then the gate is opened. -/
def waitAndStore (counter : Nat) : List (List Action) :=
  [[.start, .submit (.gated 0) waitingQuery.args [] [] false,
    .submit (.insert 0) (storingQuery counter).args [] [] false, .openGate 0]]

/-- The second query is executed by another worker while the first one waits. -/
def waitAndStoreRun : List Label :=
  stepsOf 0 6 ++ stepsOf 1 2 ++ stepsOf 2 2 ++ stepsOf 0 4 ++ stepsOf 1 7 ++ stepsOf 0 3 ++ stepsOf 2 13 ++
    stepsOf 0 1 ++ stepsOf 1 7

/-- With a counter for each, they overlap and are in order all the same. -/
theorem serial_of_two_counters :
    ∃ qs s order v os, (Pool.initial (.ofThreads 2) closedGate (waitAndStore 1)).runWith Pool.Exclusive []
        waitAndStoreRun = some (qs, s) ∧
      order.Perm qs ∧ executeEach closedGate.opened order = some (v, os) ∧ v.tables = s.world.tables ∧
      v.counters = s.world.counters ∧ s.world.counters = [0, 1] := by
  obtain ⟨⟨qs, s⟩, hr⟩ := Option.isSome_iff_exists.1 (show ((Pool.initial (.ofThreads 2) closedGate
    (waitAndStore 1)).runWith Pool.Exclusive [] waitAndStoreRun).isSome = true from rfl)
  have hv : (qs, s.world.counters, passed [.executed] s.log, s.threads) =
      ([waitingQuery, storingQuery 1], [0, 1], [1, 0],
        [⟨false, [.script .outside true [] [.outcome (.ok ()), .id 1, .id 2, .unit]]⟩, ⟨true, [.worker .seek]⟩,
          ⟨true, [.worker .seek]⟩]) := by
    rw [← Option.some_inj, ← Option.map_some (f := fun r : List Query × Pool =>
      (r.1, r.2.world.counters, passed [.executed] r.2.log, r.2.threads)) (a := (qs, s)), ← hr]
    rfl
  simp only [Prod.mk.injEq] at hv
  obtain ⟨rfl, hc, hlog, hthreads⟩ := hv
  have hdone : ∀ t q x, .worker (.execute q x) ∉ s.framesOf t := by
    intro t q x
    unfold Pool.framesOf
    rw [hthreads]
    match t with
    | 0 | 1 | 2 | t + 3 => simp
  obtain ⟨order, v, os, hperm, he, ht, hcounters⟩ := (ReachableWith.initial.runWith hr).serial (by decide) hdone
  refine ⟨_, s, order, v, os, hr, ?_, he, ht, hcounters, hc⟩
  rw [hlog] at hperm
  exact hperm

/-- With one counter for both, the first query erases the id that the second one published, which no order
of the two does. -/
theorem update_lost :
    ∃ qs s, (Pool.initial (.ofThreads 2) closedGate (waitAndStore 0)).runWith Pool.Unpushed [] waitAndStoreRun =
        some (qs, s) ∧
      qs = [waitingQuery, storingQuery 0] ∧ passed [.executed] s.log = [1, 0] ∧ s.world.counter 0 = 0 ∧
      ∀ order, order.Perm qs → ∃ v os, executeEach closedGate.opened order = some (v, os) ∧ v.counter 0 = 1 := by
  refine ⟨_, _, rfl, rfl, rfl, rfl, ?_⟩
  intro order hperm
  rcases List.perm_pair.1 hperm with rfl | rfl
  · exact ⟨_, _, rfl, rfl⟩
  · exact ⟨_, _, rfl, rfl⟩

end StatementPool
