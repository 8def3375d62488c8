import StatementPool.Proofs.Pool.Blocks
import StatementPool.Proofs.Pool.Counters
import StatementPool.Proofs.Statement.InsertSelect
/-!
# Rows that are added to a table

Queries and scripts add rows to a table. Beside a run stands the list of what was submitted and of the rows that
were added; a step adds to the table the rows that are noted for it, behind those that are there, and leaves alone
every counter but those of the query that it is about (`Pool.next_extends`).
-/

namespace StatementPool

/-! ## What is noted about a step -/

/-- A row that was added to a table, by a query or by a script. -/
structure Addition where
  query : Option Query
  row : Row

namespace Addition

/-- The number of the query that added the row. -/
def serial? (a : Addition) : Option Nat := a.query.map Query.serial

end Addition

/-- A query that was submitted, or a row that was added. -/
inductive Entry where
  | submitted (q : Query)
  | added (a : Addition)

def Entry.query? : Entry → Option Query
  | .submitted q => some q
  | .added _ => none

def Entry.addition? : Entry → Option Addition
  | .submitted _ => none
  | .added a => some a

/-- The queries that were submitted, in order. -/
def queriesOf (xs : List Entry) : List Query := xs.filterMap Entry.query?

/-- The rows that were added, in order. -/
def additionsOf (xs : List Entry) : List Addition := xs.filterMap Entry.addition?

@[simp] theorem queriesOf_append (xs ys : List Entry) : queriesOf (xs ++ ys) = queriesOf xs ++ queriesOf ys :=
  List.filterMap_append

theorem mem_queriesOf_append {q : Query} {xs : List Entry} (h : q ∈ queriesOf xs) (ys : List Entry) :
    q ∈ queriesOf (xs ++ ys) := by
  rw [queriesOf_append]
  exact List.mem_append_left _ h

@[simp] theorem additionsOf_append (xs ys : List Entry) : additionsOf (xs ++ ys) = additionsOf xs ++ additionsOf ys :=
  List.filterMap_append

@[simp] theorem queriesOf_added (as : List Addition) : queriesOf (as.map .added) = [] := by
  simp [queriesOf, Entry.query?, Function.comp_def]

@[simp] theorem additionsOf_added (as : List Addition) : additionsOf (as.map .added) = as := by
  simp [additionsOf, Entry.addition?, Function.comp_def]

/-- The row that an insert stores. -/
def insertedRow : Option Record → Except Error Row
  | none => .error (.binding .noParameters)
  | some r => r.encode

/-- The rows that a statement adds to a table. -/
def Statement.adds (table : Nat) (params : Option Record) : Statement → List Row
  | .insert i => if i = table then (insertedRow params).toOption.toList else []
  | _ => []

/-- The row that the next piece of an execution adds to a table. -/
def Execution.adds (table : Nat) (q : Query) (x : Execution) : List Addition :=
  match x.phase with
  | .begin => (x.statement.adds table x.args.params).map fun row => ⟨some q, row⟩
  | _ => []

/-- The counters that an execution loads and stores. -/
def Args.counters (a : Args) : List Nat := a.insertId.toList ++ a.rows.toList

def Frame.counters : Frame → List Nat
  | .worker (.execute _ x) => x.args.counters
  | _ => []

/-- What is noted about a step on a frame. -/
def Pool.notes (table : Nat) (_ : Pool) : Frame → List Entry
  | .push q => [.submitted q]
  | .script _ _ (.pushRow i row :: _) _ => if i = table then [.added ⟨none, row⟩] else []
  | .worker (.execute q x) => (x.adds table q).map .added
  | _ => []

/-! ## What a step does to the table -/

theorem World.table_push_ne {table i : Nat} (h : i ≠ table) (w : World) (row : Row) :
    (w.push i row).table table = w.table table := by
  simp [World.table, World.push, List.getD_eq_getElem?_getD, h]

theorem World.length_push (w : World) (i : Nat) (row : Row) : (w.push i row).tables.length = w.tables.length := by
  simp [World.push]

theorem Statement.execute_insert (table : Nat) (w : World) (y : Slots) :
    (Statement.insert table).execute w y = some (match insertedRow y.params with
      | .error e => (w, y, .failed e)
      | .ok row => (w.push table row, { y with
          insertId := setSlot y.insertId ((w.push table row).table table).length
          rows := setSlot y.rows 1 }, .done)) := by
  unfold execute insertInto insertedRow
  cases y.params with
  | none => rfl
  | some r => cases r.encode <;> rfl

theorem Statement.execute_adds {st : Statement} {w w' : World} {y y' : Slots} {o : Outcome} {table : Nat}
    (h : st.execute w y = some (w', y', o)) (ht : table < w.tables.length) :
    w'.tables.length = w.tables.length ∧ w'.table table = w.table table ++ st.adds table y.params := by
  cases st with
  | insert i =>
    rw [execute_insert, Option.some.injEq] at h
    cases hr : insertedRow y.params with
    | error e =>
      simp only [hr] at h
      cases h
      simp [adds, hr, Except.toOption]
    | ok row =>
      simp only [hr] at h
      cases h
      refine ⟨w.length_push i row, ?_⟩
      by_cases e : i = table
      · subst e
        simp [adds, hr, Except.toOption, World.table_push ht]
      · simp [adds, e, World.table_push_ne e]
  | gated gate =>
    simp only [execute] at h
    split at h
    · cases h; exact ⟨rfl, (List.append_nil _).symm⟩
    · cases h
  | select | fail | panic | planned => cases h; exact ⟨rfl, (List.append_nil _).symm⟩

/-- What a step does to a table and to the counters: it adds rows, and no counter changes but some. -/
structure World.Extends (table : Nat) (rows : List Row) (counters : List Nat) (w w' : World) : Prop where
  tables : w'.tables.length = w.tables.length
  length : w'.counters.length = w.counters.length
  table : w'.table table = w.table table ++ rows
  counter : ∀ c, c ∉ counters → w'.counter c = w.counter c

namespace World.Extends

variable {table : Nat} {rows : List Row} {counters : List Nat} {w w' w'' : World}

theorem of_same (ht : w'.tables = w.tables) (hc : w'.counters = w.counters) : w.Extends table [] counters w' where
  tables := by rw [ht]
  length := by rw [hc]
  table := by rw [World.table, World.table, ht, List.append_nil]
  counter c _ := by rw [World.counter, World.counter, hc]

theorem trans_same (h : w.Extends table rows counters w') (ht : w''.tables = w'.tables)
    (hc : w''.counters = w'.counters) : w.Extends table rows counters w'' where
  tables := by rw [ht, h.tables]
  length := by rw [hc, h.length]
  table := by rw [← h.table, World.table, World.table, ht]
  counter c hn := by rw [← h.counter c hn, World.counter, World.counter, hc]

theorem publish {i n : Option Nat} (hi : ∀ c, i = some c → c ∈ counters) :
    w.Extends table [] counters (w.publish i n) := by
  obtain ⟨ht, -, -, hl⟩ := w.publish_keeps i n
  refine ⟨by rw [ht], hl, by rw [World.table, World.table, ht, List.append_nil], fun c hc => ?_⟩
  exact w.counter_publish_ne (fun e => hc (hi c e)) n

theorem push (ht : table < w.tables.length) (i : Nat) (row : Row) :
    w.Extends table (if i = table then [row] else []) counters (w.push i row) := by
  refine ⟨w.length_push i row, rfl, ?_, fun _ _ => rfl⟩
  by_cases e : i = table
  · subst e
    rw [if_pos rfl, World.table_push ht]
  · rw [if_neg e, List.append_nil, World.table_push_ne e]

end World.Extends

namespace Execution

variable {me : ThreadId} {x x' : Execution} {w w' : World} {table : Nat} {q : Query}

theorem adds_of_ne_begin (hp : x.phase ≠ .begin) : x.adds table q = [] := by
  unfold adds
  split
  · exact absurd (by assumption) hp
  · rfl

theorem adds_cases (x : Execution) (table : Nat) (q : Query) : x.adds table q = [] ∨
    ∃ row, x.phase = .begin ∧ x.statement = .insert table ∧ x.adds table q = [⟨some q, row⟩] := by
  by_cases hp : x.phase = .begin
  · cases hs : x.statement with
    | insert i =>
      by_cases e : i = table
      · cases hr : insertedRow x.args.params with
        | error e => simp [adds, hp, hs, Statement.adds, hr, Except.toOption]
        | ok row => simp [adds, hp, hs, Statement.adds, hr, Except.toOption, e]
      · simp [adds, hp, hs, Statement.adds, e]
    | _ => simp [adds, hp, hs, Statement.adds]
  · exact .inl (adds_of_ne_begin hp)

theorem Piece.extends (h : Piece me x w x' w') (ht : table < w.tables.length) :
    w.Extends table ((x.adds table q).map Addition.row) x.args.counters w' := by
  -- only a piece that runs the statement adds a row
  have none : x.phase ≠ .begin ∨ x.statement.adds table x.args.params = [] →
      (x.adds table q).map Addition.row = [] := by
    rintro (hp | hs)
    · rw [adds_of_ne_begin hp, List.map_nil]
    · unfold adds
      split <;> simp [hs]
  cases h
  case run w₁ y o hp hg he =>
    obtain ⟨htables, htable⟩ := Statement.execute_adds he ht
    obtain ⟨hput, hput', -⟩ := w₁.putContent_keeps x.args.results y.results
    have hcounters := (Statement.execute_keeps he).2
    refine World.Extends.trans_same ?_ hput hput'
    refine ⟨htables, by rw [hcounters], ?_, fun c _ => ?_⟩
    · simp [htable, adds, hp, slots, Function.comp_def]
    · rw [World.counter, World.counter, hcounters]
  case storeInsertId hp | storeRows hp =>
    rw [none (by simp [hp])]
    exact .publish fun c hc => by simp [Args.counters, hc]
  case copy hp _ _ | copyFailed hp _ _ =>
    rw [none (by simp [hp])]
    obtain ⟨hput, hput', -⟩ := w.putContent_keeps x.args.results (some _)
    exact .of_same hput hput'
  case refuse hs _ _ | search hs _ _ | reach hs =>
    rw [none (.inr (by simp [hs, Statement.adds]))]
    exact .of_same rfl rfl
  case noLock hp _ | lock hp _ _ | loadInsertId hp | loadRows hp | copied hp | pass hp _ | noUnlock hp _ |
      unlock hp _ =>
    rw [none (by simp [hp])]
    exact .of_same rfl rfl

end Execution

/-! ## One step -/

namespace Pool

variable {s s₁ : Pool} {t : ThreadId} {f : Frame} {rest fs : List Frame} {table : Nat}

theorem exists_pushRow (h : f.pushesRow = true) :
    ∃ role owns i row todo answers, f = .script role owns (.pushRow i row :: todo) answers := by
  unfold Frame.pushesRow at h
  split at h
  · exact ⟨_, _, _, _, _, _, rfl⟩
  · cases h

/-- A script that pushes a row does so. -/
theorem next_pushRow {l : Label} {s' : Pool} {role owns i row todo answers}
    (hf : s.acting l = some (.script role owns (.pushRow i row :: todo) answers)) (hn : s.next l = some s') :
    s'.world = s.world.push i row := by
  cases l with
  | run t target =>
    obtain ⟨rest, ht⟩ := List.head?_eq_some_iff.1 hf
    simp only [next, step, ht, stepAction, Option.some.injEq] at hn
    rw [← hn]
    rfl
  | refuse t cause =>
    obtain ⟨rest, ht⟩ := List.head?_eq_some_iff.1 hf
    simp [next, refuse, ht] at hn
  | wake t =>
    simp only [next, Option.ite_none_right_eq_some] at hn
    obtain ⟨rest, ht⟩ := mem_parked.1 hn.1
    rw [acting, ht] at hf
    cases hf

theorem additionsOf_notes (hp : f.pushesRow = false) (hx : ∀ q x, f ≠ .worker (.execute q x)) :
    additionsOf (s.notes table f) = [] := by
  unfold notes
  split
  · rfl
  · cases hp
  · exact absurd rfl (hx _ _)
  · rfl

/-- What a step does to the table: it adds the rows that are noted. -/
theorem act_extends (ha : Act s t rest f fs s₁) (ht : table < s.world.tables.length)
    (hpush : ∀ role owns i row todo answers, f = .script role owns (.pushRow i row :: todo) answers →
      s₁.world = s.world.push i row) :
    s.world.Extends table ((additionsOf (s.notes table f)).map Addition.row) f.counters s₁.world := by
  by_cases hp : f.pushesRow = true
  · obtain ⟨role, owns, i, row, todo, answers, rfl⟩ := exists_pushRow hp
    have hrows : (additionsOf (s.notes table (.script role owns (.pushRow i row :: todo) answers))).map Addition.row =
        if i = table then [row] else [] := by
      simp only [notes]
      split <;> rfl
    rw [hrows, hpush _ _ _ _ _ _ rfl]
    exact .push ht i row
  · rw [Bool.not_eq_true] at hp
    by_cases hx : ∀ q x, f ≠ .worker (.execute q x)
    · rw [additionsOf_notes hp hx]
      cases ha
      case execute q x _ _ _ => exact absurd rfl (hx q x)
      case pushRow => cases hp
      all_goals exact .of_same rfl rfl
    · obtain ⟨q, x, rfl⟩ : ∃ q x, f = .worker (.execute q x) := by simpa using hx
      rw [notes, additionsOf_added]
      cases ha with
      | execute hs => exact (Execution.step_pieces hs).extends ht
      | executed hf =>
        rw [Execution.adds_of_ne_begin (by simp [hf])]
        exact .of_same rfl rfl

theorem next_extends {l : Label} {s' : Pool} (ht : table < s.world.tables.length) (hf : s.acting l = some f)
    (hn : s.next l = some s') :
    s.world.Extends table ((additionsOf (s.notes table f)).map Addition.row) f.counters s'.world := by
  obtain ⟨t, rest, fs, s₁, -, ha, rfl⟩ := next_acting hf hn
  have hw := act_extends ha ht fun role owns i row todo answers e => by
    have hworld := next_pushRow (e ▸ hf) hn
    exact hworld
  exact hw

theorem queriesOf_notes : queriesOf (s.notes table f) = f.puts := by
  unfold notes
  split
  · rfl
  · split <;> rfl
  · exact queriesOf_added _
  · unfold Frame.puts
    split
    · simp_all
    · rfl

/-- A step adds one row, if any: a script pushes it, or a query that is executed inserts it. -/
theorem additionsOf_notes_cases (s : Pool) (table : Nat) (f : Frame) : additionsOf (s.notes table f) = [] ∨
    (∃ row, additionsOf (s.notes table f) = [⟨none, row⟩]) ∨
    ∃ q x row, f = .worker (.execute q x) ∧ x.phase = .begin ∧ x.statement = .insert table ∧
      additionsOf (s.notes table f) = [⟨some q, row⟩] := by
  unfold notes
  split
  · exact .inl rfl
  · split
    · exact .inr (.inl ⟨_, rfl⟩)
    · exact .inl rfl
  · rename_i q x
    rw [additionsOf_added]
    rcases x.adds_cases table q with h | ⟨row, hp, hs, h⟩
    · exact .inl h
    · exact .inr (.inr ⟨q, x, row, rfl, hp, hs, h⟩)
  · exact .inl rfl

theorem mem_additionsOf_notes {a : Addition} {q : Query} (ha : a ∈ additionsOf (s.notes table f))
    (hq : a.query = some q) : ∃ x, f = .worker (.execute q x) ∧ x.phase = .begin ∧ x.statement = .insert table := by
  rcases s.additionsOf_notes_cases table f with h | ⟨row, h⟩ | ⟨q', x, row, hf, hp, hs, h⟩
  · rw [h] at ha
    cases ha
  · rw [h] at ha
    cases List.mem_singleton.1 ha
    cases hq
  · rw [h] at ha
    cases List.mem_singleton.1 ha
    cases hq
    exact ⟨x, hf, hp, hs⟩

end Pool

end StatementPool
