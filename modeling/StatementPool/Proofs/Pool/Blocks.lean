import StatementPool.Proofs.Pool.Exclusion
import StatementPool.Proofs.Pool.Submission
import StatementPool.Proofs.Statement.Rows
/-!
# Searches that share a collection

Searches copy rows into one collection, on any number of workers and in any order of the steps of
these. A search that nobody disturbs leaves a block behind what is there: the copies of the rows that
match, up to the first that does not fit (`Search.results_execute`). `ReachableNoting` keeps the
searches in the order in which they began, each with the rows that its table had then. What is in the
collection is what was in it at first and one block for each of them, and only the last block may be
incomplete, as long as its search has the collection locked (`ReachableNoting.blocks`). Here a row is
copied in one step; that this may be split is a part of what is proved (`Unmixed.row`).
-/

namespace StatementPool

/-! ## What a search leaves -/

/-- The records of rows, up to the first row that a blank record does not take. -/
def copyOf (blank : Record) : List Row → List Record
  | [] => []
  | row :: rest =>
    match blank.fill row with
    | (r, .ok ()) => r :: copyOf blank rest
    | (_, .error _) => []

theorem copyOf_cons_of_fill {blank r : Record} {row : Row} (h : blank.fill row = (r, .ok ())) (rest : List Row) :
    copyOf blank (row :: rest) = r :: copyOf blank rest := by
  simp [copyOf, h]

theorem copyOf_cons_of_refuse {blank r : Record} {row : Row} {e : Error} (h : blank.fill row = (r, .error e))
    (rest : List Row) : copyOf blank (row :: rest) = [] := by
  simp [copyOf, h]

namespace Collection

/-- A row is appended, or the collection is as it was. -/
theorem appendRow_cases (c : Collection) (row : Row) :
    (∃ r, c.blank.fill row = (r, .ok ()) ∧ c.appendRow row = (c.push r, .ok ())) ∨
    ∃ r e, c.blank.fill row = (r, .error e) ∧ c.appendRow row = (c, .error e) := by
  cases h : c.blank.fill row with
  | mk r outcome =>
    cases outcome with
    | ok => exact .inl ⟨r, rfl, appendRow_of_fill h⟩
    | error e => exact .inr ⟨r, e, rfl, appendRow_of_refuse h⟩

/-- Whatever becomes of it, appending rows leaves the copies of the first ones behind what was there. -/
theorem fst_appendRows (c : Collection) (rows : List Row) (count : Nat) :
    (c.appendRows count rows).1 = { c with records := c.records ++ copyOf c.blank rows } := by
  induction rows generalizing c count with
  | nil => simp [appendRows, copyOf]
  | cons row rows ih =>
    rcases c.appendRow_cases row with ⟨r, hr, ha⟩ | ⟨r, e, hr, ha⟩
    · simp only [appendRows, ha, copyOf_cons_of_fill hr, ih]
      simp [push]
    · simp only [appendRows, ha, copyOf_cons_of_refuse hr, List.append_nil]

end Collection

/-- A search that began: its query, and the rows that its table had then. -/
structure Search where
  query : Query
  stored : List Row

namespace Search

def serial (x : Search) : Nat := x.query.serial

/-- The records that a search leaves, in the order of the rows of its table. -/
def block (blank : Record) (x : Search) : List Record :=
  match filterRow x.query.args.params with
  | .error _ => []
  | .ok filter => copyOf blank (matching filter x.stored)

variable {q : Query} {table : Nat} {w w' : World} {y y' : Slots} {c : Collection} {o : Outcome}

/-- A search that nobody disturbs leaves its block behind what was in the collection. -/
theorem results_execute (he : (Statement.select table).execute w y = some (w', y', o)) (hp : y.params = q.args.params)
    (hr : y.results = some c) :
    w' = w ∧ y'.results = some { c with records := c.records ++ block c.blank ⟨q, w.table table⟩ } := by
  have he : some (w, selectFrom table w y) = some (w', y', o) := he
  simp only [Option.some.injEq, Prod.mk.injEq] at he
  refine ⟨he.1.symm, ?_⟩
  rw [show y' = (selectFrom table w y).1 from (congrArg Prod.fst he.2).symm]
  unfold selectFrom block
  rw [hp]
  cases filterRow q.args.params with
  | error e => simp [hr]
  | ok filter =>
    have left := c.fst_appendRows (matching filter (w.table table)) 0
    simp only [hr, ← left]
    split <;> simp_all

end Search

/-- What is in a collection when searches have left their blocks, one after the other. -/
def leaves (before : Collection) (xs : List Search) : List Record :=
  before.records ++ xs.flatMap (Search.block before.blank)

theorem leaves_append (before : Collection) (xs ys : List Search) :
    leaves before (xs ++ ys) = leaves before xs ++ ys.flatMap (Search.block before.blank) := by
  simp [leaves]

/-! ## How far a search has come -/

/-- Whether a statement is a search. -/
def Statement.isSearch : Statement → Bool
  | .select _ => true
  | _ => false

theorem Statement.exists_select {st : Statement} (h : st.isSearch = true) : ∃ table, st = .select table := by
  cases st with
  | select table => exact ⟨table, rfl⟩
  | _ => cases h

/-- The search that begins with the next piece of an execution, if it copies into a collection. -/
def Execution.searchInto (c : Nat) (q : Query) (w : World) (x : Execution) : List Search :=
  match x.phase, x.args.results, x.statement with
  | .begin, some i, .select table => if i = c then [⟨q, w.table table⟩] else []
  | _, _, _ => []

namespace Execution

variable {c : Nat} {q : Query} {w : World} {x : Execution}

theorem searchInto_of_ne_begin (hp : x.phase ≠ .begin) : x.searchInto c q w = [] := by
  unfold searchInto
  split
  · exact absurd (by assumption) hp
  · rfl

theorem searchInto_begin {table : Nat} (hp : x.phase = .begin) (hr : x.args.results = some c)
    (hs : x.statement = .select table) : x.searchInto c q w = [⟨q, w.table table⟩] := by
  simp [searchInto, hp, hr, hs]

theorem searchInto_of_not_holds (hx : ¬ x.Holds c) : x.searchInto c q w = [] := by
  unfold searchInto
  split
  · rename_i i table hp hr hs
    have hi : i ≠ c := by
      rintro rfl
      exact hx ⟨hr, by simp [hp], by simp [hp]⟩
    exact if_neg hi
  · rfl

end Execution

/-- What is in a collection, and who has locked it so far, when searches have begun and one of them may
still have it locked: `Filled before records obtained xs y`, with `y` the execution that has. -/
inductive Filled (before : Collection) (records : List Record) (obtained : List Nat) :
    List Search → Option (Query × Execution) → Prop where
  | free {xs} (hr : records = leaves before xs) (ho : obtained = xs.map Search.serial) :
    Filled before records obtained xs none
  /-- It has not begun to search. -/
  | locked {xs q x} (hp : x.phase = .loadInsertId ∨ x.phase = .loadRows ∨ x.phase = .begin)
    (hr : records = leaves before xs) (ho : obtained = xs.map Search.serial ++ [q.serial]) :
    Filled before records obtained xs (some (q, x))
  /-- It has copied a part of its block, and the rest of it are the copies of the rows that are left. -/
  | copying {xs q x stored left n part} (hp : x.phase = .copy left n) (hr : records = leaves before xs ++ part)
    (hb : Search.block before.blank ⟨q, stored⟩ = part ++ copyOf before.blank left)
    (ho : obtained = xs.map Search.serial ++ [q.serial]) :
    Filled before records obtained (xs ++ [⟨q, stored⟩]) (some (q, x))
  /-- It has left its block, whether it succeeded or not. -/
  | left {xs q x stored}
    (hp : (∃ o, x.phase = .storeInsertId o) ∨ (∃ o, x.phase = .storeRows o) ∨ ∃ o, x.phase = .unlock o)
    (hr : records = leaves before (xs ++ [⟨q, stored⟩])) (ho : obtained = xs.map Search.serial ++ [q.serial]) :
    Filled before records obtained (xs ++ [⟨q, stored⟩]) (some (q, x))

namespace Filled

open Execution

variable {before content : Collection} {records : List Record} {obtained : List Nat} {xs : List Search} {q : Query}
  {x x' : Execution} {me : ThreadId} {w w' : World} {c : Nat} {y : Option (Query × Execution)}

theorem not_waiting (h : Filled before records obtained xs (some (q, x))) (gate : Nat) : x.phase ≠ .wait gate := by
  intro hg
  cases h with
  | locked hp => simp [hg] at hp
  | copying hp => simp [hg] at hp
  | left hp => simp [hg] at hp

theorem of_locked (h : Filled before records obtained xs (some (q, x)))
    (hp : x.phase = .loadInsertId ∨ x.phase = .loadRows ∨ x.phase = .begin) :
    records = leaves before xs ∧ obtained = xs.map Search.serial ++ [q.serial] := by
  cases h with
  | locked _ hr ho => exact ⟨hr, ho⟩
  | copying hp' => simp [hp'] at hp
  | left hp' => rcases hp' with ⟨o, hp'⟩ | ⟨o, hp'⟩ | ⟨o, hp'⟩ <;> simp [hp'] at hp

theorem of_copy (h : Filled before records obtained xs (some (q, x))) {left : List Row} {n : Nat}
    (hp : x.phase = .copy left n) :
    ∃ ys stored part, xs = ys ++ [⟨q, stored⟩] ∧ records = leaves before ys ++ part ∧
      Search.block before.blank ⟨q, stored⟩ = part ++ copyOf before.blank left ∧
      obtained = ys.map Search.serial ++ [q.serial] := by
  cases h with
  | locked hp' => simp [hp] at hp'
  | copying hp' hr hb ho =>
    cases hp'.symm.trans hp
    exact ⟨_, _, _, rfl, hr, hb, ho⟩
  | left hp' => simp [hp] at hp'

theorem of_left (h : Filled before records obtained xs (some (q, x)))
    (hp : (∃ o, x.phase = .storeInsertId o) ∨ (∃ o, x.phase = .storeRows o) ∨ ∃ o, x.phase = .unlock o) :
    ∃ ys stored, xs = ys ++ [⟨q, stored⟩] ∧ records = leaves before xs ∧
      obtained = ys.map Search.serial ++ [q.serial] := by
  cases h with
  | locked hp' => rcases hp with ⟨o, hp⟩ | ⟨o, hp⟩ | ⟨o, hp⟩ <;> simp [hp] at hp'
  | copying hp' => simp [hp'] at hp
  | left _ hr ho => exact ⟨_, _, rfl, hr, ho⟩

/-- An execution that has ended its statement has left its block. -/
theorem left_ended {stored : List Row} (o : Outcome) (hr : records = leaves before (xs ++ [⟨q, stored⟩]))
    (ho : obtained = xs.map Search.serial ++ [q.serial]) :
    Filled before records obtained (xs ++ [⟨q, stored⟩]) (some (q, x.ended o)) := by
  refine .left ?_ hr ho
  rcases phase_ended x o with h | h
  · exact .inr (.inr ⟨o, h⟩)
  · exact .inl ⟨o, h⟩

/-- A collection after a piece of the execution that has it locked: nothing was taken away, and the
execution, now `x'`, still has it locked or is through with it. -/
def Advanced (before content : Collection) (obtained : List Nat) (xs : List Search) (q : Query) (x' : Execution)
    (c : Nat) (w' : World) : Prop :=
  ∃ content' y, w'.content? c = some content' ∧ content'.blank = before.blank ∧ content.records <+: content'.records ∧
    Filled before content'.records obtained xs y ∧ (y = none ∧ w'.holder c = none ∨ y = some (q, x') ∧ x'.Holds c)

variable (hx : x.Holds c) (hc : w.content? c = some content) (hb : content.blank = before.blank)

include hc hb

/-- A piece that leaves the collection alone and keeps it locked. -/
theorem advanced_of_same (hw : w'.content? c = w.content? c) (hx' : x'.Holds c)
    (hf : Filled before content.records obtained xs (some (q, x'))) : Advanced before content obtained xs q x' c w' :=
  ⟨content, some (q, x'), hw.trans hc, hb, List.prefix_rfl, hf, .inr ⟨rfl, hx'⟩⟩

include hx

/-- A search that runs in one piece leaves its block. -/
theorem of_run {table : Nat} {y : Slots} {o : Outcome} (h : Filled before content.records obtained xs (some (q, x)))
    (hp : x.phase = .begin) (ha : x.args = q.args) (hs : x.statement = .select table)
    (he : x.statement.execute w (x.slots w) = some (w', y, o)) :
    Advanced before content obtained (xs ++ x.searchInto c q w) q
      ({ x with insertId := y.insertId, rows := y.rows }.ended o) c (w'.putContent x.args.results y.results) := by
  obtain ⟨hr, ho⟩ := h.of_locked (.inr (.inr hp))
  have hy : (x.slots w).results = some content := by simp [slots, hx.1, hc]
  rw [hs] at he
  obtain ⟨rfl, results⟩ := Search.results_execute he (congrArg Args.params ha) hy
  rw [searchInto_begin hp hx.1 hs, results, hx.1]
  refine ⟨_, _, World.content?_setContent _ (by simp [hc]), hb, List.prefix_append _ _, left_ended _ ?_ ho,
    .inr ⟨rfl, holds_ended (x := { x with insertId := y.insertId, rows := y.rows }) hx.1 _⟩⟩
  rw [leaves_append, hr, hb]
  simp

/-- A row that was copied belongs to the block. -/
theorem of_row {row : Row} {left : List Row} {n : Nat} {c' : Collection}
    (h : Filled before content.records obtained xs (some (q, x))) (hp : x.phase = .copy (row :: left) n)
    (happ : content.appendRow row = (c', .ok ())) :
    Advanced before content obtained xs q { x with phase := .copy left (n + 1) } c
      (w.putContent x.args.results (some c')) := by
  obtain ⟨ys, stored, part, rfl, hr, hblock, ho⟩ := h.of_copy hp
  rw [hx.1]
  rcases content.appendRow_cases row with ⟨r, hfill, e⟩ | ⟨r, e, -, e'⟩
  · cases happ.symm.trans e
    have records : (content.push r).records = leaves before ys ++ (part ++ [r]) := by simp [Collection.push, hr]
    refine ⟨content.push r, _, World.content?_setContent _ (by simp [hc]), hb, List.prefix_append _ _,
      .copying rfl records ?_ ho, .inr ⟨rfl, hx.1, by simp, by simp⟩⟩
    rw [hblock, ← hb, copyOf_cons_of_fill hfill]
    simp
  · cases happ.symm.trans e'

/-- A row that does not fit is the end of the block. -/
theorem of_rowFailed {row : Row} {left : List Row} {n : Nat} {c' : Collection} {e : Error}
    (h : Filled before content.records obtained xs (some (q, x))) (hp : x.phase = .copy (row :: left) n)
    (happ : content.appendRow row = (c', .error e)) :
    Advanced before content obtained xs q (x.ended (.failed e)) c (w.putContent x.args.results (some c')) := by
  obtain ⟨ys, stored, part, rfl, hr, hblock, ho⟩ := h.of_copy hp
  rw [hx.1]
  rcases content.appendRow_cases row with ⟨r, -, e'⟩ | ⟨r, e', hfill, e''⟩
  · cases happ.symm.trans e'
  · cases happ.symm.trans e''
    refine advanced_of_same hc hb ?_ (holds_ended hx.1 _) (left_ended _ ?_ ho)
    · exact (World.content?_setContent _ (by simp [hc])).trans hc.symm
    · rw [← hb, copyOf_cons_of_refuse hfill, List.append_nil, hb] at hblock
      simp [leaves_append, hr, hblock]

/-- The execution that has the collection locked appends to it what belongs to its block, and nothing else
happens to the collection. -/
theorem of_piece (h : Filled before content.records obtained xs (some (q, x))) (hp : Piece me x w x' w')
    (ha : x.args = q.args) (hq : x.statement.isSearch = true) :
    Advanced before content obtained (xs ++ x.searchInto c q w) q x' c w' := by
  have hres := hx.1
  -- a search begins with one piece only
  have none : x.phase ≠ .begin → xs ++ x.searchInto c q w = xs := fun hne => by
    rw [searchInto_of_ne_begin hne, List.append_nil]
  cases hp
  case noLock hp _ | lock hp _ _ => exact absurd hp hx.2.1
  case noUnlock hr => cases hres.symm.trans hr
  case reach hs => simp [hs, Statement.isSearch] at hq
  case pass hp _ => exact absurd hp (h.not_waiting _)
  case loadInsertId hp =>
    obtain ⟨hr, ho⟩ := h.of_locked (.inl hp)
    rw [none (by simp [hp])]
    exact advanced_of_same hc hb rfl ⟨hres, by simp, by simp⟩ (.locked (.inr (.inl rfl)) hr ho)
  case loadRows hp =>
    obtain ⟨hr, ho⟩ := h.of_locked (.inr (.inl hp))
    rw [none (by simp [hp])]
    exact advanced_of_same hc hb rfl ⟨hres, by simp, by simp⟩ (.locked (.inr (.inr rfl)) hr ho)
  case run hp hg he =>
    obtain ⟨table, hs⟩ := Statement.exists_select hq
    exact of_run hx hc hb h hp ha hs he
  case refuse table _ e hp hs _ hf =>
    obtain ⟨hr, ho⟩ := h.of_locked (.inr (.inr hp))
    rw [searchInto_begin hp hres hs]
    refine advanced_of_same hc hb rfl (holds_ended hres _) (left_ended _ ?_ ho)
    rw [ha] at hf
    simp [leaves_append, hr, Search.block, hf]
  case search table _ filter hp hs _ hf =>
    obtain ⟨hr, ho⟩ := h.of_locked (.inr (.inr hp))
    rw [searchInto_begin hp hres hs]
    rw [ha] at hf
    have records : content.records = leaves before xs ++ [] := by simp [hr]
    exact advanced_of_same hc hb rfl ⟨hres, by simp, by simp⟩ (.copying rfl records (by simp [Search.block, hf]) ho)
  case copied n hp =>
    obtain ⟨ys, stored, part, rfl, hr, hblock, ho⟩ := h.of_copy hp
    rw [none (by simp [hp])]
    refine advanced_of_same hc hb rfl (holds_ended (x := { x with rows := setSlot x.rows n }) hres _) ?_
    refine left_ended _ ?_ ho
    simp [leaves_append, hr, hblock, copyOf]
  case copy hp hc' happ =>
    rw [hres, Option.bind_some, hc] at hc'
    cases hc'
    rw [none (by simp [hp])]
    exact of_row hx hc hb h hp happ
  case copyFailed hp hc' happ =>
    rw [hres, Option.bind_some, hc] at hc'
    cases hc'
    rw [none (by simp [hp])]
    exact of_rowFailed hx hc hb h hp happ
  case storeInsertId o hp | storeRows o hp =>
    obtain ⟨ys, stored, rfl, hr, ho⟩ := h.of_left (by simp [hp])
    rw [none (by simp [hp])]
    refine advanced_of_same hc hb ?_ ⟨hres, by simp, by simp⟩ (.left (by simp) hr ho)
    rw [World.content?, (World.publish_keeps _ _ _).2.1]
    rfl
  case unlock d o hp hr =>
    cases hres.symm.trans hr
    obtain ⟨ys, stored, rfl, hr, ho⟩ := h.of_left (by simp [hp])
    rw [none (by simp [hp])]
    have hrange := (World.isSome_content? w c).1 (by simp [hc])
    exact ⟨content, Option.none, (World.content?_setHolder _ _ _ _).trans hc, hb, List.prefix_rfl,
      .free hr (by simp [ho, Search.serial]), .inl ⟨rfl, World.holder_setHolder hrange Option.none⟩⟩

end Filled

/-! ## Queries that search -/

/-- A query that has a collection for results copies the rows of a table into it. -/
def Query.Searches (c : Nat) (q : Query) : Prop := q.args.results = some c → q.statement.isSearch = true

instance (c : Nat) : DecidablePred (Query.Searches c) := fun q =>
  inferInstanceAs (Decidable (q.args.results = some c → q.statement.isSearch = true))

def Event.obtained? (c : Nat) : Event → Option Nat
  | .obtained i d => if d = c then some i else none
  | _ => none

namespace Pool

/-- A step that queues only searches for a collection. -/
def QueuesSearches (c : Nat) (_ : Pool) (f : Frame) : Prop := ∀ q ∈ f.puts, q.Searches c

instance (c : Nat) (s : Pool) : DecidablePred (s.QueuesSearches c) := fun f =>
  inferInstanceAs (Decidable (∀ q ∈ f.puts, q.Searches c))

/-- The search that begins with a step on a frame and copies into a collection. -/
def searchesInto (c : Nat) (s : Pool) : Frame → List Search
  | .worker (.execute q x) => x.searchInto c q s.world
  | _ => []

/-- The queries that locked a collection, in order. -/
def obtained (s : Pool) (c : Nat) : List Nat := s.log.filterMap (Event.obtained? c)

/-- All queries that are to use a collection search, and executions are those of their queries. -/
structure Searching (c : Nat) (s : Pool) : Prop where
  queue : ∀ q ∈ s.queue, q.Searches c
  executing : ∀ t q x rest, s.framesOf t = .worker (.execute q x) :: rest →
    q.Searches c ∧ x.args = q.args ∧ x.statement = q.statement

/-- The execution that has a collection locked. -/
def HeldBy (s : Pool) (c : Nat) : Option (Query × Execution) → Prop
  | none => s.world.holder c = none
  | some (q, x) => ∃ t rest, s.world.holder c = some t ∧ s.framesOf t = .worker (.execute q x) :: rest ∧ x.Holds c

/-- Searches share a collection, which has `content` in it now and had `before` in it at first. -/
def InBlocks (c : Nat) (before : Collection) (xs : List Search) (content : Collection) (s : Pool) : Prop :=
  s.world.content? c = some content ∧ content.blank = before.blank ∧
    ∃ y, s.HeldBy c y ∧ Filled before content.records (s.obtained c) xs y

variable {s s₁ : Pool} {t : ThreadId} {f : Frame} {rest fs : List Frame} {c : Nat} {before content : Collection}
  {xs : List Search}

theorem act_searching (ht : s.framesOf t = f :: rest) (ha : Act s t rest f fs s₁) (hheap : Heaped (f :: rest))
    (hp : s.QueuesSearches c f) (h : s.Searching c) : (s₁.setFrames t fs).Searching c where
  queue := by
    have hq := h.queue
    cases ha
    case push q _ =>
      intro q' hq'
      rcases List.mem_append.1 hq' with hq' | hq'
      · exact hq q' hq'
      · exact hp q' hq'
    case take hqueue => exact fun q hmem => hq q (hqueue ▸ List.mem_cons_of_mem _ hmem)
    case drain | retireEmpty | exitLast => exact fun q hmem => nomatch hmem
    all_goals exact hq
  executing u q x urest hu := by
    by_cases e : u = t
    · subst e
      rw [framesOf_setFrames_self (Nat.lt_of_lt_of_le (lt_of_framesOf ht) (act_length_le ha))] at hu
      subst hu
      by_cases htake : f = .worker .take
      · subst htake
        cases ha
        case take hqueue => exact ⟨h.queue q (hqueue ▸ List.mem_cons_self), rfl, rfl⟩
      · rcases act_mem_execute ha List.mem_cons_self with hm | ⟨hf, -⟩ | ⟨x₀, rfl, hs⟩
        · cases hheap _ hm
        · exact absurd hf htake
        · obtain ⟨hsearch, hargs, hstatement⟩ := h.executing u q x₀ rest ht
          obtain ⟨ha', hs'⟩ := (Execution.step_pieces hs).same
          exact ⟨hsearch, ha'.trans hargs, hs'.trans hstatement⟩
    · exact h.executing u q x urest ((act_executing ha e).1 hu)

/-- A step that leaves the collection alone, of a thread that does not have it locked. -/
theorem InBlocks.of_elsewhere (h : s.InBlocks c before xs content) (ha : Act s t rest f fs s₁)
    (hw : s₁.world.collections[c]? = s.world.collections[c]?) (hl : s₁.obtained c = s.obtained c)
    (hne : s.world.holder c ≠ some t) : (s₁.setFrames t fs).InBlocks c before xs content := by
  obtain ⟨hc, hb, y, hy, hf⟩ := h
  refine ⟨(World.content?_congr hw).trans hc, hb, y, ?_, ?_⟩
  · cases y with
    | none => exact (World.holder_congr hw).trans hy
    | some y =>
      obtain ⟨u, urest, hu, hframes, hx⟩ := hy
      have e : u ≠ t := by
        rintro rfl
        exact hne hu
      exact ⟨u, urest, (World.holder_congr hw).trans hu, (act_executing ha e).2 hframes, hx⟩
  · change Filled before content.records (s₁.obtained c) xs y
    rwa [hl]

/-- Nobody but an execution changes collections, locks them or begins to search. -/
theorem act_of_not_executing (ha : Act s t rest f fs s₁) (hf : ∀ q x, f ≠ .worker (.execute q x)) :
    s₁.world.collections = s.world.collections ∧ s₁.obtained c = s.obtained c ∧ s.searchesInto c f = [] := by
  have none : s.searchesInto c f = [] := by
    unfold searchesInto
    split
    · exact absurd rfl (hf _ _)
    · rfl
  refine ⟨?_, ?_, none⟩
  · cases ha
    case execute q x _ _ _ => exact absurd rfl (hf q x)
    all_goals rfl
  · cases ha
    case execute q x _ _ _ => exact absurd rfl (hf q x)
    case drain => simp [obtained, Event.obtained?, Function.comp_def]
    all_goals simp [obtained, Event.obtained?]

/-- An execution that neither has the collection locked nor locks it reports nothing about it. -/
theorem obtained_of_elsewhere {s' : Pool} {q : Query} {x : Execution} (hl : s'.log = s.log ++ x.events q.serial)
    (hlock : x.phase = .lock → x.args.results ≠ some c) : s'.obtained c = s.obtained c := by
  have none : (x.events q.serial).filterMap (Event.obtained? c) = [] := by
    unfold Execution.events
    split
    · rename_i d hp hr
      have hd : d ≠ c := fun hd => hlock hp (hr.trans (congrArg some hd))
      simp [Event.obtained?, hd]
    · rfl
  simp [obtained, hl, none]

theorem HeldBy.eq_none {y : Option (Query × Execution)} (h : s.HeldBy c y) (hh : s.world.holder c = none) :
    y = none := by
  cases y with
  | none => rfl
  | some y =>
    obtain ⟨u, urest, hu, -⟩ := h
    cases hu.symm.trans hh

theorem HeldBy.eq_some {y : Option (Query × Execution)} {q : Query} {x : Execution} (h : s.HeldBy c y)
    (hh : s.world.holder c = some t) (ht : s.framesOf t = .worker (.execute q x) :: rest) : y = some (q, x) := by
  cases y with
  | none => cases hh.symm.trans h
  | some y =>
    obtain ⟨u, urest, hu, hframes, -⟩ := h
    cases hu.symm.trans hh
    cases hframes.symm.trans ht
    rfl

/-- The execution that has the collection locked may append to it. -/
theorem InBlocks.of_owner {q : Query} {x x' : Execution} {w : World} (h : s.InBlocks c before xs content)
    (ht : s.framesOf t = .worker (.execute q x) :: rest) (hstep : x.step t s.world = some (x', w)) (hx : x.Holds c)
    (hh : s.world.holder c = some t) (ha : x.args = q.args) (hq : x.statement.isSearch = true) :
    ∃ content', (Pool.setFrames { s with world := w, log := s.log ++ x.events q.serial } t
        (.worker (.execute q x') :: rest)).InBlocks c before (xs ++ x.searchInto c q s.world) content' ∧
      content.records <+: content'.records := by
  obtain ⟨hc, hb, y, hy, hfill⟩ := h
  obtain rfl := hy.eq_some hh ht
  have piece := Execution.step_pieces hstep
  have hrange := World.lt_of_holder hh
  have hlog : Pool.obtained { s with world := w, log := s.log ++ x.events q.serial } c = s.obtained c :=
    obtained_of_elsewhere rfl fun hp => absurd hp hx.2.1
  obtain ⟨content', y', hc', hb', hprefix, hf', hend⟩ := hfill.of_piece hx hc hb piece ha hq
  refine ⟨content', ⟨hc', hb', y', ?_, ?_⟩, hprefix⟩
  · rcases hend with ⟨rfl, hn⟩ | ⟨rfl, hx'⟩
    · exact hn
    · exact ⟨t, rest, piece.owns hrange (fun _ => hh) hx', framesOf_setFrames_self (lt_of_framesOf ht) _, hx'⟩
  · exact (congrArg (Filled before content'.records · _ y') hlog).mpr hf'

/-- The execution that locks the collection is the one that has it locked then. -/
theorem InBlocks.of_locks {q : Query} {x x' : Execution} {w : World} (h : s.InBlocks c before xs content)
    (ht : s.framesOf t = .worker (.execute q x) :: rest) (hstep : x.step t s.world = some (x', w))
    (hp : x.phase = .lock) (hr : x.args.results = some c) :
    (Pool.setFrames { s with world := w, log := s.log ++ x.events q.serial } t
      (.worker (.execute q x') :: rest)).InBlocks c before xs content := by
  obtain ⟨hh, rfl, rfl⟩ := (Execution.step_pieces hstep).of_lock hp hr
  obtain ⟨hc, hb, y, hy, hfill⟩ := h
  have hrange : c < s.world.collections.length := (World.isSome_content? _ _).1 (by simp [hc])
  obtain rfl := hy.eq_none hh
  cases hfill with
  | free hrecords ho =>
    refine ⟨(World.content?_setHolder _ _ _ _).trans hc, hb, some (q, { x with phase := .loadInsertId }), ?_, ?_⟩
    · exact ⟨t, rest, World.holder_setHolder hrange _, framesOf_setFrames_self (lt_of_framesOf ht) _, hr, by simp,
        by simp⟩
    · apply Filled.locked (.inl rfl) hrecords
      change ((s.log ++ x.events q.serial).filterMap (Event.obtained? c)) = _
      simp [Execution.events, hp, hr, Event.obtained?, ← ho, obtained]

/-- An execution that has not locked the collection leaves it alone, even if it locks it now. -/
theorem InBlocks.of_others {q : Query} {x : Execution} (h : s.InBlocks c before xs content)
    (ht : s.framesOf t = .worker (.execute q x) :: rest) (ha : Act s t rest (.worker (.execute q x)) fs s₁)
    (hx : ¬ x.Holds c) (hne : s.world.holder c ≠ some t) : (s₁.setFrames t fs).InBlocks c before xs content := by
  by_cases hl : x.phase = .lock ∧ x.args.results = some c
  · cases ha with
    | executed hp => cases hl.1.symm.trans hp
    | execute hstep => exact h.of_locks ht hstep hl.1 hl.2
  · have hlock : x.phase = .lock → x.args.results ≠ some c := fun hp hr => hl ⟨hp, hr⟩
    cases ha with
    | executed hp => exact h.of_elsewhere (.executed hp) rfl (by simp [obtained, Event.obtained?]) hne
    | execute hstep =>
      refine h.of_elsewhere (.execute hstep) ?_ (obtained_of_elsewhere rfl hlock) hne
      exact (Execution.step_pieces hstep).elsewhere hx fun hp hr => absurd hr (hlock hp)

/-- A step appends to the collection, if the thread has it locked, or leaves it alone. -/
theorem act_inBlocks (ht : s.framesOf t = f :: rest) (ha : Act s t rest f fs s₁) (hlocked : s.CollectionsLocked)
    (hown : s.CollectionsOwned) (hs : s.Searching c) (h : s.InBlocks c before xs content) :
    ∃ content', (s₁.setFrames t fs).InBlocks c before (xs ++ s.searchesInto c f) content' ∧
      content.records <+: content'.records ∧ (s.world.holder c ≠ some t → content' = content) := by
  by_cases hf : ∀ q x, f ≠ .worker (.execute q x)
  · obtain ⟨hw, hl, none⟩ := act_of_not_executing (c := c) ha hf
    have hne : s.world.holder c ≠ some t := by
      intro hh
      obtain ⟨q, x, urest, hframes, -⟩ := hlocked c t hh
      cases ht.symm.trans hframes
      exact hf q x rfl
    rw [none, List.append_nil]
    exact ⟨content, h.of_elsewhere ha (congrArg (·[c]?) hw) hl hne, List.prefix_rfl, fun _ => rfl⟩
  · obtain ⟨q, x, rfl⟩ : ∃ q x, f = .worker (.execute q x) := by simpa using hf
    by_cases hx : x.Holds c
    · obtain ⟨hsearch, hargs, hstatement⟩ := hs.executing t q x rest ht
      have hrange : c < s.world.collections.length := (World.isSome_content? _ _).1 (by simp [h.1])
      have hh := hown c hrange t q x rest ht hx
      cases ha with
      | executed hp => exact absurd hp (hx.2.2 _)
      | execute hstep =>
        have hq : x.statement.isSearch = true := hstatement ▸ hsearch (hargs ▸ hx.1)
        obtain ⟨content', h', hprefix⟩ := h.of_owner ht hstep hx hh hargs hq
        exact ⟨content', h', hprefix, fun hne => absurd hh hne⟩
    · have none : s.searchesInto c (.worker (.execute q x)) = [] := Execution.searchInto_of_not_holds hx
      have hne : s.world.holder c ≠ some t := by
        intro hh
        obtain ⟨q', x', urest, hframes, hx'⟩ := hlocked c t hh
        cases ht.symm.trans hframes
        exact hx hx'
      rw [none, List.append_nil]
      exact ⟨content, h.of_others ht ha hx hne, List.prefix_rfl, fun _ => rfl⟩

end Pool

/-! ## Runs that note what begins -/

/-- What a pool can become by steps on frames that have a property, and what was noted about the steps on
the way. -/
inductive ReachableNoting {α : Type} (P : Pool → Frame → Prop) (note : Pool → Frame → List α) (o : Options) (w : World)
    (scripts : List (List Action)) : List α → Pool → Prop where
  | initial : ReachableNoting P note o w scripts [] (.initial o w scripts)
  | next {xs : List α} {s s' : Pool} {f : Frame} (l : Label) : ReachableNoting P note o w scripts xs s →
      s.acting l = some f → P s f → s.next l = some s' → ReachableNoting P note o w scripts (xs ++ note s f) s'

/-- The pool after several labels and what was noted by then, if the steps are on frames that have a
property. -/
def Pool.runNoting {α : Type} (P : Pool → Frame → Prop) [∀ s, DecidablePred (P s)] (note : Pool → Frame → List α)
    (s : Pool) (xs : List α) : List Label → Option (List α × Pool)
  | [] => some (xs, s)
  | l :: ls => match s.acting l, s.next l with
    | some f, some s' => if P s f then s'.runNoting P note (xs ++ note s f) ls else none
    | _, _ => none

namespace ReachableNoting

section

variable {α : Type} {P : Pool → Frame → Prop} {note : Pool → Frame → List α} {o : Options} {w : World}
  {scripts : List (List Action)} {xs : List α} {s : Pool}

theorem reachable (h : ReachableNoting P note o w scripts xs s) : Reachable o w scripts s := by
  induction h with
  | initial => exact .initial
  | next l _ _ _ hn ih => exact .next l ih hn

/-- What holds at first, when nothing was noted, and is kept by every step holds of all that is reachable. -/
theorem keeps {Q : List α → Pool → Prop} (first : Q [] (.initial o w scripts))
    (step : ∀ {xs s t f rest fs s₁}, ReachableNoting P note o w scripts xs s → Q xs s → P s f →
      s.framesOf t = f :: rest → Pool.Act s t rest f fs s₁ → Q (xs ++ note s f) (s₁.setFrames t fs))
    (h : ReachableNoting P note o w scripts xs s) : Q xs s := by
  induction h with
  | initial => exact first
  | next l hr hf hp hn ih =>
    obtain ⟨t, rest, fs, s₁, ht, ha, rfl⟩ := Pool.next_acting hf hn
    exact step hr ih hp ht ha

theorem runNoting [∀ s, DecidablePred (P s)] {xs' : List α} {s' : Pool} {ls : List Label}
    (h : ReachableNoting P note o w scripts xs s) (hr : s.runNoting P note xs ls = some (xs', s')) :
    ReachableNoting P note o w scripts xs' s' := by
  induction ls generalizing xs s with
  | nil => cases hr; exact h
  | cons l ls ih =>
    simp only [Pool.runNoting] at hr
    split at hr
    · rename_i f s₁ hf hn
      split at hr
      · rename_i hp
        exact ih (h.next l hf hp hn) hr
      · cases hr
    · cases hr

end

/-! ## Blocks -/

variable {o : Options} {w : World} {scripts : List (List Action)} {c : Nat} {before : Collection} {xs : List Search}
  {s : Pool}

theorem searching (h : ReachableNoting (Pool.QueuesSearches c) (Pool.searchesInto c) o w scripts xs s) :
    s.Searching c := by
  refine h.keeps (Q := fun _ s => s.Searching c) ?_ ?_
  · refine ⟨fun q hq => (nomatch hq), fun t q x rest ht => ?_⟩
    rcases framesOf_initial o w scripts t with e | ⟨actions, e⟩ <;> rw [e] at ht <;> cases ht
  · intro xs s t f rest fs s₁ hr hs hp ht ha
    exact Pool.act_searching ht ha (ht ▸ hr.reachable.heaped t) hp hs

theorem inBlocks (hw : ∀ c, w.holder c = none) (hc : w.content? c = some before)
    (h : ReachableNoting (Pool.QueuesSearches c) (Pool.searchesInto c) o w scripts xs s) :
    ∃ content, s.InBlocks c before xs content := by
  refine h.keeps (Q := fun xs s => ∃ content, s.InBlocks c before xs content) ?_ ?_
  · exact ⟨before, hc, rfl, none, hw c, .free (by simp [leaves]) rfl⟩
  · rintro xs s t f rest fs s₁ hr ⟨content, hb⟩ - ht ha
    obtain ⟨content', hb', -⟩ :=
      Pool.act_inBlocks ht ha (hr.reachable.collectionsLocked hw) hr.reachable.collectionsOwned hr.searching hb
    exact ⟨content', hb'⟩

end ReachableNoting

/-- What searches that share a collection, which had `before` in it at first, make of it. -/
structure Pool.Unmixed (c : Nat) (before : Collection) (xs : List Search) (s : Pool) : Prop where
  /-- What was there is followed by one block for each search, in the order in which they began, and only
  that of the last one may be incomplete while it has the collection locked. -/
  content : ∃ content done part, s.world.content? c = some content ∧ content.blank = before.blank ∧
    content.records = leaves before done ++ part ∧
    (xs = done ∧ part = [] ∨
      ∃ last, xs = done ++ [last] ∧ part <+: last.block before.blank ∧ s.world.holder c ≠ none)
  /-- They begin in the order in which they locked the collection. -/
  order : xs.map Search.serial <+: s.obtained c
  /-- Unless somebody has the collection locked, all who locked it have left their blocks. -/
  settled : s.world.holder c = none → s.obtained c = xs.map Search.serial ∧
    ∃ content, s.world.content? c = some content ∧ content.records = leaves before xs
  /-- No step removes a record or changes one, and only a thread that has the collection locked adds some. -/
  grows : ∀ l s', s.next l = some s' → ∃ content content', s.world.content? c = some content ∧
    s'.world.content? c = some content' ∧ content.records <+: content'.records ∧
    (s.world.holder c ≠ some l.thread → content' = content)
  /-- A row is an append, a write and perhaps a removal. The others may take any steps between these: they
  end up where they do without, and the record that is written to and removed is the one that was
  appended. -/
  row : ∀ t, s.world.holder c = some t → ∀ ls ls' s₁ s₂, (∀ l ∈ ls ++ ls', l.thread ≠ t) → s.run ls = some s₁ →
    s₁.run ls' = some s₂ → ∀ r : Record,
    (((s.changed c Collection.append).run ls).bind fun s => (s.changed c (·.modifyBack fun _ => r)).run ls') =
        some (s₂.changed c (·.push r)) ∧
      (s₂.changed c (·.push r)).changed c (·.removeLast.1) = s₂

variable {o : Options} {w : World} {scripts : List (List Action)} {c : Nat} {before : Collection} {xs : List Search}
  {s : Pool}

/-- Searches that share a collection do not mix: in whatever order the workers take their steps, whatever the
searches look for and wherever they fail. -/
theorem ReachableNoting.blocks (hw : ∀ c, w.holder c = none) (hc : w.content? c = some before)
    (h : ReachableNoting (Pool.QueuesSearches c) (Pool.searchesInto c) o w scripts xs s) : s.Unmixed c before xs := by
  have hr := h.reachable
  obtain ⟨content, hb⟩ := h.inBlocks hw hc
  have hblocks := hb
  obtain ⟨hcontent, hblank, y, hy, hfill⟩ := hb
  have held : ∀ z, y = some z → s.world.holder c ≠ none := by
    rintro z rfl hn
    cases hy.eq_none hn
  refine ⟨⟨content, ?_⟩, ?_, ?_, ?_, ?_⟩
  · cases hfill with
    | free hrec => exact ⟨xs, [], hcontent, hblank, by simpa using hrec, .inl ⟨rfl, rfl⟩⟩
    | locked _ hrec => exact ⟨xs, [], hcontent, hblank, by simpa using hrec, .inl ⟨rfl, rfl⟩⟩
    | @copying ys q x stored left n part _ hrec hblock =>
      exact ⟨ys, part, hcontent, hblank, hrec, .inr ⟨_, rfl, ⟨_, hblock.symm⟩, held _ rfl⟩⟩
    | left _ hrec => exact ⟨_, [], hcontent, hblank, by simpa using hrec, .inl ⟨rfl, rfl⟩⟩
  · cases hfill with
    | free _ ho => rw [ho]
    | locked _ _ ho => rw [ho]; exact List.prefix_append _ _
    | copying _ _ _ ho | left _ _ ho => simp [ho, Search.serial]
  · intro hn
    obtain rfl := hy.eq_none hn
    cases hfill with
    | free hrec ho => exact ⟨ho, content, hcontent, hrec⟩
  · intro l s' hn
    obtain ⟨f, rest, fs, s₁, ht, ha, rfl⟩ := Pool.next_steps hn
    obtain ⟨content', ⟨hcontent', -⟩, hprefix, hsame⟩ :=
      Pool.act_inBlocks ht ha (hr.collectionsLocked hw) hr.collectionsOwned h.searching hblocks
    exact ⟨content, content', hcontent, hcontent', hprefix, hsame⟩
  · intro t ht ls ls' s₁ s₂ hl h₁ h₂ r
    have hl₁ : ∀ l ∈ ls, l.thread ≠ t := fun l hmem => hl l (List.mem_append_left _ hmem)
    have hl₂ : ∀ l ∈ ls', l.thread ≠ t := fun l hmem => hl l (List.mem_append_right _ hmem)
    have ht₁ : s₁.world.holder c = some t := (World.holder_congr (hr.collections_run ht hl₁ h₁)).trans ht
    constructor
    · rw [hr.run_changed hw ht hl₁, h₁, Option.map_some, Option.bind_some, Pool.changed_changed]
      simp only [Collection.modifyBack_append]
      rw [(hr.run h₁).run_changed hw ht₁ hl₂, h₂, Option.map_some]
    · rw [Pool.changed_changed]
      simp only [Collection.removeLast_push]
      exact Pool.changed_id s₂ c

/-- A record of one number. -/
def numberRecord (n : Fin 100) : Record :=
  .ofFields [.plain (.integer .bigint)
    ⟨n, Int.le_trans (by decide) (Int.natCast_nonneg n), Int.le_trans (by omega) (by decide : (100 : Int) ≤ _)⟩]

def numberRow (n : Fin 100) : Row := [.int ⟨n, by omega, by omega⟩]

/-- Two tables, of which the first has a null, and a collection of numbers that has one already. -/
def twoTables : World :=
  ⟨[[numberRow 1, [.null], numberRow 2], [numberRow 5, numberRow 6]], [],
    [⟨⟨numberRecord 0, [numberRecord 9]⟩, none⟩], []⟩

/-- Both tables are searched, for the same collection. -/
def twoSearches : List (List Action) :=
  [[.start, .submit (.select 0) ⟨none, some 0, none, none⟩ [] [] false,
    .submit (.select 1) ⟨none, some 0, none, none⟩ [] [] false]]

/-- The second search is to lock the collection while the first one copies, and the first one fails at
the null. -/
def twoSearchesRun : List Label :=
  stepsOf 0 6 ++ stepsOf 1 2 ++ stepsOf 2 2 ++ stepsOf 0 7 ++ stepsOf 1 8 ++ stepsOf 2 3 ++ stepsOf 1 4 ++
    stepsOf 2 5 ++ stepsOf 1 3 ++ stepsOf 2 7

theorem blocks_of_two :
    ∃ xs s, (Pool.initial (.ofThreads 2) twoTables twoSearches).runNoting (Pool.QueuesSearches 0)
        (Pool.searchesInto 0) [] twoSearchesRun = some (xs, s) ∧
      s.Unmixed 0 ⟨numberRecord 0, [numberRecord 9]⟩ xs ∧ s.world.holder 0 = none ∧
      xs.map (Search.block (numberRecord 0)) = [[numberRecord 1], [numberRecord 5, numberRecord 6]] ∧
      s.world.content? 0 = some ⟨numberRecord 0, [9, 1, 5, 6].map numberRecord⟩ := by
  obtain ⟨⟨xs, s⟩, hr⟩ := Option.isSome_iff_exists.1 (show ((Pool.initial (.ofThreads 2) twoTables
    twoSearches).runNoting (Pool.QueuesSearches 0) (Pool.searchesInto 0) [] twoSearchesRun).isSome = true from rfl)
  have hw : ∀ c, twoTables.holder c = none := by
    intro c
    match c with
    | 0 => rfl
    | c + 1 => rfl
  have hu := (ReachableNoting.initial.runNoting hr).blocks hw rfl
  refine ⟨xs, s, hr, hu, ?_⟩
  cases hr
  exact ⟨rfl, rfl, rfl⟩

end StatementPool
