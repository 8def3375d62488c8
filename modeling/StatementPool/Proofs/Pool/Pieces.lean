import StatementPool.Pool.Execution
/-!
# The pieces of an execution

`Piece` lists once what the next piece of an execution can be, and `Execution.step_pieces` says that
every step of an execution is one of these. An execution has no next piece only while another thread
has locked its collection or while its gate is closed (`Execution.exists_step`): a search copies
into a collection that is there (`Execution.Backed`), which no piece changes.
-/

namespace StatementPool

/-! ## Shared data, part by part -/

namespace World

variable (w : World)

@[simp] theorem length_setContent (i : Nat) (c : Collection) :
    (w.setContent i c).collections.length = w.collections.length := by
  simp [setContent]

@[simp] theorem length_setHolder (i : Nat) (t : Option ThreadId) :
    (w.setHolder i t).collections.length = w.collections.length := by
  simp [setHolder]

@[simp] theorem holder_setContent (i j : Nat) (c : Collection) : (w.setContent i c).holder j = w.holder j := by
  simp only [holder, setContent, List.getElem?_modify]
  cases w.collections[j]? with
  | none => rfl
  | some s => by_cases h : i = j <;> simp [h]

@[simp] theorem content?_setHolder (i j : Nat) (t : Option ThreadId) :
    (w.setHolder i t).content? j = w.content? j := by
  simp only [content?, setHolder, List.getElem?_modify]
  cases w.collections[j]? with
  | none => rfl
  | some s => by_cases h : i = j <;> simp [h]

theorem holder_setHolder_ne {i j : Nat} (h : i ≠ j) (t : Option ThreadId) :
    (w.setHolder i t).holder j = w.holder j := by
  simp [holder, setHolder, h]

/-- The holder of a collection that was just locked or unlocked, if there is the collection at all. -/
theorem holder_setHolder_self {i : Nat} {t : Option ThreadId} {u : ThreadId}
    (h : (w.setHolder i t).holder i = some u) : t = some u := by
  simp only [holder, setHolder, List.getElem?_modify] at h
  cases e : w.collections[i]? with
  | none => simp [e] at h
  | some s => simpa [e] using h

theorem content?_setContent {i : Nat} {c : Collection} (h : (w.content? i).isSome) :
    (w.setContent i c).content? i = some c := by
  simp only [content?, setContent, List.getElem?_modify] at h ⊢
  cases e : w.collections[i]? with
  | none => simp [e] at h
  | some s => simp

theorem isSome_content? (i : Nat) : (w.content? i).isSome ↔ i < w.collections.length := by
  simp [content?]

/-- A part of the shared data that no statement changes: who has locked the collections, and how many
there are. -/
theorem putContent_keeps (i : Option Nat) (c : Option Collection) :
    (w.putContent i c).tables = w.tables ∧ (w.putContent i c).counters = w.counters ∧
      (w.putContent i c).collections.length = w.collections.length ∧
      ∀ j, (w.putContent i c).holder j = w.holder j := by
  unfold putContent
  split
  · exact ⟨rfl, rfl, length_setContent .., fun j => holder_setContent w _ j _⟩
  · exact ⟨rfl, rfl, rfl, fun _ => rfl⟩

theorem publish_keeps (i n : Option Nat) :
    (w.publish i n).tables = w.tables ∧ (w.publish i n).collections = w.collections ∧
      (w.publish i n).gates = w.gates ∧ (w.publish i n).counters.length = w.counters.length := by
  unfold publish
  split
  · exact ⟨rfl, rfl, rfl, List.length_set⟩
  · exact ⟨rfl, rfl, rfl, rfl⟩

end World

/-! ## Statements -/

/-- A statement changes tables and counts who reached a gate; the rest is up to its caller. -/
theorem Statement.execute_keeps {st : Statement} {w w' : World} {y y' : Slots} {o : Outcome}
    (h : st.execute w y = some (w', y', o)) :
    w'.collections = w.collections ∧ w'.counters = w.counters := by
  cases st with
  | insert table =>
    simp only [execute, insertInto, Option.some.injEq] at h
    split at h
    · cases h; exact ⟨rfl, rfl⟩
    · split at h
      · cases h; exact ⟨rfl, rfl⟩
      · cases h; exact ⟨rfl, rfl⟩
  | gated gate =>
    simp only [execute] at h
    split at h
    · cases h; exact ⟨rfl, rfl⟩
    · cases h
  | select | fail | panic | planned => cases h; exact ⟨rfl, rfl⟩

/-- Only a gate keeps a statement from running to its end. -/
theorem Statement.exists_execute (st : Statement) (hg : ∀ gate, st ≠ .gated gate) (w : World) (y : Slots) :
    ∃ r, st.execute w y = some r := by
  cases st with
  | gated gate => exact absurd rfl (hg gate)
  | insert | select | fail | panic | planned => exact ⟨_, rfl⟩

namespace Execution

/-! ## One piece -/

variable {me : ThreadId} {x x' : Execution} {w w' : World}

/-- What the next piece of an execution on thread `me` can be: `Piece me x w x' w'` when it takes the
execution from `x` to `x'` and the shared data from `w` to `w'`. -/
inductive Piece (me : ThreadId) (x : Execution) (w : World) : Execution → World → Prop where
  | noLock (hp : x.phase = .lock) (hr : x.args.results = none) :
    Piece me x w { x with phase := .loadInsertId } w
  | lock {c} (hp : x.phase = .lock) (hr : x.args.results = some c) (hh : w.holder c = none) :
    Piece me x w { x with phase := .loadInsertId } (w.setHolder c (some me))
  | loadInsertId (hp : x.phase = .loadInsertId) :
    Piece me x w { x with insertId := x.args.insertId.map w.counter, phase := .loadRows } w
  | loadRows (hp : x.phase = .loadRows) :
    Piece me x w { x with rows := x.args.rows.map w.counter, phase := .begin } w
  | run {w' y o} (hp : x.phase = .begin) (hg : ∀ gate, x.statement ≠ .gated gate)
    (he : x.statement.execute w (x.slots w) = some (w', y, o)) :
    Piece me x w ({ x with insertId := y.insertId, rows := y.rows }.ended o) (w'.putContent x.args.results y.results)
  | refuse {table c e} (hp : x.phase = .begin) (hs : x.statement = .select table)
    (hc : x.args.results.bind w.content? = some c) (hf : filterRow x.args.params = .error e) :
    Piece me x w (x.ended (.failed e)) w
  | search {table c filter} (hp : x.phase = .begin) (hs : x.statement = .select table)
    (hc : x.args.results.bind w.content? = some c) (hf : filterRow x.args.params = .ok filter) :
    Piece me x w { x with phase := .copy (matching filter (w.table table)) 0 } w
  | reach {gate} (hp : x.phase = .begin) (hs : x.statement = .gated gate) :
    Piece me x w { x with phase := .wait gate } (w.reach gate)
  | copied {n} (hp : x.phase = .copy [] n) :
    Piece me x w ({ x with rows := setSlot x.rows n }.ended .done) w
  | copy {row left n c c'} (hp : x.phase = .copy (row :: left) n) (hc : x.args.results.bind w.content? = some c)
    (ha : c.appendRow row = (c', .ok ())) :
    Piece me x w { x with phase := .copy left (n + 1) } (w.putContent x.args.results (some c'))
  | copyFailed {row left n c c' e} (hp : x.phase = .copy (row :: left) n)
    (hc : x.args.results.bind w.content? = some c) (ha : c.appendRow row = (c', .error e)) :
    Piece me x w (x.ended (.failed e)) (w.putContent x.args.results (some c'))
  | pass {gate} (hp : x.phase = .wait gate) (ho : w.isOpen gate = true) : Piece me x w (x.ended .done) w
  | storeInsertId {o} (hp : x.phase = .storeInsertId o) :
    Piece me x w { x with phase := .storeRows o } (w.publish x.args.insertId x.insertId)
  | storeRows {o} (hp : x.phase = .storeRows o) :
    Piece me x w { x with phase := .unlock o } (w.publish x.args.rows x.rows)
  | noUnlock {o} (hp : x.phase = .unlock o) (hr : x.args.results = none) :
    Piece me x w { x with phase := .finished o } w
  | unlock {c o} (hp : x.phase = .unlock o) (hr : x.args.results = some c) :
    Piece me x w { x with phase := .finished o } (w.setHolder c none)

theorem piece_runStatement (hp : x.phase = .begin) (hg : ∀ gate, x.statement ≠ .gated gate)
    (h : x.runStatement w = some (x', w')) : Piece me x w x' w' := by
  unfold runStatement at h
  split at h
  · cases h
  · cases h
    exact .run hp hg (by assumption)

theorem piece_begin (hp : x.phase = .begin) (h : x.begin w = some (x', w')) : Piece me x w x' w' := by
  unfold begin at h
  split at h
  · rename_i table hs
    split at h
    · exact piece_runStatement hp (by simp [hs]) h
    · rename_i c hc
      split at h
      · cases h; exact .refuse hp hs hc (by assumption)
      · cases h; exact .search hp hs hc (by assumption)
  · cases h; exact .reach hp (by assumption)
  · exact piece_runStatement hp (by assumption) h

theorem piece_copyRow {row : Row} {left : List Row} {n : Nat} (hp : x.phase = .copy (row :: left) n)
    (h : x.copyRow w row left n = some (x', w')) : Piece me x w x' w' := by
  unfold copyRow at h
  split at h
  · cases h
  · split at h
    · cases h; exact .copyFailed hp (by assumption) (by assumption)
    · cases h; exact .copy hp (by assumption) (by assumption)

/-- Every step of an execution is one of the pieces. -/
theorem step_pieces (h : x.step me w = some (x', w')) : Piece me x w x' w' := by
  unfold step at h
  split at h
  case h_1 hp =>
    split at h
    · cases h; exact .noLock hp (by assumption)
    · split at h
      · cases h
      · cases h; exact .lock hp (by assumption) (by assumption)
  case h_2 hp => cases h; exact .loadInsertId hp
  case h_3 hp => cases h; exact .loadRows hp
  case h_4 hp => exact piece_begin hp h
  case h_5 hp => cases h; exact .copied hp
  case h_6 hp => exact piece_copyRow hp h
  case h_7 hp =>
    split at h
    · cases h; exact .pass hp (by assumption)
    · cases h
  case h_8 hp => cases h; exact .storeInsertId hp
  case h_9 hp => cases h; exact .storeRows hp
  case h_10 hp =>
    split at h
    · cases h; exact .noUnlock hp (by assumption)
    · cases h; exact .unlock hp (by assumption)
  case h_11 => cases h

/-! ## What a piece leaves alone -/

@[simp] theorem args_ended (x : Execution) (o : Outcome) : (x.ended o).args = x.args := by
  cases o <;> rfl

@[simp] theorem statement_ended (x : Execution) (o : Outcome) : (x.ended o).statement = x.statement := by
  cases o <;> rfl

theorem Piece.same (h : Piece me x w x' w') : x'.args = x.args ∧ x'.statement = x.statement := by
  cases h <;> simp

theorem Piece.length_collections (h : Piece me x w x' w') : w'.collections.length = w.collections.length := by
  cases h
  case run w' y o hp hg he =>
    rw [(World.putContent_keeps _ _ _).2.2.1, (Statement.execute_keeps he).1]
  case copy | copyFailed => exact (World.putContent_keeps _ _ _).2.2.1
  case storeInsertId | storeRows => rw [(World.publish_keeps _ _ _).2.1]
  case lock | unlock => exact World.length_setHolder ..
  all_goals rfl

/-! ## The lock of the collection -/

/-- Whether an execution has locked a collection. -/
def Holds (x : Execution) (c : Nat) : Prop :=
  x.args.results = some c ∧ x.phase ≠ .lock ∧ ∀ o, x.phase ≠ .finished o

theorem phase_ended (x : Execution) (o : Outcome) :
    (x.ended o).phase = .unlock o ∨ (x.ended o).phase = .storeInsertId o := by
  cases o
  case panicked => exact .inl rfl
  all_goals exact .inr rfl

theorem holds_ended {c : Nat} (hr : x.args.results = some c) (o : Outcome) : (x.ended o).Holds c := by
  refine ⟨(args_ended x o).symm ▸ hr, ?_⟩
  rcases phase_ended x o with h | h <;> simp [h]

/-- Whoever has locked a collection after a piece had locked it before, or locks it with that piece; a
collection that the execution itself had locked is locked until it ends. -/
theorem Piece.holder (h : Piece me x w x' w') {c : Nat} {u : ThreadId} (hu : w'.holder c = some u)
    (hx : w.holder c = some me → x.Holds c) : (u = me → x'.Holds c) ∧ (u ≠ me → w.holder c = some u) := by
  -- pieces that neither lock nor unlock
  have same : w'.holder c = w.holder c → (x.Holds c → x'.Holds c) →
      (u = me → x'.Holds c) ∧ (u ≠ me → w.holder c = some u) := by
    intro hw hh
    rw [hw] at hu
    exact ⟨fun e => hh (hx (e ▸ hu)), fun _ => hu⟩
  cases h
  case noLock hp hr => exact same rfl fun h => absurd hp h.2.1
  case noUnlock o hp hr => exact same rfl fun h => absurd h.1 (by simp [hr])
  case lock d hp hr hh =>
    by_cases e : d = c
    · subst e
      refine ⟨fun _ => ⟨hr, by simp, by simp⟩, fun hne => ?_⟩
      exact absurd (Option.some_inj.1 (World.holder_setHolder_self w hu)).symm hne
    · rw [World.holder_setHolder_ne w e] at hu
      exact ⟨fun hm => absurd hp (hx (hm ▸ hu)).2.1, fun _ => hu⟩
  case unlock d o hp hr =>
    by_cases e : d = c
    · subst e
      cases World.holder_setHolder_self w hu
    · rw [World.holder_setHolder_ne w e] at hu
      exact ⟨fun hm => absurd (hr.symm.trans (hx (hm ▸ hu)).1) (by simpa using e), fun _ => hu⟩
  case run w' y o hp hg he =>
    refine same ?_ fun h => holds_ended (x := { x with insertId := y.insertId, rows := y.rows }) h.1 o
    rw [(World.putContent_keeps _ _ _).2.2.2, World.holder, World.holder, (Statement.execute_keeps he).1]
  case copyFailed e hp hc ha => exact same ((World.putContent_keeps _ _ _).2.2.2 c) fun h => holds_ended h.1 _
  case copy hp hc ha => exact same ((World.putContent_keeps _ _ _).2.2.2 c) fun h => ⟨h.1, by simp, by simp⟩
  case refuse | pass => exact same rfl fun h => holds_ended h.1 _
  case copied n hp => exact same rfl fun h => holds_ended (x := { x with rows := setSlot x.rows n }) h.1 _
  case storeInsertId | storeRows =>
    refine same ?_ fun h => ⟨h.1, by simp, by simp⟩
    rw [World.holder, World.holder, (World.publish_keeps _ _ _).2.1]
  all_goals exact same rfl fun h => ⟨h.1, by simp, by simp⟩

/-! ## What an execution waits for -/

/-- An execution waits: its collection is locked, or its gate is closed. -/
inductive Waits (x : Execution) (w : World) : Prop where
  | collection {c} (hp : x.phase = .lock) (hr : x.args.results = some c) (hh : w.holder c ≠ none)
  | gate {g} (hp : x.phase = .wait g) (hg : w.isOpen g = false)

/-- An execution that copies rows has a collection to copy them into. -/
def Backed (x : Execution) (w : World) : Prop :=
  ∀ left n, x.phase = .copy left n → ∃ c, x.args.results = some c ∧ c < w.collections.length

theorem backed_ended (o : Outcome) : (x.ended o).Backed w := by
  intro left n hp
  rcases phase_ended x o with h | h <;> rw [h] at hp <;> cases hp

theorem Backed.mono (h : x.Backed w) (hl : w'.collections.length = w.collections.length) : x.Backed w' := by
  intro left n hp
  rw [hl]
  exact h left n hp

theorem Piece.backed (h : Piece me x w x' w') (hx : x.Backed w) : x'.Backed w' := by
  have hl := h.length_collections
  cases h
  case search table c filter hp hs hc hf =>
    intro left n _
    obtain ⟨i, hi, hc⟩ := Option.bind_eq_some_iff.1 hc
    exact ⟨i, hi, (World.isSome_content? w i).1 (by simp [hc])⟩
  case copy hp hc ha =>
    intro left' n' _
    rw [hl]
    exact hx _ _ hp
  case run | refuse | copied | copyFailed | pass => exact backed_ended _
  all_goals intro left n hp; cases hp

theorem exists_runStatement (hg : ∀ gate, x.statement ≠ .gated gate) (w : World) :
    ∃ r, x.runStatement w = some r := by
  obtain ⟨⟨w', y, o⟩, he⟩ := x.statement.exists_execute hg w (x.slots w)
  unfold runStatement
  rw [he]
  exact ⟨_, rfl⟩

theorem exists_begin (x : Execution) (w : World) : ∃ r, x.begin w = some r := by
  unfold begin
  split
  · rename_i table hs
    split
    · exact exists_runStatement (by simp [hs]) w
    · split <;> exact ⟨_, rfl⟩
  · exact ⟨_, rfl⟩
  · exact exists_runStatement (by assumption) w

/-- An execution that is not through has a next piece, unless it waits. -/
theorem exists_step (hf : ∀ o, x.phase ≠ .finished o) (hb : x.Backed w) (hw : ¬ x.Waits w) (me : ThreadId) :
    ∃ r, x.step me w = some r := by
  unfold step
  cases hp : x.phase with
  | lock =>
    cases hr : x.args.results with
    | none => exact ⟨_, rfl⟩
    | some c =>
      cases hh : w.holder c with
      | none => simp only [hh]; exact ⟨_, rfl⟩
      | some u => exact absurd (.collection hp hr (by simp [hh])) hw
  | begin => exact x.exists_begin w
  | copy left n =>
    obtain ⟨i, hi, hlt⟩ := hb left n hp
    obtain ⟨c, hc⟩ := Option.isSome_iff_exists.1 ((World.isSome_content? w i).2 hlt)
    cases left with
    | nil => exact ⟨_, rfl⟩
    | cons row left =>
      simp only [copyRow, hi, Option.bind_some, hc]
      split <;> exact ⟨_, rfl⟩
  | wait gate =>
    cases hg : w.isOpen gate with
    | true => simp only [hg, if_true]; exact ⟨_, rfl⟩
    | false => exact absurd (.gate hp hg) hw
  | unlock o => cases hr : x.args.results <;> exact ⟨_, rfl⟩
  | finished o => exact absurd hp (hf o)
  | loadInsertId | loadRows | storeInsertId | storeRows => exact ⟨_, rfl⟩

end Execution

end StatementPool
