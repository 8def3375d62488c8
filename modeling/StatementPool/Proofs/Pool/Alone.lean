import StatementPool.Pool.Basic
import StatementPool.Proofs.Pool.Pieces
/-!
# Executions one after the other

`executeEach` executes queries at once, in order. `Execution.Ends` says how an execution ends when
nothing comes between its pieces; `Execution.ends_start` says that it ends as it does at once, with
its collection unlocked again. What an execution leaves in the counters is what its statement left in
its slots, or nothing new after a panic (`Args.executeWith_counters`).
-/

namespace StatementPool

/-- Execute queries at once, one after the other; absent when one of them waits for a gate that is
closed. -/
def executeEach (w : World) : List Query → Option (World × List Outcome)
  | [] => some (w, [])
  | q :: qs =>
    match q.args.executeWith q.statement w with
    | none => none
    | some (w, o) =>
      match executeEach w qs with
      | none => none
      | some (w, os) => some (w, o :: os)

theorem executeEach_append {w v v' : World} {qs qs' : List Query} {os os' : List Outcome}
    (h : executeEach w qs = some (v, os)) (h' : executeEach v qs' = some (v', os')) :
    executeEach w (qs ++ qs') = some (v', os ++ os') := by
  induction qs generalizing w os with
  | nil => cases h; exact h'
  | cons q qs ih =>
    simp only [executeEach] at h
    split at h
    · cases h
    · rename_i w₁ o hq
      split at h
      · cases h
      · rename_i w₂ os₁ hqs
        cases h
        simp only [List.cons_append, executeEach, hq, ih hqs]

theorem executeEach_snoc {w v v' : World} {qs : List Query} {q : Query} {os : List Outcome} {o : Outcome}
    (h : executeEach w qs = some (v, os)) (h' : q.args.executeWith q.statement v = some (v', o)) :
    executeEach w (qs ++ [q]) = some (v', os ++ [o]) :=
  executeEach_append h (by simp only [executeEach, h'])

theorem length_executeEach {w v : World} {qs : List Query} {os : List Outcome} (h : executeEach w qs = some (v, os)) :
    os.length = qs.length := by
  induction qs generalizing w os with
  | nil => cases h; rfl
  | cons q qs ih =>
    simp only [executeEach] at h
    split at h
    · cases h
    · split at h
      · cases h
      · rename_i hqs
        cases h
        rw [List.length_cons, List.length_cons, ih hqs]

/-! ## Slots and counters -/

@[simp] theorem isSome_setSlot (slot : Option Nat) (n : Nat) : (setSlot slot n).isSome = slot.isSome := by
  cases slot <;> rfl

/-- A statement sets the numbers that its caller has a place for, and no others. -/
theorem Statement.execute_slots {st : Statement} {w w' : World} {x y : Slots} {o : Outcome}
    (h : st.execute w x = some (w', y, o)) :
    y.insertId.isSome = x.insertId.isSome ∧ y.rows.isSome = x.rows.isSome := by
  cases st with
  | insert table =>
    simp only [execute, insertInto, Option.some.injEq] at h
    split at h
    · cases h; exact ⟨rfl, rfl⟩
    · split at h
      · cases h; exact ⟨rfl, rfl⟩
      · cases h; exact ⟨isSome_setSlot .., isSome_setSlot ..⟩
  | select table =>
    simp only [execute, selectFrom, Option.some.injEq] at h
    split at h
    · cases h; exact ⟨rfl, rfl⟩
    · split at h
      · cases h; exact ⟨rfl, isSome_setSlot ..⟩
      · split at h
        · cases h; exact ⟨rfl, rfl⟩
        · cases h; exact ⟨rfl, isSome_setSlot ..⟩
  | gated gate =>
    simp only [execute] at h
    split at h
    · cases h; exact ⟨rfl, rfl⟩
    · cases h
  | planned p => cases h; simp [Plan.apply]
  | fail | panic => cases h; exact ⟨rfl, rfl⟩

namespace World

theorem counter_publish (w : World) {c : Nat} (hc : c < w.counters.length) (i n : Option Nat) :
    (w.publish i n).counter c = if i = some c then n.getD (w.counter c) else w.counter c := by
  unfold publish
  split
  · rename_i i n
    simp only [setCounter, counter, List.getD_eq_getElem?_getD, List.getElem?_set, Option.some.injEq, Option.getD_some]
    split
    · rename_i e
      rw [if_pos (e ▸ hc)]
      rfl
    · rfl
  · rename_i hn
    split
    · rename_i e
      cases n with
      | none => rfl
      | some n => exact absurd rfl (hn c n e)
    · rfl

end World

/-- What an execution that ended like this leaves in a counter; `y` is what its statement left in the
slots. After a panic it is what was there, otherwise what is in the slot of the counter, where the
slot for rows comes last. -/
def Args.leaves (a : Args) (w : World) (y : Slots) (o : Outcome) (c : Nat) : Nat :=
  match o with
  | .panicked _ => w.counter c
  | _ =>
    if a.rows = some c then y.rows.getD 0
    else if a.insertId = some c then y.insertId.getD 0
    else w.counter c

/-- The shared data when these numbers are published after an execution that ended like this. -/
def Args.published (a : Args) (w : World) (insertId rows : Option Nat) : Outcome → World
  | .panicked _ => w
  | _ => (w.publish a.insertId insertId).publish a.rows rows

theorem Args.published_keeps (a : Args) (w : World) (i n : Option Nat) (o : Outcome) :
    (a.published w i n o).tables = w.tables ∧ (a.published w i n o).collections = w.collections ∧
      (a.published w i n o).gates = w.gates ∧ (a.published w i n o).counters.length = w.counters.length := by
  cases o with
  | panicked m => exact ⟨rfl, rfl, rfl, rfl⟩
  | done | failed =>
    obtain ⟨ht, hc, hg, hl⟩ := w.publish_keeps a.insertId i
    obtain ⟨ht', hc', hg', hl'⟩ := (w.publish a.insertId i).publish_keeps a.rows n
    exact ⟨ht'.trans ht, hc'.trans hc, hg'.trans hg, hl'.trans hl⟩

theorem Args.executeWith_iff {a : Args} {st : Statement} {w v : World} {o : Outcome} :
    a.executeWith st w = some (v, o) ↔ ∃ w' y, st.execute w (a.slots w) = some (w', y, o) ∧
      v = a.published (w'.putContent a.results y.results) y.insertId y.rows o := by
  unfold executeWith
  cases he : st.execute w (a.slots w) with
  | none => simp
  | some r =>
    obtain ⟨w', y, o'⟩ := r
    constructor
    · intro h
      cases o' <;> cases h <;> exact ⟨w', y, rfl, rfl⟩
    · rintro ⟨w'', y', h, rfl⟩
      cases h
      cases o <;> rfl

theorem Args.counter_published {a : Args} {w : World} {y : Slots} (hi : y.insertId.isSome = a.insertId.isSome)
    (hr : y.rows.isSome = a.rows.isSome) (o : Outcome) {c : Nat} (hc : c < w.counters.length) :
    (a.published w y.insertId y.rows o).counter c = a.leaves w y o c := by
  have filled : ∀ {i n : Option Nat} {d : Nat}, n.isSome = i.isSome → i = some c → n.getD d = n.getD 0 := by
    rintro i n d hn rfl
    cases n with
    | none => cases hn
    | some n => rfl
  -- the two numbers are published one after the other
  have stored : ((w.publish a.insertId y.insertId).publish a.rows y.rows).counter c =
      if a.rows = some c then y.rows.getD 0 else if a.insertId = some c then y.insertId.getD 0 else w.counter c := by
    rw [World.counter_publish _ (by rwa [(World.publish_keeps _ _ _).2.2.2])]
    split
    · rename_i e
      exact filled hr e
    · rw [World.counter_publish _ hc]
      split
      · rename_i e
        exact filled hi e
      · rfl
  cases o with
  | panicked m => rfl
  | done | failed => exact stored

/-- What an execution leaves in the counters. -/
theorem Args.executeWith_counters {a : Args} {st : Statement} {w v : World} {o : Outcome}
    (h : a.executeWith st w = some (v, o)) : ∃ w' y, st.execute w (a.slots w) = some (w', y, o) ∧
      v.tables = w'.tables ∧ v.counters.length = w.counters.length ∧
      ∀ c < w.counters.length, v.counter c = a.leaves w y o c := by
  obtain ⟨w', y, he, rfl⟩ := executeWith_iff.1 h
  obtain ⟨htab, hcnt, -, -⟩ := w'.putContent_keeps a.results y.results
  have hcnt : (w'.putContent a.results y.results).counters = w.counters :=
    hcnt.trans (Statement.execute_keeps he).2
  obtain ⟨htab', -, -, hlen⟩ := a.published_keeps (w'.putContent a.results y.results) y.insertId y.rows o
  obtain ⟨hi, hr⟩ := Statement.execute_slots he
  refine ⟨w', y, he, htab'.trans htab, by rw [hlen, hcnt], fun c hc => ?_⟩
  rw [counter_published (by simpa [slots] using hi) (by simpa [slots] using hr) o (by rwa [hcnt])]
  have same : (w'.putContent a.results y.results).counter c = w.counter c := by
    rw [World.counter, World.counter, hcnt]
  cases o <;> simp only [leaves, same]

/-- Executed at once, a statement ends unless it waits for a gate. -/
theorem Args.exists_executeWith (a : Args) {st : Statement} (hg : ∀ gate, st ≠ .gated gate) (w : World) :
    ∃ v o, a.executeWith st w = some (v, o) := by
  obtain ⟨⟨w', y, o⟩, he⟩ := st.exists_execute hg w (a.slots w)
  unfold executeWith
  rw [he]
  cases o <;> exact ⟨_, _, rfl⟩

theorem exists_executeEach {qs : List Query} (hg : ∀ q ∈ qs, ∀ gate, q.statement ≠ .gated gate) (w : World) :
    ∃ v os, executeEach w qs = some (v, os) := by
  induction qs generalizing w with
  | nil => exact ⟨w, [], rfl⟩
  | cons q qs ih =>
    obtain ⟨w₁, o, hq⟩ := q.args.exists_executeWith (hg q List.mem_cons_self) w
    obtain ⟨v, os, hqs⟩ := ih (fun q hq => hg q (List.mem_cons_of_mem _ hq)) w₁
    exact ⟨v, o :: os, by simp only [executeEach, hq, hqs]⟩

/-! ## Shared data with a collection locked -/

namespace World

theorem setContent_self {w : World} {i : Nat} {c : Collection} (h : w.content? i = some c) : w.setContent i c = w := by
  obtain ⟨tables, gates, collections, counters⟩ := w
  simp only [setContent, World.mk.injEq, true_and, and_true]
  apply List.ext_getElem?
  intro j
  simp only [List.getElem?_modify]
  cases hs : collections[j]? with
  | none => rfl
  | some s =>
    by_cases hi : i = j
    · subst hi
      simp only [content?, hs, Option.map_some, Option.some.injEq] at h
      simp [← h]
    · simp [hi]

theorem putContent_self (w : World) (i : Option Nat) : w.putContent i (i.bind w.content?) = w := by
  cases i with
  | none => rfl
  | some i =>
    rw [Option.bind_some]
    cases hc : w.content? i with
    | none => rfl
    | some c => exact setContent_self hc

theorem setContent_setContent (w : World) (i : Nat) (c d : Collection) :
    (w.setContent i c).setContent i d = w.setContent i d := by
  simp only [setContent, World.mk.injEq, true_and, and_true]
  apply List.ext_getElem?
  intro j
  simp only [List.getElem?_modify]
  cases w.collections[j]? with
  | none => rfl
  | some s => by_cases hi : i = j <;> simp [hi]

/-- Lock the collection of an execution, or unlock it, if there is one. -/
def lockFor (w : World) (results : Option Nat) (t : Option ThreadId) : World :=
  match results with
  | none => w
  | some c => w.setHolder c t

variable (w : World) (r : Option Nat) (t : Option ThreadId)

@[simp] theorem counter_lockFor (c : Nat) : (w.lockFor r t).counter c = w.counter c := by cases r <;> rfl

@[simp] theorem table_lockFor (i : Nat) : (w.lockFor r t).table i = w.table i := by cases r <;> rfl

@[simp] theorem isOpen_lockFor (i : Nat) : (w.lockFor r t).isOpen i = w.isOpen i := by cases r <;> rfl

@[simp] theorem content?_lockFor (i : Nat) : (w.lockFor r t).content? i = w.content? i := by
  cases r with
  | none => rfl
  | some c => exact w.content?_setHolder c i t

theorem push_lockFor (i : Nat) (row : Row) : (w.lockFor r t).push i row = (w.push i row).lockFor r t := by
  cases r <;> rfl

theorem reach_lockFor (i : Nat) : (w.lockFor r t).reach i = (w.reach i).lockFor r t := by cases r <;> rfl

theorem publish_lockFor (i n : Option Nat) : (w.lockFor r t).publish i n = (w.publish i n).lockFor r t := by
  cases r <;> cases i <;> cases n <;> rfl

theorem published_lockFor (a : Args) (i n : Option Nat) (o : Outcome) :
    a.published (w.lockFor r t) i n o = (a.published w i n o).lockFor r t := by
  cases o with
  | panicked m => rfl
  | done | failed => simp only [Args.published, publish_lockFor]

theorem putContent_lockFor (i : Option Nat) (c : Option Collection) :
    (w.lockFor r t).putContent i c = (w.putContent i c).lockFor r t := by
  cases r with
  | none => rfl
  | some d =>
    cases i with
    | none => rfl
    | some i =>
      cases c with
      | none => rfl
      | some c =>
        simp only [putContent, lockFor, setContent, setHolder, World.mk.injEq, true_and, and_true]
        apply List.ext_getElem?
        intro j
        simp only [List.getElem?_modify]
        cases w.collections[j]? with
        | none => rfl
        | some s => by_cases hd : d = j <;> by_cases hi : i = j <;> simp [hd, hi]

/-- A collection that nobody had locked is as before when it has been locked and unlocked. -/
theorem lockFor_lockFor (h : ∀ c, r = some c → w.holder c = none) : (w.lockFor r t).lockFor r none = w := by
  cases r with
  | none => rfl
  | some c =>
    have h := h c rfl
    obtain ⟨tables, gates, collections, counters⟩ := w
    simp only [lockFor, setHolder, World.mk.injEq, true_and, and_true]
    apply List.ext_getElem?
    intro j
    simp only [List.getElem?_modify]
    cases hs : collections[j]? with
    | none => rfl
    | some s =>
      by_cases hc : c = j
      · subst hc
        simp only [holder, hs, Option.bind_some] at h
        obtain ⟨content, holder⟩ := s
        obtain rfl : holder = none := h
        simp
      · simp [hc]

end World

/-- A statement does not look at who has locked a collection. -/
theorem Statement.execute_lockFor {st : Statement} {w w' : World} {x y : Slots} {o : Outcome}
    (h : st.execute w x = some (w', y, o)) (r : Option Nat) (t : Option ThreadId) :
    st.execute (w.lockFor r t) x = some (w'.lockFor r t, y, o) := by
  cases st with
  | insert table =>
    simp only [execute, insertInto, Option.some.injEq] at h ⊢
    split at h
    · cases h; rfl
    · rename_i record _
      cases he : record.encode with
      | error e => simp only [he] at h ⊢; cases h; rfl
      | ok row =>
        simp only [he] at h ⊢
        cases h
        rw [World.push_lockFor, World.table_lockFor]
  | select table =>
    simp only [execute, selectFrom, World.table_lockFor, Option.some.injEq, Prod.mk.injEq] at h ⊢
    exact ⟨by rw [h.1], h.2⟩
  | gated gate =>
    simp only [execute, World.isOpen_lockFor] at h ⊢
    split at h
    · rename_i ho
      cases h
      rw [if_pos ho, World.reach_lockFor]
    · cases h
  | fail | panic | planned => cases h; rfl

namespace Execution

/-! ## An execution alone -/

variable {me : ThreadId} {x x' : Execution} {w w' v : World} {o : Outcome}

/-- How an execution ends when nothing comes between its pieces: with shared data and an outcome. -/
inductive Ends (me : ThreadId) : Execution → World → World → Outcome → Prop where
  | finished {x : Execution} {w : World} {o : Outcome} (hp : x.phase = .finished o) : Ends me x w w o
  | step {x x' : Execution} {w w' v : World} {o : Outcome} (hs : x.step me w = some (x', w'))
    (h : Ends me x' w' v o) : Ends me x w v o

/-- An execution that goes on ends in the same way. -/
theorem Ends.next (h : Ends me x w v o) (hs : x.step me w = some (x', w')) : Ends me x' w' v o := by
  cases h with
  | finished hp => simp [Execution.step, hp] at hs
  | step hs' h =>
    cases hs.symm.trans hs'
    exact h

theorem Ends.of_finished (h : Ends me x w v o) {o' : Outcome} (hp : x.phase = .finished o') : v = w ∧ o = o' := by
  cases h with
  | finished hp' =>
    cases hp.symm.trans hp'
    exact ⟨rfl, rfl⟩
  | step hs => simp [Execution.step, hp] at hs

theorem ends_unlock (hp : x.phase = .unlock o) : Ends me x w (w.lockFor x.args.results none) o := by
  have hs : x.step me w = some ({ x with phase := .finished o }, w.lockFor x.args.results none) := by
    unfold Execution.step
    rw [hp]
    cases hr : x.args.results <;> simp only [World.lockFor]
  exact .step hs (.finished rfl)

theorem ends_store (hp : x.phase = .storeInsertId o) :
    Ends me x w (((w.publish x.args.insertId x.insertId).publish x.args.rows x.rows).lockFor x.args.results none) o := by
  have hi : x.step me w = some ({ x with phase := .storeRows o }, w.publish x.args.insertId x.insertId) := by
    unfold Execution.step
    rw [hp]
  have hr : ({ x with phase := .storeRows o } : Execution).step me (w.publish x.args.insertId x.insertId) =
      some ({ x with phase := .unlock o }, (w.publish x.args.insertId x.insertId).publish x.args.rows x.rows) := rfl
  exact .step hi (.step hr (ends_unlock rfl))

theorem ends_ended (x : Execution) (w : World) (o : Outcome) :
    Ends me (x.ended o) w ((x.args.published w x.insertId x.rows o).lockFor x.args.results none) o := by
  cases o with
  | panicked m => exact ends_unlock (x := x.ended (.panicked m)) rfl
  | done => exact ends_store (x := x.ended .done) rfl
  | failed e => exact ends_store (x := x.ended (.failed e)) rfl

/-- How a search ends: the rows that fit are in the collection, and their number in its slot. -/
def Copied (x : Execution) (w : World) (i : Nat) : Collection × Except Error Nat → World × Outcome
  | (c, .error e) => (x.args.published (w.setContent i c) x.insertId x.rows (.failed e), .failed e)
  | (c, .ok k) => (x.args.published (w.setContent i c) x.insertId (setSlot x.rows k) .done, .done)

/-- Copying row by row is appending the rows at once. -/
theorem ends_copy {left : List Row} {n i : Nat} {c : Collection} (hp : x.phase = .copy left n)
    (hr : x.args.results = some i) (hc : w.content? i = some c) :
    Ends me x w ((x.Copied w i (c.appendRows n left)).1.lockFor x.args.results none)
      (x.Copied w i (c.appendRows n left)).2 := by
  induction left generalizing x w n c with
  | nil =>
    have hs : x.step me w = some ({ x with rows := setSlot x.rows n }.ended .done, w) := by
      unfold Execution.step
      rw [hp]
    simp only [Collection.appendRows, Copied, World.setContent_self hc]
    exact .step hs (ends_ended ..)
  | cons row left ih =>
    have hs : x.step me w = x.copyRow w row left n := by
      unfold Execution.step
      rw [hp]
    simp only [copyRow, hr, Option.bind_some, hc, World.putContent] at hs
    simp only [Collection.appendRows]
    cases ha : c.appendRow row with
    | mk c₁ r =>
      cases r with
      | error e =>
        simp only [ha] at hs ⊢
        exact .step hs (ends_ended ..)
      | ok =>
        simp only [ha] at hs ⊢
        have hc₁ : (w.setContent i c₁).content? i = some c₁ := w.content?_setContent (by simp [hc])
        have h := ih (x := { x with phase := .copy left (n + 1) }) (n := n + 1) rfl hr hc₁
        refine .step hs ?_
        generalize c₁.appendRows (n + 1) left = r at h ⊢
        obtain ⟨c', e | k⟩ := r
        · simpa only [Copied, World.setContent_setContent] using h
        · simpa only [Copied, World.setContent_setContent] using h

/-- From its beginning on, a statement ends as it does at once. -/
theorem ends_begin {y : Slots} (hp : x.phase = .begin) (hg : ∀ gate, x.statement ≠ .gated gate)
    (he : x.statement.execute w (x.slots w) = some (w', y, o)) :
    Ends me x w ((x.args.published (w'.putContent x.args.results y.results) y.insertId y.rows o).lockFor
      x.args.results none) o := by
  have hstep : x.step me w = x.begin w := by
    unfold Execution.step
    rw [hp]
  -- all at once
  have whole : x.begin w = x.runStatement w →
      Ends me x w ((x.args.published (w'.putContent x.args.results y.results) y.insertId y.rows o).lockFor
        x.args.results none) o := by
    intro hb
    have hr : x.runStatement w = some ({ x with insertId := y.insertId, rows := y.rows }.ended o,
        w'.putContent x.args.results y.results) := by
      unfold runStatement
      rw [he]
    exact .step (hstep.trans (hb.trans hr)) (ends_ended ..)
  cases hst : x.statement with
  | gated gate => exact absurd hst (hg gate)
  | insert | fail | panic | planned => exact whole (by simp only [begin, hst])
  | select table =>
    cases hc : x.args.results.bind w.content? with
    | none => exact whole (by simp only [begin, hst, hc])
    | some c =>
      obtain ⟨i, hi, hci⟩ := Option.bind_eq_some_iff.1 hc
      simp only [hst, Statement.execute, selectFrom, slots, hc] at he
      cases hf : filterRow x.args.params with
      | error e =>
        have hs : x.step me w = some (x.ended (.failed e), w) := by
          rw [hstep]
          simp only [begin, hst, hc, hf]
        simp only [hf, Option.some.injEq, Prod.mk.injEq] at he
        obtain ⟨rfl, rfl, rfl⟩ := he
        rw [← hc, World.putContent_self]
        exact .step hs (ends_ended ..)
      | ok filter =>
        have hs : x.step me w = some ({ x with phase := .copy (matching filter (w.table table)) 0 }, w) := by
          rw [hstep]
          simp only [begin, hst, hc, hf]
        have hcopy : Ends me { x with phase := .copy (matching filter (w.table table)) 0 } w _ _ := ends_copy rfl hi hci
        refine .step hs ?_
        simp only [hf] at he
        split at he
        · rename_i c' e ha
          simp only [Option.some.injEq, Prod.mk.injEq] at he
          obtain ⟨rfl, rfl, rfl⟩ := he
          rw [ha] at hcopy
          simpa only [Copied, hi, World.putContent] using hcopy
        · rename_i c' k ha
          simp only [Option.some.injEq, Prod.mk.injEq] at he
          obtain ⟨rfl, rfl, rfl⟩ := he
          rw [ha] at hcopy
          simpa only [Copied, hi, World.putContent] using hcopy

/-- An execution alone ends as it does at once, if nobody has locked its collection. -/
theorem ends_start {a : Args} {st : Statement} (hg : ∀ gate, st ≠ .gated gate)
    (hw : ∀ c, a.results = some c → w.holder c = none) (h : a.executeWith st w = some (v, o)) (me : ThreadId) :
    Ends me (start st a) w v o := by
  obtain ⟨w', y, he, rfl⟩ := Args.executeWith_iff.1 h
  -- the collection is locked and the counters are loaded
  have hlock : (start st a).step me w =
      some ({ start st a with phase := .loadInsertId }, w.lockFor a.results (some me)) := by
    unfold Execution.step
    cases hr : a.results with
    | none => simp only [start, hr, World.lockFor]
    | some c => simp only [start, hr, World.lockFor, hw c hr]
  have hcontent : (w.lockFor a.results (some me)).content? = w.content? :=
    funext (World.content?_lockFor w a.results (some me))
  have hcounter : (w.lockFor a.results (some me)).counter = w.counter :=
    funext (World.counter_lockFor w a.results (some me))
  have hslots : (⟨a.params, a.results.bind (w.lockFor a.results (some me)).content?,
      a.insertId.map (w.lockFor a.results (some me)).counter, a.rows.map (w.lockFor a.results (some me)).counter⟩ : Slots) =
      a.slots w := by
    rw [hcontent, hcounter, Args.slots]
  have hbegin : Ends me ⟨st, a, a.insertId.map (w.lockFor a.results (some me)).counter,
      a.rows.map (w.lockFor a.results (some me)).counter, .begin⟩ (w.lockFor a.results (some me)) _ _ :=
    ends_begin rfl hg (hslots ▸ Statement.execute_lockFor he a.results (some me))
  -- unlocking the collection undoes the locking
  have hfree : ∀ c, a.results = some c →
      (a.published (w'.putContent a.results y.results) y.insertId y.rows o).holder c = none := by
    intro c hc
    rw [World.holder, (a.published_keeps _ _ _ _).2.1, ← World.holder, (World.putContent_keeps _ _ _).2.2.2,
      World.holder, (Statement.execute_keeps he).1]
    exact hw c hc
  rw [World.putContent_lockFor, World.published_lockFor, World.lockFor_lockFor _ _ _ hfree] at hbegin
  exact .step hlock (.step rfl (.step rfl hbegin))

end Execution

end StatementPool
