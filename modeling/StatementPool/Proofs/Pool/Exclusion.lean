import StatementPool.Proofs.Pool.Alone
import StatementPool.Proofs.Pool.Waiting
/-!
# A locked collection belongs to one execution

A collection is locked by a thread exactly while this thread is in an execution that has locked it
(`Reachable.holder_iff`). Until it unlocks it no other thread reads or writes what is in the collection, so
that whatever is done to it may be done before the steps of the others or after them
(`Reachable.run_changed`).
-/

namespace StatementPool

/-! ## One collection of the shared data -/

namespace World

variable {w : World} {c : Nat}

theorem holder_congr {v : World} (h : v.collections[c]? = w.collections[c]?) : v.holder c = w.holder c := by
  simp [holder, h]

theorem content?_congr {v : World} (h : v.collections[c]? = w.collections[c]?) : v.content? c = w.content? c := by
  simp [content?, h]

theorem lt_of_holder {t : ThreadId} (h : w.holder c = some t) : c < w.collections.length := by
  by_contra hn
  simp [holder, hn] at h

theorem holder_setHolder (hc : c < w.collections.length) (t : Option ThreadId) : (w.setHolder c t).holder c = t := by
  simp [holder, setHolder, hc]

theorem collections_setHolder_ne {i : Nat} (h : i ≠ c) (t : Option ThreadId) :
    (w.setHolder i t).collections[c]? = w.collections[c]? := by
  simp [setHolder, h]

theorem collections_putContent_ne {i : Option Nat} (h : i ≠ some c) (d : Option Collection) :
    (w.putContent i d).collections[c]? = w.collections[c]? := by
  unfold putContent
  split
  · rename_i j e
    have hj : j ≠ c := fun hj => h (congrArg some hj)
    simp [setContent, hj]
  · rfl

/-! Changing what is in one collection goes together with every other change. -/

theorem content?_setContent_ne {i : Nat} (h : i ≠ c) (d : Collection) :
    (w.setContent c d).content? i = w.content? i := by
  simp [content?, setContent, Ne.symm h]

theorem setHolder_setContent (w : World) (i c : Nat) (t : Option ThreadId) (d : Collection) :
    (w.setContent c d).setHolder i t = (w.setHolder i t).setContent c d := by
  simp only [setContent, setHolder, World.mk.injEq, true_and, and_true]
  apply List.ext_getElem?
  intro j
  simp only [List.getElem?_modify]
  cases w.collections[j]? with
  | none => rfl
  | some s => by_cases hc : c = j <;> by_cases hi : i = j <;> simp [hc, hi]

theorem putContent_setContent (w : World) {i : Option Nat} (h : i ≠ some c) (e : Option Collection) (d : Collection) :
    (w.setContent c d).putContent i e = (w.putContent i e).setContent c d := by
  cases i with
  | none => rfl
  | some i =>
    cases e with
    | none => rfl
    | some e =>
      have hi : i ≠ c := fun hi => h (congrArg some hi)
      simp only [putContent, setContent, World.mk.injEq, true_and, and_true]
      apply List.ext_getElem?
      intro j
      simp only [List.getElem?_modify]
      cases w.collections[j]? with
      | none => rfl
      | some s => by_cases hc : c = j <;> by_cases hj : i = j <;> simp_all

theorem publish_setContent (w : World) (i n : Option Nat) (c : Nat) (d : Collection) :
    (w.setContent c d).publish i n = (w.publish i n).setContent c d := by
  cases i <;> cases n <;> rfl

end World

/-- A statement sees of the collections only what its caller hands in. -/
theorem Statement.execute_setContent (st : Statement) (w : World) (y : Slots) (c : Nat) (d : Collection) :
    st.execute (w.setContent c d) y = (st.execute w y).map fun r => (r.1.setContent c d, r.2) := by
  cases st with
  | insert table =>
    simp only [execute, insertInto]
    cases y.params with
    | none => rfl
    | some r =>
      simp only
      cases r.encode <;> rfl
  | gated gate =>
    simp only [execute, apply_ite (Option.map _)]
    rfl
  | select | fail | panic | planned => rfl

namespace Execution

variable {me : ThreadId} {x x' : Execution} {w w' : World} {c : Nat}

/-! ## The pieces of an execution and one collection -/

theorem results_of_not_holds (hx : ¬ x.Holds c) (hl : x.phase ≠ .lock) (hf : ∀ o, x.phase ≠ .finished o) :
    x.args.results ≠ some c :=
  fun hr => hx ⟨hr, hl, hf⟩

/-- An execution leaves a collection alone that it has not locked and does not lock now. -/
theorem Piece.elsewhere (h : Piece me x w x' w') (hx : ¬ x.Holds c)
    (hl : x.phase = .lock → x.args.results = some c → w.holder c ≠ none) : w'.collections[c]? = w.collections[c]? := by
  cases h
  case lock d hp hr hh =>
    apply World.collections_setHolder_ne
    rintro rfl
    exact hl hp hr hh
  case unlock d o hp hr =>
    apply World.collections_setHolder_ne
    rintro rfl
    exact hx ⟨hr, by simp [hp], by simp [hp]⟩
  case run w₁ y o hp hg he =>
    rw [World.collections_putContent_ne (results_of_not_holds hx (by simp [hp]) (by simp [hp])),
      (Statement.execute_keeps he).1]
  case copy hp hc ha | copyFailed hp hc ha =>
    exact World.collections_putContent_ne (results_of_not_holds hx (by simp [hp]) (by simp [hp])) _
  case storeInsertId | storeRows => rw [(World.publish_keeps _ _ _).2.1]
  all_goals rfl

/-- An execution that is to lock a collection can only do that next, when nobody has it locked. -/
theorem Piece.of_lock (h : Piece me x w x' w') (hp : x.phase = .lock) (hr : x.args.results = some c) :
    w.holder c = none ∧ x' = { x with phase := .loadInsertId } ∧ w' = w.setHolder c (some me) := by
  cases h
  case lock d hp' hr' hh =>
    cases hr.symm.trans hr'
    exact ⟨hh, rfl, rfl⟩
  case noLock hr' => cases hr.symm.trans hr'
  all_goals simp_all

/-- An execution that has a collection locked after a piece is the one that it is locked for. -/
theorem Piece.owns (h : Piece me x w x' w') (hc : c < w.collections.length) (hx : x.Holds c → w.holder c = some me)
    (hx' : x'.Holds c) : w'.holder c = some me := by
  have hr : x.args.results = some c := h.same.1 ▸ hx'.1
  by_cases hp : x.phase = .lock
  · obtain ⟨-, -, rfl⟩ := h.of_lock hp hr
    exact World.holder_setHolder hc _
  · have hf : ∀ o, x.phase ≠ .finished o := by
      intro o hp
      cases h <;> simp_all
    have hh := hx ⟨hr, hp, hf⟩
    cases h
    case lock hp' _ _ | noLock hp' _ => exact absurd hp' hp
    case unlock | noUnlock => exact absurd rfl (hx'.2.2 _)
    case run he =>
      rw [(World.putContent_keeps _ _ _).2.2.2, World.holder, (Statement.execute_keeps he).1]
      exact hh
    case copy | copyFailed => rwa [(World.putContent_keeps _ _ _).2.2.2]
    case storeInsertId | storeRows => rwa [World.holder, (World.publish_keeps _ _ _).2.1]
    all_goals exact hh

theorem bind_content?_setContent (hr : x.args.results ≠ some c) (w : World) (d : Collection) :
    x.args.results.bind (w.setContent c d).content? = x.args.results.bind w.content? := by
  cases h : x.args.results with
  | none => rfl
  | some i => exact World.content?_setContent_ne (fun hi => hr (h.trans (congrArg some hi))) d

theorem runStatement_setContent (hr : x.args.results ≠ some c) (w : World) (d : Collection) :
    x.runStatement (w.setContent c d) = (x.runStatement w).map fun r => (r.1, r.2.setContent c d) := by
  have slots : x.slots (w.setContent c d) = x.slots w := by
    unfold Execution.slots
    rw [bind_content?_setContent hr]
  unfold runStatement
  rw [slots, Statement.execute_setContent]
  cases x.statement.execute w (x.slots w) with
  | none => rfl
  | some r => simp only [Option.map_some, World.putContent_setContent _ hr]

theorem begin_setContent (hr : x.args.results ≠ some c) (w : World) (d : Collection) :
    x.begin (w.setContent c d) = (x.begin w).map fun r => (r.1, r.2.setContent c d) := by
  unfold begin
  cases x.statement with
  | select table =>
    simp only [bind_content?_setContent hr]
    cases x.args.results.bind w.content? with
    | none => exact runStatement_setContent hr w d
    | some e =>
      simp only
      cases filterRow x.args.params <;> rfl
  | gated gate => rfl
  | insert | fail | panic | planned => exact runStatement_setContent hr w d

theorem copyRow_setContent (hr : x.args.results ≠ some c) (w : World) (d : Collection) (row : Row) (left : List Row)
    (n : Nat) :
    x.copyRow (w.setContent c d) row left n = (x.copyRow w row left n).map fun r => (r.1, r.2.setContent c d) := by
  unfold copyRow
  rw [bind_content?_setContent hr]
  cases x.args.results.bind w.content? with
  | none => rfl
  | some e =>
    simp only [World.putContent_setContent _ hr]
    split <;> rfl

/-- What is in a collection that an execution has not locked makes no difference for its next piece, and
stays there. -/
theorem step_setContent (hx : ¬ x.Holds c) (me : ThreadId) (w : World) (d : Collection) :
    x.step me (w.setContent c d) = (x.step me w).map fun r => (r.1, r.2.setContent c d) := by
  have results := results_of_not_holds hx
  unfold step
  cases hp : x.phase with
  | lock =>
    cases hr : x.args.results with
    | none => rfl
    | some i =>
      simp only [World.holder_setContent, World.setHolder_setContent]
      cases w.holder i <;> rfl
  | begin => exact begin_setContent (results (by simp [hp]) (by simp [hp])) w d
  | copy left n =>
    cases left with
    | nil => rfl
    | cons row left => exact copyRow_setContent (results (by simp [hp]) (by simp [hp])) w d row left n
  | wait gate =>
    simp only [apply_ite (Option.map _)]
    rfl
  | storeInsertId o | storeRows o => simp only [World.publish_setContent, Option.map_some]
  | unlock o =>
    cases hr : x.args.results with
    | none => rfl
    | some i => simp only [World.setHolder_setContent, Option.map_some]
  | loadInsertId | loadRows | finished => rfl

end Execution

namespace Pool

/-! ## Who has a collection locked -/

variable {s s₁ : Pool} {t : ThreadId} {f : Frame} {rest fs : List Frame}

/-- An execution that has locked a collection is the one that it is locked for. -/
def CollectionsOwned (s : Pool) : Prop :=
  ∀ c < s.world.collections.length, ∀ u q x rest, s.framesOf u = .worker (.execute q x) :: rest → x.Holds c →
    s.world.holder c = some u

/-- What a thread has locked, the steps of the others leave alone, and it stays locked. -/
theorem act_collections_of_ne (ht : s.framesOf t = f :: rest) (ha : Act s t rest f fs s₁) (h : s.CollectionsOwned)
    {c : Nat} {u : ThreadId} (hu : s.world.holder c = some u) (hne : u ≠ t) :
    s₁.world.collections[c]? = s.world.collections[c]? := by
  cases ha
  case execute q x x' v hx =>
    apply (Execution.step_pieces hx).elsewhere
    · intro hh
      exact hne (Option.some_inj.1 (hu.symm.trans (h c (World.lt_of_holder hu) t q x rest ht hh)))
    · intro _ _
      simp [hu]
  all_goals rfl

theorem act_collectionsOwned (ht : s.framesOf t = f :: rest) (ha : Act s t rest f fs s₁) (hheap : Heaped (f :: rest))
    (h : s.CollectionsOwned) : (s₁.setFrames t fs).CollectionsOwned := by
  intro c hc u q x urest hu hx
  have hlt : c < s.world.collections.length := act_length_collections ha ▸ hc
  by_cases e : u = t
  · subst e
    rw [framesOf_setFrames_self (Nat.lt_of_lt_of_le (lt_of_framesOf ht) (act_length_le ha))] at hu
    subst hu
    rcases act_mem_execute ha List.mem_cons_self with hm | ⟨-, rfl⟩ | ⟨x₀, rfl, hs⟩
    · cases hheap _ hm
    · exact absurd rfl hx.2.1
    · exact (Execution.step_pieces hs).owns hlt (h c hlt u q x₀ rest ht) hx
  · have hh := h c hlt u q x urest ((act_executing ha e).1 hu) hx
    exact (World.holder_congr (act_collections_of_ne ht ha h hh e)).trans hh

/-! ## What others do with a locked collection -/

/-- The pool with something else in a collection. -/
def withContent (s : Pool) (c : Nat) (d : Collection) : Pool := { s with world := s.world.setContent c d }

/-- The pool after something was done to a collection. -/
def changed (s : Pool) (c : Nat) (g : Collection → Collection) : Pool :=
  match s.world.content? c with
  | none => s
  | some d => s.withContent c (g d)

section

variable {c : Nat} {d : Collection}

theorem changed_eq (h : s.world.content? c = some d) (g : Collection → Collection) :
    s.changed c g = s.withContent c (g d) := by
  simp only [changed, h]

theorem withContent_self (h : s.world.content? c = some d) : s.withContent c d = s := by
  obtain ⟨_, _, _, _, _, _, _, _, _, _, _, world, _, _⟩ := s
  simp only [withContent, World.setContent_self h]

/-- Two operations on a collection, one after the other. -/
theorem changed_changed (s : Pool) (c : Nat) (g g' : Collection → Collection) :
    (s.changed c g).changed c g' = s.changed c fun d => g' (g d) := by
  cases h : s.world.content? c with
  | none => simp [changed, h]
  | some d =>
    have h' : (s.withContent c (g d)).world.content? c = some (g d) := World.content?_setContent _ (by simp [h])
    rw [changed_eq h, changed_eq h, changed_eq h']
    exact congrArg (fun world => { s with world }) (World.setContent_setContent ..)

theorem changed_id (s : Pool) (c : Nat) : (s.changed c fun d => d) = s := by
  cases h : s.world.content? c with
  | none => simp [changed, h]
  | some d => rw [changed_eq h, withContent_self h]

end

section

variable (s : Pool) (t : ThreadId) (rest : List Frame) (c : Nat) (d : Collection)

@[simp] theorem queue_withContent : (s.withContent c d).queue = s.queue := rfl

@[simp] theorem queueHolder_withContent : (s.withContent c d).queueHolder = s.queueHolder := rfl

@[simp] theorem workersHolder_withContent : (s.withContent c d).workersHolder = s.workersHolder := rfl

@[simp] theorem parked_withContent : (s.withContent c d).parked = s.parked := rfl

@[simp] theorem framesOf_withContent : (s.withContent c d).framesOf t = s.framesOf t := rfl

theorem unpark_withContent (u : ThreadId) : (s.withContent c d).unpark u = (s.unpark u).withContent c d := by
  unfold unpark
  rw [framesOf_withContent]
  split <;> rfl

theorem unparkAll_withContent : (s.withContent c d).unparkAll = s.unparkAll.withContent c d := by
  have each : ∀ (us : List ThreadId) (s : Pool),
      us.foldl unpark (s.withContent c d) = (us.foldl unpark s).withContent c d := by
    intro us
    induction us with
    | nil => exact fun _ => rfl
    | cons u us ih =>
      intro s
      rw [List.foldl_cons, List.foldl_cons, unpark_withContent, ih]
  exact each s.parked s

theorem releaseHandle_withContent :
    (s.withContent c d).releaseHandle t rest = (s.releaseHandle t rest).withContent c d := by
  unfold releaseHandle
  rw [apply_ite (withContent · c d)]
  rfl

theorem endScript_withContent (role : Role) (owns : Bool) (answers : List Answer) :
    (s.withContent c d).endScript t role owns answers rest =
      (s.endScript t role owns answers rest).map (·.withContent c d) := by
  cases role with
  | outside => rfl
  | callback i n =>
    cases owns with
    | false => rfl
    | true => exact congrArg some (releaseHandle_withContent (s.record (.returned i n answers)) t rest c d)
  | destructor i =>
    cases owns with
    | false => rfl
    | true => exact congrArg some (releaseHandle_withContent (s.record (.dropped i answers)) t rest c d)

theorem stepAction_withContent (role : Role) (owns : Bool) (a : Action) (todo : List Action) (answers : List Answer) :
    (s.withContent c d).stepAction t role owns a todo answers rest =
      (s.stepAction t role owns a todo answers rest).map (·.withContent c d) := by
  cases a with
  | release =>
    simp only [stepAction, releaseHandle_withContent, apply_ite (Option.map _)]
    rfl
  | isRunning =>
    simp only [stepAction, workersHolder_withContent, apply_ite (Option.map _)]
    cases s.workersHolder <;> rfl
  | queued =>
    simp only [stepAction, queueHolder_withContent, apply_ite (Option.map _)]
    cases s.queueHolder <;> rfl
  | submit | start | terminate | isStopping | live | status =>
    simp only [stepAction, apply_ite (Option.map _)]
    rfl
  | panic | pushRow | openGate => rfl

theorem stepNotify_withContent (i : Nat) (target : Option ThreadId) :
    (s.withContent c d).stepNotify t i target rest = (s.stepNotify t i target rest).map (·.withContent c d) := by
  cases target with
  | none =>
    simp only [stepNotify, apply_ite (Option.map _)]
    rfl
  | some u =>
    have woken := unpark_withContent (s.setFrames t (giveAnswer (.id (queryId i)) rest)) c d u
    simp only [stepNotify, apply_ite (Option.map _), parked_withContent, Option.map_some, ← woken]
    rfl

theorem stepStart_withContent (p : StartPhase) :
    (s.withContent c d).stepStart t p rest = (s.stepStart t p rest).map (·.withContent c d) := by
  cases p with
  | lock =>
    simp only [stepStart, workersHolder_withContent]
    cases s.workersHolder <;> rfl
  | check | spawn =>
    simp only [stepStart, apply_ite (Option.map _)]
    rfl
  | wait refusal =>
    simp only [stepStart, apply_ite (Option.map _)]
    cases refusal <;> rfl

theorem refuse_withContent (cause : String) :
    (s.withContent c d).refuse t cause = (s.refuse t cause).map (·.withContent c d) := by
  unfold refuse
  rw [framesOf_withContent]
  split
  · rw [apply_ite (Option.map _)]
    rfl
  · rfl

theorem stepHalt_withContent (caller : Halter) (p : HaltPhase) :
    (s.withContent c d).stepHalt t caller p rest = (s.stepHalt t caller p rest).map (·.withContent c d) := by
  cases p with
  | stop => rfl
  | wake =>
    simp only [stepHalt, queueHolder_withContent, unparkAll_withContent]
    cases s.queueHolder <;> rfl
  | join left =>
    cases left with
    | nil => cases caller <;> rfl
    | cons u left =>
      simp only [stepHalt, apply_ite (Option.map _)]
      rfl

theorem stepTerminate_withContent (p : TerminatePhase) :
    (s.withContent c d).stepTerminate t p rest = (s.stepTerminate t p rest).map (·.withContent c d) := by
  cases p with
  | lock =>
    simp only [stepTerminate, workersHolder_withContent]
    cases s.workersHolder <;> rfl
  | check =>
    simp only [stepTerminate, apply_ite (Option.map _)]
    rfl
  | drain =>
    simp only [stepTerminate, queueHolder_withContent, foldl_record]
    cases s.queueHolder <;> rfl

theorem stepDiscard_withContent (left : List Query) (a : Answer) :
    (s.withContent c d).stepDiscard t left a rest = (s.stepDiscard t left a rest).withContent c d := by
  cases left with
  | nil => cases a <;> rfl
  | cons q left => rfl

theorem stepRetire_withContent : (s.withContent c d).stepRetire t rest = (s.stepRetire t rest).withContent c d := by
  unfold stepRetire
  rw [apply_ite (withContent · c d)]
  rfl

variable {c}

theorem stepWorker_withContent {p : WorkerPhase} (hx : ∀ q x, p = .execute q x → ¬ x.Holds c) :
    (s.withContent c d).stepWorker t p rest = (s.stepWorker t p rest).map (·.withContent c d) := by
  cases p with
  | execute q x =>
    have piece := Execution.step_setContent (hx q x rfl) t s.world d
    have step : x.step t (s.withContent c d).world = _ := piece
    simp only [stepWorker, step]
    split
    · rfl
    · cases x.step t s.world with
      | none => rfl
      | some r => simp only [Option.map_some]; split <;> rfl
  | seek =>
    simp only [stepWorker, queueHolder_withContent]
    cases s.queueHolder <;> rfl
  | take =>
    simp only [stepWorker, queue_withContent]
    cases s.queue <;> rfl
  | check | exit =>
    simp only [stepWorker, apply_ite (Option.map _)]
    rfl
  | boot | ready | parked | deliver | leave => rfl

end

/-- A thread that has not locked a collection neither reads nor writes what is in it. -/
theorem next_withContent {s : Pool} {l : Label} {c : Nat}
    (hx : ∀ q x rest, s.framesOf l.thread = .worker (.execute q x) :: rest → ¬ x.Holds c) (d : Collection) :
    (s.withContent c d).next l = (s.next l).map (·.withContent c d) := by
  cases l with
  | wake t =>
    simp only [next, parked_withContent, unpark_withContent, apply_ite (Option.map _)]
    rfl
  | refuse t cause => exact refuse_withContent s t c d cause
  | run t target =>
    simp only [next, step, framesOf_withContent]
    cases hf : s.framesOf t with
    | nil => rfl
    | cons f rest =>
      cases f with
      | script role owns todo answers =>
        cases todo with
        | nil => exact endScript_withContent s t rest c d role owns answers
        | cons a todo => exact stepAction_withContent s t rest c d role owns a todo answers
      | push q =>
        simp only [stepPush, queueHolder_withContent]
        cases s.queueHolder <;> rfl
      | notify i => exact stepNotify_withContent s t rest c d i target
      | start p => exact stepStart_withContent s t rest c d p
      | terminate p => exact stepTerminate_withContent s t rest c d p
      | halt caller p => exact stepHalt_withContent s t rest c d caller p
      | discard left a => exact congrArg some (stepDiscard_withContent s t rest c d left a)
      | retire => exact congrArg some (stepRetire_withContent s t rest c d)
      | worker p =>
        apply stepWorker_withContent
        rintro q x rfl
        exact hx q x rest hf

end Pool

namespace Reachable

variable {o : Options} {w : World} {scripts : List (List Action)} {s : Pool} {c : Nat} {t : ThreadId}

theorem collectionsOwned (h : Reachable o w scripts s) : s.CollectionsOwned := by
  refine h.keeps (P := Pool.CollectionsOwned) ?_ ?_
  · intro c _ u q x rest hu
    rcases framesOf_initial o w scripts u with e | ⟨actions, e⟩ <;> rw [e] at hu <;> cases hu
  · rintro s s' t hr hs ⟨f, rest, fs, s₁, hf, ha, rfl⟩
    exact Pool.act_collectionsOwned hf ha (hf ▸ hr.heaped t) hs

/-- A collection is locked by a thread if and only if this thread is in an execution that has locked it. -/
theorem holder_iff (hw : ∀ c, w.holder c = none) (h : Reachable o w scripts s) (hc : c < s.world.collections.length) :
    s.world.holder c = some t ↔ ∃ q x rest, s.framesOf t = .worker (.execute q x) :: rest ∧ x.Holds c := by
  constructor
  · exact h.collectionsLocked hw c t
  · rintro ⟨q, x, rest, hf, hx⟩
    exact h.collectionsOwned c hc t q x rest hf hx

/-- While a thread has a collection locked, the others neither read nor write what is in it. -/
theorem next_withContent (hw : ∀ c, w.holder c = none) (h : Reachable o w scripts s) (hc : s.world.holder c = some t)
    {l : Label} (hl : l.thread ≠ t) (d : Collection) :
    (s.withContent c d).next l = (s.next l).map (·.withContent c d) := by
  apply Pool.next_withContent
  intro q x rest hf hx
  have mine := (h.holder_iff hw (World.lt_of_holder hc)).2 ⟨q, x, rest, hf, hx⟩
  exact hl (Option.some_inj.1 (mine.symm.trans hc))

/-- However many steps the others take while a thread has a collection locked, they leave it alone. -/
theorem collections_run (h : Reachable o w scripts s) (hc : s.world.holder c = some t) {ls : List Label}
    (hl : ∀ l ∈ ls, l.thread ≠ t) {s' : Pool} (hr : s.run ls = some s') :
    s'.world.collections[c]? = s.world.collections[c]? := by
  induction ls generalizing s with
  | nil => cases hr; rfl
  | cons l ls ih =>
    simp only [Pool.run] at hr
    split at hr
    · cases hr
    · rename_i s₁ hn
      obtain ⟨f, rest, fs, s₂, ht, ha, rfl⟩ := Pool.next_steps hn
      have first : s₂.world.collections[c]? = s.world.collections[c]? :=
        Pool.act_collections_of_ne ht ha h.collectionsOwned hc (Ne.symm (hl l List.mem_cons_self))
      have others : ∀ l ∈ ls, l.thread ≠ t := fun l hmem => hl l (List.mem_cons_of_mem _ hmem)
      exact (ih (h.next l hn) ((World.holder_congr first).trans hc) others hr).trans first

/-- Nor do they see what is in it. -/
theorem run_withContent (hw : ∀ c, w.holder c = none) (h : Reachable o w scripts s) (hc : s.world.holder c = some t)
    {ls : List Label} (hl : ∀ l ∈ ls, l.thread ≠ t) (d : Collection) :
    (s.withContent c d).run ls = (s.run ls).map (·.withContent c d) := by
  induction ls generalizing s with
  | nil => rfl
  | cons l ls ih =>
    have hne := hl l List.mem_cons_self
    simp only [Pool.run, h.next_withContent hw hc hne]
    cases hn : s.next l with
    | none => rfl
    | some s' =>
      obtain ⟨f, rest, fs, s₁, ht, ha, rfl⟩ := Pool.next_steps hn
      have still := World.holder_congr (Pool.act_collections_of_ne ht ha h.collectionsOwned hc (Ne.symm hne))
      exact ih (h.next l hn) (still.trans hc) fun l hmem => hl l (List.mem_cons_of_mem _ hmem)

/-- Whatever is done to a collection while a thread has it locked may be done before the steps of the
others or after them. -/
theorem run_changed (hw : ∀ c, w.holder c = none) (h : Reachable o w scripts s) (hc : s.world.holder c = some t)
    {ls : List Label} (hl : ∀ l ∈ ls, l.thread ≠ t) (g : Collection → Collection) :
    (s.changed c g).run ls = (s.run ls).map (·.changed c g) := by
  obtain ⟨d, hd⟩ := Option.isSome_iff_exists.1 ((World.isSome_content? _ _).2 (World.lt_of_holder hc))
  rw [Pool.changed_eq hd, h.run_withContent hw hc hl]
  cases hr : s.run ls with
  | none => rfl
  | some s' =>
    have hd' := (World.content?_congr (h.collections_run hc hl hr)).trans hd
    rw [Option.map_some, Option.map_some, Pool.changed_eq hd']

end Reachable

end StatementPool
