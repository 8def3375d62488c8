import Mathlib.Algebra.BigOperators.Group.Finset.Basic
import Mathlib.Algebra.BigOperators.Group.List.Basic
import Mathlib.Algebra.Order.BigOperators.Group.Finset
import Mathlib.Algebra.Order.Group.Multiset
import StatementPool.Pool.Step
/-!
# What the threads of a pool are doing

Reading and replacing the frames of one thread, and sums over all frames of all threads. A sum
splits into the part of one thread and the part of the others (`Pool.total_eq`), so a step that
replaces the frames of one thread changes one summand (`Pool.total_setFrames`). A weight that does
not look at answers and takes a parked worker for a seeking one is `Steady`: waking workers and
answering calls leave its sums alone.
-/

namespace StatementPool

variable {M : Type} [AddCommMonoid M]

namespace Pool

/-! ## The frames of one thread -/

theorem framesOf_eq_nil {s : Pool} {t : ThreadId} (h : s.threads.length ≤ t) : s.framesOf t = [] := by
  unfold framesOf
  rw [List.getElem?_eq_none h]

theorem lt_of_mem_framesOf {s : Pool} {t : ThreadId} {f : Frame} (h : f ∈ s.framesOf t) : t < s.threads.length := by
  by_contra hn
  rw [framesOf_eq_nil (Nat.le_of_not_lt hn)] at h
  cases h

theorem lt_of_framesOf {s : Pool} {t : ThreadId} {f : Frame} {rest : List Frame}
    (h : s.framesOf t = f :: rest) : t < s.threads.length :=
  lt_of_mem_framesOf (h ▸ List.mem_cons_self)

theorem framesOf_congr {s s' : Pool} (h : s.threads = s'.threads) (t : ThreadId) :
    s.framesOf t = s'.framesOf t := by
  unfold framesOf
  rw [h]

theorem framesOf_setFrames_self {s : Pool} {t : ThreadId} (h : t < s.threads.length) (fs : List Frame) :
    (s.setFrames t fs).framesOf t = fs := by
  simp [framesOf, setFrames, List.getElem?_eq_getElem h]

theorem framesOf_setFrames_ne {s : Pool} {t u : ThreadId} (h : u ≠ t) (fs : List Frame) :
    (s.setFrames t fs).framesOf u = s.framesOf u := by
  simp only [framesOf, setFrames, List.getElem?_modify, Ne.symm h, if_false, id_map']

theorem setFrames_comm {s : Pool} {t u : ThreadId} (h : u ≠ t) (fs gs : List Frame) :
    (s.setFrames t fs).setFrames u gs = (s.setFrames u gs).setFrames t fs := by
  simp only [setFrames, Pool.mk.injEq, true_and, and_true]
  apply List.ext_getElem?
  intro i
  simp only [List.getElem?_modify]
  by_cases hi : t = i
  · subst hi
    simp [h]
  · simp [hi]

section

variable (s : Pool) (t : ThreadId) (fs : List Frame)

@[simp] theorem options_setFrames : (s.setFrames t fs).options = s.options := rfl

@[simp] theorem queue_setFrames : (s.setFrames t fs).queue = s.queue := rfl

@[simp] theorem stop_setFrames : (s.setFrames t fs).stop = s.stop := rfl

@[simp] theorem live_setFrames : (s.setFrames t fs).live = s.live := rfl

@[simp] theorem ready_setFrames : (s.setFrames t fs).ready = s.ready := rfl

@[simp] theorem handles_setFrames : (s.setFrames t fs).handles = s.handles := rfl

@[simp] theorem workersHolder_setFrames : (s.setFrames t fs).workersHolder = s.workersHolder := rfl

@[simp] theorem world_setFrames : (s.setFrames t fs).world = s.world := rfl

@[simp] theorem log_setFrames : (s.setFrames t fs).log = s.log := rfl

end

@[simp] theorem length_setFrames (s : Pool) (t : ThreadId) (fs : List Frame) :
    (s.setFrames t fs).threads.length = s.threads.length := by
  simp [setFrames]

/-- A thread of a larger list of threads does what it did in the smaller one. -/
theorem framesOf_append {s s' : Pool} {ths : List Thread} (h : s'.threads = s.threads ++ ths)
    {t : ThreadId} (ht : t < s.threads.length) : s'.framesOf t = s.framesOf t := by
  unfold framesOf
  rw [h, List.getElem?_append_left ht]

theorem framesOf_append_self {s s' : Pool} {b : Bool} {fs : List Frame}
    (h : s'.threads = s.threads ++ [⟨b, fs⟩]) : s'.framesOf s.threads.length = fs := by
  unfold framesOf
  rw [h, List.getElem?_concat_length]

/-! ## Workers -/

def isWorker (s : Pool) (t : ThreadId) : Bool := (s.threads[t]?.map Thread.isWorker).getD false

theorem isWorker_congr {s s' : Pool} (h : s.threads = s'.threads) (t : ThreadId) :
    s.isWorker t = s'.isWorker t := by
  unfold isWorker
  rw [h]

theorem isWorker_append {s s' : Pool} {ths : List Thread} (h : s'.threads = s.threads ++ ths) {t : ThreadId}
    (ht : t < s.threads.length) : s'.isWorker t = s.isWorker t := by
  unfold isWorker
  rw [h, List.getElem?_append_left ht]

theorem lt_of_isWorker {s : Pool} {t : ThreadId} (h : s.isWorker t = true) : t < s.threads.length := by
  by_contra hn
  unfold isWorker at h
  rw [List.getElem?_eq_none (Nat.le_of_not_lt hn)] at h
  cases h

theorem isAtWork_iff {s : Pool} {t : ThreadId} :
    s.isAtWork t = true ↔ s.isWorker t = true ∧ s.framesOf t ≠ [] := by
  unfold isAtWork isWorker framesOf
  cases s.threads[t]? with
  | none => simp
  | some th => simp

@[simp] theorem isWorker_setFrames (s : Pool) (t u : ThreadId) (fs : List Frame) :
    (s.setFrames t fs).isWorker u = s.isWorker u := by
  simp only [isWorker, setFrames, List.getElem?_modify]
  cases s.threads[u]? with
  | none => rfl
  | some th => by_cases h : t = u <;> simp [h]

theorem mem_atWork {s : Pool} {t : ThreadId} : t ∈ s.atWork ↔ s.isAtWork t = true := by
  simp only [atWork, List.mem_filter, List.mem_range, and_iff_right_iff_imp]
  intro h
  obtain ⟨-, hf⟩ := isAtWork_iff.1 h
  obtain ⟨f, rest, h⟩ := List.exists_cons_of_ne_nil hf
  exact lt_of_framesOf h

theorem mem_parked {s : Pool} {t : ThreadId} : t ∈ s.parked ↔ ∃ rest, s.framesOf t = .worker .parked :: rest := by
  simp only [parked, List.mem_filter, List.mem_range]
  constructor
  · rintro ⟨-, h⟩
    unfold isParked at h
    split at h
    · exact ⟨_, by assumption⟩
    · cases h
  · rintro ⟨rest, h⟩
    exact ⟨lt_of_framesOf h, by rw [h]; rfl⟩

end Pool

/-! ## Weights -/

def stackWeight (w : Frame → M) (fs : List Frame) : M := (fs.map w).sum

@[simp] theorem stackWeight_nil (w : Frame → M) : stackWeight w [] = 0 := rfl

@[simp] theorem stackWeight_cons (w : Frame → M) (f : Frame) (fs : List Frame) :
    stackWeight w (f :: fs) = w f + stackWeight w fs := by
  simp [stackWeight]

/-- A weight that does not look at the answers of a script, nor whether a worker is parked. -/
structure Steady (w : ThreadId → Frame → M) : Prop where
  answers : ∀ t role owns todo a b, w t (.script role owns todo a) = w t (.script role owns todo b)
  parked : ∀ t, w t (.worker .parked) = w t (.worker .seek)

theorem stackWeight_giveAnswer {w : ThreadId → Frame → M} (hw : Steady w) (t : ThreadId) (a : Answer)
    (fs : List Frame) : stackWeight (w t) (giveAnswer a fs) = stackWeight (w t) fs := by
  unfold giveAnswer
  split
  · rw [stackWeight_cons, stackWeight_cons, hw.answers]
  · rfl

theorem mem_stackWeight {α : Type} {w : Frame → Multiset α} {x : α} {fs : List Frame} :
    x ∈ stackWeight w fs ↔ ∃ f ∈ fs, x ∈ w f := by
  induction fs with
  | nil => simp
  | cons g gs ih => simp [ih]

/-- What carries at most one thing. -/
def single {α : Type} : Option α → Multiset α
  | none => 0
  | some x => {x}

theorem single_eq_add {α : Type} {x : Option α} {y : α} {r : Multiset α} (h : single x = {y} + r) :
    x = some y ∧ r = 0 := by
  cases x with
  | none => exact absurd h.symm (by simp [single])
  | some x =>
    rw [single, Multiset.singleton_add, Multiset.singleton_eq_cons_iff] at h
    exact ⟨by rw [h.1], h.2⟩

namespace Pool

/-- The weight of all frames of all threads. -/
def total (s : Pool) (w : ThreadId → Frame → M) : M :=
  ∑ t ∈ Finset.range s.threads.length, stackWeight (w t) (s.framesOf t)

/-- The weight of the frames of all threads but one. -/
def others (s : Pool) (t : ThreadId) (w : ThreadId → Frame → M) : M :=
  ∑ u ∈ (Finset.range s.threads.length).erase t, stackWeight (w u) (s.framesOf u)

variable {w : ThreadId → Frame → M}

theorem total_eq {s : Pool} {t : ThreadId} (h : t < s.threads.length) :
    s.total w = stackWeight (w t) (s.framesOf t) + s.others t w :=
  (Finset.add_sum_erase _ (fun u => stackWeight (w u) (s.framesOf u)) (Finset.mem_range.2 h)).symm

theorem total_cons {s : Pool} {t : ThreadId} {f : Frame} {rest : List Frame} (h : s.framesOf t = f :: rest) :
    s.total w = w t f + (stackWeight (w t) rest + s.others t w) := by
  rw [total_eq (lt_of_framesOf h), h, stackWeight_cons, add_assoc]

theorem mem_total {α : Type} {s : Pool} {w : ThreadId → Frame → Multiset α} {x : α} :
    x ∈ s.total w ↔ ∃ t, ∃ f ∈ s.framesOf t, x ∈ w t f := by
  simp only [total, Multiset.mem_sum, Finset.mem_range, mem_stackWeight]
  constructor
  · rintro ⟨u, -, g, hg, hx⟩
    exact ⟨u, g, hg, hx⟩
  · rintro ⟨u, g, hg, hx⟩
    exact ⟨u, lt_of_mem_framesOf hg, g, hg, hx⟩

theorem mem_others {α : Type} {s : Pool} {t : ThreadId} {w : ThreadId → Frame → Multiset α} {x : α} :
    x ∈ s.others t w ↔ ∃ u, u ≠ t ∧ ∃ f ∈ s.framesOf u, x ∈ w u f := by
  simp only [others, Multiset.mem_sum, Finset.mem_erase, Finset.mem_range, mem_stackWeight]
  constructor
  · rintro ⟨u, ⟨hne, -⟩, g, hg, hx⟩
    exact ⟨u, hne, g, hg, hx⟩
  · rintro ⟨u, hne, g, hg, hx⟩
    exact ⟨u, ⟨hne, lt_of_mem_framesOf hg⟩, g, hg, hx⟩

/-- A sum of numbers is zero when every frame weighs nothing. -/
theorem total_eq_zero {s : Pool} {w : ThreadId → Frame → Nat} :
    s.total w = 0 ↔ ∀ t, ∀ f ∈ s.framesOf t, w t f = 0 := by
  have hstack : ∀ (u : ThreadId) (gs : List Frame), stackWeight (w u) gs = 0 ↔ ∀ f ∈ gs, w u f = 0 := by
    intro u gs
    induction gs with
    | nil => simp
    | cons g gs ih => simp [ih]
  simp only [total, Finset.sum_eq_zero_iff, Finset.mem_range, hstack]
  apply forall_congr'
  intro u
  refine ⟨?_, fun h _ => h⟩
  intro h
  by_cases hu : u < s.threads.length
  · exact h hu
  · rw [framesOf_eq_nil (Nat.le_of_not_lt hu)]
    simp

/-- The frames of the other threads carry nothing when together they carry nothing. -/
theorem others_eq_zero {α : Type} {s : Pool} {t : ThreadId} {w : ThreadId → Frame → Multiset α} :
    s.others t w = 0 ↔ ∀ u, u ≠ t → ∀ f ∈ s.framesOf u, w u f = 0 := by
  simp only [Multiset.eq_zero_iff_forall_notMem, mem_others]
  constructor
  · intro h u hu f hf x hx
    exact h x ⟨u, hu, f, hf, hx⟩
  · rintro h x ⟨u, hu, f, hf, hx⟩
    exact h u hu f hf x hx

theorem others_congr {s s' : Pool} (h : s'.threads = s.threads) (t : ThreadId) :
    s'.others t w = s.others t w := by
  unfold others
  rw [h]
  exact Finset.sum_congr rfl fun u _ => by rw [framesOf_congr h]

theorem others_setFrames (s : Pool) (t : ThreadId) (fs : List Frame) :
    (s.setFrames t fs).others t w = s.others t w := by
  unfold others
  rw [length_setFrames]
  exact Finset.sum_congr rfl fun u hu => by rw [framesOf_setFrames_ne (Finset.ne_of_mem_erase hu)]

theorem total_setFrames {s : Pool} {t : ThreadId} (h : t < s.threads.length) (fs : List Frame) :
    (s.setFrames t fs).total w = stackWeight (w t) fs + s.others t w := by
  rw [total_eq (by simpa using h), framesOf_setFrames_self h, others_setFrames]

/-- Replacing the frames of a thread by frames of the same weight leaves the others' view alone. -/
theorem others_setFrames_of_eq {s : Pool} {t u : ThreadId} {fs : List Frame}
    (h : stackWeight (w u) fs = stackWeight (w u) (s.framesOf u)) :
    (s.setFrames u fs).others t w = s.others t w := by
  unfold others
  rw [length_setFrames]
  apply Finset.sum_congr rfl
  intro v hv
  by_cases hvu : v = u
  · subst hvu
    have hlt : v < s.threads.length := Finset.mem_range.1 (Finset.mem_of_mem_erase hv)
    rw [framesOf_setFrames_self hlt, h]
  · rw [framesOf_setFrames_ne hvu]

theorem others_append {s s' : Pool} {b : Bool} {fs : List Frame} (h : s'.threads = s.threads ++ [⟨b, fs⟩])
    {t : ThreadId} (ht : t < s.threads.length) :
    s'.others t w = s.others t w + stackWeight (w s.threads.length) fs := by
  have hne : s.threads.length ≠ t := Nat.ne_of_gt ht
  unfold others
  rw [h, List.length_append, List.length_singleton, Finset.range_add_one, Finset.erase_insert_of_ne hne,
    Finset.sum_insert (by simp), framesOf_append_self h, add_comm]
  congr 1
  apply Finset.sum_congr rfl
  intro u hu
  rw [framesOf_append h (Finset.mem_range.1 (Finset.mem_of_mem_erase hu))]

/-! ## Waking workers -/

/-- The frames of a worker that was parked, with the worker looking at the queue again. -/
def wokenFrames : List Frame → List Frame
  | .worker .parked :: rest => .worker .seek :: rest
  | frames => frames

theorem unpark_eq (s : Pool) (u : ThreadId) : s.unpark u = s.setFrames u (wokenFrames (s.framesOf u)) ∨ s.unpark u = s := by
  unfold unpark
  split
  · rename_i h
    unfold isParked at h
    split at h
    · rename_i rest e
      rw [e]
      exact .inl rfl
    · cases h
  · exact .inr rfl

theorem unpark_eq_threads (s : Pool) (u : ThreadId) : s.unpark u = { s with threads := (s.unpark u).threads } := by
  rcases unpark_eq s u with h | h
  · rw [h]; rfl
  · rw [h]

theorem unparkAll_eq (s : Pool) : s.unparkAll = { s with threads := s.unparkAll.threads } := by
  unfold unparkAll
  induction s.parked generalizing s with
  | nil => rfl
  | cons u us ih =>
    rw [List.foldl_cons, ih, unpark_eq_threads s u]

theorem framesOf_unpark (s : Pool) (u t : ThreadId) :
    (s.unpark u).framesOf t = s.framesOf t ∨ (s.unpark u).framesOf t = wokenFrames (s.framesOf t) := by
  rcases unpark_eq s u with h | h
  · by_cases e : t = u
    · subst e
      by_cases hlt : t < s.threads.length
      · rw [h, framesOf_setFrames_self hlt]
        exact .inr rfl
      · rw [h, framesOf_eq_nil (by simpa using hlt), framesOf_eq_nil (Nat.le_of_not_lt hlt)]
        exact .inl rfl
    · rw [h, framesOf_setFrames_ne e]
      exact .inl rfl
  · rw [h]
    exact .inl rfl

theorem wokenFrames_idem (fs : List Frame) : wokenFrames (wokenFrames fs) = wokenFrames fs := by
  by_cases h : ∃ rest, fs = .worker .parked :: rest
  · obtain ⟨rest, rfl⟩ := h
    rfl
  · have e : wokenFrames fs = fs := by
      unfold wokenFrames
      split
      · exact absurd ⟨_, rfl⟩ h
      · rfl
    rw [e, e]

theorem framesOf_unparkAll (s : Pool) (t : ThreadId) :
    s.unparkAll.framesOf t = s.framesOf t ∨ s.unparkAll.framesOf t = wokenFrames (s.framesOf t) := by
  unfold unparkAll
  induction s.parked generalizing s with
  | nil => exact .inl rfl
  | cons u us ih =>
    rw [List.foldl_cons]
    rcases framesOf_unpark s u t with h | h <;> rcases ih (s.unpark u) with h' | h' <;> rw [h', h]
    · exact .inl rfl
    · exact .inr rfl
    · exact .inr rfl
    · exact .inr (wokenFrames_idem _)

@[simp] theorem isWorker_unpark (s : Pool) (u t : ThreadId) : (s.unpark u).isWorker t = s.isWorker t := by
  rcases unpark_eq s u with h | h
  · rw [h, isWorker_setFrames]
  · rw [h]

@[simp] theorem isWorker_unparkAll (s : Pool) (t : ThreadId) : s.unparkAll.isWorker t = s.isWorker t := by
  unfold unparkAll
  induction s.parked generalizing s with
  | nil => rfl
  | cons u us ih => rw [List.foldl_cons, ih, isWorker_unpark]

@[simp] theorem length_unparkAll (s : Pool) : s.unparkAll.threads.length = s.threads.length := by
  unfold unparkAll
  induction s.parked generalizing s with
  | nil => rfl
  | cons u us ih =>
    rw [List.foldl_cons, ih]
    rcases unpark_eq s u with h | h
    · rw [h, length_setFrames]
    · rw [h]

theorem stackWeight_wokenFrames (hw : Steady w) (t : ThreadId) (fs : List Frame) :
    stackWeight (w t) (wokenFrames fs) = stackWeight (w t) fs := by
  unfold wokenFrames
  split
  · rw [stackWeight_cons, stackWeight_cons, hw.parked]
  · rfl

theorem others_unpark (hw : Steady w) (s : Pool) (t u : ThreadId) :
    (s.unpark u).others t w = s.others t w := by
  rcases unpark_eq s u with h | h
  · rw [h]
    exact others_setFrames_of_eq (stackWeight_wokenFrames hw u _)
  · rw [h]

theorem others_unparkAll (hw : Steady w) (s : Pool) (t : ThreadId) :
    s.unparkAll.others t w = s.others t w := by
  unfold unparkAll
  induction s.parked generalizing s with
  | nil => rfl
  | cons u us ih => rw [List.foldl_cons, ih, others_unpark hw]

end Pool

end StatementPool
