/-!
# Integers in a range

A machine word is an integer together with the bounds it keeps. Column kinds differ only in
those bounds, so one type with two bounds serves them all.
-/

namespace StatementPool

/-- An integer that lies between `lo` and `hi`, both included. -/
structure Ranged (lo hi : Int) where
  /-- The integer itself. -/
  val : Int
  lo_le : lo ≤ val
  le_hi : val ≤ hi
  deriving DecidableEq

namespace Ranged

variable {lo hi : Int}

/-- The integer `i` as a member of the range, if it is one. -/
def ofInt? (lo hi i : Int) : Option (Ranged lo hi) :=
  if h : lo ≤ i ∧ i ≤ hi then some ⟨i, h.1, h.2⟩ else none

@[ext] theorem ext {a b : Ranged lo hi} (h : a.val = b.val) : a = b := by
  cases a; cases b; cases h; rfl

@[simp] theorem ofInt?_val (a : Ranged lo hi) : ofInt? lo hi a.val = some a := by
  simp [ofInt?, a.lo_le, a.le_hi]

theorem ofInt?_eq_some {i : Int} {a : Ranged lo hi} : ofInt? lo hi i = some a ↔ a.val = i := by
  constructor
  · intro h
    unfold ofInt? at h
    split at h
    · cases h; rfl
    · cases h
  · rintro rfl; exact ofInt?_val a

theorem ofInt?_eq_none {i : Int} : ofInt? lo hi i = none ↔ i < lo ∨ hi < i := by
  unfold ofInt?
  split
  · rename_i h; constructor
    · intro h'; cases h'
    · omega
  · rename_i h; constructor
    · intro _; omega
    · intro _; rfl

end Ranged

/-- A signed word of 64 bits. -/
abbrev Int64Range := Ranged (-9223372036854775808) 9223372036854775807

end StatementPool
