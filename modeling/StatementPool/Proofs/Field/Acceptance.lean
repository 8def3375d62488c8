import StatementPool.Field.Decoding
/-!
# What a column takes

A value stands for at most one content of a column: `Kind.Takes` says which, kind by kind. A column decodes a value
exactly to what it takes (`Kind.decode_eq_ok`), and every other value is an error of conversion
(`Kind.decode_eq_error`).
-/

namespace StatementPool

/-! ## What a value stands for -/

namespace Value

/-- The number of an integer; a truth value counts as 0 or 1. -/
inductive HasNumber : Value → Int → Prop where
  | int (i : Int64Range) : HasNumber (.int i) i.val
  | no : HasNumber (.bool false) 0
  | yes : HasNumber (.bool true) 1

/-- The truth value, also of the numbers 0 and 1. -/
inductive HasTruth : Value → Bool → Prop where
  | bool (b : Bool) : HasTruth (.bool b) b
  | zero {i : Int64Range} (number : i.val = 0) : HasTruth (.int i) false
  | one {i : Int64Range} (number : i.val = 1) : HasTruth (.int i) true

/-- The bytes of a blob, or of the code of a text. -/
inductive HasBytes : Value → List UInt8 → Prop where
  | text (s : String) : HasBytes (.text s) (Utf8.bytes s)
  | blob (bytes : List UInt8) : HasBytes (.blob bytes) bytes

/-- `x` is the bytes of the value with zeros behind them, up to the length of a fixed column. -/
def Fills (v : Value) (length : Nat) (x : List UInt8) : Prop :=
  ∃ bytes, v.HasBytes bytes ∧ bytes.length ≤ length ∧ x = bytes ++ List.replicate (length - bytes.length) 0

variable {v : Value}

theorem asNumber_eq_some {n : Int} : v.asNumber = some n ↔ v.HasNumber n := by
  constructor
  · intro h
    cases v with
    | int i =>
      cases h
      exact .int i
    | bool b =>
      cases b <;> cases h
      · exact .no
      · exact .yes
    | _ => cases h
  · rintro (_ | _ | _) <;> rfl

theorem asBool_eq_some {b : Bool} : v.asBool = some b ↔ v.HasTruth b := by
  constructor
  · intro h
    cases v with
    | bool b =>
      cases h
      exact .bool b
    | int i =>
      simp only [asBool] at h
      split at h
      · rename_i hi
        cases h
        exact .one hi
      · split at h <;> cases h
        rename_i hi
        exact .zero hi
    | _ => cases h
  · rintro (_ | h | h)
    · rfl
    · simp [asBool, h]
    · simp [asBool, h]

theorem asBytes_eq_some {bytes : List UInt8} : v.asBytes = some bytes ↔ v.HasBytes bytes := by
  constructor
  · intro h
    cases v <;> cases h
    · exact .text _
    · exact .blob _
  · rintro (_ | _) <;> rfl

theorem isNull_eq_false : v.isNull = false ↔ v ≠ .null := by
  cases v <;> simp [isNull]

/-! ## Readers and their errors -/

section Expect

variable {α : Type} {shape : Shape} {o : Option α} {e : Error}

theorem expect_eq_ok {a : α} : v.expect shape o = .ok a ↔ o = some a := by
  cases o <;> simp [expect]

theorem expect_eq_error (h : v.expect shape o = .error e) : e = .conversion (.mismatch shape v) := by
  cases o <;> cases h
  rfl

end Expect

theorem toWord_eq_ok {w : Width} {x : Ranged w.low w.high} : v.toWord w = .ok x ↔ v.HasNumber x.val := by
  rw [← asNumber_eq_some]
  unfold toWord
  cases hn : v.asNumber with
  | none => simp [expect, bind, Except.bind]
  | some n =>
    simp only [expect, bind, Except.bind, Option.some.injEq]
    cases hx : Ranged.ofInt? w.low w.high n with
    | none =>
      -- a number out of the range of the word is that of no word
      have out := Ranged.ofInt?_eq_none.1 hx
      have lo := x.lo_le
      have hi := x.le_hi
      simp only [reduceCtorEq, false_iff]
      omega
    | some y =>
      have hy := Ranged.ofInt?_eq_some.1 hx
      simp only [Except.ok.injEq, ← hy]
      exact ⟨fun h => h ▸ rfl, fun h => Ranged.ext h⟩

theorem toWord_eq_error {w : Width} {e : Error} (h : v.toWord w = .error e) : ∃ cause, e = .conversion cause := by
  simp only [toWord, bind, Except.bind] at h
  split at h
  · rename_i he
    cases h
    exact ⟨_, expect_eq_error he⟩
  · split at h <;> cases h
    exact ⟨_, rfl⟩

theorem Fills.length {n : Nat} {x : List UInt8} (h : v.Fills n x) : x.length = n := by
  obtain ⟨bytes, -, fits, rfl⟩ := h
  rw [List.length_append, List.length_replicate]
  omega

theorem toFixed_eq_ok {type : SqlType} {length : Nat} {x : List UInt8} :
    v.toFixed type length = .ok x ↔ v.Fills length x := by
  unfold Fills toFixed
  simp only [← asBytes_eq_some]
  cases hb : v.asBytes with
  | none => simp [expect, bind, Except.bind]
  | some bytes =>
    simp only [expect, bind, Except.bind, Option.some.injEq, exists_eq_left']
    by_cases fits : length < bytes.length
    · simp [fits, Nat.not_le_of_lt fits]
    · simp [fits, Nat.le_of_not_lt fits, eq_comm]

theorem toFixed_eq_error {type : SqlType} {length : Nat} {e : Error} (h : v.toFixed type length = .error e) :
    ∃ cause, e = .conversion cause := by
  simp only [toFixed, bind, Except.bind] at h
  split at h
  · rename_i he
    cases h
    exact ⟨_, expect_eq_error he⟩
  · split at h <;> cases h
    exact ⟨_, rfl⟩

end Value

/-! ## Columns -/

namespace Kind

/-- A column of the kind takes the value as `x`; `length` is that of a fixed column. -/
def Takes (length : Nat) (v : Value) : (k : Kind) → k.Storage → Prop
  | .integer _, (x : Ranged _ _) => v.HasNumber x.val
  | .float, (x : Binary32) => ∃ y, v.asFloat = some y ∧ y.narrow = x
  | .double, (x : Binary64) => v.asFloat = some x
  | .time, (x : Duration) => v.asTime = some x
  | .date, (x : Date) => v.asDate = some x
  | .datetime, (x : DateTime) => v.asTimestamp = some x
  | .blob, (x : List UInt8) => v.HasBytes x
  | .text, (x : String) => v.asText = some x
  | .wtext, (x : String) => v.asText = some x
  | .char, (x : List UInt8) => v.Fills length x
  | .binary, (x : List UInt8) => v.Fills length x
  | .bit, (x : Bool) => v.HasTruth x

variable {k : Kind} {type : SqlType} {length : Nat} {v : Value}

theorem decode_eq_ok {x : k.Storage} : k.decode type length v = .ok x ↔ k.Takes length v x := by
  cases k with
  | integer w => exact Value.toWord_eq_ok
  | float =>
    simp only [decode, Takes]
    cases hy : v.asFloat with
    | none => simp [Value.expect, Except.map]
    | some y =>
      constructor
      · intro h
        exact ⟨y, rfl, Except.ok.inj h⟩
      · rintro ⟨_, h, rfl⟩
        cases h
        rfl
  | blob => exact Value.expect_eq_ok.trans Value.asBytes_eq_some
  | char => exact Value.toFixed_eq_ok
  | binary => exact Value.toFixed_eq_ok
  | bit => exact Value.expect_eq_ok.trans Value.asBool_eq_some
  | _ => exact Value.expect_eq_ok

/-- A value that a column refuses is of a wrong shape or out of its range. -/
theorem decode_eq_error {e : Error} (h : k.decode type length v = .error e) : ∃ cause, e = .conversion cause := by
  cases k with
  | integer w => exact Value.toWord_eq_error h
  | float =>
    simp only [decode] at h
    cases he : v.expect .float v.asFloat with
    | ok x => rw [he] at h; cases h
    | error e' =>
      rw [he] at h
      cases h
      exact ⟨_, Value.expect_eq_error he⟩
  | char => exact Value.toFixed_eq_error h
  | binary => exact Value.toFixed_eq_error h
  | _ => exact ⟨_, Value.expect_eq_error h⟩

/-- What a column takes fills a fixed one. -/
theorem Takes.length? {x y : k.Storage} (h : k.Takes ((k.length? y).getD 0) v x) : k.length? x = k.length? y := by
  cases k with
  | char => exact congrArg some (Value.Fills.length h)
  | binary => exact congrArg some (Value.Fills.length h)
  | _ => rfl

end Kind

end StatementPool
