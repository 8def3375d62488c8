import StatementPool.Record.Basic
/-!
# Consistent records

A record is consistent when every position below its count has a field of the declared type, a
fixed field reports its length, which is not zero, no other field reports a size, and nothing
lies just past the count. `Record.validate` reports the first position where this fails.
-/

namespace StatementPool

namespace Record

/-- Check one position below the count. -/
def checkSlot (r : Record) (i : Nat) : Except Error Unit :=
  let declared := r.typeOf i
  if declared = .nothing then .error (.binding (.noType i))
  else match r.field? i with
    | none => .error (.binding (.noStorage i))
    | some f =>
      if f.sqlType ≠ declared then .error (.binding (.otherStorage i declared f.sqlType))
      else
        let size := r.sizeOf i
        match f.length? with
        | some length =>
          if size = 0 ∨ size ≠ length then
            .error (.binding (.wrongSize i declared size length))
          else .ok ()
        | none => if size ≠ 0 then .error (.binding (.needlessSize i declared size)) else .ok ()

/-- Check the positions from `i` on, `left` of them. -/
def checkFrom (r : Record) (i : Nat) : Nat → Except Error Unit
  | 0 => .ok ()
  | left + 1 => do
    checkSlot r i
    checkFrom r (i + 1) left

/-- Check that what a record says about its fields is so. -/
def validate (r : Record) : Except Error Unit := do
  checkFrom r 0 r.count
  if r.typeOf r.count ≠ .nothing ∨ (r.field? r.count).isSome then
    .error (.binding (.fieldPastCount r.count))
  else .ok ()

end Record

end StatementPool
