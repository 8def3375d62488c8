import StatementPool.Kind.Shown
/-!
# Nullable cells

A nullable cell is a stored value and a null flag. The value stays reachable while the flag is
set; only `get?` hides it.
-/

namespace StatementPool

structure Nullable (α : Type) where
  value : α
  null : Bool
  deriving DecidableEq

namespace Nullable

variable {α : Type}

def of (a : α) : Nullable α := ⟨a, false⟩

def nullWith (a : α) : Nullable α := ⟨a, true⟩

/-- A cell of an optional value; `blank` lies behind the null. -/
def ofOption (blank : α) : Option α → Nullable α
  | some a => of a
  | none => nullWith blank

/-- The value, unless the cell is null. -/
def get? (n : Nullable α) : Option α := if n.null then none else some n.value

def set (_ : Nullable α) (a : α) : Nullable α := of a

/-- Set the flag and leave the storage alone. -/
def setNull (n : Nullable α) (null : Bool) : Nullable α := { n with null := null }

/-- Write the storage and leave the flag alone. -/
def write (n : Nullable α) (a : α) : Nullable α := { n with value := a }

/-- Set the flag and reset the storage. -/
def clear (_ : Nullable α) (blank : α) : Nullable α := nullWith blank

@[simp] theorem get?_of (a : α) : (of a).get? = some a := rfl

@[simp] theorem get?_nullWith (a : α) : (nullWith a).get? = none := rfl

@[simp] theorem get?_set (n : Nullable α) (a : α) : (n.set a).get? = some a := rfl

@[simp] theorem value_setNull (n : Nullable α) (b : Bool) : (n.setNull b).value = n.value := rfl

@[simp] theorem null_write (n : Nullable α) (a : α) : (n.write a).null = n.null := rfl

end Nullable

/-- Equality of cells: the flag and the storage, also the storage of a null cell. -/
def Kind.sameCell (k : Kind) (a b : Nullable k.Storage) : Bool :=
  k.same a.value b.value && a.null == b.null

def Kind.cellShown (k : Kind) (n : Nullable k.Storage) : String :=
  "Nullable \x7b value: " ++ k.shown n.value ++ ", null: " ++ boolText n.null ++ " \x7d"

/-- A cell laid out by a template; a null is not laid out. -/
def Kind.cellDisplay? (k : Kind) (t : Template) (n : Nullable k.Storage) : Option String :=
  match k.display? t n.value with
  | none => none
  | some s => some (if n.null then "NULL" else s)

end StatementPool
