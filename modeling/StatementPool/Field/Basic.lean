import StatementPool.Field.Nullable
import StatementPool.Kind.SqlType
/-!
# Fields

A field of a record is a stored value of some kind, with a null flag if its type is nullable.
-/

namespace StatementPool

/-- A field: its kind and what it holds. -/
inductive Field where
  | plain (k : Kind) (value : k.Storage)
  | nullable (k : Kind) (cell : Nullable k.Storage)

namespace Field

def kind : Field → Kind
  | .plain k _ => k
  | .nullable k _ => k

def sqlType : Field → SqlType
  | .plain k _ => .plain k
  | .nullable k _ => .nullable k

/-- Whether the null flag is set; a field without one is not null. -/
def isNull : Field → Bool
  | .plain _ _ => false
  | .nullable _ cell => cell.null

/-- The storage, also behind a null flag. -/
def storage : (f : Field) → f.kind.Storage
  | .plain _ value => value
  | .nullable _ cell => cell.value

def length? (f : Field) : Option Nat := f.kind.length? f.storage

/-- The field with another value stored and its flag cleared. -/
def store : (f : Field) → f.kind.Storage → Field
  | .plain k _, value => .plain k value
  | .nullable k cell, value => .nullable k (cell.set value)

/-- Set the null flag; answers whether there is one. -/
def setNull (f : Field) (null : Bool) : Field × Bool :=
  match f with
  | .plain k value => (.plain k value, false)
  | .nullable k cell => (.nullable k (cell.setNull null), true)

/-- The field of a type before anything is stored: a nullable field starts null. -/
def blank? (length : Nat) : SqlType → Option Field
  | .plain k => some (.plain k (k.blank length))
  | .nullable k => some (.nullable k (.nullWith (k.blank length)))
  | .nothing => none

/-- Equality of fields of one kind: storage and flag. -/
def same : Field → Field → Bool
  | .plain k a, .plain l b => if h : k = l then k.same a (h ▸ b) else false
  | .nullable k a, .nullable l b => if h : k = l then k.sameCell a (h ▸ b) else false
  | _, _ => false

@[simp] theorem sqlType_setNull (f : Field) (b : Bool) : (f.setNull b).1.sqlType = f.sqlType := by
  cases f <;> rfl

@[simp] theorem sqlType_store (f : Field) (v : f.kind.Storage) : (f.store v).sqlType = f.sqlType := by
  cases f <;> rfl

theorem setNull_snd (f : Field) (b : Bool) : (f.setNull b).2 = f.sqlType.isNullable := by
  cases f <;> rfl

end Field

end StatementPool
