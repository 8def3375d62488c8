import StatementPool.Error
import StatementPool.Field.Basic
/-!
# Records

A record is a row of fields with what it says about them: how many there are, and the type and
the size of each. These need not agree; a record that is built from its fields is consistent as
long as no fixed field is empty.
-/

namespace StatementPool

/-- What a record says about one position, and the field it has there. -/
structure Slot where
  declared : SqlType
  size : Nat
  field : Option Field

/-- A record of positions, of which the first `count` bind to a statement. -/
structure Record where
  slots : List Slot
  count : Nat

namespace Record

def typeOf (r : Record) (i : Nat) : SqlType :=
  match r.slots[i]? with
  | some s => s.declared
  | none => .nothing

def sizeOf (r : Record) (i : Nat) : Nat :=
  match r.slots[i]? with
  | some s => s.size
  | none => 0

def field? (r : Record) (i : Nat) : Option Field := r.slots[i]?.bind Slot.field

/-- The field at a position that binds to a statement. -/
def fieldAt (r : Record) (i : Nat) : Except Error Field :=
  if r.count ≤ i then .error (.binding (.pastCount i r.count))
  else match r.field? i with
    | some f => .ok f
    | none => .error (.binding (.pastCount i r.count))

/-- The record with another field at a position that has one. -/
def setField (r : Record) (i : Nat) (f : Field) : Record :=
  { r with slots := r.slots.modify i fun s => { s with field := s.field.map fun _ => f } }

/-- Equality of two records of one layout, field by field. -/
def same (r s : Record) : Bool :=
  r.count == s.count && (List.range r.count).all fun i =>
    match r.field? i, s.field? i with
    | some f, some g => f.same g
    | none, none => true
    | _, _ => false

/-! ## Declared records -/

/-- The slot of a field that is declared as what it is. -/
def slotOf (f : Field) : Slot := ⟨f.sqlType, f.length?.getD 0, some f⟩

def ofFields (fs : List Field) : Record := ⟨fs.map slotOf, fs.length⟩

theorem typeOf_ofFields (fs : List Field) (i : Nat) :
    (ofFields fs).typeOf i = (fs[i]?.map Field.sqlType).getD .nothing := by
  simp only [typeOf, ofFields, List.getElem?_map]
  cases fs[i]? <;> rfl

theorem sizeOf_ofFields (fs : List Field) (i : Nat) :
    (ofFields fs).sizeOf i = (fs[i]?.bind Field.length?).getD 0 := by
  simp only [sizeOf, ofFields, List.getElem?_map]
  cases fs[i]? <;> rfl

theorem field?_ofFields (fs : List Field) (i : Nat) : (ofFields fs).field? i = fs[i]? := by
  simp only [field?, ofFields, List.getElem?_map]
  cases fs[i]? <;> rfl

end Record

/-- A column of a declared record: its type, and its length if it is fixed. -/
structure Column where
  type : SqlType
  length : Nat

/-- The record of a list of columns before anything is stored. -/
def Record.blank (columns : List Column) : Record :=
  .ofFields (columns.filterMap fun c => Field.blank? c.length c.type)

end StatementPool
