import Mathlib.Logic.Function.Basic
import StatementPool.Record.Basic
/-!
# Declarations

A declaration lists members of a structure in the order in which they bind to a statement, each with the kind of its
column. The answers of a record are made from this list alone: the count along the list, the types as a table, and the
size, the field and the view for writing by counting the index down along the list.
-/

namespace StatementPool

/-- The number of bytes of a fixed column, also of a null. -/
def Kind.cellLength? (k : Kind) (c : Nullable k.Storage) : Option Nat := k.length? c.value

/-! ## Views for writing -/

/-- A view of a member for writing: what the member holds, and the structure in which it holds something else. -/
inductive View (σ : Type) where
  | plain (k : Kind) (now : k.Storage) (put : k.Storage → σ)
  | nullable (k : Kind) (now : Nullable k.Storage) (put : Nullable k.Storage → σ)

namespace View

variable {σ : Type}

/-- The same view for reading. -/
def field : View σ → Field
  | .plain k now _ => .plain k now
  | .nullable k now _ => .nullable k now

/-- Set the null flag; answers whether there is one. -/
def setNull (v : View σ) (null : Bool) : σ × Bool :=
  match v with
  | .plain _ now put => (put now, false)
  | .nullable _ now put => (put (now.setNull null), true)

/-- Writing a field through the view leads to this structure. The bytes of an array are written in place, so that
there are as many of them as before. -/
inductive Writes : View σ → Field → σ → Prop where
  | plain {k : Kind} {now : k.Storage} {put : k.Storage → σ} (x : k.Storage) (keeps : k.length? x = k.length? now) :
      Writes (.plain k now put) (.plain k x) (put x)
  | nullable {k : Kind} {now : Nullable k.Storage} {put : Nullable k.Storage → σ} (c : Nullable k.Storage)
      (keeps : k.cellLength? c = k.cellLength? now) : Writes (.nullable k now put) (.nullable k c) (put c)

end View

/-! ## Members -/

variable {Name : Type}

/-- A value of a structure: what each of its members holds, an array as its bytes. -/
abbrev Structure (Holds : Name → Type) : Type := (name : Name) → Holds name

/-- A member of a structure, listed with the kind of its column. What it holds is what the kind asks for. -/
inductive Member (Holds : Name → Type) where
  | plain (name : Name) (k : Kind) (holds : Holds name = k.Storage)
  | nullable (name : Name) (k : Kind) (holds : Holds name = Nullable k.Storage)

namespace Member

variable {Holds : Name → Type}

def name : Member Holds → Name
  | .plain name _ _ => name
  | .nullable name _ _ => name

def type : Member Holds → SqlType
  | .plain _ k _ => .plain k
  | .nullable _ k _ => .nullable k

/-- The number of bytes of an array. -/
def size : Member Holds → Structure Holds → Nat
  | .plain name k holds, s => (k.length? (cast holds (s name))).getD 0
  | .nullable name k holds, s => (k.cellLength? (cast holds (s name))).getD 0

def field : Member Holds → Structure Holds → Field
  | .plain name k holds, s => .plain k (cast holds (s name))
  | .nullable name k holds, s => .nullable k (cast holds (s name))

def view [DecidableEq Name] : Member Holds → Structure Holds → View (Structure Holds)
  | .plain name k holds, s => .plain k (cast holds (s name)) fun x => Function.update s name (cast holds.symm x)
  | .nullable name k holds, s =>
    .nullable k (cast holds (s name)) fun c => Function.update s name (cast holds.symm c)

/-- How many members are listed. -/
def count : List (Member Holds) → Nat
  | [] => 0
  | _ :: rest => 1 + count rest

/-- The answer for the member at an index, which is counted down along the list. -/
def countDown {α : Type} (past : α) (answer : Member Holds → α) : List (Member Holds) → Nat → α
  | [], _ => past
  | m :: rest, remaining => if remaining = 0 then answer m else countDown past answer rest (remaining - 1)

end Member

/-! ## Declarations -/

/-- A list of distinct members. -/
structure Declaration (Holds : Name → Type) where
  members : List (Member Holds)
  distinct : (members.map Member.name).Nodup

namespace Declaration

variable {Holds : Name → Type} (d : Declaration Holds)

def count : Nat := Member.count d.members

def typeOf (i : Nat) : SqlType := (d.members.map Member.type)[i]?.getD .nothing

def sizeOf (s : Structure Holds) (i : Nat) : Nat := Member.countDown 0 (·.size s) d.members i

def field? (s : Structure Holds) (i : Nat) : Option Field :=
  Member.countDown none (fun m => some (m.field s)) d.members i

def view? [DecidableEq Name] (s : Structure Holds) (i : Nat) : Option (View (Structure Holds)) :=
  Member.countDown none (fun m => some (m.view s)) d.members i

/-- The record that a value of the structure is. -/
def record (s : Structure Holds) : Record where
  slots := (List.range d.count).map fun i => ⟨d.typeOf i, d.sizeOf s i, d.field? s i⟩
  count := d.count

end Declaration

end StatementPool
