import StatementPool.Kind.Basic
/-!
# Column types

The type of a column is a kind, or the nullable twin of a kind. What a record answers for a
column that it does not have is `nothing`. Every type has a tag: a kind its place, a nullable twin
that place plus nineteen.
-/

namespace StatementPool

inductive SqlType where
  | plain (k : Kind)
  | nullable (k : Kind)
  | nothing
  deriving DecidableEq

namespace SqlType

/-- The distance between the tags of a kind and its nullable twin. -/
def twinOffset : Nat := 19

def tag : SqlType → Nat
  | .plain k => k.tag
  | .nullable k => k.tag + twinOffset
  | .nothing => 2 * twinOffset

/-- All types, in the order of their tags. -/
def all : List SqlType := Kind.all.map .plain ++ Kind.all.map .nullable ++ [.nothing]

def ofTag? (n : Nat) : Option SqlType := all[n]?

/-- The name of a type; nullable twins end in `N`. -/
def name : SqlType → String
  | .plain k => k.name
  | .nullable k => k.name ++ "N"
  | .nothing => "Nothing"

def ofName? (s : String) : Option SqlType := all.find? (·.name == s)

def isNullable : SqlType → Bool
  | .nullable _ => true
  | _ => false

/-- The nullable twin of a kind; other types stay as they are. -/
def toNullable : SqlType → SqlType
  | .plain k => .nullable k
  | t => t

/-- The kind behind a nullable twin; other types stay as they are. -/
def base : SqlType → SqlType
  | .nullable k => .plain k
  | t => t

def isFixed : SqlType → Bool
  | .plain k | .nullable k => k.isFixed
  | .nothing => false

end SqlType

end StatementPool
