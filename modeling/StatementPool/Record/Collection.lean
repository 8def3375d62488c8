import StatementPool.Record.Basic
/-!
# Collections

The result of a query is a collection of records of one layout, in the order in which they were
appended. A statement appends a blank record and fills it, or takes the last one back.
-/

namespace StatementPool

/-- Records of one layout in order. -/
structure Collection where
  /-- A record of the layout before anything is stored. -/
  blank : Record
  records : List Record

namespace Collection

def empty (blank : Record) : Collection := ⟨blank, []⟩

def size (c : Collection) : Nat := c.records.length

def isEmpty (c : Collection) : Bool := c.records.isEmpty

def append (c : Collection) : Collection := { c with records := c.records ++ [c.blank] }

def push (c : Collection) (r : Record) : Collection := { c with records := c.records ++ [r] }

/-- Discard the last record; answers whether there was one. -/
def removeLast (c : Collection) : Collection × Bool :=
  ({ c with records := c.records.dropLast }, !c.isEmpty)

def front? (c : Collection) : Option Record := c.records.head?

def back? (c : Collection) : Option Record := c.records.getLast?

def modifyFront (c : Collection) (f : Record → Record) : Collection :=
  { c with records := c.records.modify 0 f }

def modifyBack (c : Collection) (f : Record → Record) : Collection :=
  { c with records := c.records.modify (c.size - 1) f }

/-- Change every record, the `n`-th from the end by the `n`-th function, as far as there are
functions. -/
def modifyReverse (c : Collection) (fs : List (Record → Record)) : Collection :=
  let fs' := fs ++ List.replicate (c.size - fs.length) id
  { c with records := (c.records.reverse.zipWith (fun r f => f r) fs').reverse }

def same (c d : Collection) : Bool :=
  c.size == d.size && (c.records.zip d.records).all fun p => p.1.same p.2

end Collection

inductive End where
  | front
  | back

/-- Take records from the ends of a sequence, one for each end named; nothing once none is
left. -/
def takeEnds : List Record → List End → List (Option Record)
  | _, [] => []
  | rs, .front :: ends => rs.head? :: takeEnds rs.tail ends
  | rs, .back :: ends => rs.getLast? :: takeEnds rs.dropLast ends

end StatementPool
