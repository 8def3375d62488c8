import StatementPool.Record.Collection
import StatementPool.Record.Transfer
/-!
# Shared data

What statements work on: tables of rows, gates that hold their callers back, collections for
results and counters. All of it is shared between threads; a collection is locked by the thread
that fills it.
-/

namespace StatementPool

abbrev ThreadId := Nat

abbrev Row := List Value

/-- Holds its callers back until it is opened. -/
structure Gate where
  opened : Bool
  reached : Nat

structure SharedCollection where
  content : Collection
  holder : Option ThreadId

/-- All shared data, each kind by position. -/
structure World where
  tables : List (List Row)
  gates : List Gate
  collections : List SharedCollection
  counters : List Nat

namespace World

/-! ## Tables -/

def table (w : World) (i : Nat) : List Row := w.tables.getD i []

def push (w : World) (i : Nat) (row : Row) : World :=
  { w with tables := w.tables.modify i (· ++ [row]) }

/-! ## Gates -/

/-- Whether a gate lets its callers pass. -/
def isOpen (w : World) (i : Nat) : Bool := (w.gates[i]?.map Gate.opened).getD true

def reach (w : World) (i : Nat) : World :=
  { w with gates := w.gates.modify i fun g => { g with reached := g.reached + 1 } }

/-- Open a gate for good. -/
def openGate (w : World) (i : Nat) : World :=
  { w with gates := w.gates.modify i fun g => { g with opened := true } }

/-! ## Counters -/

def counter (w : World) (i : Nat) : Nat := w.counters.getD i 0

def setCounter (w : World) (i n : Nat) : World := { w with counters := w.counters.set i n }

/-- Publish a value to a counter, if there is both. -/
def publish (w : World) : Option Nat → Option Nat → World
  | some i, some n => w.setCounter i n
  | _, _ => w

/-! ## Collections -/

def content? (w : World) (i : Nat) : Option Collection := w.collections[i]?.map (·.content)

def setContent (w : World) (i : Nat) (c : Collection) : World :=
  { w with collections := w.collections.modify i fun s => { s with content := c } }

/-- Replace what a collection holds, if there is both. -/
def putContent (w : World) : Option Nat → Option Collection → World
  | some i, some c => w.setContent i c
  | _, _ => w

def holder (w : World) (i : Nat) : Option ThreadId := w.collections[i]?.bind (·.holder)

/-- Lock a collection for a thread, or unlock it. -/
def setHolder (w : World) (i : Nat) (t : Option ThreadId) : World :=
  { w with collections := w.collections.modify i fun s => { s with holder := t } }

end World

end StatementPool
