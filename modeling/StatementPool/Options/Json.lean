import StatementPool.Json.Reader
import StatementPool.Json.Writer
import StatementPool.Options.Basic
/-!
# Options in JSON texts

Options are an object of up to three members in any order; a member that is missing has its
standard value and other members mean nothing. The list of the three values is read as well.
-/

namespace StatementPool

namespace Options

structure Draft where
  maxThreads : Option UInt64
  messageType : Option UInt32
  threadName : Option String

def Draft.empty : Draft := ⟨none, none, none⟩

def Draft.options (d : Draft) : Options :=
  ⟨d.maxThreads.getD standard.maxThreads, d.messageType.getD standard.messageType,
    d.threadName.getD standard.threadName⟩

def readThreads : Json.Reader UInt64 := Json.readWord64 "usize"

def readMessageType : Json.Reader UInt32 := Json.readWord32

def readName : Json.Reader String := Json.readText "a string" .ok

def member (d : Draft) (name : String) : Json.Member Draft :=
  if name = "max_threads" then
    if d.maxThreads.isSome then .duplicate
    else .known fun cs => (readThreads cs).map fun (n, rest) => ({ d with maxThreads := some n }, rest)
  else if name = "message_type" then
    if d.messageType.isSome then .duplicate
    else .known fun cs =>
      (readMessageType cs).map fun (n, rest) => ({ d with messageType := some n }, rest)
  else if name = "thread_name" then
    if d.threadName.isSome then .duplicate
    else .known fun cs => (readName cs).map fun (s, rest) => ({ d with threadName := some s }, rest)
  else .unknown

/-- Read the values of options in their order, as far as there are any. -/
def readElements (cs : List Char) : Except Json.Fault (Options × List Char) := do
  let (threads, cs) ← Json.readElement readThreads true cs
  let (type, cs) ← Json.readElement readMessageType threads.isNone cs
  let (name, cs) ← Json.readElement readName type.isNone cs
  pure ((Draft.mk threads type name).options, cs)

def schema : Json.Schema Draft Options where
  expected := "struct EngineOptions"
  start := .empty
  member := member
  finish d := .ok d.options
  elements := readElements

def parse (s : String) : Except Error Options :=
  match Json.parse schema.read s with
  | .error text => .error (.config (.malformed text))
  | .ok o => do
    o.validate
    pure o

def json (o : Options) : String :=
  String.ofList (Json.writeObject
    [("max_threads", Numeral.ofNat o.maxThreads.toNat), ("message_type", Numeral.ofNat o.messageType.toNat),
      ("thread_name", Json.writeString o.threadName)])

end Options

end StatementPool
