import StatementPool.Error
import StatementPool.Json.Reader
import StatementPool.Json.Writer
import StatementPool.Text.Utf8
/-!
# Notifications

What a pool says about a query that ran: its own message type, the number of the query and the
outcome, which is a fault text if the query failed. A notification is written as JSON to be sent
elsewhere, and reads back as itself.
-/

namespace StatementPool

structure QueryFault where
  message : String
  deriving DecidableEq

/-- The fault of an error is its message. -/
def QueryFault.ofError (e : Error) : QueryFault := ⟨e.message⟩

/-- What a pool says about a query that ran. -/
structure Notification where
  messageType : UInt32
  queryId : UInt64
  /-- The fault, if the query failed. -/
  outcome : Option QueryFault
  deriving DecidableEq

namespace Notification

def isSuccess (n : Notification) : Bool := n.outcome.isNone

/-- Nothing on success, otherwise the code of the fault text. -/
def payload (n : Notification) : List UInt8 :=
  match n.outcome with
  | none => []
  | some fault => Utf8.bytes fault.message

/-- The outcome as a result: the fault of a query that failed. -/
def intoResult (n : Notification) : Except QueryFault Unit :=
  match n.outcome with
  | none => .ok ()
  | some fault => .error fault

def shown (n : Notification) : String :=
  let outcome := match n.outcome with
    | none => "Ok(())"
    | some fault => "Err(QueryFault \x7b message: " ++ Quoted.text fault.message ++ " \x7d)"
  "Notification \x7b message_type: " ++ Numeral.text n.messageType.toNat ++ ", query_id: " ++
    Numeral.text n.queryId.toNat ++ ", outcome: " ++ outcome ++ " \x7d"

/-! ## JSON -/

def writeFault (fault : QueryFault) : List Char :=
  Json.writeObject [("message", Json.writeString fault.message)]

def writeOutcome : Option QueryFault → List Char
  | none => Json.writeObject [("Ok", "null".toList)]
  | some fault => Json.writeObject [("Err", writeFault fault)]

def json (n : Notification) : String :=
  String.ofList (Json.writeObject
    [("message_type", Numeral.ofNat n.messageType.toNat), ("query_id", Numeral.ofNat n.queryId.toNat),
      ("outcome", writeOutcome n.outcome)])

def faultSchema : Json.Schema (Option String) QueryFault where
  expected := "struct QueryFault"
  start := none
  member m name :=
    if name = "message" then
      if m.isSome then .duplicate
      else .known fun cs => (Json.readText "a string" .ok cs).map fun (s, rest) => (some s, rest)
    else .unknown
  finish
    | some m => .ok ⟨m⟩
    | none => .error (.missingField "message")
  elements cs :=
    match Json.readElement (Json.readText "a string" .ok) true cs with
    | .error f => .error f
    | .ok (some m, rest) => .ok (⟨m⟩, rest)
    | .ok (none, rest) =>
      .error (.unplaced (.wrongLength 0 "struct QueryFault with 1 element") rest)

def readOutcome : Json.Reader (Option QueryFault) :=
  Json.readVariant "`Ok` or `Err`"
    [("Ok", .carrying fun cs => (Json.readNull cs).map fun (_, rest) => (none, rest)),
      ("Err", .carrying fun cs => (faultSchema.read cs).map fun (f, rest) => (some f, rest))]

structure Draft where
  messageType : Option UInt32
  queryId : Option UInt64
  outcome : Option (Option QueryFault)

def member (d : Draft) (name : String) : Json.Member Draft :=
  if name = "message_type" then
    if d.messageType.isSome then .duplicate
    else .known fun cs =>
      (Json.readWord32 cs).map fun (n, rest) => ({ d with messageType := some n }, rest)
  else if name = "query_id" then
    if d.queryId.isSome then .duplicate
    else .known fun cs => (Json.readWord64 "u64" cs).map fun (n, rest) => ({ d with queryId := some n }, rest)
  else if name = "outcome" then
    if d.outcome.isSome then .duplicate
    else .known fun cs => (readOutcome cs).map fun (o, rest) => ({ d with outcome := some o }, rest)
  else .unknown

/-- The notification of a draft that has every member. -/
def Draft.notification (d : Draft) : Except Json.Cause Notification :=
  match d with
  | ⟨none, _, _⟩ => .error (.missingField "message_type")
  | ⟨_, none, _⟩ => .error (.missingField "query_id")
  | ⟨_, _, none⟩ => .error (.missingField "outcome")
  | ⟨some type, some id, some outcome⟩ => .ok ⟨type, id, outcome⟩

/-- Read one value of a notification in its order; `index` values came before it. -/
def readMember {α : Type} (r : Json.Reader α) (index : Nat) : Json.Reader α := fun cs =>
  match Json.readElement r (index == 0) cs with
  | .error f => .error f
  | .ok (some a, rest) => .ok (a, rest)
  | .ok (none, rest) =>
    .error (.unplaced (.wrongLength index "struct Notification with 3 elements") rest)

def readElements (cs : List Char) : Except Json.Fault (Notification × List Char) := do
  let (type, cs) ← readMember Json.readWord32 0 cs
  let (id, cs) ← readMember (Json.readWord64 "u64") 1 cs
  let (outcome, cs) ← readMember readOutcome 2 cs
  pure (⟨type, id, outcome⟩, cs)

def schema : Json.Schema Draft Notification where
  expected := "struct Notification"
  start := ⟨none, none, none⟩
  member := member
  finish := Draft.notification
  elements := readElements

def parse (s : String) : Except String Notification := Json.parse schema.read s

end Notification

end StatementPool
