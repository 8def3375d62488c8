import StatementPool.Pool.Basic
/-!
# Futures

The future of a query completes when the query is through: with the notification that its
callback was called with, or with a failure when the callback was dropped instead.
-/

namespace StatementPool

/-- What an event says about the future of a query. -/
def Event.completion? (serial : Nat) : Event → Option (Except Error Notification)
  | .notified k n => if k = serial then some (.ok n) else none
  | .dropped k _ => if k = serial then some (.error (.lifecycle .discarded)) else none
  | _ => none

/-- What the future of a query completed with, if it has. -/
def Pool.future? (s : Pool) (serial : Nat) : Option (Except Error Notification) :=
  s.log.findSome? (Event.completion? serial)

end StatementPool
