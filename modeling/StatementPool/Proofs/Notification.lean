import StatementPool.Notification
import StatementPool.Proofs.Json.Nesting
/-!
# Notifications survive JSON

A notification is written as an object of its three members, of which the outcome is a variant that carries a null or a
fault, and the fault again is an object. Each level is read back as what was written (`readFault_write`,
`readOutcome_write`), so a notification that is sent elsewhere arrives as itself (`read_as_sent`).
-/

namespace StatementPool.Notification

open Json (TakesText TakesMember)

/-- A fault is read back, whatever characters its text has. -/
theorem readFault_write (fault : QueryFault) : TakesText faultSchema.read (writeFault fault) fault := by
  have text : TakesText (Json.readText "a string" .ok) (Json.writeString fault.message) fault.message :=
    Json.readText_writeString rfl
  have message : TakesMember faultSchema.member none ("message", Json.writeString fault.message) (some fault.message) :=
    .known rfl (text.map some)
  exact Json.Schema.read_isObject (Json.isObject_writeObject _) (.cons message .nil) rfl

/-- An outcome is read back under the name of its variant. -/
theorem readOutcome_write (outcome : Option QueryFault) : TakesText readOutcome (writeOutcome outcome) outcome := by
  cases outcome with
  | none =>
    refine Json.readVariant_isObject (Json.isObject_writeObject _) ?_ (Json.readNull_null.map fun _ => none)
    rfl
  | some fault =>
    refine Json.readVariant_isObject (Json.isObject_writeObject _) ?_ ((readFault_write fault).map some)
    rfl

/-- The members of a notification are taken one after the other. -/
theorem takes_members (n : Notification) :
    Json.TakesMembers member ⟨none, none, none⟩
      [("message_type", Numeral.ofNat n.messageType.toNat), ("query_id", Numeral.ofNat n.queryId.toNat),
        ("outcome", writeOutcome n.outcome)]
      ⟨some n.messageType, some n.queryId, some n.outcome⟩ := by
  have type : TakesMember member ⟨none, none, none⟩ ("message_type", Numeral.ofNat n.messageType.toNat)
      ⟨some n.messageType, none, none⟩ :=
    .known rfl ((Json.readWord32_ofNat n.messageType).map fun type => (⟨some type, none, none⟩ : Draft))
  have id : TakesMember member ⟨some n.messageType, none, none⟩ ("query_id", Numeral.ofNat n.queryId.toNat)
      ⟨some n.messageType, some n.queryId, none⟩ :=
    .known rfl ((Json.readWord64_ofNat n.queryId).map fun id => (⟨some n.messageType, some id, none⟩ : Draft))
  have outcome : TakesMember member ⟨some n.messageType, some n.queryId, none⟩ ("outcome", writeOutcome n.outcome)
      ⟨some n.messageType, some n.queryId, some n.outcome⟩ :=
    .known rfl ((readOutcome_write n.outcome).map fun outcome =>
      (⟨some n.messageType, some n.queryId, some outcome⟩ : Draft))
  exact .cons type (.cons id (.cons outcome .nil))

/-- A notification that is written is read back as itself: it tells success, the same fault text and the same result as
the one that was sent. -/
theorem read_as_sent (n : Notification) :
    ∃ m, parse n.json = .ok m ∧ m = n ∧ m.isSuccess = n.isSuccess ∧ m.payload = n.payload ∧
      m.intoResult = n.intoResult := by
  have read : TakesText schema.read _ n :=
    Json.Schema.read_isObject (Json.isObject_writeObject _) (takes_members n) rfl
  exact ⟨n, Json.parse_written read, rfl, rfl, rfl, rfl⟩

end StatementPool.Notification
