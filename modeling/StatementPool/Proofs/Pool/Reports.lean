import StatementPool.Proofs.Pool.Delivery
import StatementPool.Proofs.Text.Utf8
/-!
# What a notification tells

The notification of a query reports the outcome of its statement (`Notification.Reports`): it is one of success or
carries the text of the failure. With the message type of the pool and the number of the query that is all there is to
it (`Notification.IsReport`). Whoever looks at the payload alone can tell a failure from a success unless the text is
empty. `Reachable.payload_tells` says when it is: every error has a label in front of its text, and so has a panic, but
the text of a driver stands alone. `silent_failure` is a run in which a failure looks like a success.
-/

namespace StatementPool

/-! ## Texts of failures -/

/-- The text of an outcome other than success. -/
inductive Outcome.HasText : Outcome → String → Prop where
  | failed (e : Error) : HasText (.failed e) e.message
  | panicked (text : String) : HasText (.panicked (some text)) ("statement panicked: " ++ text)
  /-- What the statement gave up with was no text. -/
  | unknown : HasText (.panicked none) "statement panicked: unknown panic payload"

/-- Only the label of a driver's error is empty. -/
theorem Error.message_eq_empty {e : Error} : e.message = "" ↔ e = .driver "" := by
  unfold message
  rw [String.append_eq_empty_iff]
  cases e with
  | driver text => exact ⟨fun h => congrArg driver h.2, fun h => ⟨rfl, driver.inj h⟩⟩
  | _ => simp [label]

theorem Outcome.HasText.eq_empty {x : Outcome} {text : String} (h : x.HasText text) :
    text = "" ↔ x = .failed (.driver "") := by
  cases h with
  | failed e => exact Error.message_eq_empty.trans ⟨congrArg Outcome.failed, Outcome.failed.inj⟩
  | panicked text => simp
  | unknown => simp

/-- Only the empty text has no bytes. -/
theorem Utf8.bytes_eq_nil {s : String} : Utf8.bytes s = [] ↔ s = "" := by
  constructor
  · intro h
    rw [← lossy_bytes s, h]
    simp [lossy, scan]
  · rintro rfl
    rfl

/-! ## Notifications -/

namespace Notification

/-- The notification reports the outcome: it is one of success, without a payload, or its payload is the text of the
failure. -/
structure Reports (n : Notification) (x : Outcome) : Prop where
  success : n.isSuccess = true ↔ x = .done
  silent : n.isSuccess = true → n.payload = []
  text : n.isSuccess = false → ∃ text, x.HasText text ∧ n.payload = Utf8.bytes text

variable {n : Notification} {x : Outcome}

theorem reports_reportOf (m : UInt32) (i : Nat) (x : Outcome) : (reportOf m i x).Reports x := by
  cases x with
  | done => exact ⟨iff_of_true rfl rfl, fun _ => rfl, nofun⟩
  | failed e => exact ⟨iff_of_false nofun nofun, nofun, fun _ => ⟨_, .failed e, rfl⟩⟩
  | panicked message =>
    refine ⟨iff_of_false nofun nofun, nofun, fun _ => ?_⟩
    cases message with
    | none => exact ⟨_, .unknown, rfl⟩
    | some text => exact ⟨_, .panicked text, rfl⟩

/-- The one notification of a query that ended in a certain way. -/
inductive IsReport (m : UInt32) (q : Query) : Notification → Outcome → Prop where
  | success : IsReport m q ⟨m, q.id, none⟩ .done
  | failure {x text} (h : x.HasText text) : IsReport m q ⟨m, q.id, some ⟨text⟩⟩ x

theorem isReport_reportOf (m : UInt32) (q : Query) (x : Outcome) : IsReport m q (reportOf m q.serial x) x := by
  cases x with
  | done => exact .success
  | failed e => exact .failure (.failed e)
  | panicked message =>
    cases message with
    | none => exact .failure .unknown
    | some text => exact .failure (.panicked text)

/-- The payload tells a failure from a success unless the failure has no text. -/
theorem Reports.tells (h : n.Reports x) : (n.payload = [] ↔ n.isSuccess = true) ↔ x ≠ .failed (.driver "") := by
  cases hs : n.isSuccess with
  | true =>
    have done := h.success.1 hs
    have silent := h.silent hs
    exact iff_of_true (iff_of_true silent rfl) (by simp [done])
  | false =>
    obtain ⟨text, htext, hpayload⟩ := h.text hs
    rw [hpayload, Utf8.bytes_eq_nil, htext.eq_empty]
    simp

end Notification

/-- Notifications that report, in order, how queries ended. -/
inductive Reported (m : UInt32) : List Query → List Outcome → List Notification → Prop where
  | nil : Reported m [] [] []
  | cons {q x n qs os ns} (head : Notification.IsReport m q n x) (tail : Reported m qs os ns) :
    Reported m (q :: qs) (x :: os) (n :: ns)

/-! ## In a pool -/

variable {o : Options} {w : World} {scripts : List (List Action)} {s : Pool}

/-- A notification is that of the one outcome that its query had. -/
theorem Reachable.outcome_of_notified (h : Reachable o w scripts s) {i : Nat} {n : Notification}
    (hn : .notified i n ∈ s.log) :
    ∃ x, .executed i x ∈ s.log ∧ (∀ y, .executed i y ∈ s.log → y = x) ∧ n = reportOf o.messageType i x := by
  have mem : ∀ y, .executed i y ∈ s.history i ↔ .executed i y ∈ s.log := fun y =>
    Pool.mem_history (by exact beq_self_eq_true i)
  have hn : .notified i n ∈ s.history i := (Pool.mem_history (by exact beq_self_eq_true i)).2 hn
  obtain ⟨-, z, -, hc⟩ := h.course (List.ne_nil_of_mem hn)
  rw [h.options] at hc
  simp only [← mem]
  generalize s.history i = es at hn hc
  cases hc with
  | reporting t x => exact ⟨x, by simp, by simp, by simpa using hn⟩
  | finished t x answers => exact ⟨x, by simp, by simp, by simpa using hn⟩
  | _ => simp at hn

/-- A notification reports the one outcome that its query had, and its payload is empty exactly on success, unless the
statement failed with the error of a driver that has no text. -/
theorem Reachable.payload_tells (h : Reachable o w scripts s) {i : Nat} {n : Notification}
    (hn : .notified i n ∈ s.log) :
    ∃ x, .executed i x ∈ s.log ∧ (∀ y, .executed i y ∈ s.log → y = x) ∧ n.Reports x ∧
      ((n.payload = [] ↔ n.isSuccess = true) ↔ x ≠ .failed (.driver "")) := by
  obtain ⟨x, hx, unique, rfl⟩ := h.outcome_of_notified hn
  have reports := Notification.reports_reportOf o.messageType i x
  exact ⟨x, hx, unique, reports, reports.tells⟩

/-- A query whose statement fails with an error of its driver, for one worker. -/
def driverFails (text : String) : List (List Action) :=
  [[.start, .submit (.planned ⟨0, 0, none, none, .failure (.driver text)⟩) .empty [] [] false]]

/-- The worker takes the query, executes it and calls its callback. -/
def driverFailsRun : List Label := stepsOf 0 5 ++ stepsOf 1 2 ++ stepsOf 0 4 ++ stepsOf 1 12

/-- What the log says then. -/
def driverFailsLog (text : String) : List Event :=
  [.submitted 0, .taken 0 1, .executed 0 (.failed (.driver text)), .notified 0 (reportOf 1 0 (.failed (.driver text)))]

/-- A driver that says what is wrong. -/
theorem payload_tells_of_busy_driver :
    ∃ s n x, (Pool.initial .standard ⟨[], [], [], []⟩ (driverFails "busy")).run driverFailsRun = some s ∧
      .notified 0 n ∈ s.log ∧ .executed 0 x ∈ s.log ∧ n.Reports x ∧ n.isSuccess = false ∧
      n.payload = [98, 117, 115, 121] ∧ ((n.payload = [] ↔ n.isSuccess = true) ↔ x ≠ .failed (.driver "")) := by
  obtain ⟨s, hs, hlog⟩ :
      ∃ s, (Pool.initial .standard ⟨[], [], [], []⟩ (driverFails "busy")).run driverFailsRun = some s ∧
        s.log = driverFailsLog "busy" := ⟨_, rfl, rfl⟩
  have hn : .notified 0 (reportOf 1 0 (.failed (.driver "busy"))) ∈ s.log := by simp [hlog, driverFailsLog]
  obtain ⟨x, hx, -, reports, tells⟩ := (Reachable.initial.run hs).payload_tells hn
  exact ⟨s, _, x, hs, hn, hx, reports, rfl, by decide, tells⟩

/-- A driver's error without a text: the payload of the failure is empty, as on success. -/
theorem silent_failure :
    ∃ s n, (Pool.initial .standard ⟨[], [], [], []⟩ (driverFails "")).run driverFailsRun = some s ∧
      .executed 0 (.failed (.driver "")) ∈ s.log ∧ .notified 0 n ∈ s.log ∧ n.isSuccess = false ∧ n.payload = [] := by
  obtain ⟨s, hs, hlog⟩ : ∃ s, (Pool.initial .standard ⟨[], [], [], []⟩ (driverFails "")).run driverFailsRun = some s ∧
      s.log = driverFailsLog "" := ⟨_, rfl, rfl⟩
  exact ⟨s, reportOf 1 0 (.failed (.driver "")), hs, by simp [hlog, driverFailsLog], by simp [hlog, driverFailsLog],
    rfl, by decide⟩

end StatementPool
