import MonkeyOcr.Lifecycle.Invariant

namespace MonkeyOcr

open Codec (Json)

theorem parseId_textOf (id : Id) : parseId (.str (textOf id)) = .ok id := by
  have digits : (textOf id).toList = Nat.toDigits 10 id := by
    simp [textOf]
  have all : (Nat.toDigits 10 id).all Char.isDigit = true :=
    List.all_eq_true.mpr fun _ member => Nat.isDigit_of_mem_toDigits (by decide) (by decide) member
  simp [parseId, Json.pyStr, digits, all, Nat.toDigits_ne_nil, Nat.ofDigitChars_ten_toDigits]

theorem parseNat_nat (n : Nat) : parseNat (.nat n) = .ok n := rfl

/-- What `publish` encodes, `decode_job_message` gives back. -/
theorem decode_encode (message : JobWorkMessage) :
    decodeJobMessage (KafkaJobPublisher.encode message) = .ok message := by
  have id := parseId_textOf message.jobId
  change messageOf [("schema_version", .nat message.schemaVersion), ("job_id", .str (textOf message.jobId)),
    ("attempt", .nat message.attempt), ("request_id", .str message.requestId)] = _
  simp [messageOf, member, Json.get?, id, parseNat_nat, Json.pyStr, bind, Except.bind, pure, Except.pure]

/-- The message of an outbox event is for the attempt of its job. -/
theorem messageOf_requested (id : Id) (job : Job) (requestId : String) (now : Time) :
    messageOf (OCRApplicationService.requested id job requestId now).payload =
      .ok ⟨job.id, job.attempt, requestId, 1⟩ := by
  exact decode_encode ⟨job.id, job.attempt, requestId, 1⟩

/-- The row asks for the attempt of the job. -/
def OutboxRow.requests (row : OutboxRow) (id : Id) (attempt : Nat) : Bool :=
  match messageOf row.event.payload with
  | .ok message => message.jobId = id ∧ message.attempt = attempt
  | .error _ => false

end MonkeyOcr
