import MonkeyOcr.Application.Uploads
import MonkeyOcr.Calls.Alone
import MonkeyOcr.Infrastructure.Execution
import MonkeyOcr.Multipart.Upload

namespace MonkeyOcr

open Calls

namespace Multipart

/-- What S3 answers to a completion it refuses. `code` is the `Error.Code`. -/
inductive S3Error where
  | noSuchUpload
  | code (code : String)
  deriving DecidableEq

/-- The parts of an upload at the store: what completing it with these of them makes. -/
abbrev Assembly := List (Int × String) → Except S3Error StoredContent

/-- The deployment, with the multipart uploads that are open at its object store. -/
structure StoreWorld where
  base : World
  uploads : ObjectKey → String → Option Assembly

/-- `CompleteMultipartUpload` of S3. A completed upload is no upload any more. -/
def StoreWorld.completeMultipartUpload (w : StoreWorld) (key : ObjectKey) (uploadId : String)
    (parts : List (Int × String)) : Except S3Error Unit × StoreWorld :=
  match w.uploads key uploadId with
  | none => (.error .noSuchUpload, w)
  | some assembly =>
    match assembly parts with
    | .error e => (.error e, w)
    | .ok object =>
      (.ok (), {
        base := w.base.setObject key (some object)
        uploads := Function.update w.uploads key (Function.update (w.uploads key) uploadId none) })

/-- The order of the pairs of number and tag. -/
def sortedParts (parts : List (Nat × String)) : List CompletedPart :=
  sentParts (parts.map fun (partNumber, etag) => { partNumber, etag })

/-- `S3ObjectStorage.complete_upload` -/
def s3CompleteUpload (w : StoreWorld) (key : ObjectKey) (uploadId : String) (parts : List (Nat × String)) :
    Except Exc Unit × StoreWorld :=
  if parts = [] then (.error (.valueError "multipart completion requires parts"), w)
  else
    let (answer, w) := w.completeMultipartUpload key uploadId
      ((sortedParts parts).map fun part => (part.partNumber, part.etag))
    (answer.mapError fun _ => .other "ClientError", w)

/-- The business error a response of the storage service carries, or none. -/
abbrev ServiceResponse := Option (Nat × String)

/-- `writeServiceError`, for an error of the validation or of the repository. -/
def writeServiceError : StorageServiceError ⊕ S3Error → ServiceResponse
  | .inl (.client _) | .inr _ => some (50003, "storage_unavailable")
  | .inl _ => some (10001, "invalid_storage_argument")

/-- `HandleCompleteMultipart` -/
def handleCompleteMultipart (bucket : String) (w : StoreWorld) (key : ObjectKey) (uploadId : String)
    (parts : List (Nat × String)) : ServiceResponse × StoreWorld :=
  match completeMultipartUpload bucket key.text uploadId (parts.map fun (partNumber, etag) => { partNumber, etag }) with
  | .error e => (writeServiceError (.inl e), w)
  | .ok named =>
    match w.completeMultipartUpload key uploadId (named.map fun (partNumber, etag) => (partNumber.toInt, etag)) with
    | (.error e, w) => (writeServiceError (.inr e), w)
    | (.ok (), w) => (none, w)

/-- `_unwrap` -/
def unwrap : ServiceResponse → Except Exc Unit
  | none => .ok ()
  | some (internalCode, reason) =>
    if internalCode = 10002 ∨ reason ∈ ["object_not_found", "resource_not_found", "storage_object_not_found"] then
      .error .fileNotFound
    else .error (.other "RuntimeError")

/-- `StorageServiceObjectStorage.complete_upload` -/
def serviceCompleteUpload (bucket : String) (w : StoreWorld) (key : ObjectKey) (uploadId : String)
    (parts : List (Nat × String)) : Except Exc Unit × StoreWorld :=
  let (response, w) := handleCompleteMultipart bucket w key uploadId parts
  (unwrap response, w)

/-- `complete_upload` of the adapter. -/
def adapterCompleteUpload (storage : StorageAdapter) (bucket : String) (w : StoreWorld) (key : ObjectKey)
    (uploadId : Option String) (parts : List (Nat × String)) : Except Exc Unit × StoreWorld :=
  match uploadId with
  | none => (.ok (), w)
  | some uploadId =>
    match storage with
    | .s3 => s3CompleteUpload w key uploadId parts
    | .storageService => serviceCompleteUpload bucket w key uploadId parts

/-- The parts the adapter names to S3, when its side takes them. -/
def namedParts (storage : StorageAdapter) (bucket : String) (key : ObjectKey) (uploadId : String)
    (parts : List (Nat × String)) : Option (List (Int × String)) :=
  match storage with
  | .s3 => if parts = [] then none else some ((sortedParts parts).map fun part => (part.partNumber, part.etag))
  | .storageService =>
    match completeMultipartUpload bucket key.text uploadId
        (parts.map fun (partNumber, etag) => { partNumber, etag }) with
    | .error _ => none
    | .ok named => some (named.map fun (partNumber, etag) => (partNumber.toInt, etag))

/-- What the adapter raises for an error of S3. -/
def raisedFor : StorageAdapter → Exc
  | .s3 => .other "ClientError"
  | .storageService => .other "RuntimeError"

section

variable {storage : StorageAdapter} {bucket : String} {w : StoreWorld} {key : ObjectKey} {uploadId : String}
  {parts : List (Nat × String)}

theorem adapterCompleteUpload_named {named : List (Int × String)}
    (names : namedParts storage bucket key uploadId parts = some named) :
    adapterCompleteUpload storage bucket w key (some uploadId) parts =
      ((w.completeMultipartUpload key uploadId named).1.mapError fun _ => raisedFor storage,
        (w.completeMultipartUpload key uploadId named).2) := by
  unfold namedParts at names
  cases storage with
  | s3 =>
    by_cases empty : parts = []
    · rw [if_pos empty] at names
      cases names
    · rw [if_neg empty] at names
      cases names
      simp only [adapterCompleteUpload, s3CompleteUpload, if_neg empty]
      rfl
  | storageService =>
    simp only [adapterCompleteUpload, serviceCompleteUpload, handleCompleteMultipart]
    cases checked : completeMultipartUpload bucket key.text uploadId
        (parts.map fun (partNumber, etag) => { partNumber, etag }) with
    | error e =>
      rw [checked] at names
      cases names
    | ok sent =>
      rw [checked] at names
      cases names
      dsimp only
      generalize w.completeMultipartUpload key uploadId _ = answer
      obtain ⟨answer, w'⟩ := answer
      cases answer with
      | error e =>
        simp only [writeServiceError, unwrap, Except.mapError, raisedFor]
        rw [if_neg (by simp)]
      | ok done => rfl

/-- Parts that the adapter or the service refuses do not reach S3. -/
theorem adapterCompleteUpload_refused (refused : namedParts storage bucket key uploadId parts = none) :
    ∃ e, adapterCompleteUpload storage bucket w key (some uploadId) parts = (.error e, w) ∧
      (e.isOther = true ∨ storage = .s3 ∧ parts = [] ∧ e = .valueError "multipart completion requires parts") := by
  unfold namedParts at refused
  cases storage with
  | s3 =>
    by_cases empty : parts = []
    · refine ⟨.valueError "multipart completion requires parts", ?_, .inr ⟨rfl, empty, rfl⟩⟩
      simp only [adapterCompleteUpload, s3CompleteUpload, if_pos empty]
    · rw [if_neg empty] at refused
      cases refused
  | storageService =>
    simp only [adapterCompleteUpload, serviceCompleteUpload, handleCompleteMultipart]
    cases checked : completeMultipartUpload bucket key.text uploadId
        (parts.map fun (partNumber, etag) => { partNumber, etag }) with
    | error e =>
      refine ⟨.other "RuntimeError", ?_, .inl rfl⟩
      cases e <;> simp [writeServiceError, unwrap]
    | ok sent =>
      rw [checked] at refused
      cases refused

/-- All that a completion at the store does. -/
theorem StoreWorld.completeMultipartUpload_cases (w : StoreWorld) (key : ObjectKey) (uploadId : String)
    (named : List (Int × String)) :
    (∃ e, w.completeMultipartUpload key uploadId named = (.error e, w)) ∨
      ∃ assembly object, w.uploads key uploadId = some assembly ∧ assembly named = .ok object ∧
        w.completeMultipartUpload key uploadId named = (.ok (), {
          base := w.base.setObject key (some object)
          uploads := Function.update w.uploads key (Function.update (w.uploads key) uploadId none) }) := by
  unfold completeMultipartUpload
  cases found : w.uploads key uploadId with
  | none => exact .inl ⟨_, rfl⟩
  | some assembly =>
    cases assembled : assembly named with
    | error e => exact .inl ⟨e, by simp only [assembled]⟩
    | ok object => exact .inr ⟨assembly, object, rfl, assembled, by simp only [assembled]⟩

end

namespace StoreWorld

variable (settings : Settings) (bucket : String) (consumer : Nat)

/-- One call that does not fail, with the completions of the store in them. -/
def perform (w : StoreWorld) : (op : Op) → Answer → Option (Except Exc op.Val × StoreWorld)
  | .completeUpload key uploadId parts, _ =>
    some (adapterCompleteUpload settings.storage bucket w key uploadId parts)
  | op, answer => (w.base.perform settings consumer op answer).map fun (r, base) => (r, { w with base })

/-- The same, when it may fail. -/
def exec (op : Op) (choice : Choice) (w : StoreWorld) : Option (Except Exc op.Val × StoreWorld) :=
  match choice.failure with
  | .none => w.perform settings bucket consumer op choice.answer
  | .before e => if op.mayRaise e then some (.error e, w) else none
  | .after e =>
    if op.mayRaise e ∧ op.failsLate then
      (w.perform settings bucket consumer op choice.answer).map fun (_, w) => (.error e, w)
    else none

variable {settings : Settings} {bucket : String} {consumer : Nat} {w w' : StoreWorld} {op : Op}
  {choice : Choice} {answer : Answer} {r : Except Exc op.Val}

theorem exec_cases (executed : w.exec settings bucket consumer op choice = some (r, w')) :
    (∃ e, r = .error e ∧ w' = w) ∨
      ∃ r₀, w.perform settings bucket consumer op choice.answer = some (r₀, w') ∧ (r = r₀ ∨ ∃ e, r = .error e) := by
  unfold exec at executed
  split at executed
  · exact .inr ⟨r, executed, .inl rfl⟩
  · split at executed
    · cases executed
      exact .inl ⟨_, rfl, rfl⟩
    · cases executed
  · split at executed
    · obtain ⟨⟨r₀, w₀⟩, performed, same⟩ := Option.map_eq_some_iff.mp executed
      cases same
      exact .inr ⟨r₀, performed, .inr ⟨_, rfl⟩⟩
    · cases executed

/-- Every other call is one on the deployment. -/
theorem perform_base (other : ∀ key uploadId parts, op ≠ .completeUpload key uploadId parts) :
    w.perform settings bucket consumer op answer =
      (w.base.perform settings consumer op answer).map fun (r, base) => (r, { w with base }) := by
  cases op with
  | completeUpload key uploadId parts => exact absurd rfl (other key uploadId parts)
  | _ => rfl

/-- What the adapter does is what the deployment allows a completion to do. -/
theorem perform_completeUpload (consumer : Nat) {key : ObjectKey} {uploadId : Option String}
    {parts : List (Nat × String)} {r : Except Exc Unit}
    (performed : adapterCompleteUpload settings.storage bucket w key uploadId parts = (r, w')) :
    (∃ e, r = .error e ∧ e.isOther = true ∧ w' = w) ∨
      ∃ answer, w.base.perform settings consumer (.completeUpload key uploadId parts) answer = some (r, w'.base) := by
  cases uploadId with
  | none =>
    cases performed
    exact .inr ⟨.none, rfl⟩
  | some uploadId =>
    cases names : namedParts settings.storage bucket key uploadId parts with
    | none =>
      obtain ⟨e, refused, kind⟩ := adapterCompleteUpload_refused (w := w) names
      rw [refused] at performed
      cases performed
      rcases kind with other | ⟨storage, empty, rfl⟩
      · exact .inl ⟨e, rfl, other, rfl⟩
      · refine .inr ⟨.assembled ⟨.raw [], "", none⟩, ?_⟩
        simp only [World.perform, if_pos (And.intro storage empty)]
    | some named =>
      rw [adapterCompleteUpload_named names] at performed
      rcases w.completeMultipartUpload_cases key uploadId named with
        ⟨e, refused⟩ | ⟨assembly, object, -, -, completed⟩
      · rw [refused] at performed
        cases performed
        refine .inl ⟨_, rfl, ?_, rfl⟩
        cases settings.storage <;> rfl
      · rw [completed] at performed
        cases performed
        refine .inr ⟨.assembled object, ?_⟩
        have taken : ¬ (settings.storage = .s3 ∧ parts = []) := by
          intro refused
          rw [refused.1, refused.2] at names
          cases names
        simp only [World.perform, if_neg taken]
        rfl

/-- The store refines the deployment: each of its steps is one of those. -/
theorem exec_refines (executed : w.exec settings bucket consumer op choice = some (r, w')) :
    ∃ choice, w.base.exec settings consumer op choice = some (r, w'.base) := by
  obtain ⟨answer, failure⟩ := choice
  by_cases other : ∀ key uploadId parts, op ≠ .completeUpload key uploadId parts
  · refine ⟨⟨answer, failure⟩, ?_⟩
    simp only [exec, perform_base other] at executed
    simp only [World.exec]
    cases failure with
    | none =>
      obtain ⟨⟨r₀, base⟩, performed, same⟩ := Option.map_eq_some_iff.mp executed
      cases same
      exact performed
    | before e =>
      dsimp only at executed ⊢
      split at executed
      · cases executed
        rename_i raises
        rw [if_pos raises]
      · cases executed
    | after e =>
      dsimp only at executed ⊢
      split at executed
      · rename_i raises
        obtain ⟨⟨r₀, moved⟩, mapped, same⟩ := Option.map_eq_some_iff.mp executed
        obtain ⟨⟨r₁, base⟩, performed, inner⟩ := Option.map_eq_some_iff.mp mapped
        cases same
        cases inner
        rw [if_pos raises, performed]
        rfl
      · cases executed
  · simp only [not_forall, not_not] at other
    obtain ⟨key, uploadId, parts, rfl⟩ := other
    cases failure with
    | none =>
      rcases perform_completeUpload consumer (Option.some.inj executed) with ⟨e, rfl, raises, rfl⟩ | ⟨answer, performed⟩
      · refine ⟨⟨answer, .before e⟩, ?_⟩
        simp [World.exec, Op.mayRaise, raises]
      · exact ⟨⟨answer, .none⟩, performed⟩
    | before e =>
      refine ⟨⟨answer, .before e⟩, ?_⟩
      simp only [exec] at executed
      split at executed
      · cases executed
        rename_i raises
        simp only [World.exec, if_pos raises]
      · cases executed
    | after e =>
      simp only [exec] at executed
      split at executed
      · rename_i raises
        obtain ⟨⟨r₀, moved⟩, performed, same⟩ := Option.map_eq_some_iff.mp executed
        cases same
        rcases perform_completeUpload consumer (Option.some.inj performed) with ⟨_, -, -, rfl⟩ | ⟨answer, performed⟩
        · refine ⟨⟨answer, .before e⟩, ?_⟩
          simp only [World.exec, if_pos raises.1]
        · refine ⟨⟨answer, .after e⟩, ?_⟩
          simp only [World.exec, if_pos raises, performed]
          rfl
      · cases executed

end StoreWorld

/-- One call of `complete_upload`. -/
structure CompleteUpload where
  uploadId : Id
  ownerId : Id
  providedSha256 : Option String
  multipartUploadId : Option String
  parts : List (Nat × String)

/-- Any number of calls of `complete_upload`. Each may be stopped wherever it awaits. -/
def completions (settings : Settings) (bucket : String) :
    Machine Sig StoreWorld CompleteUpload Choice Empty Exc CompleteUploadDTO where
  program call := OCRApplicationService.completeUpload call.uploadId call.ownerId call.providedSha256
    call.multipartUploadId call.parts
  exec i op choice w := w.exec settings bucket i op choice
  env event _ := nomatch event

end Multipart

end MonkeyOcr
