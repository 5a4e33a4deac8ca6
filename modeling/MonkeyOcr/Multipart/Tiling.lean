import MonkeyOcr.Multipart.Upload

namespace MonkeyOcr

namespace Multipart

/-- A loop that appends one entry for each element and stops at an error. -/
theorem mapM_projection {α β ε : Type} {f : α → Except ε β} {read : β → α}
    (reads : ∀ a b, f a = .ok b → read b = a) {list : List α} {out : List β} (run : list.mapM f = .ok out) :
    out.map read = list := by
  induction list generalizing out with
  | nil =>
    rw [List.mapM_nil] at run
    cases run
    rfl
  | cons a rest ih =>
    rw [List.mapM_cons] at run
    cases head : f a with
    | error e => simp [head, bind, Except.bind] at run
    | ok b =>
      cases tail : rest.mapM f with
      | error e => simp [head, tail, bind, Except.bind] at run
      | ok bs =>
        simp only [head, tail, bind, Except.bind, pure, Except.pure, Except.ok.injEq] at run
        subst run
        rw [List.map_cons, reads a b head, ih tail]

theorem validateRef_ok {bucket objectKey : String} (valid : validateRef bucket objectKey = .ok ()) :
    bucket ≠ "" ∧ objectKey ≠ "" := by
  unfold validateRef at valid
  split at valid
  · simp at valid
  · split at valid
    · simp at valid
    · exact ⟨by assumption, by assumption⟩

theorem CreateMultipartRequest.validate_ok {request : CreateMultipartRequest} (valid : request.validate = .ok ()) :
    (request.bucket ≠ "" ∧ request.objectKey ≠ "") ∧ 0 < request.partCount := by
  cases checked : validateRef request.bucket request.objectKey with
  | error e => simp [CreateMultipartRequest.validate, checked, bind, Except.bind] at valid
  | ok _ =>
    refine ⟨validateRef_ok checked, ?_⟩
    by_contra none
    have refused : request.partCount ≤ 0 := by omega
    simp [CreateMultipartRequest.validate, checked, refused, bind, Except.bind, throw, throwThe,
      MonadExceptOf.throw] at valid

/-- An announcement numbers the parts from one without a gap. -/
theorem createMultipartUpload_ok {client : S3Client} {request : CreateMultipartRequest} {upload : MultipartUpload}
    (announced : createMultipartUpload client request = .ok upload) :
    request.validate = .ok () ∧ upload.parts.map (·.partNumber) = List.range' 1 request.partCount := by
  simp only [createMultipartUpload, bind, Except.bind, pure, Except.pure] at announced
  cases valid : request.validate with
  | error e => simp [valid] at announced
  | ok _ =>
    cases created : client.createMultipartUpload request with
    | error e => simp [valid, created] at announced
    | ok uploadId =>
      simp only [valid, created] at announced
      split at announced
      · simp at announced
      · rename_i parts run
        cases announced
        refine ⟨rfl, mapM_projection ?_ run⟩
        intro number part presigned
        cases signed : client.presignUploadPart request uploadId (Int32.ofNat number) with
        | error e => simp [signed] at presigned
        | ok url =>
          simp only [signed, Except.ok.injEq] at presigned
          rw [← presigned]

/-- What the browser gets for a file of at least the threshold. -/
theorem createUploadTarget_ok {storage : ObjectStorageSettings} {client : S3Client} {objectKey contentType : String}
    {sizeBytes : Nat} {sha256 : String} {target : UploadTarget} (large : storage.multipartThresholdBytes ≤ sizeBytes)
    (announced : createUploadTarget storage client objectKey contentType sizeBytes sha256 = .ok target) :
    target.partSizeBytes = some storage.multipartPartSizeBytes ∧ validateRef storage.bucket objectKey = .ok () ∧
      0 < partCount storage sizeBytes ∧
      target.partUrls.map Prod.fst = List.range' 1 (partCount storage sizeBytes) := by
  simp only [createUploadTarget, large, if_true, bind, Except.bind, pure, Except.pure] at announced
  split at announced
  · simp at announced
  · rename_i upload created
    cases announced
    obtain ⟨valid, numbers⟩ := createMultipartUpload_ok created
    obtain ⟨⟨bucket, key⟩, nonempty⟩ := CreateMultipartRequest.validate_ok valid
    refine ⟨rfl, by simp [validateRef, bucket, key], nonempty, ?_⟩
    rw [List.map_map]
    exact numbers

theorem fileSlice_eq (file : List (BitVec 8)) (index width : Nat) :
    fileSlice file (index * width) (min file.length (min file.length (index * width + width))) =
      Slices.slice file width index := by
  have inside : index * width + width - index * width = width := by omega
  rw [← min_assoc, min_self, fileSlice, Slices.slice, ← List.take_take,
    List.take_of_length_le (List.length_take_le' _ _), List.drop_take, inside]

theorem partBounds_fromTarget (configured size index : Nat) {target : UploadTarget} {width : Nat}
    (positive : 0 < width) (sized : target.partSizeBytes = some width) (part : Nat × String) :
    partBounds configured { partNumber := part.1, uploadUrl := part.2 } index (.fromTarget target) size =
      (index * width, min size (min size (index * width + width))) := by
  cases width with
  | zero => omega
  | succ width => simp [partBounds, UploadSession.fromTarget, sized]

/-- The browser slices the file at the multiples of the part size. -/
theorem uploadParts_bodies (configured : Nat) (put : String → List (BitVec 8) → Option String)
    (file : List (BitVec 8)) {target : UploadTarget} {width : Nat} (positive : 0 < width)
    (sized : target.partSizeBytes = some width) :
    (uploadParts configured put file (.fromTarget target)).map (·.body) =
      (List.range target.partUrls.length).map (Slices.slice file width) := by
  apply List.ext_getElem
  · simp [uploadParts, UploadSession.fromTarget]
  · intro index inside _
    simp only [uploadParts, List.getElem_map, List.getElem_mapIdx, List.getElem_range, UploadSession.fromTarget]
    have bounds := partBounds_fromTarget configured file.length index positive sized
    simp only [UploadSession.fromTarget] at bounds
    rw [bounds, fileSlice_eq]

theorem uploadParts_numbers (configured : Nat) (put : String → List (BitVec 8) → Option String)
    (file : List (BitVec 8)) (target : UploadTarget) :
    (uploadParts configured put file (.fromTarget target)).map (·.completed.partNumber) =
      target.partUrls.map Prod.fst := by
  apply List.ext_getElem
  · simp [uploadParts, UploadSession.fromTarget]
  · intro index inside _
    simp [uploadParts, UploadSession.fromTarget]

theorem pairLe_trans (a b c : CompletedPart) (first : pairLe a b) (second : pairLe b c) : pairLe a c := by
  simp only [pairLe, decide_eq_true_eq] at first second ⊢
  rcases first with below | ⟨same, etags⟩
  · left
    rcases second with next | ⟨next, _⟩ <;> omega
  · rcases second with next | ⟨next, more⟩
    · left; omega
    · exact .inr ⟨same.trans next, etags.trans more⟩

theorem pairLe_total (a b : CompletedPart) : (pairLe a b || pairLe b a) = true := by
  simp only [pairLe, Bool.or_eq_true, decide_eq_true_eq]
  rcases Nat.lt_trichotomy a.partNumber b.partNumber with below | same | above
  · exact .inl (.inl below)
  · rcases le_total a.etag b.etag with etags | etags
    · exact .inl (.inr ⟨same, etags⟩)
    · exact .inr (.inr ⟨same.symm, etags⟩)
  · exact .inr (.inl above)

/-- Both sorts restore the order of the numbers, whatever the order of the report. -/
theorem sortSlice_sentParts {parts reported : List CompletedPart} (order : reported.Perm parts)
    (increasing : (parts.map (·.partNumber)).Pairwise (· < ·)) : sortSlice (sentParts reported) = parts := by
  have apart := List.pairwise_map.mp increasing
  have sent : sentParts reported = parts := by
    apply mergeSort_eq_of_perm pairLe_trans pairLe_total _ order
    apply apart.imp
    intro a b below
    simp only [pairLe, decide_eq_true_eq, decide_eq_false_iff_not]
    omega
  rw [sent]
  apply mergeSort_eq_of_perm _ _ _ (List.Perm.refl parts)
  · intro a b c first second
    simp only [decide_eq_true_eq] at first second ⊢
    omega
  · intro a b
    simp only [Bool.or_eq_true, decide_eq_true_eq]
    omega
  · apply apart.imp
    intro a b below
    simp only [decide_eq_true_eq, decide_eq_false_iff_not]
    omega

/-- A report whose parts are `parts` in their order is answered by naming these to S3,
unless it is refused. -/
theorem completeReported_eq (bodyLength : CompleteMultipartRequest → Nat) {bucket objectKey uploadId : String}
    {parts reported : List CompletedPart} (valid : validateRef bucket objectKey = .ok ()) (given : uploadId ≠ "")
    (nonempty : reported.length ≠ 0) (listed : sortSlice (sentParts reported) = parts) :
    completeReported bodyLength bucket objectKey uploadId reported =
      if ¬ ∀ part ∈ reported, part.Valid then .error .invalidArgument
      else if defaultJSONBodyLimit < bodyLength ⟨bucket, objectKey, uploadId, sentParts reported⟩ then
        .error .bodyTooLarge
      else .ok (parts.map fun part => (Int32.ofNat part.partNumber, normalizeETag part.etag)) := by
  have sent : (sentParts reported).length ≠ 0 := by rwa [sentParts, List.length_mergeSort]
  have named : completeMultipartUpload bucket objectKey uploadId reported =
      .ok (parts.map fun part => (Int32.ofNat part.partNumber, normalizeETag part.etag)) := by
    simp [completeMultipartUpload, CompleteMultipartRequest.validate, valid, given, sent, listed, bind, Except.bind,
      pure, Except.pure]
  simp only [completeReported, named]
  rfl

/-- The parts of a multipart upload tile the file: the numbers count up from one,
no slice is empty or larger than the part size, and in the order in which the
completion names the parts to S3, if it is not refused, the slices are the file. -/
theorem multipart_upload_tiles (storage : ObjectStorageSettings) (client : S3Client)
    (bodyLength : CompleteMultipartRequest → Nat) (objectKey contentType sha256 : String) (configured : Nat)
    (put : String → List (BitVec 8) → Option String)
    (file : List (BitVec 8)) {target : UploadTarget} {reported : List CompletedPart}
    (large : storage.multipartThresholdBytes ≤ file.length) (positive : 1 ≤ storage.multipartPartSizeBytes)
    (announced : createUploadTarget storage client objectKey contentType file.length sha256 = .ok target)
    (order : reported.Perm ((uploadParts configured put file (.fromTarget target)).map (·.completed))) :
    let uploads := uploadParts configured put file (.fromTarget target)
    target.partUrls.map Prod.fst = List.range' 1 (Slices.count file.length storage.multipartPartSizeBytes) ∧
      uploads.map (·.completed.partNumber) = target.partUrls.map Prod.fst ∧
      (∀ part ∈ uploads, part.body ≠ [] ∧ part.body.length ≤ storage.multipartPartSizeBytes) ∧
      (∀ uploadId, uploadId ≠ "" →
        completeReported bodyLength storage.bucket objectKey uploadId reported =
          if ¬ ∀ part ∈ uploads, part.completed.Valid then .error .invalidArgument
          else if defaultJSONBodyLimit < bodyLength ⟨storage.bucket, objectKey, uploadId, sentParts reported⟩ then
            .error .bodyTooLarge
          else .ok (uploads.map fun part =>
            (Int32.ofNat part.completed.partNumber, normalizeETag part.completed.etag))) ∧
      (uploads.map (·.body)).flatten = file := by
  intro uploads
  obtain ⟨sized, valid, nonempty, numbers⟩ := createUploadTarget_ok large announced
  have named : uploads.map (·.completed.partNumber) = target.partUrls.map Prod.fst :=
    uploadParts_numbers configured put file target
  have parts : target.partUrls.length = Slices.count file.length storage.multipartPartSizeBytes := by
    have lengths := congrArg List.length numbers
    rwa [List.length_map, List.length_range'] at lengths
  have bodies := uploadParts_bodies configured put file positive sized
  rw [parts] at bodies
  have listed : sortSlice (sentParts reported) = uploads.map (·.completed) := by
    apply sortSlice_sentParts order
    rw [List.map_map]
    change (uploads.map (·.completed.partNumber)).Pairwise (· < ·)
    rw [named, numbers]
    exact List.pairwise_lt_range'
  have count : reported.length = partCount storage file.length := by
    rw [order.length_eq, List.length_map, ← List.length_map (f := (·.completed.partNumber)), named, numbers,
      List.length_range']
  refine ⟨numbers, named, ?_, ?_, ?_⟩
  · intro part member
    have body : part.body ∈ uploads.map (·.body) := List.mem_map_of_mem member
    rw [bodies] at body
    obtain ⟨index, inside, same⟩ := List.mem_map.mp body
    rw [← same]
    exact ⟨Slices.slice_ne_nil positive (List.mem_range.mp inside), Slices.length_slice_le file _ index⟩
  · intro uploadId given
    have checked : (∀ part ∈ reported, part.Valid) ↔ ∀ part ∈ uploads, part.completed.Valid := by
      simp only [order.mem_iff, List.forall_mem_map]
      rfl
    rw [completeReported_eq bodyLength valid given (by omega) listed, List.map_map]
    simp only [checked]
    rfl
  · rw [bodies, ← List.flatMap_def, Slices.flatMap_slice file positive]

/-- A client that signs the number of a part into its address. -/
def numberingClient : S3Client where
  createMultipartUpload _ := .ok "upload"
  presignUploadPart request uploadId number := .ok s!"{request.objectKey}/{uploadId}/{number}"
  presignPutObject _ objectKey _ _ := .ok objectKey

/-- Five bytes in parts of two, reported from the last to the first. -/
theorem multipart_upload_tiles_five_bytes :
    let uploads := uploadParts 8 (fun _ _ => some "\"tag\"") [1, 2, 3, 4, 5] {
      uploadUrl := "", multipartUploadId := some "upload", partSizeBytes := some 2
      parts := [⟨1, "key/upload/1", none, none⟩, ⟨2, "key/upload/2", none, none⟩,
        ⟨3, "key/upload/3", none, none⟩] }
    completeReported (fun _ => 220) "bucket" "key" "upload" (uploads.map (·.completed)).reverse =
        .ok [(1, "\"tag\""), (2, "\"tag\""), (3, "\"tag\"")] ∧
      (uploads.map (·.body)).flatten = [1, 2, 3, 4, 5] := by
  intro uploads
  have announced : createUploadTarget { bucket := "bucket", multipartThresholdBytes := 3, multipartPartSizeBytes := 2 }
      numberingClient "key" "image/png" ([1, 2, 3, 4, 5] : List (BitVec 8)).length "" =
    .ok ⟨"", "PUT", [], some "upload", some 2,
      [(1, "key/upload/1"), (2, "key/upload/2"), (3, "key/upload/3")]⟩ := by rfl
  have tiles := multipart_upload_tiles _ numberingClient (fun _ => 220) "key" "image/png" "" 8
    (fun _ _ => some "\"tag\"") [1, 2, 3, 4, 5] (by decide) (by decide) announced (List.reverse_perm _)
  have completed := tiles.2.2.2.1 "upload" (by decide)
  rw [if_neg (by decide), if_neg (by decide)] at completed
  exact ⟨completed, tiles.2.2.2.2⟩

end Multipart

end MonkeyOcr
