import MonkeyOcr.Sequential.Pages

namespace MonkeyOcr.Course

open Calls OCRWorker
open Codec (Json)

variable {settings : Settings} {s s' : Course} {m : JobWorkMessage} {job v : Job} {α : Type}
  {Q : α → Course → Prop} {E : Exc → Course → Prop}

/-! ### Assembling -/

theorem pageTexts_spec {page : Page} :
    Follows settings m (pageTexts page) (fun _ s' => s' = s) (fun _ _ => True) s := by
  unfold pageTexts
  split
  · rfl
  · trivial

theorem loadPageResult_spec {page : Page} (at_m : s.message = some m) :
    Follows settings m (loadPageResult page) (fun result s' => s.Keeps s' ∧ s'.Loaded page result)
      (fun _ _ => True) s := by
  unfold loadPageResult
  cases stored : page.resultObjectKey with
  | none =>
    refine pageTexts_spec.mono ?_ fun _ _ _ => trivial
    rintro result _ rfl
    refine ⟨.refl, fun key there => ?_⟩
    rw [stored] at there
    cases there
  | some key =>
    refine ((storage_spec (.getBytes key) at_m trivial ⟨fun _ => rfl, fun _ => rfl, fun _ => rfl⟩).mono
      (fun _ _ h => h) fun _ _ _ => trivial).bind ?_
    rintro data s₁ ⟨keeps, read, -⟩
    refine Prog.Meets.bind (Q := fun payload s' => s' = s₁ ∧ loadsJson data = .ok payload)
      (ofExcept_spec (fun _ done => ⟨rfl, done⟩) fun _ _ => trivial) ?_
    rintro payload s₁ ⟨rfl, decoded⟩
    have json : data = .json payload := by
      cases data <;> cases decoded
      rfl
    have loads : ∀ result, (∀ found, pageResult? payload = some found → found = result) →
        s₁.Loaded page result := by
      intro result same key' there
      cases Option.some.inj (stored.symm.trans there)
      refine ⟨data, read, fun payload' decoded' => ?_⟩
      cases json.symm.trans decoded'
      exact same
    cases parsed : pageResult? payload with
    | some result =>
      refine ⟨keeps, loads result fun found same => ?_⟩
      exact Option.some.inj (same.symm.trans parsed)
    | none =>
      refine pageTexts_spec.mono ?_ fun _ _ _ => trivial
      rintro result _ rfl
      refine ⟨keeps, loads result fun found same => ?_⟩
      cases parsed.symm.trans same

theorem loadPageResults_spec {pages : List Page} (at_m : s.message = some m) :
    Follows settings m (loadPageResults pages)
      (fun results s' => s.Keeps s' ∧ List.Forall₂ s'.Loaded pages results) (fun _ _ => True) s := by
  induction pages generalizing s with
  | nil => exact ⟨.refl, .nil⟩
  | cons page rest ih =>
    refine (loadPageResult_spec at_m).bind ?_
    rintro result s₁ ⟨keeps, loaded⟩
    refine (ih (keeps.message.trans at_m)).bind ?_
    rintro results s₂ ⟨keeps₂, later⟩
    exact ⟨keeps.trans keeps₂, .cons (loaded.grows keeps₂.toGrows) later⟩

/-- A part that only reads and writes objects. -/
abbrev Reads (settings : Settings) (m : JobWorkMessage) (p : Program α) (s : Course) : Prop :=
  Follows settings m p (fun _ s' => s.Keeps s') (fun _ _ => True) s

theorem storedArtifact_spec {kind : ArtifactKind} {key : ObjectKey} {pageNumber : Nat}
    (at_m : s.message = some m) : Reads settings m (storedArtifact kind key pageNumber) s := by
  refine ((storage_spec (.stat key) at_m trivial ⟨fun _ => rfl, fun _ => rfl, fun _ => rfl⟩).mono
    (fun _ _ h => h) fun _ _ _ => trivial).bind ?_
  rintro info s₁ ⟨keeps, -⟩
  cases info with
  | none => exact keeps
  | some info =>
    dsimp only
    split
    · exact keeps
    · refine ((storage_spec (.getBytes key) (keeps.message.trans at_m) trivial
        ⟨fun _ => rfl, fun _ => rfl, fun _ => rfl⟩).mono (fun _ _ h => h) fun _ _ _ => trivial).bind ?_
      rintro data s₂ ⟨later, -⟩
      exact keeps.trans later

theorem visualizationArtifact_spec {page : Page} (at_m : s.message = some m) :
    Reads settings m (visualizationArtifact page) s := by
  unfold visualizationArtifact
  split
  · exact storedArtifact_spec at_m
  · exact .refl

theorem pageArtifacts_spec {pages : List Page} (at_m : s.message = some m) :
    Reads settings m (pageArtifacts pages) s := by
  induction pages generalizing s with
  | nil => exact .refl
  | cons page rest ih =>
    refine (storedArtifact_spec at_m).bind fun image s₁ first => ?_
    have at₁ := first.message.trans at_m
    refine (visualizationArtifact_spec at₁).bind fun visualization s₂ second => ?_
    refine (ih (second.message.trans at₁)).bind fun artifacts s₃ third => ?_
    exact first.trans (second.trans third)

theorem assemble_spec {upload : Upload} (at_m : s.message = some m) :
    Follows settings m (assemble job upload)
      (fun _ s' => s.Keeps s' ∧ ∃ results, s'.Assembled job results) (fun _ _ => True) s := by
  refine (loadPageResults_spec at_m).bind ?_
  rintro results s₁ ⟨keeps₁, loaded⟩
  have at₁ := keeps₁.message.trans at_m
  refine ((storage_spec (.putBytes (.document job.id job.attempt .markdown) (documentMarkdown results) _) at₁ trivial
    ⟨fun _ => rfl, fun _ => rfl, fun _ => rfl⟩).mono (fun _ _ h => h) fun _ _ _ => trivial).bind ?_
  rintro markdownObject s₂ ⟨keeps₂, markdown, -⟩
  have at₂ := keeps₂.message.trans at₁
  refine ((storage_spec (.putBytes (.document job.id job.attempt .json) (documentJson job results) _) at₂ trivial
    ⟨fun _ => rfl, fun _ => rfl, fun _ => rfl⟩).mono (fun _ _ h => h) fun _ _ _ => trivial).bind ?_
  rintro jsonObject s₃ ⟨keeps₃, json, -⟩
  have at₃ := keeps₃.message.trans at₂
  have assembled : s₃.Assembled job results :=
    ⟨loaded.imp fun _ _ one => one.grows (keeps₂.trans keeps₃).toGrows, ⟨_, _, keeps₃.mem markdown⟩, ⟨_, _, json⟩⟩
  have keeps := keeps₁.trans (keeps₂.trans keeps₃)
  refine (pageArtifacts_spec at₃).bind fun pages s₄ keeps₄ => ?_
  have at₄ := keeps₄.message.trans at₃
  refine (utcNow_spec at₄).bind fun now s₅ keeps₅ => ?_
  refine ((storage_spec (.putBytes _ _ _) (keeps₅.message.trans at₄) trivial
    ⟨fun _ => rfl, fun _ => rfl, fun _ => rfl⟩).mono (fun _ _ h => h) fun _ _ _ => trivial).bind ?_
  rintro manifestObject s₆ ⟨keeps₆, -⟩
  have later := keeps₄.trans (keeps₅.trans keeps₆)
  exact ⟨keeps.trans later, results, assembled.grows later.toGrows⟩

/-! ### One message -/

theorem withJob_spec {p : Program α} (spec : Follows settings m p Q E s) :
    Follows settings m (withJob job p) Q (fun _ _ => True) s :=
  Prog.meets_mapError.mpr (spec.mono (fun _ _ h => h) fun _ _ _ => trivial)

/-- A transition of the domain and its save, before the rest of the body. -/
theorem edit_bind {β : Type} {Q : β → Course → Prop} {rest : Job → Prog Sig Raised β}
    {transition : Time → Except Exc Job} {type : EventType} {data : List (String × Json)}
    (at_m : s.message = some m)
    (allowed : ∀ s' now job' event, s.Keeps s' → transition now = .ok job' → event.eventType = type →
      s'.saves settings m job' event)
    (next : ∀ now job₁ job₂ s', transition now = .ok job₁ → Saved s job₁ type data job₂ s' →
      Follows settings m (rest job₂) Q (fun _ _ => True) s') :
    Follows settings m (withJob job (await .utcNow) >>= fun now => withJob job (Prog.ofExcept (transition now)) >>=
      fun job' => withJob job' (saveAndEmit job' type data) >>= rest) Q (fun _ _ => True) s := by
  refine (withJob_spec (E := fun _ _ => True) (utcNow_spec at_m)).bind fun now s₁ keeps => ?_
  refine (withJob_spec (ofExcept_spec (Q := fun job' s' => s' = s₁ ∧ transition now = .ok job')
    (fun _ done => ⟨rfl, done⟩) (E := fun _ _ => True) fun _ _ => trivial)).bind ?_
  rintro job₁ s₁ ⟨rfl, done⟩
  refine (withJob_spec (saveAndEmit_spec type (keeps.message.trans at_m) fun s' event later same _ =>
    allowed s' now job₁ event (keeps.trans later) done same)).bind ?_
  intro job₂ s₂ saved
  exact next now job₁ job₂ s₂ done ⟨keeps.toOnward.trans saved.toOnward, saved.known, saved.copy, saved.last⟩

/-- What is left of a part that may end the delivery. -/
def FlowPost (P : Job → Course → Prop) : Flow → Course → Prop
  | .returned _, _ => True
  | .goesOn job, s => P job s

theorem finish_spec {upload : Upload} (at_m : s.message = some m) (holds : s.Holds m job) :
    Follows settings m (finish job upload) (FlowPost fun _ s' => s'.message = some m) (fun _ _ => True) s := by
  refine (withJob_spec (assemble_spec at_m)).bind ?_
  rintro artifacts s₁ ⟨keeps, results, assembled⟩
  have at₁ := keeps.message.trans at_m
  refine (withJob_spec (cancelIfRequested_spec at₁ (holds.keeps keeps))).bind ?_
  rintro (_ | refreshed) s₂ check
  · obtain ⟨onward, holds₂⟩ := check
    have at₂ := onward.message.trans at₁
    have assembled₂ := assembled.grows onward.toGrows
    obtain ⟨v, known, own, attempt, active, stays, state⟩ := holds₂
    refine (withJob_spec (reload_spec at₂ known own active (stays.id.trans own))).bind ?_
    rintro latest s₃ ⟨onward₃, known₃, stays₃⟩
    have at₃ := onward₃.message.trans at₂
    refine edit_bind at₃ (fun s' now job' event keeps' done same => ?_) fun now job₁ job₂ s₄ _ saved => ?_
    · unfold saves
      rw [same]
      obtain ⟨-, -, rfl⟩ := Job.succeed_ok done
      refine ⟨job, results, stays.id.trans stays₃.id.symm, stays.attempt.trans stays₃.attempt.symm,
        stays.pages.trans stays₃.pages.symm, assembled₂.grows (onward₃.toGrows.trans keeps'.toGrows)⟩
    · exact saved.message.trans at₃
  · trivial

/-- The pages of the loop are those that are left of the job. -/
theorem pageLoop_spec {turns k : Nat} {pages : List Page} (at_m : s.message = some m) (holds : s.Holds m job)
    (running : job.state = .running) (left : job.version.pages.drop k = pages.map Page.toRow)
    (done : ∀ row ∈ job.version.pages.take k, row.status = .succeeded) :
    Follows settings m (pageLoop settings turns (pages.zipIdx k) job)
      (FlowPost fun job' s' => s'.message = some m ∧ s'.Holds m job' ∧
        job'.version.pages.length = job.version.pages.length ∧
        ∀ row ∈ job'.version.pages, row.status = .succeeded) (fun _ _ => True) s := by
  induction pages generalizing s job k with
  | nil =>
    refine ⟨at_m, holds, rfl, fun row member => done row ?_⟩
    rw [List.take_of_length_le (List.drop_eq_nil_iff.mp left)]
    exact member
  | cons page rest ih =>
    have here : job.version.pages[k]? = some page.toRow := by
      rw [← List.head?_drop, left]
      rfl
    have later : job.version.pages.drop (k + 1) = rest.map Page.toRow := by
      rw [← List.tail_drop, left]
      rfl
    obtain ⟨bound, value⟩ := List.getElem?_eq_some_iff.mp here
    rw [List.zipIdx_cons]
    unfold pageLoop
    by_cases finished : page.state = .succeeded
    · rw [if_pos finished]
      refine ih at_m holds running later fun row member => ?_
      rw [List.take_succ_eq_append_getElem bound, value] at member
      rcases List.mem_append.mp member with old | new
      · exact done row old
      · rw [List.mem_singleton.mp new]
        exact finished
    rw [if_neg finished]
    refine (withJob_spec (cancelIfRequested_spec at_m holds)).bind ?_
    rintro (_ | refreshed) s₁ check
    · obtain ⟨onward, holds₁⟩ := check
      have at₁ := onward.message.trans at_m
      obtain ⟨v, known, own, attempt, active, stays, state⟩ := holds₁
      refine (withJob_spec (reload_spec at₁ known own active (stays.id.trans own))).bind ?_
      rintro latest s₂ ⟨onward₂, known₂, stays₂⟩
      have at₂ := onward₂.message.trans at₁
      have pages₂ : latest.version.pages = job.version.pages := stays₂.pages.trans stays.pages.symm
      refine (withJob_spec (pageAt_spec.mono (fun _ _ h => h) fun _ _ _ => trivial)).bind ?_
      rintro latestPage s₂ ⟨rfl, at_k⟩
      have rows : latestPage.toRow = page.toRow := by
        have same := congrArg (·[k]?) pages₂
        simp only [here] at same
        rw [Job.version, List.getElem?_map, at_k] at same
        exact Option.some.inj same
      have unfinished : latestPage.state ≠ .succeeded := by
        rw [show latestPage.state = page.state from congrArg PageRow.status rows]
        exact finished
      have holds₂ : s₂.Holds m latest := by
        refine .of_known known₂ (stays₂.id.trans own) (stays₂.attempt.trans attempt) ?_
        rcases stays₂.state with same | asked
        · rw [same]
          exact active
        · rw [asked]
          rfl
      have state₂ : latest.state = .running ∨ latest.state = .cancelRequested :=
        stays₂.state.imp_left fun same => same.trans (state.symm.trans running)
      refine (withJob_spec (processPage_spec at₂ holds₂ state₂ at_k unfinished)).bind ?_
      intro completed s₃ outcome
      by_cases ended : completed.state = .failed ∨ completed.state = .cancelled
      · rw [if_pos ended]
        trivial
      rw [if_neg ended]
      rcases outcome with halted | ⟨at₃, holds₃, running₃, row', succeeded, advanced⟩
      · exact absurd halted.symm ended
      rw [pages₂] at advanced
      have length : completed.version.pages.length = job.version.pages.length := by
        rw [advanced, List.length_set]
      refine (ih at₃ holds₃ running₃ ?_ fun row member => ?_).mono ?_ fun _ _ _ => trivial
      · rw [advanced, List.drop_set_of_lt (Nat.lt_succ_self k)]
        exact later
      · rw [advanced, List.take_succ_eq_append_getElem (by rw [List.length_set]; exact bound)] at member
        rcases List.mem_append.mp member with old | new
        · rw [List.take_set_of_le le_rfl] at old
          exact done row old
        · rw [List.mem_singleton.mp new, List.getElem_set_self]
          exact succeeded
      · rintro (reply | job') s₄ post
        · trivial
        · obtain ⟨at₄, holds₄, same, all⟩ := post
          exact ⟨at₄, holds₄, same.trans length, all⟩
    · trivial

theorem recognizePages_spec {turns : Nat} {upload : Upload} (at_m : s.message = some m) (holds : s.Holds m job)
    (running : job.state = .running) (some : job.pages ≠ []) :
    Follows settings m (recognizePages settings turns job upload) (fun _ _ => True) (fun _ _ => True) s := by
  have length : job.version.pages.length = job.pages.length := List.length_map _
  have before : ∀ row ∈ job.version.pages.take 0, row.status = .succeeded := fun row member => by cases member
  refine (pageLoop_spec at_m holds running rfl before).bind ?_
  rintro (reply | job₁) s₁ post
  · trivial
  · obtain ⟨at₁, holds₁, same, all⟩ := post
    have some₁ : job₁.pages ≠ [] := by
      intro none
      rw [length] at same
      rw [show job₁.version.pages.length = job₁.pages.length from List.length_map _, none] at same
      exact some (List.length_eq_zero_iff.mp same.symm)
    have all₁ : ∀ page ∈ job₁.pages, page.state = .succeeded :=
      fun page member => all page.toRow (List.mem_map_of_mem member)
    refine edit_bind at₁ (fun s' now job' event _ done type => ?_) fun now job₂ job₃ s₂ done saved => ?_
    · obtain ⟨-, rfl⟩ := Job.transition_ok done
      unfold saves
      rw [type]
      exact ⟨some₁, all₁⟩
    · obtain ⟨-, rfl⟩ := Job.transition_ok done
      obtain ⟨revision, rfl⟩ := saved.copy
      refine (finish_spec (saved.message.trans at₁) (.of_known saved.known holds₁.id holds₁.attempt rfl)).bind ?_
      rintro (reply | job₄) s₃ at₃
      · trivial
      · exact (withJob_spec (log_spec (E := fun _ _ => True) at₃)).bind fun _ _ _ => trivial

theorem startPreprocessing_spec (at_m : s.message = some m) (known : s.known = some job) (own : job.id = m.jobId)
    (attempt : job.attempt = m.attempt) (unended : job.terminal = false) :
    Follows settings m (startPreprocessing job)
      (fun job' s' => s.Grows s' ∧ s'.Holds m job' ∧ job'.birth = job.birth) (fun _ _ => True) s := by
  unfold startPreprocessing
  split
  · refine (utcNow_spec at_m).bind fun now s₁ keeps => ?_
    refine Prog.Meets.bind (Q := fun job' s' => s' = s₁ ∧ job.beginPreprocessing now = .ok job')
      (ofExcept_spec (fun _ done => ⟨rfl, done⟩) fun _ _ => trivial) ?_
    rintro job₁ s₁ ⟨rfl, done⟩
    have edits : job.Edits none .jobPreprocessing job₁ := Job.beginPreprocessing_edits done
    have state : job₁.state = .preprocessing := by
      cases moved : job.transition .preprocessing [.queued, .retrying] now with
      | error e => simp [Job.beginPreprocessing, moved, bind, Except.bind] at done
      | ok middle =>
        obtain ⟨-, rfl⟩ := Job.transition_ok moved
        simp only [Job.beginPreprocessing, moved, bind, Except.bind, pure, Except.pure] at done
        cases done
        rfl
    have attempt₁ : job₁.attempt = job.attempt := by
      rcases edits.edit.attempt with same | ⟨retry, -⟩
      · exact same
      · cases retry
    refine (freeSave_spec .jobPreprocessing (keeps.message.trans at_m) (.inl rfl)).mono ?_ fun _ _ _ => trivial
    intro job₂ s₂ saved
    obtain ⟨revision, rfl⟩ := saved.copy
    refine ⟨keeps.toGrows.trans saved.toGrows, .of_known saved.known (edits.id.trans own) (attempt₁.trans attempt) ?_,
      edits.birth⟩
    change job₁.state.active = true
    rw [state]
    rfl
  · rename_i waiting
    refine ⟨.refl, .of_known known own attempt ?_, rfl⟩
    unfold Job.terminal at unended
    cases state : job.state <;> simp_all [JobState.active]

theorem preparePages_spec {upload : Upload} (at_m : s.message = some m) (holds : s.Holds m job)
    (read : ⟨.getUpload job.uploadId, .ok (some upload)⟩ ∈ s.past) :
    Follows settings m (preparePages job upload)
      (fun job' s' => s'.message = some m ∧ s'.Holds m job' ∧ job'.pages ≠ []) (fun _ _ => True) s := by
  unfold preparePages
  split
  · split
    · trivial
    · rename_i state
      refine Prog.Meets.bind (Q := fun prepared s' => s.Keeps s' ∧ ⟨.prepare upload job, .ok prepared⟩ ∈ s'.past)
        ((quiet_spec (.prepare upload job) at_m trivial ⟨fun _ => rfl, fun _ => rfl, fun _ => rfl⟩).mono
          (fun _ _ h => ⟨h.1, h.2.1⟩) fun _ _ _ => trivial) ?_
      rintro prepared s₁ ⟨keeps₁, written⟩
      refine (utcNow_spec (keeps₁.message.trans at_m)).bind fun now s₂ keeps₂ => ?_
      have at₂ := keeps₂.message.trans (keeps₁.message.trans at_m)
      refine Prog.Meets.bind (Q := fun job' s' => s' = s₂ ∧ job.setPages _ now = .ok job')
        (ofExcept_spec (fun _ done => ⟨rfl, done⟩) fun _ _ => trivial) ?_
      rintro job₃ s₂ ⟨rfl, done⟩
      obtain ⟨-, some, rfl⟩ := Job.setPages_ok done
      obtain ⟨v, known, own, attempt, active, stays, same⟩ := holds
      have upload_v : v.uploadId = job.uploadId := (congrArg Birth.uploadId stays.birth).symm
      refine (saveAndEmit_spec .jobPagesPrepared at₂ fun s' event keeps type _ => ?_).mono ?_ fun _ _ _ => trivial
      · have later := keeps₁.trans (keeps₂.trans keeps)
        unfold saves
        rw [type]
        refine ⟨v, upload, prepared, later.known.trans known, own, attempt, ?_, ⟨job, stays, ?_⟩, rfl⟩
        · rw [upload_v]
          exact later.mem read
        · exact keeps.mem (keeps₂.mem written)
      · intro job₄ s₄ saved
        obtain ⟨revision, rfl⟩ := saved.copy
        refine ⟨saved.message.trans at₂, .of_known saved.known (stays.id.trans own) (stays.attempt.trans attempt) ?_,
          by simpa using some⟩
        change job.state.active = true
        rw [same]
        exact active
  · rename_i some
    exact ⟨at_m, holds, by simpa using some⟩

theorem advance_spec {turns : Nat} {upload : Upload} (at_m : s.message = some m) (holds : s.Holds m job)
    (some : job.pages ≠ []) :
    Follows settings m (advance settings turns job upload) (fun _ _ => True) (fun _ _ => True) s := by
  unfold advance
  split
  · refine edit_bind at_m (fun s' now job' event _ done type => ?_) fun now job₁ job₂ s₁ done saved => ?_
    · obtain ⟨-, rfl⟩ := Job.transition_ok done
      unfold saves
      rw [type]
      exact some
    · obtain ⟨-, rfl⟩ := Job.transition_ok done
      obtain ⟨revision, rfl⟩ := saved.copy
      exact recognizePages_spec (saved.message.trans at_m) (.of_known saved.known holds.id holds.attempt rfl) rfl some
  · split
    · refine (finish_spec at_m holds).bind ?_
      rintro (reply | job₁) s₁ -
      · trivial
      · trivial
    · split
      · trivial
      · rename_i running
        exact recognizePages_spec at_m holds (not_not.mp running) some

theorem run_spec {turns : Nat} (at_m : s.message = some m) (known : s.known = some job) (own : job.id = m.jobId)
    (attempt : job.attempt = m.attempt) (unended : job.terminal = false) :
    Follows settings m (run settings turns job) (fun _ _ => True) (fun _ _ => True) s := by
  refine Prog.Meets.bind (Q := fun found s' => s.Keeps s' ∧ ⟨.getUpload job.uploadId, .ok found⟩ ∈ s'.past)
    (withJob_spec (E := fun _ _ => True) (Prog.meets_mapError.mpr ((quiet_spec (.getUpload job.uploadId) at_m trivial
      ⟨fun _ => rfl, fun _ => rfl, fun _ => rfl⟩).mono (fun _ _ h => ⟨h.1, h.2.1⟩) fun _ _ _ => trivial))) ?_
  rintro (_ | upload) s₁ ⟨keeps, read⟩
  · exact (withJob_spec (fail_spec (keeps.message.trans at_m))).bind fun _ _ _ => trivial
  · have at₁ := keeps.message.trans at_m
    refine (withJob_spec (startPreprocessing_spec at₁ (keeps.known.trans known) own attempt unended)).bind ?_
    rintro job₂ s₂ ⟨grows₂, holds₂, birth₂⟩
    have read₂ : ⟨.getUpload job₂.uploadId, .ok (some upload)⟩ ∈ s₂.past := by
      rw [show job₂.uploadId = job.uploadId from congrArg Birth.uploadId birth₂]
      exact grows₂.mem read
    refine (withJob_spec (preparePages_spec (grows₂.message.trans at₁) holds₂ read₂)).bind ?_
    rintro job₃ s₃ ⟨at₃, holds₃, some₃⟩
    refine (withJob_spec (cancelIfRequested_spec at₃ holds₃)).bind ?_
    rintro (_ | refreshed) s₄ check
    · exact advance_spec (check.1.message.trans at₃) check.2 some₃
    · trivial

theorem repairTerminalEvent_spec (at_m : s.message = some m) :
    Follows settings m (repairTerminalEvent job) (fun _ _ => True) (fun _ _ => True) s := by
  refine (utcNow_spec at_m).bind fun now s₁ keeps => ?_
  have append : ∀ event, Follows settings m (database (.appendEvent event)) (fun _ _ => True) (fun _ _ => True) s₁ :=
    fun event => Prog.meets_mapError.mpr ((quiet_spec (.appendEvent event) (keeps.message.trans at_m) trivial
      ⟨fun _ => rfl, fun _ => rfl, fun _ => rfl⟩).mono (fun _ _ _ => trivial) fun _ _ _ => trivial)
  cases job.state with
  | cancelled => exact append _
  | failed => exact append _
  | succeeded => exact append _
  | _ => trivial

theorem processBody_spec {turns : Nat} (at_m : s.message = some m) :
    Follows settings m (processBody settings turns m) (fun _ _ => True) (fun _ _ => True) s := by
  refine Prog.Meets.bind (Q := fun found s' => s'.message = some m ∧ s'.known = found ∧
      ∀ job, found = some job → job.id = m.jobId)
    (Prog.meets_mapError.mpr ((getJob_spec at_m).mono ?_ fun _ _ _ => trivial)) ?_
  · rintro found _ ⟨rfl, named, -⟩
    exact ⟨at_m, rfl, named⟩
  rintro (_ | job) s₁ ⟨at₁, known, named⟩
  · exact Prog.Meets.bind (Prog.meets_mapError.mpr (log_spec at₁)) fun _ _ _ => trivial
  · dsimp only
    split
    · trivial
    · rename_i own
      split
      · exact (withJob_spec (repairTerminalEvent_spec at₁)).bind fun _ _ _ => trivial
      · rename_i unended
        exact run_spec at₁ known (named job rfl) (not_not.mp own) (by simpa using unended)

theorem resolveConflict_spec (at_m : s.message = some m) :
    Follows settings m (resolveConflict m) (fun _ _ => True) (fun _ _ => True) s := by
  refine Prog.Meets.bind (Q := fun _ s' => s'.message = some m) ((getJob_spec at_m).mono ?_ fun _ _ _ => trivial) ?_
  · rintro found _ ⟨rfl, -⟩
    exact at_m
  rintro (_ | latest) s₁ at₁
  · trivial
  · by_cases asked : latest.state = .cancelRequested
    · dsimp only
      rw [if_pos asked]
      exact ((cancelLatest_spec at₁ asked).mono (fun _ _ _ => trivial) fun _ _ _ => trivial).bind fun _ _ _ => trivial
    · dsimp only
      rw [if_neg asked]
      split
      · trivial
      · trivial

theorem resolveFailure_spec {raised : Raised} (at_m : s.message = some m) :
    Follows settings m (resolveFailure m raised) (fun _ _ => True) (fun _ _ => True) s := by
  refine (log_spec at_m).bind fun _ s₁ keeps => ?_
  have at₁ := keeps.message.trans at_m
  split
  · trivial
  · split
    · trivial
    · rename_i job _
      refine Prog.Meets.bind (Q := fun _ s' => s'.message = some m) ?_ fun latest s₂ at₂ => ?_
      · refine Prog.Meets.bind (Q := fun _ s' => s'.message = some m) ?_ fun _ _ kept => Prog.meets_pure.mpr kept
        exact Prog.meets_mapError.mpr (call_spec (.getJob .failure job.id) at₁ trivial (fun _ => rfl)
          (fun _ _ _ => at₁) fun _ _ => trivial)
      by_cases asked : latest.state = .cancelRequested
      · rw [if_pos asked]
        exact ((cancelLatest_spec at₂ asked).mono (fun _ _ _ => trivial) fun _ _ _ => trivial).bind
          fun _ _ _ => trivial
      · rw [if_neg asked]
        split
        · trivial
        · exact (fail_spec at₂).bind fun _ _ _ => trivial

theorem process_spec {turns : Nat} (at_m : s.message = some m) :
    Follows settings m (process settings turns m) (fun _ _ => True) (fun _ _ => True) s := by
  unfold process
  split
  · exact (log_spec at_m).bind fun _ _ _ => trivial
  · refine Prog.Meets.bind (Q := fun _ s' => s'.message = some m) (Prog.meets_attempt.mpr
      (((processBody_spec at_m).message at_m).mono (fun _ _ h => h.2) fun _ _ h => h.2)) ?_
    rintro (raised | reply) s₁ at₁
    · dsimp only
      split
      · exact resolveConflict_spec at₁
      · exact resolveFailure_spec at₁
    · trivial

/-! ### The calls of the system -/

/-- A call with no message of the job may do as it likes, as long as it polls
for no other. -/
theorem meets_foreign {ε : Type} {id : Id} {c : Contract Sig Memory} {p : Prog Sig ε α} {mem : Memory}
    {Q : α → Memory → Prop} {E : ε → Memory → Prop} (meets : p.Meets Memory.ghost c Q E mem)
    (quiet : ∀ mem, ¬ c.allow mem .getMany) (answers : ∀ mem op r, Memory.answer op r → c.answer mem op r)
    (foreign : ∀ m, s.message = some m → m.jobId ≠ id) :
    p.Meets ghost (contract settings id) (fun _ _ => True) (fun _ _ => True) s := by
  induction p generalizing s mem with
  | ret result => cases result <;> trivial
  | halt => trivial
  | call op next ih =>
    obtain ⟨allowed, rest⟩ := meets
    refine ⟨fun m at_m own => absurd own (foreign m at_m), fun r reliable => ?_⟩
    refine ih r (rest r (answers mem op r reliable.1)) fun m at_m => foreign m ?_
    have same : (s.next op r).message = s.message := by
      cases op with
      | getMany => exact absurd allowed (quiet mem)
      | _ => rfl
    exact same.symm.trans at_m

/-- What is asked of one delivery is what is asked of the deliveries of its job. -/
theorem Follows.contract {ε : Type} {p : Prog Sig ε α} {Q : α → Course → Prop} {E : ε → Course → Prop}
    (follows : Follows settings m p Q E s) : p.Meets ghost (contract settings m.jobId) Q E s := by
  refine Prog.Meets.weaken follows (fun s op allowed m' at' _ => ?_) fun s op r reliable => ?_
  · obtain ⟨at_m, calls, -⟩ := allowed
    cases Option.some.inj (at_m.symm.trans at')
    exact calls
  · exact ⟨reliable.1, fun at_m => reliable.2 m at_m rfl⟩

theorem processRecord_spec {id : Id} {turns : Nat} {record : Record}
    (decoded : s.message = (decodeJobMessage record.value).toOption) :
    (WorkerMain.processRecord settings turns record).Meets ghost (contract settings id) (fun _ _ => True)
      (fun _ _ => True) s := by
  unfold WorkerMain.processRecord
  cases read : decodeJobMessage record.value with
  | error e =>
    refine Prog.Meets.bind (Q := fun _ _ => True) ⟨fun _ _ _ => trivial, fun r _ => by cases r <;> trivial⟩ ?_
    exact fun _ _ _ => ⟨fun _ _ _ => trivial, fun r _ => by cases r <;> trivial⟩
  | ok m =>
    have at_m : s.message = some m := by rw [decoded, read]; rfl
    refine Prog.Meets.bind (Q := fun _ _ => True) ?_ fun _ _ _ => trivial
    by_cases own : m.jobId = id
    · rw [← own]
      exact (process_spec at_m).contract
    · have held : ({ message := some m } : Memory).message = some m := rfl
      refine meets_foreign (OCRWorker.process_spec held) ?_ (fun _ _ _ h => h) ?_
      · rintro mem ⟨_, _, polls⟩
        exact polls
      · intro m' at'
        cases Option.some.inj (at_m.symm.trans at')
        exact own

theorem runWorker_spec {id : Id} {turns polls : Nat} :
    (WorkerMain.runWorker settings turns polls).Meets ghost (contract settings id) (fun _ _ => True)
      (fun _ _ => True) s := by
  induction polls generalizing s with
  | zero => trivial
  | succ polls ih =>
    refine Prog.Meets.bind (Q := fun _ _ => True) ⟨fun _ _ _ => trivial, fun r _ => by cases r <;> trivial⟩ ?_
    intro stop s₁ _
    split
    · trivial
    · refine Prog.Meets.bind (Q := fun found s' => ∀ record, found = some record →
          s'.message = (decodeJobMessage record.value).toOption) ⟨fun _ _ _ => trivial, fun r _ => ?_⟩ ?_
      · rcases r with e | _ | record
        · trivial
        · exact fun _ none => by cases none
        · exact fun _ same => by cases same; rfl
      rintro (_ | record) s₂ decoded
      · exact ih
      · refine (processRecord_spec (decoded record rfl)).bind fun _ s₃ _ => ?_
        refine Prog.Meets.bind (Q := fun _ _ => True) ⟨fun _ _ _ => trivial, fun r _ => by cases r <;> trivial⟩ ?_
        exact fun _ _ _ => ih

end MonkeyOcr.Course

namespace MonkeyOcr

open Calls

/-- The course a call starts on. -/
def Task.course : Task → Course
  | .process _ message => { message := some message }
  | _ => {}

theorem program_course (settings : Settings) (id : Id) (task : Task) :
    (program settings task).Meets Course.ghost (Course.contract settings id) (fun _ _ => True) (fun _ _ => True)
      task.course := by
  have meets := program_meets settings task
  cases task with
  | process turns message =>
    by_cases own : message.jobId = id
    · rw [← own]
      exact Prog.Meets.bind (Course.process_spec rfl).contract fun _ _ _ => trivial
    · refine Course.meets_foreign meets ?_ (fun _ _ _ h => h) ?_
      · rintro mem ⟨_, _, polls⟩
        exact polls
      · intro m at_m
        cases at_m
        exact own
  | runWorker turns polls => exact Prog.Meets.bind Course.runWorker_spec fun _ _ _ => trivial
  | _ => exact Course.meets_foreign meets (fun _ polls => polls) (fun _ _ _ h => h) fun _ none => by cases none

end MonkeyOcr
