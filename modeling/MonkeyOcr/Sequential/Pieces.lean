import MonkeyOcr.Sequential.Course

namespace MonkeyOcr.Course

open Calls OCRWorker
open Codec (Json)

variable {settings : Settings} {s s' : Course} {m : JobWorkMessage} {job v : Job} {α : Type}
  {Q : α → Course → Prop} {E : Exc → Course → Prop}

/-- A part of a delivery of `m`, while no other delivery works on the job. -/
abbrev Follows (settings : Settings) (m : JobWorkMessage) {ε : Type} (p : Prog Sig ε α)
    (Q : α → Course → Prop) (E : ε → Course → Prop) (s : Course) : Prop :=
  p.Meets ghost (delivery settings m) Q E s

theorem call_spec (op : Op) (at_m : s.message = some m) (allowed : s.calls settings m op)
    (same : ∀ r, s.next op r = s.called op r) {Q : op.Val → Course → Prop}
    (returns : ∀ a, Memory.answer op (.ok a) → s.relies m op (.ok a) → Q a (s.called op (.ok a)))
    (raises : ∀ e, s.relies m op (.error e) → E e (s.called op (.error e))) :
    Follows settings m (await op) Q E s := by
  refine ⟨⟨at_m, allowed, same⟩, fun r reliable => ?_⟩
  have relied := reliable.2 at_m
  cases r with
  | ok a =>
    change Q a (s.next op (.ok a))
    rw [same]
    exact returns a reliable.1 relied
  | error e =>
    change E e (s.next op (.error e))
    rw [same]
    exact raises e relied

/-- A delivery stays with its message. -/
theorem Follows.message {ε : Type} {p : Prog Sig ε α} {E : ε → Course → Prop} (follows : Follows settings m p Q E s)
    (at_m : s.message = some m) :
    Follows settings m p (fun a s' => Q a s' ∧ s'.message = some m) (fun e s' => E e s' ∧ s'.message = some m) s := by
  refine Prog.Meets.stable follows (fun s op r allowed at_m => ?_) at_m
  obtain ⟨-, -, same⟩ := allowed
  exact (congrArg Course.message (same r)).trans at_m

/-- The call neither reads nor saves the job, and recognizes no page. -/
structure Quiet (s : Course) (op : Op) : Prop where
  next : ∀ r, s.next op r = s.called op r
  known : ∀ r, s.knownAfter op r = s.known
  asked : ∀ r, (s.called op r).asked = s.asked

theorem Quiet.keeps {op : Op} (quiet : s.Quiet op) (r : Except Exc op.Val) : s.Keeps (s.called op r) :=
  ⟨.called (quiet.asked r), quiet.known r⟩

theorem quiet_spec (op : Op) (at_m : s.message = some m) (allowed : s.calls settings m op) (quiet : s.Quiet op) :
    Follows settings m (await op)
      (fun a s' => s.Keeps s' ∧ ⟨op, .ok a⟩ ∈ s'.past ∧ s.relies m op (.ok a))
      (fun e s' => s.Keeps s' ∧ s.relies m op (.error e)) s := by
  refine call_spec op at_m allowed quiet.next (fun a _ relied => ?_) fun e relied => ?_
  · exact ⟨quiet.keeps _, List.mem_cons_self, relied⟩
  · exact ⟨quiet.keeps _, relied⟩

theorem storage_spec (op : Op) (at_m : s.message = some m) (allowed : s.calls settings m op) (quiet : s.Quiet op) :
    Follows settings m (storage op)
      (fun a s' => s.Keeps s' ∧ ⟨op, .ok a⟩ ∈ s'.past ∧ s.relies m op (.ok a)) (fun _ s' => s.Keeps s') s := by
  have spec := @quiet_spec settings s m op at_m allowed quiet
  exact Prog.meets_mapError.mpr (spec.mono (fun _ _ h => h) fun _ _ h => h.1)

theorem utcNow_spec (at_m : s.message = some m) :
    Follows settings m (await .utcNow) (fun _ s' => s.Keeps s') E s := by
  have spec := @quiet_spec settings s m .utcNow at_m trivial
    ⟨fun _ => rfl, fun _ => rfl, fun _ => rfl⟩
  exact spec.mono (fun _ _ h => h.1) fun _ _ h => h.2.elim

theorem log_spec {level event fields} (at_m : s.message = some m) :
    Follows settings m (await (.log level event fields)) (fun _ s' => s.Keeps s') E s := by
  have spec := @quiet_spec settings s m (.log level event fields) at_m trivial
    ⟨fun _ => rfl, fun _ => rfl, fun _ => rfl⟩
  exact spec.mono (fun _ _ h => h.1) fun _ _ h => h.2.elim

theorem ofExcept_spec {result : Except Exc α} (returns : ∀ a, result = .ok a → Q a s)
    (raises : ∀ e, result = .error e → E e s) : Follows settings m (Prog.ofExcept result) Q E s := by
  cases result with
  | ok a => exact returns a rfl
  | error e => exact raises e rfl

/-- The exceptions that end a delivery from wherever they are raised. -/
abbrev Ends (e : Exc) : Prop := e = .concurrentJobUpdate ∨ e = .databaseUnavailable

theorem databaseError_other {e : Exc} (other : e.isOther = true) : databaseError e = .databaseUnavailable := by
  cases e <;> first | rfl | cases other

theorem getJob_spec {site : Site} (at_m : s.message = some m) :
    Follows settings m (database (.getJob site m.jobId))
      (fun found s' => s' = s.called (.getJob site m.jobId) (.ok found) ∧
        (∀ job, found = some job → job.id = m.jobId) ∧ s.relies m (.getJob site m.jobId) (.ok found))
      (fun e _ => Ends e) s := by
  refine Prog.meets_mapError.mpr (call_spec (.getJob site m.jobId) at_m trivial (fun _ => rfl)
    (fun found answered relied => ⟨rfl, ?_, relied⟩) fun e other => .inr (databaseError_other other))
  rintro job rfl
  exact answered

/-- `job` was saved as `job'`, by the last call. -/
structure Saved (s : Course) (job : Job) (type : EventType) (data : List (String × Json)) (job' : Job)
    (s' : Course) : Prop extends s.Onward s' where
  known : s'.known = some job'
  copy : ∃ revision, job' = { job with revision }
  last : ∃ event saved rest, s'.past = ⟨.saveWithEvent job event, .ok saved⟩ :: rest ∧
    event.eventType = type ∧ event.data = data

theorem saveAndEmit_spec (type : EventType) {data : List (String × Json)} (at_m : s.message = some m)
    (allowed : ∀ s' event, s.Keeps s' → event.eventType = type → event.data = data →
      s'.saves settings m job event) :
    Follows settings m (saveAndEmit job type data) (Saved s job type data) (fun e _ => Ends e) s := by
  refine (utcNow_spec at_m).bind fun now s₁ keeps => ?_
  have at₁ := keeps.message.trans at_m
  refine Prog.Meets.bind (Q := fun saved s' => s' = s₁.called (.saveWithEvent job (jobEvent job type data now))
    (.ok saved)) ?_ fun saved s' same => ?_
  · refine Prog.meets_mapError.mpr (call_spec (.saveWithEvent job (jobEvent job type data now)) at₁
      (allowed s₁ _ keeps rfl rfl) (fun _ => rfl)
      (fun _ _ _ => rfl) fun e relied => ?_)
    rcases relied with rfl | other
    · exact .inl rfl
    · exact .inr (databaseError_other other)
  · subst same
    exact ⟨keeps.toOnward.trans (.called rfl), rfl, ⟨_, rfl⟩, ⟨_, _, _, rfl, rfl, rfl⟩⟩

/-- A save of no consequence here. -/
theorem freeSave_spec (type : EventType) {data : List (String × Json)} (at_m : s.message = some m)
    (free : type = .jobPreprocessing ∨ type = .jobCancelled ∨ type = .jobFailed) :
    Follows settings m (saveAndEmit job type data) (Saved s job type data) (fun e _ => Ends e) s := by
  refine saveAndEmit_spec type at_m fun s' event _ same _ => ?_
  unfold saves
  rw [same]
  rcases free with rfl | rfl | rfl
  · trivial
  · trivial
  · trivial

theorem cancelLatest_spec (at_m : s.message = some m) (asked : job.state = .cancelRequested) :
    Follows settings m (cancelLatest job) (fun job' _ => job'.state = .cancelled) (fun e _ => Ends e) s := by
  refine (utcNow_spec at_m).bind fun now s₁ keeps => ?_
  refine Prog.Meets.bind (Q := fun job' s' => s' = s₁ ∧ job'.state = .cancelled) (ofExcept_spec ?_ ?_) ?_
  · intro job' done
    obtain ⟨-, state⟩ : job.Edits none .jobCancelled job' ∧ job'.state = .cancelled := Job.cancel_edits done
    exact ⟨rfl, state⟩
  · intro e failed
    simp [Job.cancel, Job.transition, asked, bind, Except.bind] at failed
    cases failed
  · rintro job' s' ⟨rfl, state⟩
    refine (freeSave_spec .jobCancelled (keeps.message.trans at_m) (.inr (.inl rfl))).mono ?_ fun _ _ h => h
    intro job'' s'' saved
    obtain ⟨revision, rfl⟩ := saved.copy
    exact state

theorem fail_spec {reason : String} {internalCode : InternalStatusCode} (at_m : s.message = some m) :
    Follows settings m (fail job reason internalCode)
      (fun job' _ => job'.state = .cancelled ∨ job'.state = .failed) (fun _ _ => True) s := by
  refine (utcNow_spec at_m).bind fun now s₁ keeps => ?_
  have at₁ := keeps.message.trans at_m
  by_cases asked : job.state = .cancelRequested
  · rw [if_pos asked]
    refine Prog.Meets.bind (Q := fun job' s' => s' = s₁ ∧ job'.state = .cancelled)
      (ofExcept_spec (fun job' done => ?_) fun _ _ => trivial) ?_
    · obtain ⟨-, state⟩ : job.Edits none .jobCancelled job' ∧ job'.state = .cancelled := Job.cancel_edits done
      exact ⟨rfl, state⟩
    · rintro job' s' ⟨rfl, state⟩
      refine (freeSave_spec .jobCancelled at₁ (.inr (.inl rfl))).mono ?_ fun _ _ _ => trivial
      intro job'' s'' saved
      obtain ⟨revision, rfl⟩ := saved.copy
      exact .inl state
  · rw [if_neg asked]
    refine Prog.Meets.bind (Q := fun job' s' => s' = s₁ ∧ job'.state = .failed)
      (ofExcept_spec (fun job' done => ?_) fun _ _ => trivial) ?_
    · obtain ⟨-, state⟩ : job.Edits none .jobFailed job' ∧ job'.state = .failed := Job.fail_edits asked done
      exact ⟨rfl, state⟩
    · rintro job' s' ⟨rfl, state⟩
      refine (freeSave_spec .jobFailed at₁ (.inr (.inr rfl))).mono ?_ fun _ _ _ => trivial
      intro job'' s'' saved
      obtain ⟨revision, rfl⟩ := saved.copy
      exact .inr state

/-- A delivery that knows an active version finds that version again. -/
theorem reload_spec {site : Site} (at_m : s.message = some m) (known : s.known = some v) (own : v.id = m.jobId)
    (active : v.state.active = true) (id : job.id = m.jobId) :
    Follows settings m (reload site job)
      (fun latest s' => s.Onward s' ∧ s'.known = some latest ∧ v.Stays latest) (fun e _ => Ends e) s := by
  unfold reload
  rw [id]
  refine (getJob_spec at_m).bind ?_
  rintro found s' ⟨rfl, -, relied⟩
  obtain ⟨latest, rfl, stays⟩ := relied rfl v known own active
  exact ⟨.called rfl, rfl, stays⟩

/-- The check for a cancellation leaves the job as it was, or ends it. -/
theorem cancelIfRequested_spec (at_m : s.message = some m) (holds : s.Holds m job) :
    Follows settings m (cancelIfRequested job)
      (fun refreshed s' => match refreshed with
        | some latest => latest.state = .cancelled
        | none => s.Onward s' ∧ s'.Holds m job) (fun e _ => Ends e) s := by
  unfold cancelIfRequested
  rw [holds.id]
  refine (getJob_spec at_m).bind ?_
  rintro found s' ⟨rfl, -, relied⟩
  obtain ⟨v, known, own, attempt, active, stays, state⟩ := holds
  obtain ⟨latest, rfl, later⟩ := relied rfl v known own active
  by_cases asked : latest.state = .cancelRequested
  · dsimp only
    rw [if_pos asked]
    exact (cancelLatest_spec (by exact at_m) asked).bind fun _ _ ended => ended
  · dsimp only
    rw [if_neg asked]
    have same : latest.state = v.state := later.state.resolve_right asked
    refine ⟨.called rfl, latest, rfl, later.id.trans own, later.attempt.trans attempt, same ▸ active, ?_,
      state.trans same.symm⟩
    exact ⟨stays.id.trans later.id.symm, stays.birth.trans later.birth.symm, stays.attempt.trans later.attempt.symm,
      stays.pages.trans later.pages.symm, .inl (state.trans same.symm)⟩

end MonkeyOcr.Course
