import MonkeyOcr.Infrastructure.Messaging
import MonkeyOcr.Pages.Parts

namespace MonkeyOcr

open Calls
open Turns (ghost contract Same)

/-- Where the loop of `_process_page` is before a turn: it has made as many turns as
recognitions, and each of them is counted in the page it goes on with. -/
structure Turns.Before (most index : Nat) (job : Job) (t : Turns) : Prop where
  few : t.recognitions ≤ most
  turns : t.turns = t.recognitions
  counted : ∀ page, job.pages[index]? = some page → t.recognitions ≤ page.processingAttempts
  unfinished : 0 < t.recognitions → ∀ page, job.pages[index]? = some page → page.state ≠ .succeeded
  started : 0 < t.recognitions → ∃ v page, t.started = some v ∧ v.id = job.id ∧ v.pages[index]? = some page ∧
    t.recognitions ≤ page.processingAttempts

namespace OCRWorker

variable {halts : Prop} {most : Nat} {t : Turns} {job : Job} {index : Nat}

/-- What the read of a turn finds: the count of the page is at least that of the loop,
and the page is finished only in the copy of a job that no save succeeds of. -/
structure Found (most index : Nat) (t : Turns) (job latest : Job) (t' : Turns) : Prop where
  id : latest.id = job.id
  turns : t'.turns = t.turns + 1
  recognitions : t'.recognitions = t.recognitions
  counted : ∀ page, latest.pages[index]? = some page → t.recognitions ≤ page.processingAttempts
  unfinished : (∀ page, latest.pages[index]? = some page → page.state ≠ .succeeded) ∨ t'.missed = some job.id

theorem reload_found (before : t.Before most index job) :
    (reload (.pageTurn index) job).Ends halts ghost (contract most) (Found most index t job) (fun _ _ => True) t := by
  refine Prog.ends_bind.mpr (Prog.ends_mapError.mpr ⟨before.turns.trans_le before.few, fun r found => ?_⟩)
  rcases r with e | _ | latest
  · trivial
  · exact ⟨rfl, rfl, rfl, before.counted, .inr rfl⟩
  · obtain ⟨id, page⟩ := found
    refine ⟨id, rfl, rfl, fun current here => ?_, .inl fun current here => (page current here).1⟩
    by_cases none : t.recognitions = 0
    · omega
    · obtain ⟨v, old, started, own, there, counted⟩ := before.started (Nat.pos_of_ne_zero none)
      exact counted.trans ((page current here).2 v started own old there)

/-- After the save that starts the page, the engine may be asked. -/
structure Started (most index : Nat) (t : Turns) (job : Job) (t' : Turns) : Prop where
  turns : t'.turns = t.turns + 1
  recognitions : t'.recognitions = t.recognitions
  page : ∃ page, job.pages[index]? = some page ∧ page.state ≠ .succeeded ∧
    t.recognitions + 1 ≤ page.processingAttempts ∧ page.processingAttempts ≤ most
  started : t'.started = some job

theorem start_started {latest : Job} {page : Page} {t₁ : Turns} {data : List (String × Codec.Json)}
    (found : Found most index t job latest t₁) (here : latest.pages[index]? = some page)
    (few : ¬ most ≤ page.processingAttempts) :
    (saveAndEmit (latest.setPage index page.start) .pageRunning data).Ends halts ghost (contract most)
      (fun saved t' => Started most index t saved t' ∧ saved.id = job.id ∧
        ∃ revision, saved = { (latest.setPage index page.start) with revision })
      (fun _ _ => True) t₁ := by
  refine Prog.Ends.bind (Q := fun _ t' => t' = t₁) ⟨trivial, fun r _ => ?_⟩ ?_
  · cases r with
    | error e => trivial
    | ok now => rfl
  · rintro now _ rfl
    refine Prog.ends_bind.mpr (Prog.ends_mapError.mpr ⟨trivial, fun r answer => ?_⟩)
    cases r with
    | error e => trivial
    | ok saved =>
      have unfinished : page.state ≠ .succeeded := by
        rcases found.unfinished with all | missed
        · exact all page here
        · exact absurd (missed.trans (congrArg some found.id.symm)) answer
      have bound := (List.getElem?_eq_some_iff.mp here).1
      have count := found.counted page here
      refine ⟨⟨found.turns, found.recognitions, ⟨page.start, ?_, ?_, ?_, ?_⟩, ?_⟩, found.id, saved.1, rfl⟩
      · simp [Job.setPage, bound]
      · rw [Page.start, if_neg unfinished]
        exact PageState.noConfusion
      · rw [Page.start, if_neg unfinished]
        exact Nat.succ_le_succ count
      · rw [Page.start, if_neg unfinished]
        exact Nat.lt_of_not_le few
      · rfl

/-- A save that starts no page. -/
theorem saveAndEmit_same {type : EventType} {data : List (String × Codec.Json)} {t₁ : Turns}
    (other : type ≠ .pageRunning) :
    (saveAndEmit job type data).Ends halts ghost (contract most)
      (fun saved t' => t₁.Same t' ∧ ∃ revision, saved = { job with revision }) (fun _ _ => True) t₁ := by
  refine Prog.Ends.bind (Q := fun _ t' => t' = t₁) ⟨trivial, fun r _ => ?_⟩ ?_
  · cases r with
    | error e => trivial
    | ok now => rfl
  · rintro now t₂ rfl
    refine Prog.ends_bind.mpr (Prog.ends_mapError.mpr ⟨trivial, fun r answer => ?_⟩)
    cases r with
    | error e => trivial
    | ok saved =>
      have still : Turns.Still (.saveWithEvent job (jobEvent job type data now)) := other
      exact ⟨Turns.next_same (t := t₂) (r := .ok saved) still, saved.1, rfl⟩

/-- The body of the `try`: one recognition, and the page of `job` when it raises there. -/
theorem recognizePage_ends {image : Content} {page : Page} {t₁ : Turns} (few : t₁.recognitions < most) :
    (recognizePage image index job page).Ends halts ghost (contract most) (fun _ _ => True)
      (fun raised t' => t'.turns = t₁.turns ∧ t'.recognitions = t₁.recognitions + 1 ∧ t'.started = t₁.started ∧
        (raised.ofJob = true → raised.page = page)) t₁ := by
  have post : ∀ {e : Exc} {own : Page} {ofJob : Bool} {t₂ t' : Turns}, t₂.turns = t₁.turns →
      t₂.recognitions = t₁.recognitions + 1 → t₂.started = t₁.started → t₂.Same t' → (ofJob = true → own = page) →
      t'.turns = t₁.turns ∧ t'.recognitions = t₁.recognitions + 1 ∧ t'.started = t₁.started ∧
        ((⟨e, own, ofJob⟩ : PageRaised).ofJob = true → (⟨e, own, ofJob⟩ : PageRaised).page = page) := by
    intro e own ofJob t₂ t' turns recognitions started same own
    exact ⟨same.turns.trans turns, same.recognitions.trans recognitions, same.started.trans started, own⟩
  refine Prog.Ends.bind (Q := fun _ t₂ => t₂.turns = t₁.turns ∧ t₂.recognitions = t₁.recognitions + 1 ∧
    t₂.started = t₁.started) (Prog.ends_mapError.mpr ⟨few, fun r _ => ?_⟩) ?_
  · cases r with
    | error e => exact ⟨rfl, rfl, rfl, fun _ => rfl⟩
    | ok result => exact ⟨rfl, rfl, rfl⟩
  · rintro result t₂ ⟨turns, recognitions, started⟩
    refine Prog.Ends.bind (Q := fun _ t₃ => t₂.Same t₃) (Prog.ends_mapError.mpr
      ((Turns.makes_still (reload_still (.recognized index) trivial)).mono id (fun _ _ same => same)
        fun e t' same => post turns recognitions started same fun _ => rfl)) ?_
    intro latest t₃ same₃
    have turns₃ := same₃.turns.trans turns
    have recognitions₃ := same₃.recognitions.trans recognitions
    have started₃ := same₃.started.trans started
    split
    · exact Prog.ends_mapError.mpr ((Turns.makes_still cancelLatest_still).mono id (fun _ _ _ => trivial)
        fun e t' same => post turns₃ recognitions₃ started₃ same fun _ => rfl)
    · refine Prog.Ends.bind (Q := fun _ t₄ => t₃.Same t₄) (Prog.ends_mapError.mpr
        ((Turns.makes_still pageAt_still).mono id (fun _ _ same => same)
          fun e t' same => post turns₃ recognitions₃ started₃ same fun _ => rfl)) ?_
      intro latestPage t₄ same₄
      exact Prog.ends_mapError.mpr ((Turns.makes_still checkpoint_still).mono id (fun _ _ _ => trivial)
        fun e t' same => post turns₃ recognitions₃ started₃ (same₄.trans same) nofun)

/-- The state after a turn that goes on. -/
theorem Started.before {next : Job} {t₁ t' : Turns} {page : Page} (begun : Started most index t job t₁)
    (same : t.turns = t.recognitions) (turns : t'.turns = t₁.turns)
    (recognitions : t'.recognitions = t₁.recognitions + 1) (started : t'.started = t₁.started)
    (id : next.id = job.id) (here : job.pages[index]? = some page)
    (keeps : ∀ later, next.pages[index]? = some later →
      later.state = page.state ∧ later.processingAttempts = page.processingAttempts) :
    t'.Before most index next := by
  obtain ⟨own, there, unfinished, counted, few⟩ := begun.page
  rw [here] at there
  cases there
  have count : t'.recognitions = t.recognitions + 1 := by rw [recognitions, begun.recognitions]
  refine ⟨?_, ?_, ?_, ?_, ?_⟩
  · omega
  · have total := begun.turns
    omega
  · intro later found
    rw [count, (keeps later found).2]
    exact counted
  · intro _ later found
    rw [(keeps later found).1]
    exact unfinished
  · intro _
    refine ⟨job, page, started.trans begun.started, id.symm, here, ?_⟩
    rw [count]
    exact counted

theorem setPage_getElem? {page later : Page} (found : (job.setPage index page).pages[index]? = some later) :
    later = page := by
  have bound : index < job.pages.length := by
    have inside := (List.getElem?_eq_some_iff.mp found).1
    rw [Job.setPage, List.length_set] at inside
    exact inside
  simp only [Job.setPage, List.getElem?_set_self bound, Option.some.injEq] at found
  exact found.symm

/-- The loop of `_process_page`: every turn that goes on counts a recognition, so that
enough turns are never used up. -/
theorem pageTurns_ends {settings : Settings} {image : Content} {turns : Nat} {lastError : Option Exc}
    (before : t.Before (settings.maxPageRetries + 1) index job)
    (enough : halts ∨ settings.maxPageRetries + 2 ≤ t.recognitions + turns) :
    (pageTurns settings image index turns job lastError).Ends halts ghost (contract (settings.maxPageRetries + 1))
      (fun _ _ => True) (fun _ _ => True) t := by
  induction turns generalizing t job lastError with
  | zero =>
    rcases enough with halts | enough
    · exact halts
    · have few := before.few
      omega
  | succ turns ih =>
    unfold pageTurns
    refine (reload_found before).bind fun latest t₁ found => ?_
    split
    · exact Turns.makes_plain cancelLatest_plain
    · refine Prog.Ends.bind (Q := fun page t₂ => t₂ = t₁ ∧ latest.pages[index]? = some page) ?_ ?_
      · unfold pageAt
        split
        · rename_i page here
          exact ⟨rfl, here⟩
        · trivial
      · rintro page _ ⟨rfl, here⟩
        split
        · exact Turns.makes_plain failPage_plain
        · rename_i few
          refine (start_started found here few).bind ?_
          rintro job₂ t₂ ⟨begun, own, revision, saved⟩
          obtain ⟨started, there, -, counted, within⟩ := begun.page
          have less : t₂.recognitions < settings.maxPageRetries + 1 := by
            have count := begun.recognitions
            omega
          refine Prog.Ends.bind (Q := Prog.Attempted (fun _ _ => True) fun raised t₃ =>
              t₃.turns = t₂.turns ∧ t₃.recognitions = t₂.recognitions + 1 ∧
                t₃.started = t₂.started ∧ (raised.ofJob = true → raised.page = page.start))
            (Prog.ends_attempt.mpr (recognizePage_ends less)) ?_
          rintro (raised | reply) t₃ outcome
          · obtain ⟨turns₃, recognitions₃, started₃, ofJob⟩ := outcome
            dsimp only
            split
            · trivial
            · split
              · exact Turns.makes_plain failPage_plain
              · refine (saveAndEmit_same EventType.noConfusion).bind ?_
                rintro job₄ t₄ ⟨same₄, revision₄, rfl⟩
                refine ((Turns.makes_still (await_makes (.sleep _) trivial)).mono id
                  (fun _ _ same => same) fun _ _ _ => trivial).bind ?_
                intro _ t₅ same₅
                have same := same₄.trans same₅
                have turns₅ := same.turns.trans turns₃
                have recognitions₅ := same.recognitions.trans recognitions₃
                have started₅ := same.started.trans started₃
                refine ih (begun.before before.turns turns₅ recognitions₅ started₅ ?_ there ?_) ?_
                · change (if raised.ofJob = true then _ else _ : Job).id = _
                  split <;> rfl
                · intro later found
                  change (if raised.ofJob = true then _ else _ : Job).pages[index]? = _ at found
                  split at found
                  · rename_i inside
                    have first : started = page.start := by
                      rw [saved] at there
                      exact setPage_getElem? there
                    rw [setPage_getElem? found, ofJob inside, first]
                    exact ⟨rfl, rfl⟩
                  · cases there.symm.trans found
                    exact ⟨rfl, rfl⟩
                · have count := begun.recognitions
                  refine enough.imp_right fun enough => ?_
                  omega
          · trivial

/-- The parts of `process` around the loop end with anything. -/
abbrev Settles (halts : Prop) (most : Nat) {α ε : Type} (p : Prog Sig ε α) : Prop :=
  ∀ t, p.Ends halts ghost (contract most) (fun _ _ => True) (fun _ _ => True) t

theorem Settles.bind {α β ε : Type} {p : Prog Sig ε α} {f : α → Prog Sig ε β} (first : Settles halts most p)
    (rest : ∀ a, Settles halts most (f a)) : Settles halts most (p >>= f) :=
  fun t => (first t).bind fun a t' _ => rest a t'

theorem settles_plain {α ε : Type} {p : Prog Sig ε α} (plain : p.Makes Turns.Plain) : Settles halts most p :=
  fun _ => Turns.makes_plain plain

variable {settings : Settings} {turns : Nat}

theorem processPage_settles {page : Page} (enough : halts ∨ settings.maxPageRetries + 2 ≤ turns) :
    Settles halts (settings.maxPageRetries + 1) (processPage settings turns job index page) := by
  intro t
  refine Prog.Ends.bind (Q := fun _ t' => t' = {}) (Prog.ends_mapError.mpr ⟨trivial, fun r _ => ?_⟩) ?_
  · cases r with
    | error e => trivial
    | ok image => rfl
  · rintro image _ rfl
    refine pageTurns_ends ⟨Nat.zero_le _, rfl, fun _ _ => Nat.zero_le _, ?_, ?_⟩ (enough.imp_right ?_)
    · intro none
      exact absurd none (lt_irrefl 0)
    · intro none
      exact absurd none (lt_irrefl 0)
    · intro enough
      change _ ≤ 0 + turns
      omega

theorem pageLoop_settles (enough : halts ∨ settings.maxPageRetries + 2 ≤ turns) (pages : List (Page × Nat)) :
    Settles halts (settings.maxPageRetries + 1) (pageLoop settings turns pages job) := by
  induction pages generalizing job with
  | nil => exact fun _ => trivial
  | cons entry rest ih =>
    obtain ⟨page, index⟩ := entry
    unfold pageLoop
    split
    · exact ih
    · refine (settles_plain (withJob_makes cancelIfRequested_plain)).bind fun refreshed => ?_
      cases refreshed with
      | some refreshed => exact fun _ => trivial
      | none =>
        refine (settles_plain (withJob_makes (reload_plain .pageLoop trivial))).bind fun latest => ?_
        refine (settles_plain (withJob_makes pageAt_plain)).bind fun current => ?_
        refine Settles.bind (fun t => Prog.ends_mapError.mpr (processPage_settles enough t)) fun completed => ?_
        split
        · exact fun _ => trivial
        · exact ih

theorem recognizePages_settles {upload : Upload} (enough : halts ∨ settings.maxPageRetries + 2 ≤ turns) :
    Settles halts (settings.maxPageRetries + 1) (recognizePages settings turns job upload) := by
  refine (pageLoop_settles enough job.pages.zipIdx).bind fun flow => ?_
  cases flow with
  | returned reply => exact fun _ => trivial
  | goesOn job =>
    refine (settles_plain (withJob_makes (await_makes .utcNow trivial))).bind fun now => ?_
    cases job.beginAssembling now with
    | error e => exact fun _ => trivial
    | ok begun =>
      refine (settles_plain (withJob_makes saveAndEmit_plain)).bind fun saved => ?_
      refine (settles_plain finish_plain).bind fun flow => ?_
      cases flow with
      | returned reply => exact fun _ => trivial
      | goesOn job => exact (settles_plain (withJob_makes (await_makes (.log ..) trivial))).bind fun _ _ => trivial

theorem advance_settles {upload : Upload} (enough : halts ∨ settings.maxPageRetries + 2 ≤ turns) :
    Settles halts (settings.maxPageRetries + 1) (advance settings turns job upload) := by
  unfold advance
  split
  · refine (settles_plain (withJob_makes (await_makes .utcNow trivial))).bind fun now => ?_
    cases job.beginRunning now with
    | error e => exact fun _ => trivial
    | ok begun =>
      exact (settles_plain (withJob_makes saveAndEmit_plain)).bind fun _ => recognizePages_settles enough
  · split
    · refine (settles_plain finish_plain).bind fun flow => ?_
      cases flow <;> exact fun _ => trivial
    · split
      · exact fun _ => trivial
      · exact recognizePages_settles enough

theorem run_settles (enough : halts ∨ settings.maxPageRetries + 2 ≤ turns) :
    Settles halts (settings.maxPageRetries + 1) (run settings turns job) := by
  refine (settles_plain (withJob_makes (database_makes (.getUpload _) trivial))).bind fun upload => ?_
  cases upload with
  | none => exact (settles_plain (withJob_makes fail_plain)).bind fun _ _ => trivial
  | some upload =>
    refine (settles_plain (withJob_makes startPreprocessing_plain)).bind fun begun => ?_
    refine (settles_plain (withJob_makes preparePages_plain)).bind fun paged => ?_
    refine (settles_plain (withJob_makes cancelIfRequested_plain)).bind fun refreshed => ?_
    cases refreshed with
    | some refreshed => exact fun _ => trivial
    | none => exact advance_settles enough

theorem processBody_settles {message : JobWorkMessage} (enough : halts ∨ settings.maxPageRetries + 2 ≤ turns) :
    Settles halts (settings.maxPageRetries + 1) (processBody settings turns message) := by
  refine (settles_plain (database_makes (.getJob .entry _) trivial).mapError).bind fun job => ?_
  cases job with
  | none => exact (settles_plain (await_makes (.log ..) trivial).mapError).bind fun _ _ => trivial
  | some job =>
    dsimp only
    split
    · exact fun _ => trivial
    · split
      · exact (settles_plain (withJob_makes repairTerminalEvent_plain)).bind fun _ _ => trivial
      · exact run_settles enough

theorem process_settles {message : JobWorkMessage} (enough : halts ∨ settings.maxPageRetries + 2 ≤ turns) :
    Settles halts (settings.maxPageRetries + 1) (process settings turns message) := by
  unfold process
  split
  · exact (settles_plain (await_makes (.log ..) trivial)).bind fun _ _ => trivial
  · refine Settles.bind (fun t => Prog.ends_attempt.mpr (processBody_settles enough t)) fun outcome => ?_
    cases outcome with
    | ok reply => exact fun _ => trivial
    | error raised =>
      dsimp only
      split
      · exact settles_plain resolveConflict_plain
      · exact settles_plain resolveFailure_plain

end OCRWorker

/-- The loop of a worker process may run out of its polls. -/
theorem WorkerMain.runWorker_settles {settings : Settings} {turns polls : Nat} :
    OCRWorker.Settles True (settings.maxPageRetries + 1) (runWorker settings turns polls) := by
  induction polls with
  | zero => exact fun _ => trivial
  | succ polls ih =>
    unfold runWorker
    refine (OCRWorker.settles_plain (OCRWorker.await_makes .stopRequested trivial)).bind fun stop => ?_
    split
    · exact fun _ => trivial
    · refine OCRWorker.Settles.bind (fun t => ⟨trivial, fun r _ => ?_⟩) fun record => ?_
      · cases r <;> trivial
      · cases record with
        | none => exact ih
        | some record =>
          refine OCRWorker.Settles.bind ?_ fun _ =>
            (OCRWorker.settles_plain (OCRWorker.await_makes (.commit ..) trivial)).bind fun _ => ih
          unfold processRecord
          split
          · exact OCRWorker.settles_plain ((OCRWorker.await_makes (.log ..) trivial).bind fun _ =>
              OCRWorker.await_makes (.sendToDlq ..) trivial)
          · exact (OCRWorker.process_settles (.inl trivial)).bind fun _ _ => trivial

end MonkeyOcr
