import Mathlib.Data.List.Nodup
import MonkeyOcr.Sandbox.Promises

namespace MonkeyOcr

namespace Sandbox

open Calls Codec Files

/-- What a call remembers of what it has done. -/
def memoryOf (call : SandboxCall) : Memory := call.ghost Memory.ghost Task.memory

/-- What a daemon awaits. -/
def serving? (call : SandboxCall) : Option Op :=
  match call.task, call.prog with
  | .main .., .call op _ => some op
  | _, _ => none

/-- The handlers of the daemons can report what went wrong. -/
def CanReport (s : State) : Step → Prop
  | .resume i choice => ∀ call ∈ s.calls[i]?, ∀ op ∈ serving? call, (memoryOf call).Finds s.world.volume op choice
  | _ => True

instance (s : State) : ∀ action, Decidable (CanReport s action)
  | .resume i choice => inferInstanceAs (Decidable (∀ call ∈ s.calls[i]?, ∀ op ∈ serving? call,
      (memoryOf call).Finds s.world.volume op choice))
  | .start _ | .kill _ | .env _ => isTrue trivial

def parties (s : State) : Parties := s.calls.map fun call => (call.task, memoryOf call)

/-- What holds in every run. -/
structure Holds (settings : Preprocessor) (s : State) : Prop where
  fits : Fits s.world.volume (parties s)
  told : ∀ call ∈ parties s, Told settings s.world.volume (parties s) call.1 call.2
  drawn : ∀ call ∈ parties s, ∀ d, call.2.dir = some d → ∃ hex ∈ s.world.drawn, token d = hex.toList.reverse

/-- The promises to every client, and what they need of the daemons. -/
structure Served (settings : Preprocessor) (s : State) : Prop where
  /-- No daemon ends, whatever `process_request` has met. -/
  alive : ∀ call ∈ s.calls, ∀ turns rounds, call.task = .main turns rounds → ∀ result, call.prog ≠ .ret result
  /-- Every request is claimed at most once, -/
  claimed : (s.calls.flatMap fun call => (memoryOf call).claimed).Nodup
  /-- and rendered at most once. -/
  rendered : (s.calls.flatMap fun call => (memoryOf call).renders.map Render.dir).Nodup
  /-- What a client reads is complete, and answers its own request. -/
  responses : ∀ call ∈ s.calls, ∀ turns upload job, call.task = .prepare turns upload job →
    ∀ bytes ∈ (memoryOf call).responses, ∃ d, (memoryOf call).dir = some d ∧
      ∃ daemon ∈ s.calls, d ∈ (memoryOf daemon).claimed ∧
        ((∃ reason, (decode bytes).bind Json.loads = some (failedPayload reason)) ∨
          (decode bytes).bind Json.loads = some okPayload ∧ d ∈ (memoryOf daemon).returned ∧
            (settings.requested upload job).render d ∈ (memoryOf daemon).renders)

section

variable {settings : Preprocessor} {strict : Prop} {s : State} {i : Nat} {choice : Choice} {call : SandboxCall} {op : Op}
  {next : Except Raised op.Val → Program Reply} {r : Except Raised op.Val} {w : World}

theorem parties_answered : parties ⟨w, s.calls.set i (call.answered op r next)⟩ =
    (parties s).set i (call.task, (memoryOf call).next op r) := by
  rw [parties, List.map_set]
  rfl

theorem parties_begin (task : Task) :
    parties { s with calls := s.calls ++ [Call.begin (system settings) task] } = parties s ++ [(task, task.memory)] := by
  rw [parties, List.map_append]
  rfl

theorem parties_killed : parties { s with calls := s.calls.modify i Call.killed } = parties s := by
  refine List.ext_getElem? fun j => ?_
  rw [parties, parties, List.getElem?_map, List.getElem?_map, List.getElem?_modify]
  cases s.calls[j]? with
  | none => split <;> rfl
  | some call => split <;> rfl

theorem parties_at (at_i : s.calls[i]? = some call) : (parties s)[i]? = some (call.task, memoryOf call) := by
  rw [parties, List.getElem?_map, at_i]
  rfl

/-- What is published is a request. -/
theorem Holds.forms (holds : Holds settings s) (d : String) (bytes : List (BitVec 8))
    (published : Published (parties s) d bytes) : ∃ request : Request, bytes = request.bytes := by
  obtain ⟨call, member, -, sent⟩ := published
  obtain ⟨-, upload, job, -, same⟩ := (holds.told call member).published bytes sent
  exact ⟨settings.requested upload job, same⟩

theorem Holds.answered (holds : Holds settings s) (at_i : s.calls[i]? = some call)
    (allowed : (call.task.contract settings strict).allow (memoryOf call) op)
    (executed : s.world.exec op choice = some (r, w)) : Holds settings ⟨w, s.calls.set i (call.answered op r next)⟩ := by
  have at_i := parties_at at_i
  have here := List.mem_of_getElem? at_i
  have told := holds.told _ here
  have change := exec_change allowed executed
  have grows : (memoryOf call).Grows ((memoryOf call).next op r) := grows_next allowed
  have own := fun d => next_drawn (d := d) allowed told.stem executed
  have fresh : ∀ d, ((memoryOf call).next op r).dir = some d → (memoryOf call).dir ≠ some d →
      ∀ other ∈ parties s, other.2.dir ≠ some d := by
    intro d dir before other member there
    rcases own d dir with old | ⟨hex, new, -, part⟩
    · exact before old
    · obtain ⟨hex', drawn, part'⟩ := holds.drawn other member d there
      have same : hex = hex' := String.toList_inj.mp (List.reverse_injective (part.symm.trans part'))
      exact new (same ▸ drawn)
  refine ⟨?_, ?_, ?_⟩
  · rw [parties_answered]
    exact holds.fits.step at_i change grows fresh
  · intro other member
    rw [parties_answered] at member ⊢
    rcases mem_step member with ⟨j, -, at_j⟩ | rfl
    · exact (holds.told other (List.mem_of_getElem? at_j)).kept change at_i grows
    · exact (told.next holds.fits here allowed executed holds.forms).kept change at_i grows
  · intro other member d dir
    have kept : ∀ hex ∈ s.world.drawn, hex ∈ w.drawn := by
      intro hex drawn
      rcases exec_drawn executed with same | ⟨new, -, -, -, same⟩
      · exact same ▸ drawn
      · exact same ▸ List.mem_cons_of_mem _ drawn
    rw [parties_answered] at member
    rcases mem_step member with ⟨j, -, at_j⟩ | rfl
    · obtain ⟨hex, drawn, part⟩ := holds.drawn other (List.mem_of_getElem? at_j) d dir
      exact ⟨hex, kept hex drawn, part⟩
    · rcases own d dir with old | ⟨hex, -, drawn, part⟩
      · obtain ⟨hex, drawn, part⟩ := holds.drawn _ here d old
        exact ⟨hex, kept hex drawn, part⟩
      · exact ⟨hex, drawn, part⟩

theorem Holds.begin (holds : Holds settings s) (task : Task) :
    Holds settings { s with calls := s.calls ++ [Call.begin (system settings) task] } := by
  refine ⟨?_, ?_, ?_⟩
  · rw [parties_begin]
    exact holds.fits.more task
  · intro call member
    rw [parties_begin] at member ⊢
    rcases List.mem_append.mp member with old | new
    · exact (holds.told call old).more task
    · cases List.mem_singleton.mp new
      exact .start task
  · intro call member d dir
    rw [parties_begin] at member
    rcases List.mem_append.mp member with old | new
    · exact holds.drawn call old d dir
    · cases List.mem_singleton.mp new
      rw [task.memory_blank.1] at dir
      cases dir

theorem Holds.killed (holds : Holds settings s) : Holds settings { s with calls := s.calls.modify i Call.killed } := by
  obtain ⟨fits, told, drawn⟩ := holds
  refine ⟨?_, ?_, ?_⟩
  · rw [parties_killed]
    exact fits
  · rw [parties_killed]
    exact told
  · rw [parties_killed]
    exact drawn

theorem holds_idle : Holds settings idle := by
  have nothing : ∀ name parent, idle.world.volume.node (name :: parent) = none := fun _ _ => rfl
  have nobody : ∀ call, call ∉ parties idle := fun _ => List.not_mem_nil
  refine ⟨⟨?_, fun call member => absurd member (nobody call), fun _ _ call _ at_i => ?_, ?_,
    fun call member => absurd member (nobody call), ?_, ?_⟩, fun call member => absurd member (nobody call),
    fun call member => absurd member (nobody call)⟩
  · intro name d parent there
    rw [nothing] at there
    cases there
  · exact absurd (List.mem_of_getElem? at_i) (nobody call)
  · intro d k there
    rw [nothing] at there
    cases there
  · intro d k there
    rw [nothing, nothing] at there
    rcases there with there | there <;> cases there
  · intro d k there
    rw [nothing] at there
    cases there

/-- Calls keep their contracts, and what holds goes on to hold. -/
theorem sandbox_sound (settings : Preprocessor) (strict : Prop) :
    Sound (system settings) (fun s action => strict → CanReport s action) Memory.ghost Task.memory
      (Task.contract settings strict) Task.Returns (Task.Raises strict) (Holds settings) where
  program := program_meets settings strict
  start _ task holds _ := holds.begin task
  resume s i choice call op next r w holds permitted _ at_i prog executed allowed := by
    refine ⟨holds.answered at_i allowed executed, ?_⟩
    have here := List.mem_of_getElem? (parties_at at_i)
    refine exec_answer holds.fits (holds.told _ here) here allowed executed holds.forms ?_
    intro holds turns rounds main
    refine permitted holds call at_i op ?_
    rw [serving?, main, prog]
    rfl
  kill s i holds _ := holds.killed (i := i)
  env _ event := event.elim

/-- No two calls have one directory. -/
theorem Holds.same_dir (holds : Holds settings s) {a b : Task × Memory} (first : a ∈ parties s) (second : b ∈ parties s)
    {d : String} (here : a.2.dir = some d) (there : b.2.dir = some d) : a = b := by
  obtain ⟨i, at_i⟩ := List.mem_iff_getElem?.mp first
  obtain ⟨j, at_j⟩ := List.mem_iff_getElem?.mp second
  by_cases same : i = j
  · subst same
    exact Option.some.inj (at_i.symm.trans at_j)
  · exact absurd there ((holds.fits.apart i j a b at_i at_j same).dir d here)

theorem Holds.apart (holds : Holds settings s) : s.calls.Pairwise fun a b => Apart (memoryOf a) (memoryOf b) := by
  rw [List.pairwise_iff_getElem]
  intro i j first second less
  have at_i := parties_at (List.getElem?_eq_getElem first)
  have at_j := parties_at (List.getElem?_eq_getElem second)
  exact holds.fits.apart i j _ _ at_i at_j (Nat.ne_of_lt less)

theorem mem_parties {call : SandboxCall} (member : call ∈ s.calls) : (call.task, memoryOf call) ∈ parties s :=
  List.mem_map_of_mem member

/-- Every request is claimed at most once, -/
theorem Holds.claimed (holds : Holds settings s) : (s.calls.flatMap fun call => (memoryOf call).claimed).Nodup := by
  refine List.nodup_flatMap.mpr ⟨fun call member => (holds.told _ (mem_parties member)).claimed, ?_⟩
  refine holds.apart.imp fun apart => ?_
  intro d here there
  exact apart.claimed d here there

/-- and rendered at most once. -/
theorem Holds.rendered (holds : Holds settings s) :
    (s.calls.flatMap fun call => (memoryOf call).renders.map Render.dir).Nodup := by
  refine List.nodup_flatMap.mpr ⟨fun call member => (holds.told _ (mem_parties member)).rendered, ?_⟩
  refine holds.apart.imp_of_mem ?_
  intro a b first second apart d here there
  obtain ⟨render, asked, rfl⟩ := List.mem_map.mp here
  obtain ⟨render', asked', same⟩ := List.mem_map.mp there
  have claimed := ((holds.told _ (mem_parties first)).renders render asked).1
  have claimed' := ((holds.told _ (mem_parties second)).renders render' asked').1
  exact apart.claimed _ claimed (same ▸ claimed')

theorem Request.bytes_inj {a b : Request} (same : a.bytes = b.bytes) : a = b := by
  have text : some a.json.dumps = some b.json.dumps := by
    rw [← decode_utf8, ← decode_utf8]
    exact congrArg decode same
  have json : some a.json = some b.json := by
    rw [← Request.loads, ← Request.loads, Option.some.inj text]
  exact Request.json_inj (Option.some.inj json)

theorem payload_loads (payload : Json) (literals : payload.Literals) :
    (decode (Bytes.utf8 payload.dumps)).bind Json.loads = some payload := by
  rw [decode_utf8]
  exact Json.loads_dumps literals

/-- What a client has read is complete, and answers its own request. -/
theorem Holds.responses (holds : Holds settings s) (member : call ∈ s.calls) {turns : Nat} {upload : Upload} {job : Job}
    (client : call.task = .prepare turns upload job) {bytes : List (BitVec 8)} (read : bytes ∈ (memoryOf call).responses) :
    ∃ d, (memoryOf call).dir = some d ∧ ∃ daemon ∈ s.calls, d ∈ (memoryOf daemon).claimed ∧
      ((∃ reason, (decode bytes).bind Json.loads = some (failedPayload reason)) ∨
        (decode bytes).bind Json.loads = some okPayload ∧ d ∈ (memoryOf daemon).returned ∧
          (settings.requested upload job).render d ∈ (memoryOf daemon).renders) := by
  have here := mem_parties member
  obtain ⟨d, dir, other, there, entry⟩ := (holds.told _ here).responses bytes read
  obtain ⟨daemon, served, rfl⟩ := List.mem_map.mp there
  have told := holds.told _ there
  obtain ⟨claimed, complete⟩ := told.answered d bytes entry
  refine ⟨d, dir, daemon, served, claimed, ?_⟩
  rcases complete with ⟨rfl, returned⟩ | ⟨reason, rfl⟩
  · obtain ⟨render, asked, rfl⟩ := told.returned d returned
    obtain ⟨-, request, published, same⟩ := told.renders render asked
    obtain ⟨publisher, sender, own, sent⟩ := published
    have self := holds.same_dir sender here own dir
    subst self
    obtain ⟨turns', upload', job', task, bytes⟩ := (holds.told _ here).published _ sent
    cases client.symm.trans task
    refine .inr ⟨payload_loads _ (by simp [okPayload, Json.Literals, Json.LiteralsMembers]), returned, ?_⟩
    rw [← Request.bytes_inj bytes, ← same]
    exact asked
  · exact .inl ⟨reason, payload_loads _ (by simp [failedPayload, Json.Literals, Json.LiteralsMembers])⟩

end

/-- As long as its handlers can report, no daemon ends, and every request is processed at
most once. -/
theorem sandbox_survives {settings : Preprocessor} {s : State} (run : (system settings).Run CanReport idle s) :
    Served settings s := by
  have lax : (system settings).Run (fun s action => True → CanReport s action) idle s := run.mono fun _ _ can _ => can
  obtain ⟨holds, tracks⟩ := (sandbox_sound settings True).run holds_idle (fun call member => by cases member) lax
  refine ⟨?_, holds.claimed, holds.rendered, ?_⟩
  · intro call member turns rounds main result ended
    have kept := tracks call member
    rw [Tracks, ended, main] at kept
    cases result with
    | ok => exact kept
    | error => exact kept trivial
  · intro call member turns upload job client bytes read
    exact holds.responses member client read

/-! ### A request, and two ends of it -/

def resumed (i : Nat) (choices : List Choice) : List Step := choices.map (.resume i)

def blankUpload : Upload where
  id := 0
  ownerId := 7
  filename := "scan.png"
  sizeBytes := 0
  contentType := "image/png"
  sha256 := ""
  objectKey := .source 0
  state := .completed
  createdAt := 0
  completedAt := some 0
  detectedContentType := none
  multipartUploadId := none

def blankJob : Job where
  ownerId := 7
  uploadId := 0
  requestId := ""
  options := []
  id := 1
  idempotencyKey := none
  createdAt := 0
  updatedAt := 0

/-- A client publishes its request, and a daemon claims it. -/
def claimSteps : List Step :=
  let size := (Preprocessor.requested {} blankUpload blankJob).bytes.length
  .start (.prepare 1 blankUpload blankJob) ::
    resumed 0 [.hex "a", .go, .data [], .go, .go, .count size, .go, .time 0] ++
  .start (.main 1 1) :: resumed 1 [.listing [("1-1-a", true)], .go, .go]

/-- The daemon renders the request and answers it, and the client reads the response. -/
def answerSteps : List Step :=
  resumed 1 [.go, .go, .go, .go, .go, .count (Bytes.utf8 okPayload.dumps).length, .go] ++ resumed 0 [.go, .go, .go]

/-- The client has waited long enough, and removes the directory. The daemon cannot read the
request then, and cannot report it. -/
def timeoutSteps : List Step :=
  resumed 0 [.go, .time 300, .listing [("input", false), ("processing.json", false)], .go, .go, .go] ++ resumed 1 [.go, .go]

/-- A request that is answered. -/
theorem sandbox_survives_answered : ∃ s call, (system {}).runsIf CanReport idle (claimSteps ++ answerSteps) = some s ∧
    s.calls[0]? = some call ∧ (memoryOf call).responses = [Bytes.utf8 okPayload.dumps] ∧ Served {} s := by
  have played : ((system {}).runsIf CanReport idle (claimSteps ++ answerSteps)).bind (fun s =>
      s.calls[0]?.map fun call => (memoryOf call).responses) = some [Bytes.utf8 okPayload.dumps] := by decide +kernel
  obtain ⟨s, runs, rest⟩ := Option.bind_eq_some_iff.mp played
  obtain ⟨call, at_0, responses⟩ := Option.map_eq_some_iff.mp rest
  exact ⟨s, call, runs, at_0, responses, sandbox_survives (.of_runsIf runs)⟩

/-- The class of what the daemon has raised. -/
def raisedClass (call : Calls.Call Sig Task Raised Reply) : String :=
  match call.task, call.prog with
  | .main 1 1, .ret (.error e) => e.className
  | _, _ => ""

/-- Without the condition a daemon ends. -/
theorem sandbox_not_survives : ¬ ∀ s, (system {}).Run (fun _ _ => True) idle s → Served {} s := by
  intro survives
  have played : ((system {}).runs idle (claimSteps ++ timeoutSteps)).bind (fun s => s.calls[1]?.map raisedClass) = some "FileNotFoundError" := by decide +kernel
  obtain ⟨s, runs, rest⟩ := Option.bind_eq_some_iff.mp played
  obtain ⟨call, at_1, ended⟩ := Option.map_eq_some_iff.mp rest
  have alive := (survives s (.of_runs runs fun _ _ _ => trivial)).alive call (List.mem_of_getElem? at_1)
  unfold raisedClass at ended
  split at ended
  · rename_i task prog
    exact alive 1 1 task _ prog
  · exact absurd ended (by decide)

end Sandbox

end MonkeyOcr
