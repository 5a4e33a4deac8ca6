import MonkeyOcr.Statements.Clients
import MonkeyOcr.Statements.Rollbacks

namespace MonkeyOcr

open Calls

/-- A read of a job that has begun. -/
structure PartialRead where
  site : Site
  head : Job
  pages : Option (List PageRow) := none

/-- What a client remembers: what a call of it would, whether a save has rolled
back, and the read it is in. -/
structure Notes where
  memory : Memory
  failed : Bool := false
  reading : Option PartialRead := none

namespace Notes

open AsyncpgJobRepository

def next (s : Notes) : (statement : Statement) → Except Exc statement.Val → Notes
  | .other op, r => { s with memory := s.memory.next op r, failed := s.failed || op.rollsBack r }
  | .selectJob site id, .ok none => { s with memory := s.memory.next (.getJob site id) (.ok none) }
  | .selectJob site _, .ok (some head) => { s with reading := some ⟨site, head, none⟩ }
  | .selectPages .., .ok pages => { s with reading := s.reading.map fun own => { own with pages := some pages } }
  | .selectArtifacts .., .ok artifacts =>
    match s.reading with
    | some ⟨site, head, some pages⟩ =>
      { s with
        memory := s.memory.next (.getJob site head.id) (.ok (some (fromRows head pages artifacts)))
        reading := none }
    | _ => s
  | .selectJob .., .error _ | .selectPages .., .error _ | .selectArtifacts .., .error _ => { s with reading := none }

def ghost : Ghost StatementSig Notes := ⟨next⟩

/-- A client reads pages and artifacts of the job and the attempt it has found,
and saves nothing after a save that rolled back. -/
def allows (contract : Contract Sig Memory) (s : Notes) : Statement → Prop
  | .other op => s.reading = none ∧ contract.allow s.memory op ∧ (op.saved?.isSome = true → s.failed = false)
  | .selectJob _ _ => s.reading = none
  | .selectPages id attempt => ∃ site head, s.reading = some ⟨site, head, none⟩ ∧ head.id = id ∧ head.attempt = attempt
  | .selectArtifacts id attempt =>
    ∃ site head pages, s.reading = some ⟨site, head, some pages⟩ ∧ head.id = id ∧ head.attempt = attempt

def answers : (statement : Statement) → Except Exc statement.Val → Prop
  | .other op, r => Memory.answer op r ∧ Rollbacks.answers op r
  | .selectJob _ id, .ok (some head) => head.id = id
  | _, _ => True

def contract (client : Client) : Contract StatementSig Notes :=
  ⟨allows client.task.contract, fun _ statement r => answers statement r⟩

variable {client : Client} {s : Notes}

/-- A read of a job, as its three queries. -/
theorem get_meets {site : Site} {id : Id} (idle : s.reading = none) :
    ((get site id).attempt : Prog StatementSig Exc (Except Exc (Option Job))).Meets ghost (contract client)
      (fun r t => Memory.answer (.getJob site id) r ∧ t = { s with memory := s.memory.next (.getJob site id) r })
      (fun _ _ => False) s := by
  obtain ⟨memory, failed, reading⟩ := s
  cases idle
  refine Prog.meets_attempt.mpr ⟨rfl, fun r reliable => ?_⟩
  rcases r with e | _ | head
  · exact ⟨trivial, rfl⟩
  · exact ⟨trivial, rfl⟩
  have own : head.id = id := reliable
  refine ⟨⟨site, head, rfl, own, rfl⟩, fun r _ => ?_⟩
  cases r with
  | error e => exact ⟨trivial, rfl⟩
  | ok pages =>
    refine ⟨⟨site, head, pages, rfl, own, rfl⟩, fun r _ => ?_⟩
    cases r with
    | error e => exact ⟨trivial, rfl⟩
    | ok artifacts =>
      refine ⟨own, ?_⟩
      subst own
      rfl

/-- What a client remembers of its calls, and what their contract does. -/
def Remembers (m : Memory × Bool) (s : Notes) : Prop := s = ⟨m.1, m.2, none⟩

theorem statements_meets {op : Op} {m : Memory × Bool} (allowed : client.task.contract.allow m.1 op)
    (saves : op.saved?.isSome = true → m.2 = false) (related : Remembers m s) :
    (statements op).Meets ghost (contract client)
      (fun r t => (Memory.answer op r ∧ Rollbacks.answers op r) ∧ Remembers (m.1.next op r, m.2 || op.rollsBack r) t)
      (fun _ _ => False) s := by
  subst related
  have direct : (.call (.other op) fun r => .ret (.ok r) : Prog StatementSig Exc (Except Exc op.Val)).Meets ghost
      (contract client) (fun r t => (Memory.answer op r ∧ Rollbacks.answers op r) ∧
        Remembers (m.1.next op r, m.2 || op.rollsBack r) t) (fun _ _ => False) ⟨m.1, m.2, none⟩ :=
    ⟨⟨rfl, allowed, saves⟩, fun r reliable => ⟨reliable, rfl⟩⟩
  cases op with
  | getJob site id =>
    refine (get_meets rfl).mono (fun r t ⟨reliable, same⟩ => ?_) fun _ _ no => no
    exact ⟨⟨reliable, nofun⟩, by simp [Remembers, same, Op.rollsBack, Op.saved?]⟩
  | _ => exact direct

theorem client_yields (settings : Settings) (client : Client) :
    (program settings client.task).Meets Rollbacks.ghost Rollbacks.contract (fun _ _ => True) (fun _ _ => True) false := by
  cases client with
  | process turns message => exact Prog.Meets.bind OCRWorker.process_ends fun _ _ _ => trivial
  | createJob =>
    exact (OCRApplicationService.createJob_yields.andThen fun _ => Rollbacks.yields_pure _).mono
      (fun _ _ _ => trivial) fun _ _ _ => trivial
  | cancelJob =>
    exact (OCRApplicationService.cancelAttempts_yields.andThen fun _ => Rollbacks.yields_pure _).mono
      (fun _ _ _ => trivial) fun _ _ _ => trivial
  | retryJob =>
    exact (OCRApplicationService.retryAttempts_yields.andThen fun _ => Rollbacks.yields_pure _).mono
      (fun _ _ _ => trivial) fun _ _ _ => trivial

/-- Every client keeps its contract, statement by statement. -/
theorem client_meets (settings : Settings) (client : Client) :
    ((clients settings).program client).Meets ghost (contract client) (fun _ _ => True) (fun _ _ => True)
      ⟨client.task.memory, false, none⟩ := by
  have both := (program_meets settings client.task).both (client_yields settings client)
  have fresh : Remembers (client.task.memory, false) ⟨client.task.memory, false, none⟩ := rfl
  refine (both.substitute ?_ fresh).mono (fun _ _ _ => trivial) fun _ _ _ => trivial
  intro op m s allowed related
  refine (statements_meets allowed.1 allowed.2 related).mono (fun r t ⟨reliable, later⟩ => ?_) fun _ _ no => no
  refine ⟨⟨?_, reliable.2⟩, later⟩
  cases client <;> exact reliable.1

end Notes
end MonkeyOcr
