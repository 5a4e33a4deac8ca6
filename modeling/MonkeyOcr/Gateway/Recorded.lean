import Mathlib
import MonkeyOcr.Gateway.Limited

namespace MonkeyOcr

namespace Gateway

open Calls

section

variable (config : Config)

/-- The requests that reach the upstream are those the calls have sent on. -/
def arrivals : Ledger (system config) Outgoing where
  entry
    | ⟨.roundTrip request, _⟩ => some request
    | _ => none
  log := World.arrivals
  exec := by
    intro i op choice w r w' executed
    cases op <;> cases choice <;> cases executed <;> rfl
  env := by
    intro lost w w' moved
    cases Option.some.inj moved
    rfl

/-- The events of the access log are those the calls have emitted. -/
def accesses : Ledger (system config) AccessLogEvent where
  entry
    | ⟨.emit event, _⟩ => some event
    | _ => none
  log := World.accessLog
  exec := by
    intro i op choice w r w' executed
    cases op <;> cases choice <;> cases executed <;> rfl
  env := by
    intro lost w w' moved
    cases Option.some.inj moved
    rfl

variable {config}

theorem left_arrivals (call : Call Sig Request Empty ResponseWriter) :
    (arrivals config).left call = sentOn call.past := by
  refine List.filterMap_congr ?_
  intro entry _
  obtain ⟨op, r⟩ := entry
  cases op <;> rfl

theorem left_accesses (call : Call Sig Request Empty ResponseWriter) :
    (accesses config).left call = emitted call.past := by
  refine List.filterMap_congr ?_
  intro entry _
  obtain ⟨op, r⟩ := entry
  cases op <;> rfl

/-- In every run, what reaches the upstream was sent by a call of its own, and was
admitted: known by its key, and granted by every limiter that counts it. -/
theorem arrivals_admitted {s : State} (run : Reaches config idle s) :
    (s.world.arrivals.map Prod.fst).Nodup ∧
      ∀ i sent, (i, sent) ∈ s.world.arrivals →
        ∃ call, s.calls[i]? = some call ∧ Admitted config call.task call.past sent := by
  have kept : (arrivals config).Kept s := Ledger.Kept.run rfl rfl run
  have obeys := calls_obey run
  refine ⟨Ledger.nodup ?_, ?_⟩
  · intro i
    have entries := kept.entries i
    change s.world.arrivals.filterMap _ = _ at entries
    rw [entries]
    cases found : s.calls[i]? with
    | none => simp
    | some call =>
      rw [Option.elim_some, left_arrivals]
      exact (Obeyed.admitted (obeys call (List.mem_of_getElem? found)).2).2.1
  · intro i sent member
    obtain ⟨call, found, left⟩ := kept.of_mem member
    rw [left_arrivals] at left
    exact ⟨call, found, (Obeyed.admitted (obeys call (List.mem_of_getElem? found)).2).1 sent left⟩

/-- Of the two requests that came at once, the second was sent. -/
theorem arrivals_admitted_twice : ∃ s : State, s.world.arrivals.map Prod.fst = [1] ∧
    (s.world.arrivals.map Prod.fst).Nodup ∧
      ∀ i sent, (i, sent) ∈ s.world.arrivals →
        ∃ call, s.calls[i]? = some call ∧ Admitted sparing call.task call.past sent := by
  obtain ⟨s, run, -, arrived, -⟩ := twice_reaches
  exact ⟨s, arrived, arrivals_admitted run⟩

/-- In every run, a request that is answered has left in the access log what is so of
its answer, once; only preflights, refused bodies, what the router answers by itself and
probes of the health leave none. -/
theorem answers_logged {s : State} (run : Reaches config idle s) :
    (s.world.accessLog.map Prod.fst).Nodup ∧
      (∀ entry ∈ s.world.accessLog, entry.1 < s.calls.length) ∧
      ∀ i call w, s.calls[i]? = some call → call.prog.returned? = some w →
        Answered config call.task w call.past ∧
          (s.world.accessLog.filterMap fun entry => if entry.1 = i then some entry.2 else none) = emitted call.past := by
  have kept : (accesses config).Kept s := Ledger.Kept.run rfl rfl run
  have obeys := calls_obey run
  have entries : ∀ i, (s.world.accessLog.filterMap fun entry => if entry.1 = i then some entry.2 else none) =
      s.calls[i]?.elim [] fun call => emitted call.past := by
    intro i
    have own := kept.entries i
    change s.world.accessLog.filterMap _ = _ at own
    rw [own]
    cases s.calls[i]? with
    | none => rfl
    | some call => exact left_accesses call
  refine ⟨Ledger.nodup ?_, ?_, ?_⟩
  · intro i
    rw [entries i]
    cases found : s.calls[i]? with
    | none => simp
    | some call => exact (Obeyed.admitted (obeys call (List.mem_of_getElem? found)).2).2.2
  · intro entry member
    obtain ⟨call, found, -⟩ := kept.of_mem member
    exact (List.getElem?_eq_some_iff.mp found).1
  · intro i call w found done
    have own := (obeys call (List.mem_of_getElem? found)).1
    rw [Prog.eq_of_returned? done] at own
    rw [entries i, found]
    exact ⟨own, rfl⟩

/-- Both requests are answered and logged. -/
theorem answers_logged_twice : ∃ s : State, s.world.accessLog.map Prod.fst = [1, 0] ∧
    (s.calls.map fun call => call.prog.returned?.map fun w => (w.status, w.body.length)) =
      [some (200, 1), some (200, 2)] ∧
    (s.world.accessLog.map Prod.fst).Nodup ∧
      (∀ entry ∈ s.world.accessLog, entry.1 < s.calls.length) ∧
      ∀ i call w, s.calls[i]? = some call → call.prog.returned? = some w →
        Answered sparing call.task w call.past ∧
          (s.world.accessLog.filterMap fun entry => if entry.1 = i then some entry.2 else none) = emitted call.past := by
  obtain ⟨s, run, -, -, logged, returned⟩ := twice_reaches
  exact ⟨s, logged, returned, answers_logged run⟩

end

end Gateway

end MonkeyOcr
