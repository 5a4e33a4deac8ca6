import MonkeyOcr.Streaming.Position
import MonkeyOcr.Streaming.Sse
import Mathlib

namespace MonkeyOcr

open Calls
open Browser (Subscription SubscriptionError Runtime)

/-- The system with one browser that subscribes to the events of one job. Of the
text a call has sent the browser has read the given number of characters. -/
structure Session where
  system : State
  sent : Nat → List Frame := fun _ => []
  browser : Subscription := {}
  reading : Nat × Nat := (0, 0)

/-- The header `Last-Event-ID` of the next connection. -/
def Browser.Subscription.header (subscription : Subscription) : Option String :=
  (subscription.lastEventId.filter (!·.isEmpty)).map String.ofList

/-- The call of the step and what it sends. -/
def emitted (s : State) (timestamp : Time) : Step → Option (Nat × Frame)
  | .resume i _ =>
    match s.calls[i]?.map Call.prog with
    | some (.call (.yieldEvent event) _) => some (i, .event timestamp event)
    | some (.call .yieldHeartbeat _) => some (i, .heartbeat)
    | _ => none
  | _ => none

def sendFrame (sent : Nat → List Frame) : Option (Nat × Frame) → Nat → List Frame
  | none => sent
  | some (i, frame) => Function.update sent i (sent i ++ [frame])

/-- The next characters of the text that the browser reads. -/
def Session.chunk (x : Session) (serializer : Serializer) (length : Nat) : List Char :=
  ((serializer.text (x.sent x.reading.1)).drop x.reading.2).take length

section

variable (settings : Settings) (serializer : Serializer) (runtime : Runtime) (jobId : Id)

/-- The steps of the system and those of the browser: it connects, reads the
next chunk of any length, finds the end or an error, or is closed. -/
inductive Session.Next (x : Session) : Session → Prop
  | system {action s'} (timestamp : Time) (step : (MonkeyOcr.system settings).step x.system action = some s') :
      Next x { x with system := s', sent := sendFrame x.sent (emitted x.system timestamp action) }
  | connect (turns : Nat) (ownerId : Id) (idle : x.browser.connection = none) (running : x.browser.stopped = false) :
      Next x { x with
        system := { x.system with
          calls := x.system.calls ++
            [Call.begin (MonkeyOcr.system settings) (.streamJobEvents turns jobId ownerId x.browser.header)] }
        browser := { x.browser with connection := some {} }
        reading := (x.system.calls.length, 0) }
  | read (length : Nat) :
      Next x { x with
        browser := x.browser.read runtime (x.chunk serializer length)
        reading := (x.reading.1, x.reading.2 + (x.chunk serializer length).length) }
  | done : Next x { x with browser := x.browser.done }
  | failed (e : SubscriptionError) : Next x { x with browser := x.browser.failed e }
  | close : Next x { x with browser := x.browser.close }

/-- What `onEvent` got is what `JSON.parse` makes of the text the server sent for
the event, with the id the server gave it. -/
structure Carries (event : JobEvent) (got : Browser.JobEvent × Option (List Char)) : Prop where
  id : got.2 = some (toString event.sequence).toList
  json : ∃ timestamp value envelope, runtime.parse (serializer.json timestamp event) = some value ∧
    Browser.assertApiEnvelope runtime value = .ok envelope ∧ Browser.normalizeJobEvent envelope.data = .ok got.1

end

def Frame.event? : Frame → Option JobEvent
  | .event _ sent => some sent
  | .heartbeat => none

/-- The id the browser sends next is the number of events it has passed on. -/
def Browser.Subscription.Placed (subscription : Subscription) : Prop :=
  subscription.lastEventId =
    if subscription.received = [] then none else some (toString subscription.received.length).toList

section

variable {serializer : Serializer} {runtime : Runtime} {subscription : Subscription}

/-- The header names the position from which the server goes on. -/
theorem Browser.Subscription.Placed.parse (placed : subscription.Placed) :
    EventStream.parseLastEventId subscription.header = .ok subscription.received.length := by
  unfold Subscription.header
  rw [placed]
  by_cases none : subscription.received = []
  · rw [if_pos none, none]
    rfl
  · have written : (toString subscription.received.length).toList.isEmpty = false := by
      rw [List.isEmpty_eq_false_iff]
      simp [Nat.toDigits_ne_nil]
    have number : Codec.int? (toString subscription.received.length) = some (subscription.received.length : Int) :=
      Codec.int?_toString _
    have full : toString subscription.received.length ≠ "" := by
      intro empty
      rw [empty] at written
      exact absurd written (by decide)
    simp only [if_neg none, Option.filter_some, written, Bool.not_false, if_true, Option.map_some,
      String.ofList_toList, EventStream.parseLastEventId, ne_eq, full, not_false_eq_true, decide_true, number]

/-- The loop over the blocks of some frames passes on their events, up to the
first error. -/
theorem handle_frames (inline : serializer.Inline) {frames : List Frame} (terminal : Bool)
    {log : List JobEvent} (shown : List.Forall₂ (Carries serializer runtime) log subscription.received)
    (placed : subscription.Placed)
    (numbered : (frames.filterMap Frame.event?).map JobEvent.sequence =
      List.range' (subscription.received.length + 1) (frames.filterMap Frame.event?).length) :
    let (after, outcome) := subscription.handle runtime (frames.map serializer.body) terminal
    ∃ passed, passed <+: frames.filterMap Frame.event? ∧
      List.Forall₂ (Carries serializer runtime) (log ++ passed) after.received ∧
      after.connection = subscription.connection ∧ after.stopped = subscription.stopped ∧
      match outcome with
      | .ok _ => passed = frames.filterMap Frame.event? ∧ after.Placed
      | .error e => e = .protocol ∨ after.Placed := by
  induction frames generalizing subscription terminal log with
  | nil => exact ⟨[], List.nil_prefix, by rwa [List.append_nil], rfl, rfl, rfl, placed⟩
  | cons frame rest ih =>
    have stops : ∀ e : SubscriptionError, ∃ passed, passed <+: (frame :: rest).filterMap Frame.event? ∧
        List.Forall₂ (Carries serializer runtime) (log ++ passed) subscription.received ∧
        subscription.connection = subscription.connection ∧ subscription.stopped = subscription.stopped ∧
        (e = .protocol ∨ subscription.Placed) :=
      fun _ => ⟨[], List.nil_prefix, by rwa [List.append_nil], rfl, rfl, .inr placed⟩
    cases frame with
    | heartbeat =>
      simp only [List.map_cons, Subscription.handle, Serializer.parseSseBlock_body inline, Serializer.message]
      exact ih terminal shown placed numbered
    | event timestamp event =>
      have events : (Frame.event timestamp event :: rest).filterMap Frame.event? =
          event :: rest.filterMap Frame.event? := rfl
      rw [events, List.map_cons, List.length_cons, List.range'_succ, List.cons.injEq] at numbered
      obtain ⟨sequence, numbered⟩ := numbered
      simp only [List.map_cons, Subscription.handle, Serializer.parseSseBlock_body inline, Serializer.message]
      cases parsed : runtime.parse (serializer.json timestamp event) with
      | none => exact stops .other
      | some value =>
        dsimp only
        cases asserted : Browser.assertApiEnvelope runtime value with
        | error e => exact stops e
        | ok envelope =>
          dsimp only
          split
          · exact stops .business
          · have id : (some (toString event.sequence).toList).filter (fun id => !id.isEmpty) =
                some (toString event.sequence).toList := by
              have written : (toString event.sequence).toList.isEmpty = false := by
                rw [List.isEmpty_eq_false_iff]
                simp [Nat.toDigits_ne_nil]
              rw [Option.filter_some, written]
              rfl
            cases normalized : Browser.normalizeJobEvent envelope.data with
            | error e =>
              have protocol : e = .protocol := by
                unfold Browser.normalizeJobEvent at normalized
                split at normalized
                · cases normalized
                · exact (Except.error.inj normalized).symm
              exact ⟨[], List.nil_prefix, by rwa [List.append_nil], rfl, rfl, .inl protocol⟩
            | ok got =>
              have carries : Carries serializer runtime event (got, some (toString event.sequence).toList) :=
                ⟨rfl, timestamp, value, envelope, parsed, asserted, normalized⟩
              dsimp only
              have first : (some (toString event.sequence).toList <|> subscription.lastEventId) =
                some (toString event.sequence).toList := rfl
              rw [id, first]
              have placed' : Subscription.Placed
                  { subscription with
                    lastEventId := some (toString event.sequence).toList
                    received := subscription.received ++ [(got, some (toString event.sequence).toList)] } := by
                simp [Subscription.Placed, sequence]
              have shown' := List.rel_append shown (.cons carries .nil)
              obtain ⟨passed, grows, all, connection, stopped, outcome⟩ :=
                @ih _ (Subscription.terminal got) (log ++ [event]) shown' placed' (by simpa using numbered)
              refine ⟨event :: passed, ?_, ?_, connection, stopped, ?_⟩
              · rw [events]
                exact (List.prefix_append_right_inj [event]).mpr grows
              · rwa [List.append_assoc] at all
              · split at outcome
                · exact ⟨by rw [events, outcome.1], outcome.2⟩
                · exact outcome

end
end MonkeyOcr
