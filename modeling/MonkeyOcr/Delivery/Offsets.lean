import MonkeyOcr.Delivery.Topic

namespace MonkeyOcr

open Calls
open Codec (Json)

/-- Messages on their way: what is listed stands in the outbox, and what is
sent or marked stands in the topic. -/
structure Delivered (s : State) : Prop where
  listed : ∀ call ∈ s.calls, ∀ event ∈ (memoryOf call).listed, ∃ row ∈ s.world.outbox, row.event = event
  sent : ∀ call ∈ s.calls, ∀ value ∈ (memoryOf call).sent, s.world.Published value
  published : ∀ row ∈ s.world.outbox, row.published = true →
    ∃ message, messageOf row.event.payload = .ok message ∧ s.world.Published (KafkaJobPublisher.encode message)
  asked : ∀ p, ∀ entry ∈ s.world.kafka.log p, ∃ message, decodeJobMessage entry.2 = .ok message ∧
    message.schemaVersion = 1 ∧ s.world.Asked message

/-- A call with a message has found its job, at the attempt of the message or later. -/
def Reading (s : State) : Prop :=
  ∀ call ∈ s.calls, ∀ message, workOf call = some message → s.world.Asked message ∧
    message.jobId ∉ (memoryOf call).missing ∧
    ∀ entry ∈ (memoryOf call).seen, entry.2.id = message.jobId → message.attempt ≤ entry.2.attempt

/-- The consumer `i` has the record at the offset in hand. -/
def InHand (s : State) (i p offset : Nat) : Prop :=
  ∃ (call : SystemCall) (record : Record), s.calls[i]? = some call ∧
    (memoryOf call).record = some record ∧ record.partition = p ∧ record.offset = offset

/-- What is committed is dealt with, and a consumer has read past what is dealt
with and the record in its hand only. -/
structure Offsets (s : State) : Prop where
  committed : ∀ p, s.world.kafka.committed p ≤ (s.world.kafka.log p).length ∧
    ∀ o < s.world.kafka.committed p, s.world.Cleared p o
  positions : ∀ i p offset, s.world.kafka.positions i p = some offset →
    offset ≤ (s.world.kafka.log p).length ∧ ∀ o < offset, s.world.Cleared p o ∨ InHand s i p o
  records : ∀ call ∈ s.calls, ∀ record, (memoryOf call).record = some record →
    (s.world.kafka.log record.partition)[record.offset]? = some (record.key, record.value) ∧
    (memoryOf call).message = (decodeJobMessage record.value).toOption ∧
    ∀ o < record.offset, s.world.Cleared record.partition o

section

variable {settings : Settings} {first s s' : State} {action : Step} {call : SystemCall} {op : Op}
  {i p offset : Nat} {message : JobWorkMessage}

theorem Moves.log_grows (moves : Moves settings s action s') (p : Nat) :
    s.world.kafka.log p <+: s'.world.kafka.log p := by
  cases moves with
  | start => exact List.prefix_rfl
  | kill => exact List.prefix_rfl
  | env event => cases event <;> exact List.prefix_rfl
  | resume at_i prog executed allowed => exact (World.exec_kafka executed).log_grows p

/-- The message of an outbox row is for an attempt its job has had. -/
theorem Requested.asked (requested : Requested s) {row : OutboxRow} (member : row ∈ s.world.outbox)
    (decoded : messageOf row.event.payload = .ok message) :
    message.schemaVersion = 1 ∧ s.world.Asked message := by
  obtain ⟨other, same, schema⟩ := requested.decoded row member
  cases Except.ok.inj (decoded.symm.trans same)
  refine ⟨schema, ?_⟩
  have requests : row.requests message.jobId message.attempt = true := by
    simp [OutboxRow.requests, decoded]
  have positive : 0 < s.world.outbox.countP (·.requests message.jobId message.attempt) :=
    List.countP_pos_iff.mpr ⟨row, member, requests⟩
  rw [requested.once] at positive
  split at positive
  · rename_i reached
    cases stored : s.world.jobs message.jobId with
    | none =>
      rw [World.attemptsOf_none stored] at reached
      omega
    | some jobRow =>
      rw [World.attemptsOf_some stored] at reached
      exact ⟨jobRow, stored, reached.2⟩
  · omega

/-- Only the dispatcher sends and marks. -/
theorem Task.contract_dispatches (allowed : call.task.contract.allow (memoryOf call) op)
    (dispatches : (∃ key value, op = .sendAndWait key value) ∨ ∃ id, op = .markPublished id) :
    (memoryOf call).dispatcherCalls op := by
  have worker : ¬ ∃ message, (memoryOf call).message = some message ∧ (memoryOf call).workerCalls message op := by
    intro ⟨_, _, calls⟩
    rcases dispatches with ⟨_, _, rfl⟩ | ⟨_, rfl⟩ <;> exact calls
  generalize call.task = task at allowed
  cases task with
  | dispatchOnce => exact allowed
  | process => exact absurd allowed worker
  | runWorker =>
    rcases allowed with own | other
    · exact absurd own worker
    · rcases dispatches with ⟨_, _, rfl⟩ | ⟨_, rfl⟩ <;> exact other.elim
  | _ => rcases dispatches with ⟨_, _, rfl⟩ | ⟨_, rfl⟩ <;> exact allowed.elim

/-- Only a worker process polls and commits. -/
theorem Task.contract_consumes (allowed : call.task.contract.allow (memoryOf call) op)
    (consumes : op = .getMany ∨ ∃ p offset, op = .commit p offset) :
    (∃ turns polls, call.task = .runWorker turns polls) ∧ (memoryOf call).consumerCalls op := by
  have worker : ¬ ∃ message, (memoryOf call).message = some message ∧ (memoryOf call).workerCalls message op := by
    intro ⟨_, _, calls⟩
    rcases consumes with rfl | ⟨_, _, rfl⟩ <;> exact calls
  generalize call.task = task at allowed
  cases task with
  | runWorker turns polls => exact ⟨⟨turns, polls, rfl⟩, allowed.resolve_left worker⟩
  | process => exact absurd allowed worker
  | _ => rcases consumes with rfl | ⟨_, _, rfl⟩ <;> exact allowed.elim

theorem Initial.delivered (initial : Initial s) : Delivered s where
  listed := by simp [initial.calls]
  sent := by simp [initial.calls]
  published := by simp [initial.world.outbox]
  asked := by simp [initial.world.kafka]

theorem Delivered.step (coherent : Coherent s) (requested : Requested s) (delivered : Delivered s)
    (moves : Moves settings s action s') : Delivered s' := by
  have grows := moves.log_grows
  have later := requested.later coherent moves
  cases moves with
  | start task =>
    refine ⟨fun call member => ?_, fun call member => ?_, delivered.published, delivered.asked⟩
    · rcases List.mem_append.mp member with old | new
      · exact delivered.listed call old
      · cases List.mem_singleton.mp new
        cases task <;> exact nofun
    · rcases List.mem_append.mp member with old | new
      · exact delivered.sent call old
      · cases List.mem_singleton.mp new
        cases task <;> exact nofun
  | kill i =>
    refine ⟨fun call member => ?_, fun call member => ?_, delivered.published, delivered.asked⟩
    · rcases Machine.mem_modify_killed member with old | ⟨before, memberBefore, rfl⟩
      · exact delivered.listed call old
      · exact delivered.listed before memberBefore
    · rcases Machine.mem_modify_killed member with old | ⟨before, memberBefore, rfl⟩
      · exact delivered.sent call old
      · exact delivered.sent before memberBefore
  | env event =>
    cases event <;> exact ⟨delivered.listed, delivered.sent, delivered.published, delivered.asked⟩
  | @resume i choice call op r next w at_i prog executed allowed =>
    have here := List.mem_of_getElem? at_i
    have change := requested.outbox coherent.consistent at_i allowed executed
    have kept : ∀ {event : OutboxEvent}, (∃ row ∈ s.world.outbox, row.event = event) →
        ∃ row ∈ w.outbox, row.event = event := by
      intro event ⟨row, member, same⟩
      obtain ⟨row', member', same'⟩ := change.keeps member
      exact ⟨row', member', same'.trans same⟩
    refine ⟨fun other member event listed => ?_, fun other member value sent => ?_,
      fun row member marked => ?_, fun p entry member => ?_⟩
    · rcases Machine.mem_set_answered member with old | rfl
      · exact kept (delivered.listed other old event listed)
      · rcases Memory.next_listed executed event listed with old | stands
        · exact kept (delivered.listed call here event old)
        · exact kept stands
    · rcases Machine.mem_set_answered member with old | rfl
      · exact (delivered.sent other old value sent).later grows
      · rcases Memory.next_sent executed value sent with old | now
        · exact (delivered.sent call here value old).later grows
        · exact now
    · rcases change.mem member with ⟨old, memberOld, same, before | rfl⟩ | ⟨job, -, unmarked, -⟩
      · obtain ⟨message, decoded, published⟩ := delivered.published old memberOld (before ▸ marked)
        exact ⟨message, same ▸ decoded, published.later grows⟩
      · obtain ⟨event, listed, id, message, decoded, sent⟩ :=
          Task.contract_dispatches allowed (.inr ⟨_, rfl⟩)
        obtain ⟨other, memberOther, rfl⟩ := delivered.listed call here event listed
        have event := requested.distinct old memberOld other memberOther (by rw [same, id])
        refine ⟨message, ?_, (delivered.sent call here _ sent).later grows⟩
        rw [← same, event]
        exact decoded
      · rw [unmarked] at marked
        cases marked
    · rcases (World.exec_kafka executed).mem_log member with old | rfl
      · obtain ⟨message, decoded, schema, asked⟩ := delivered.asked p entry old
        exact ⟨message, decoded, schema, asked.later later⟩
      · obtain ⟨event, listed, message, decoded, value⟩ := Task.contract_dispatches allowed (.inl ⟨_, _, rfl⟩)
        obtain ⟨row, memberRow, rfl⟩ := delivered.listed call here event listed
        obtain ⟨schema, asked⟩ := requested.asked memberRow decoded
        exact ⟨message, value ▸ decode_encode message, schema, asked.later later⟩

theorem Initial.reading (initial : Initial s) : Reading s := by simp [Reading, initial.calls]

/-- The step lemma of what calls read: the job of a message has reached its attempt. -/
theorem Reading.step (coherent : Coherent s) (requested : Requested s) (requested' : Requested s')
    (delivered : Delivered s) (reading : Reading s) (permitted : WithoutRetention s action)
    (moves : Moves settings s action s') : Reading s' := by
  have later := requested.later coherent moves
  have kept : ∀ call ∈ s.calls, ∀ message, workOf call = some message → s'.world.Asked message ∧
      message.jobId ∉ (memoryOf call).missing ∧
      ∀ entry ∈ (memoryOf call).seen, entry.2.id = message.jobId → message.attempt ≤ entry.2.attempt := by
    intro call member message works
    obtain ⟨asked, found, seen⟩ := reading call member message works
    exact ⟨asked.later later, found, seen⟩
  have logged : ∀ {p entry message}, entry ∈ s.world.kafka.log p → decodeJobMessage entry.2 = .ok message →
      s'.world.Asked message := by
    intro p entry message member decoded
    obtain ⟨other, same, -, asked⟩ := delivered.asked p entry member
    cases Except.ok.inj (decoded.symm.trans same)
    exact asked.later later
  cases moves with
  | start task =>
    intro call member message works
    rcases List.mem_append.mp member with old | new
    · exact kept call old message works
    · cases List.mem_singleton.mp new
      cases task <;> cases works
      obtain ⟨p, entry, published, decoded⟩ := permitted
      exact ⟨logged published decoded, List.not_mem_nil, fun _ seen => absurd seen List.not_mem_nil⟩
  | kill i =>
    intro call member
    rcases Machine.mem_modify_killed member with old | ⟨before, memberBefore, rfl⟩
    · exact kept call old
    · exact kept before memberBefore
  | env event =>
    rw [World.rebalance_kafka] at kept ⊢
    exact kept
  | @resume i choice call op r next w at_i prog executed allowed =>
    have here := List.mem_of_getElem? at_i
    have inv := coherent.consistent
    intro other member message works
    rcases Machine.mem_set_answered member with old | rfl
    · exact kept other old message works
    have missing := Memory.next_missing (m := memoryOf call) executed
    have seen := Memory.next_seen (Task.contract_writes allowed) inv.tidy (inv.known call here)
      (inv.lost call here) executed
    have carries : workOf call = some message → w.Asked message ∧
        message.jobId ∉ ((memoryOf call).next op r).missing ∧
        ∀ entry ∈ ((memoryOf call).next op r).seen, entry.2.id = message.jobId →
          message.attempt ≤ entry.2.attempt := by
      intro before
      obtain ⟨asked, found, reached⟩ := kept call here message before
      obtain ⟨row, stored, attempt⟩ := asked
      refine ⟨⟨row, stored, attempt⟩, fun absent => ?_, fun entry memberSeen own => ?_⟩
      · rcases missing _ absent with old | gone
        · exact found old
        · have claimed := gone row stored
          rw [(requested'.unclaimed _ row stored).1] at claimed
          cases claimed
      · rcases seen entry memberSeen with old | ⟨⟨row', stored', -, version⟩, -⟩
        · exact reached entry old own
        · rw [own] at stored'
          cases Option.some.inj (stored.symm.trans stored')
          exact attempt.trans (congrArg Version.attempt version).le
    by_cases polls : op = .getMany
    · subst polls
      have topic := World.exec_kafka executed
      generalize w.kafka = k at topic
      cases topic with
      | same other => exact absurd rfl other
      | idle failed =>
        rcases r with e | _ | record
        · exact carries works
        · exact carries works
        · exact absurd rfl (failed record)
      | @polled record _ entry =>
        obtain ⟨⟨turns, polls, task⟩, -⟩ := Task.contract_consumes allowed (.inl rfl)
        have decoded : (decodeJobMessage record.value).toOption = some message := by
          rw [workOf, memoryOf_answered] at works
          simp only [Call.answered, task] at works
          exact works
        refine ⟨logged (List.mem_of_getElem? entry) ?_, List.not_mem_nil, fun _ seen => absurd seen List.not_mem_nil⟩
        cases value : decodeJobMessage record.value with
        | error e => rw [value] at decoded; cases decoded
        | ok other =>
          rw [value] at decoded
          cases decoded
          rfl
    · exact carries (workOf_answered (Memory.next_kept polls).2 works)

/-- A job whose message needs no more work is beyond the message. -/
theorem Reading.settled (coherent : Coherent s) (reading : Reading s) (member : call ∈ s.calls)
    (works : workOf call = some message) (settled : (memoryOf call).Settled message) :
    s.world.Handled message := by
  obtain ⟨⟨row, stored, reached⟩, found, seen⟩ := reading call member message works
  refine ⟨row, stored, reached, fun same => ?_⟩
  rcases settled with absent | ⟨origin, job, memberSeen, own, ended⟩
  · exact absurd absent found
  · have follows := coherent.consistent.known call member _ memberSeen row (own ▸ stored)
    have low : message.attempt ≤ job.attempt := seen _ memberSeen own
    have high : job.attempt ≤ row.currentAttempt := follows.evolves.attempt_le
    rcases ended with terminal | different
    · have terminal : job.version.terminal := by simpa [Version.terminal, Job.terminal, Job.version] using terminal
      have state := follows.evolves.terminal_state (show row.currentAttempt = job.attempt by omega) terminal
      simpa [Version.terminal, state] using terminal
    · omega

theorem Initial.offsets (initial : Initial s) : Offsets s where
  committed := by simp [initial.world.kafka]
  positions := by simp [initial.world.kafka]
  records := by simp [initial.calls]

/-- The record in hand of a consumer that is done with it is dealt with. -/
theorem Offsets.done (coherent : Coherent s) (delivered : Delivered s) (reading : Reading s)
    (offsets : Offsets s) (member : call ∈ s.calls) {turns polls : Nat}
    (task : call.task = .runWorker turns polls) {record : Record}
    (holds : (memoryOf call).record = some record) (done : (memoryOf call).Done) :
    s.world.Cleared record.partition record.offset := by
  obtain ⟨stored, message, -⟩ := offsets.records call member record holds
  intro entry found asked decoded
  cases Option.some.inj (stored.symm.trans found)
  obtain ⟨same, decoded', schema, -⟩ := delivered.asked record.partition _ (List.mem_of_getElem? stored)
  cases Except.ok.inj (decoded.symm.trans decoded')
  have here : (memoryOf call).message = some asked := by
    rw [message, decoded]
    rfl
  refine reading.settled coherent member ?_ (done asked here schema)
  rw [workOf, task]
  exact here

/-- What has been dealt with at a record in the topic stays dealt with. -/
theorem Offsets.later (moves : Moves settings s action s') (later : s.world.Later s'.world)
    (inside : offset ≤ (s.world.kafka.log p).length) :
    offset ≤ (s'.world.kafka.log p).length ∧
      ∀ o < offset, s.world.Cleared p o → s'.world.Cleared p o := by
  have grows := moves.log_grows p
  exact ⟨inside.trans grows.length_le, fun o below cleared =>
    cleared.later (below.trans_le inside) grows later⟩

theorem InHand.old (hand : InHand s i p offset) {k : Nat} {r : Except Exc op.Val}
    {next : Except Exc op.Val → Program Reply} {w : World} (at_k : s.calls[k]? = some call)
    (kept : ((memoryOf call).next op r).record = (memoryOf call).record) :
    InHand (resumed s k call op r next w) i p offset := by
  obtain ⟨other, record, at_i, holds, place⟩ := hand
  by_cases same : k = i
  · subst same
    cases Option.some.inj (at_i.symm.trans at_k)
    refine ⟨call.answered (S := Sig) op r next, record, ?_, ?_, place⟩
    · simp only [List.getElem?_set_self', at_k]
      rfl
    · rw [memoryOf_answered, kept, holds]
  · exact ⟨other, record, by rw [List.getElem?_set_ne same]; exact at_i, holds, place⟩

theorem Offsets.step (coherent : Coherent s) (requested : Requested s) (delivered : Delivered s)
    (reading : Reading s) (offsets : Offsets s) (moves : Moves settings s action s') : Offsets s' := by
  have later := requested.later coherent moves
  have grows := moves.log_grows
  have committed : ∀ p, s.world.kafka.committed p ≤ (s'.world.kafka.log p).length ∧
      ∀ o < s.world.kafka.committed p, s'.world.Cleared p o := by
    intro p
    obtain ⟨inside, cleared⟩ := offsets.committed p
    obtain ⟨inside', stays⟩ := Offsets.later moves later inside
    exact ⟨inside', fun o below => stays o below (cleared o below)⟩
  have position : ∀ i p offset, s.world.kafka.positions i p = some offset →
      offset ≤ (s'.world.kafka.log p).length ∧ ∀ o < offset, s'.world.Cleared p o ∨ InHand s i p o := by
    intro i p offset position
    obtain ⟨inside, past⟩ := offsets.positions i p offset position
    obtain ⟨inside', stays⟩ := Offsets.later moves later inside
    exact ⟨inside', fun o below => (past o below).imp_left (stays o below)⟩
  have record : ∀ call ∈ s.calls, ∀ record, (memoryOf call).record = some record →
      (s'.world.kafka.log record.partition)[record.offset]? = some (record.key, record.value) ∧
      (memoryOf call).message = (decodeJobMessage record.value).toOption ∧
      ∀ o < record.offset, s'.world.Cleared record.partition o := by
    intro call member record holds
    obtain ⟨stored, message, cleared⟩ := offsets.records call member record holds
    obtain ⟨inside, value⟩ := List.getElem?_eq_some_iff.mp stored
    obtain ⟨-, stays⟩ := Offsets.later moves later inside.le
    refine ⟨?_, message, fun o below => stays o below (cleared o below)⟩
    rw [List.prefix_iff_getElem?.mp (grows record.partition) _ inside, value]
  cases moves with
  | start task =>
    refine ⟨committed, fun i p offset at_p => ?_, fun call member => ?_⟩
    · obtain ⟨inside, past⟩ := position i p offset at_p
      refine ⟨inside, fun o below => (past o below).imp_right ?_⟩
      rintro ⟨call, record, at_i, rest⟩
      have bound := (List.getElem?_eq_some_iff.mp at_i).1
      exact ⟨call, record, by rw [List.getElem?_append_left bound]; exact at_i, rest⟩
    · rcases List.mem_append.mp member with old | new
      · exact record call old
      · cases List.mem_singleton.mp new
        cases task <;> exact nofun
  | kill k =>
    refine ⟨committed, fun i p offset at_p => ?_, fun call member => ?_⟩
    · obtain ⟨inside, past⟩ := position i p offset at_p
      refine ⟨inside, fun o below => (past o below).imp_right ?_⟩
      rintro ⟨call, record, at_i, holds, place⟩
      refine ⟨_, record, by rw [List.getElem?_modify, at_i]; rfl, ?_, place⟩
      dsimp only [id]
      split
      · exact holds
      · exact holds
    · rcases Machine.mem_modify_killed member with old | ⟨before, memberBefore, rfl⟩
      · exact record call old
      · exact record before memberBefore
  | env event =>
    have moved : ∀ j q, (s.world.rebalance event).kafka.positions j q = s.world.kafka.positions j q ∨
        (s.world.rebalance event).kafka.positions j q = none ∨
        (s.world.rebalance event).kafka.positions j q = some (s.world.kafka.committed q) := by
      intro j q
      cases event <;> simp only [World.rebalance, Function.update_apply] <;> grind
    have same : (s.world.rebalance event).kafka.committed = s.world.kafka.committed := by
      cases event <;> rfl
    refine ⟨fun p => same ▸ committed p, fun i p offset at_p => ?_, record⟩
    rcases moved i p with old | none | assigned
    · exact position i p offset (old ▸ at_p)
    · rw [none] at at_p
      cases at_p
    · cases assigned.symm.trans at_p
      obtain ⟨inside, cleared⟩ := committed p
      exact ⟨inside, fun o below => .inl (cleared o below)⟩
  | @resume k choice call op r next w at_k prog executed allowed =>
    have here := List.mem_of_getElem? at_k
    have kept : ((memoryOf call).next op r).record = (memoryOf call).record →
        ((memoryOf call).next op r).message = (memoryOf call).message →
        w.kafka.positions = s.world.kafka.positions →
        (∀ p, w.kafka.committed p ≤ (w.kafka.log p).length ∧ ∀ o < w.kafka.committed p, w.Cleared p o) →
        Offsets (resumed s k call op r next w) := by
      intro sameRecord sameMessage samePositions committed'
      refine ⟨committed', fun i p offset at_p => ?_, fun other member => ?_⟩
      · obtain ⟨inside, past⟩ := position i p offset (samePositions ▸ at_p)
        exact ⟨inside, fun o below => (past o below).imp_right fun hand => hand.old at_k sameRecord⟩
      · rcases Machine.mem_set_answered member with old | rfl
        · exact record other old
        · rw [memoryOf_answered, sameRecord, sameMessage]
          exact record call here
    have topic := World.exec_kafka executed
    generalize same : w.kafka = kafka at topic
    cases topic with
    | @same _ r other unchanged =>
      obtain ⟨sameRecord, sameMessage⟩ := Memory.next_kept (m := memoryOf call) (r := r) other
      refine kept sameRecord sameMessage ?_ fun p => ?_
      · rw [same, unchanged]
      · rw [show w.kafka.committed = s.world.kafka.committed by rw [same, unchanged]]
        exact committed p
    | @idle r failed unchanged =>
      have idles : (memoryOf call).next .getMany r = memoryOf call := by
        rcases r with e | _ | polled
        · rfl
        · rfl
        · exact absurd rfl (failed polled)
      refine kept (by rw [idles]) (by rw [idles]) ?_ fun p => ?_
      · rw [same, unchanged]
      · rw [show w.kafka.committed = s.world.kafka.committed by rw [same, unchanged]]
        exact committed p
    | @sent key value r q appended =>
      obtain ⟨sameRecord, sameMessage⟩ := Memory.next_kept (m := memoryOf call) (r := r) nofun
      refine kept sameRecord sameMessage ?_ fun p => ?_
      · rw [same, appended]
      · rw [show w.kafka.committed = s.world.kafka.committed by rw [same, appended]]
        exact committed p
    | @committed q offset r moved =>
      obtain ⟨sameRecord, sameMessage⟩ := Memory.next_kept (m := memoryOf call) (r := r) nofun
      refine kept sameRecord sameMessage ?_ fun p => ?_
      · rw [same, moved]
      · rw [show w.kafka.committed = Function.update s.world.kafka.committed q offset by rw [same, moved]]
        by_cases here' : p = q
        · subst here'
          rw [Function.update_self]
          obtain ⟨⟨turns, polls, task⟩, held, holds, rfl, rfl, done⟩ :=
            Task.contract_consumes allowed (.inr ⟨_, _, rfl⟩)
          obtain ⟨stored, -, cleared⟩ := record call here held holds
          have inside := (List.getElem?_eq_some_iff.mp stored).1
          have finished := offsets.done coherent delivered reading here task holds done
          have before := (List.getElem?_eq_some_iff.mp (offsets.records call here held holds).1).1
          refine ⟨inside, fun o below => ?_⟩
          rcases Nat.lt_succ_iff_lt_or_eq.mp below with earlier | rfl
          · exact cleared o earlier
          · exact finished.later before (grows _) later
        · rw [Function.update_of_ne here']
          exact committed p
    | @polled polled at_p entry moved =>
      obtain ⟨⟨turns, polls, task⟩, ready⟩ := Task.contract_consumes allowed (.inl rfl)
      -- the record in hand before this poll is dealt with
      have past : ∀ p offset, s.world.kafka.positions k p = some offset → ∀ o < offset, w.Cleared p o := by
        intro p offset at_p o below
        obtain ⟨inside, past⟩ := position k p offset at_p
        rcases past o below with cleared | ⟨holder, held, at_k', holds, rfl, rfl⟩
        · exact cleared
        · cases Option.some.inj (at_k.symm.trans at_k')
          rcases ready with none | done
          · rw [none] at holds
            cases holds
          · have before := (List.getElem?_eq_some_iff.mp (offsets.records call here held holds).1).1
            exact (offsets.done coherent delivered reading here task holds done).later before (grows _) later
      have logSame : w.kafka.log = s.world.kafka.log := by rw [same, moved]
      have inside := (List.getElem?_eq_some_iff.mp entry).1
      refine ⟨fun p => ?_, fun i p offset at_i => ?_, fun other member => ?_⟩
      · rw [show w.kafka.committed = s.world.kafka.committed by rw [same, moved]]
        exact committed p
      · change w.kafka.positions i p = some offset at at_i
        rw [same, moved] at at_i
        dsimp only at at_i
        by_cases own : i = k
        · subst own
          rw [Function.update_self] at at_i
          by_cases there : p = polled.partition
          · subst there
            rw [Function.update_self] at at_i
            cases at_i
            refine ⟨logSame ▸ inside, fun o below => ?_⟩
            rcases Nat.lt_succ_iff_lt_or_eq.mp below with earlier | rfl
            · exact .inl (past _ _ at_p o earlier)
            · refine .inr ⟨call.answered (S := Sig) .getMany (.ok (some polled)) next, polled, ?_, rfl, rfl, rfl⟩
              simp only [List.getElem?_set_self', at_k]
              rfl
          · rw [Function.update_of_ne there] at at_i
            exact ⟨(position i p offset at_i).1, fun o below => .inl (past p offset at_i o below)⟩
        · rw [Function.update_of_ne own] at at_i
          obtain ⟨bound, cleared⟩ := position i p offset at_i
          refine ⟨bound, fun o below => (cleared o below).imp_right ?_⟩
          rintro ⟨holder, held, at_holder, rest⟩
          exact ⟨holder, held, by rw [List.getElem?_set_ne (Ne.symm own)]; exact at_holder, rest⟩
      · rcases Machine.mem_set_answered member with old | rfl
        · exact record other old
        · intro held holds
          cases holds
          exact ⟨logSame ▸ entry, rfl, past _ _ at_p⟩

end
end MonkeyOcr
