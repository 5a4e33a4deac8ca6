import MonkeyOcr.Delivery.Outbox

namespace MonkeyOcr

open Calls
open Codec (Json)

/-- All that one call of the consumer `i` does to the topic. -/
inductive KafkaChange (i : Nat) (k k' : Kafka) : (op : Op) → Except Exc op.Val → Prop
  | same {op r} (other : op ≠ .getMany) (unchanged : k' = k) : KafkaChange i k k' op r
  | idle {r} (failed : ∀ record, r ≠ .ok (some record)) (unchanged : k' = k) : KafkaChange i k k' .getMany r
  | sent {key value r} (p : Nat)
      (appended : k' = { k with log := Function.update k.log p (k.log p ++ [(key, value)]) }) :
      KafkaChange i k k' (.sendAndWait key value) r
  | polled {record : Record} (position : k.positions i record.partition = some record.offset)
      (entry : (k.log record.partition)[record.offset]? = some (record.key, record.value))
      (moved : k' =
        { k with
          positions := Function.update k.positions i
            (Function.update (k.positions i) record.partition (some (record.offset + 1))) }) :
      KafkaChange i k k' .getMany (.ok (some record))
  | committed {p offset r} (moved : k' = { k with committed := Function.update k.committed p offset }) :
      KafkaChange i k k' (.commit p offset) r

namespace World

variable {settings : Settings} {w w' : World} {op : Op} {choice : Choice} {r : Except Exc op.Val} {i : Nat}

theorem exec_kafka (executed : exec settings i op choice w = some (r, w')) :
    KafkaChange i w.kafka w'.kafka op r := by
  cases op with
  | sendAndWait key value =>
    rcases exec_cases executed with ⟨_, -, -, rfl⟩ | ⟨r₀, performed, -⟩
    · exact .same (by simp) rfl
    · generalize choice.answer = answer at performed
      cases answer with
      | partition p =>
        cases performed
        exact .sent p rfl
      | _ => cases performed
  | getMany =>
    rcases exec_cases executed with ⟨_, rfl, -, rfl⟩ | ⟨r₀, performed, rfl | ⟨_, -, -, late⟩⟩
    · exact .idle (by simp) rfl
    · generalize choice.answer = answer at performed
      cases answer with
      | none =>
        cases performed
        exact .idle (by simp) rfl
      | partition p =>
        simp only [perform] at performed
        split at performed
        · cases performed
        · rename_i offset position
          split at performed
          · cases performed
          · rename_i key value entry
            cases performed
            exact .polled position entry rfl
      | _ => cases performed
    · cases late
  | commit p offset =>
    rcases exec_cases executed with ⟨_, -, -, rfl⟩ | ⟨r₀, performed, -⟩
    · exact .same (by simp) rfl
    · cases performed
      exact .committed rfl
  | _ => exact .same (by simp) (exec_same (show Part.kafka ∉ _ by simp [Op.writes]) executed)

/-- The value is in the topic. -/
def Published (w : World) (value : Json) : Prop := ∃ p, ∃ entry ∈ w.kafka.log p, entry.2 = value

/-- The message at the offset, if there is one, is dealt with. -/
def Cleared (w : World) (p offset : Nat) : Prop :=
  ∀ entry, (w.kafka.log p)[offset]? = some entry →
    ∀ message, decodeJobMessage entry.2 = .ok message → w.Handled message

end World

namespace KafkaChange

variable {i : Nat} {k k' : Kafka} {op : Op} {r : Except Exc op.Val}

/-- The topic only ever grows. -/
theorem log_grows (change : KafkaChange i k k' op r) (p : Nat) : k.log p <+: k'.log p := by
  cases change with
  | same _ unchanged => exact unchanged ▸ List.prefix_rfl
  | idle _ unchanged => exact unchanged ▸ List.prefix_rfl
  | sent q appended =>
    simp only [appended, Function.update_apply]
    split
    · rename_i here
      exact here ▸ List.prefix_append _ _
    · exact List.prefix_rfl
  | polled _ _ moved => exact moved ▸ List.prefix_rfl
  | committed moved => exact moved ▸ List.prefix_rfl

/-- A new entry is one that was sent. -/
theorem mem_log (change : KafkaChange i k k' op r) {p : Nat} {entry : String × Json}
    (member : entry ∈ k'.log p) : entry ∈ k.log p ∨ op = .sendAndWait entry.1 entry.2 := by
  cases change with
  | same _ unchanged => exact .inl (unchanged ▸ member)
  | idle _ unchanged => exact .inl (unchanged ▸ member)
  | sent q appended =>
    simp only [appended, Function.update_apply] at member
    split at member
    · rename_i here
      rcases List.mem_append.mp member with old | new
      · exact .inl (here ▸ old)
      · exact .inr (List.mem_singleton.mp new ▸ rfl)
    · exact .inl member
  | polled _ _ moved => rw [moved] at member; exact .inl member
  | committed moved => rw [moved] at member; exact .inl member

end KafkaChange

theorem World.Published.later {w w' : World} {value : Json} (published : w.Published value)
    (grows : ∀ p, w.kafka.log p <+: w'.kafka.log p) : w'.Published value := by
  obtain ⟨p, entry, member, same⟩ := published
  exact ⟨p, entry, (grows p).subset member, same⟩

/-- What is dealt with stays so. -/
theorem World.Cleared.later {w w' : World} {p offset : Nat} (cleared : w.Cleared p offset)
    (old : offset < (w.kafka.log p).length) (grows : w.kafka.log p <+: w'.kafka.log p)
    (later : w.Later w') : w'.Cleared p offset := by
  intro entry found message decoded
  obtain ⟨_, value⟩ := List.getElem?_eq_some_iff.mp found
  have before : (w.kafka.log p)[offset]? = some entry := by
    rw [List.getElem?_eq_getElem old, grows.getElem old, value]
  exact (cleared entry before message decoded).later later

/-! ### What a call remembers of the topic -/

namespace Memory

variable {settings : Settings} {w w' : World} {op : Op} {choice : Choice} {r : Except Exc op.Val} {i : Nat}
  {m : Memory}

/-- The record at hand is the one polled last. -/
theorem next_kept (other : op ≠ .getMany) :
    (m.next op r).record = m.record ∧ (m.next op r).message = m.message := by
  cases op with
  | getJob => rcases r with e | _ | job <;> exact ⟨rfl, rfl⟩
  | getMany => exact absurd rfl other
  | _ => cases r <;> exact ⟨rfl, rfl⟩

/-- A listed event stands in the outbox. -/
theorem next_listed (executed : World.exec settings i op choice w = some (r, w')) :
    ∀ event ∈ (m.next op r).listed, event ∈ m.listed ∨ ∃ row ∈ w.outbox, row.event = event := by
  intro event member
  cases op with
  | pendingOutbox limit =>
    cases r with
    | error => exact .inl member
    | ok events =>
      rcases World.exec_cases executed with ⟨_, failed, -⟩ | ⟨r₀, performed, rfl | ⟨_, failed, -⟩⟩
      · cases failed
      · generalize choice.answer = answer at performed
        cases answer with
        | picked ids uploads =>
          obtain ⟨listed, done, same⟩ := Option.map_eq_some_iff.mp performed
          cases same
          simp only [World.pendingOutbox] at done
          split at done
          · cases done
            rw [next, List.mem_insertionSort] at member
            obtain ⟨row, picked, same⟩ := List.mem_map.mp member
            exact .inr ⟨row, (List.mem_filter.mp picked).1, same⟩
          · cases done
        | _ => cases performed
      · cases failed
  | getJob => rcases r with e | _ | job <;> exact .inl member
  | getMany => rcases r with e | _ | record <;> exact .inl member
  | _ => cases r <;> exact .inl member

/-- A sent value is in the topic. -/
theorem next_sent (executed : World.exec settings i op choice w = some (r, w')) :
    ∀ value ∈ (m.next op r).sent, value ∈ m.sent ∨ w'.Published value := by
  intro value member
  cases op with
  | sendAndWait key sent =>
    cases r with
    | error => exact .inl member
    | ok =>
      rcases List.mem_cons.mp member with rfl | old
      · rcases World.exec_cases executed with ⟨_, failed, -⟩ | ⟨r₀, performed, rfl | ⟨_, failed, -⟩⟩
        · cases failed
        · generalize choice.answer = answer at performed
          cases answer with
          | partition p =>
            cases performed
            exact .inr ⟨p, (key, value), by simp, rfl⟩
          | _ => cases performed
        · cases failed
      · exact .inl old
  | getJob => rcases r with e | _ | job <;> exact .inl member
  | getMany => rcases r with e | _ | record <;> exact .inl member
  | _ => cases r <;> exact .inl member

/-- A read that does not find a job finds no row of it that is not claimed. -/
theorem next_missing (executed : World.exec settings i op choice w = some (r, w')) :
    ∀ id ∈ (m.next op r).missing, id ∈ m.missing ∨ w'.Gone id := by
  intro id member
  cases op with
  | getJob site read =>
    rcases r with e | _ | job
    · exact .inl member
    · rcases List.mem_cons.mp member with rfl | old
      · obtain ⟨rfl, none⟩ := World.exec_getJob executed
        exact .inr (World.getJob_none none.symm)
      · exact .inl old
    · exact .inl member
  | getMany =>
    rcases r with e | _ | record
    · exact .inl member
    · exact .inl member
    · cases member
  | _ => cases r <;> exact .inl member

end Memory

end MonkeyOcr
