import MonkeyOcr.Sandbox.Answers

namespace MonkeyOcr

namespace Sandbox

open Calls Codec Files

/-- Where the `try` of `process_request` has raised, its handler finds the directory when it
opens `response.tmp`, and the file when it renames it; what `validate_and_render` raises can
be reported. -/
def Memory.Finds (m : Memory) (v : Volume) : Op → Choice → Prop
  | .openWrite path, _ => m.raised = true → v.node path.tail = some .dir
  | .rename src _, _ => m.raised = true → src.head? = some "response.tmp" → v.node src ≠ none
  | .rendering _, .fail raised => raised.Reportable
  | _, _ => True

instance (m : Memory) (v : Volume) : ∀ op choice, Decidable (m.Finds v op choice)
  | .openWrite path, _ => inferInstanceAs (Decidable (m.raised = true → v.node path.tail = some .dir))
  | .rename src _, _ =>
    inferInstanceAs (Decidable (m.raised = true → src.head? = some "response.tmp" → v.node src ≠ none))
  | .rendering _, .fail raised => inferInstanceAs (Decidable raised.Reportable)
  | .rendering _, .go | .rendering _, .count _ | .rendering _, .listing _ | .rendering _, .work _ | .rendering _, .hex _
  | .rendering _, .data _ | .rendering _, .time _ => isTrue trivial
  | .mkdir _, _ | .write .., _ | .openRead _, _ | .readAll _, _ | .exists_ _, _ | .scandir _, _ | .unlink _, _
  | .rmdir _, _ | .render .., _ | .uuid4, _ | .getBytes _, _ | .putBytes .., _ | .loopTime, _ | .sleep, _
  | .pause, _ => isTrue trivial

/-- The part of a directory's name that `uuid4` has drawn. -/
def token (d : String) : List Char := d.toList.reverse.takeWhile (· ≠ '-')

section

variable {settings : Preprocessor} {strict : Prop} {ms : Parties} {i : Nat} {task : Task} {m : Memory} {v : Volume}
  {w w' : World} {op : Op} {choice : Choice} {r : Except Raised op.Val} {d : String} {s : State}

theorem token_requestName (job : Job) {hex : String} (plain : '-' ∉ hex.toList) :
    token (Preprocessor.requestName job "" ++ hex) = hex.toList.reverse := by
  have shape : ∃ front, (Preprocessor.requestName job "" ++ hex).toList = front ++ '-' :: hex.toList := by
    refine ⟨(s!"{job.id}-{job.attempt}").toList, ?_⟩
    simp [Preprocessor.requestName]
    rfl
  obtain ⟨front, shape⟩ := shape
  rw [token, shape, List.reverse_append, List.reverse_cons, List.append_assoc, List.singleton_append,
    List.takeWhile_append_of_pos]
  · simp
  · intro c member
    have other : c ≠ '-' := fun same => plain (same ▸ List.mem_reverse.mp member)
    exact decide_eq_true other

theorem Memory.Grows.same {m' : Memory} (dir : m'.dir = m.dir := by rfl) (published : m'.published = m.published := by rfl)
    (claimed : m'.claimed = m.claimed := by rfl) (answered : m'.answered = m.answered := by rfl)
    (returned : m'.returned = m.returned := by rfl) : m.Grows m' :=
  ⟨fun _ h => dir.trans h, fun _ h => published.trans h, fun _ h => claimed ▸ h, fun _ h => answered ▸ h,
    fun _ h => returned ▸ h⟩

/-- A call only learns. -/
theorem grows_next (allowed : (task.contract settings strict).allow m op) : m.Grows (m.next op r) := by
  have same : m.Grows m := .same
  cases op with
  | uuid4 =>
    rcases Task.contract_cases allowed with ⟨_, blank⟩ | none
    · cases r with
      | error => exact .same
      | ok hex =>
        refine { same with dir := fun d dir => ?_ }
        rw [blank] at dir
        cases dir
    · exact none.elim
  | openWrite path =>
    cases r with
    | error => exact .same
    | ok handle => exact .same
  | write handle data =>
    cases r with
    | error => exact .same
    | ok count => exact .same
  | rename src dst =>
    cases r with
    | error => exact .same
    | ok =>
      rcases Task.contract_cases allowed with ⟨_, d, handle, -, first, -, rfl, -⟩ | ⟨d, -, rfl⟩ | ⟨d, handle, bytes, -, -, rfl, -⟩
      · refine ⟨fun _ h => h, fun bytes published => ?_, fun _ h => h, fun _ h => h, fun _ h => h⟩
        rw [first] at published
        cases published
      · exact ⟨fun _ h => h, fun _ h => h, fun _ h => List.mem_cons_of_mem _ h, fun _ h => h, fun _ h => h⟩
      · exact ⟨fun _ h => h, fun _ h => h, fun _ h => h, fun _ h => List.mem_cons_of_mem _ h, fun _ h => h⟩
  | openRead path =>
    cases r with
    | error => exact .same
    | ok handle => exact .same
  | readAll handle =>
    cases r with
    | error => exact .same
    | ok data =>
      obtain ⟨responses, request, read⟩ := m.hasRead_eq data
      change m.Grows (m.hasRead data)
      rw [read]
      exact .same
  | render source output =>
    rcases Task.contract_cases allowed with ⟨_, none⟩ | ⟨d, request, -, -, -, rfl, -⟩
    · exact none.elim
    · cases r <;> exact .same
  | rendering output =>
    rcases Task.contract_cases allowed with ⟨_, none⟩ | ⟨d, -, rfl, asked⟩
    · exact none.elim
    · cases r with
      | error => exact .same
      | ok done =>
        cases done with
        | false => exact .same
        | true => exact { same with returned := fun _ h => List.mem_cons_of_mem _ h }
  | _ => exact .same

/-- Tokens are not forgotten. -/
theorem exec_drawn (executed : w.exec op choice = some (r, w')) : w'.drawn = w.drawn ∨
    ∃ hex, op = .uuid4 ∧ hex ∉ w.drawn ∧ '-' ∉ hex.toList ∧ w'.drawn = hex :: w.drawn := by
  unfold World.exec at executed
  split at executed
  all_goals first
    | cases executed; exact .inl rfl
    | skip
  · rcases World.change_cases (Option.some.inj executed) with ⟨_, v, -, -, rfl⟩ | ⟨e, -, -, rfl⟩ <;> exact .inl rfl
  · rcases World.change_cases (Option.some.inj executed) with ⟨_, v, -, -, rfl⟩ | ⟨e, -, -, rfl⟩ <;> exact .inl rfl
  · split at executed
    · cases executed; exact .inl rfl
    · cases executed
  · rcases World.change_cases (Option.some.inj executed) with ⟨_, v, -, -, rfl⟩ | ⟨e, -, -, rfl⟩ <;> exact .inl rfl
  · split at executed
    · split at executed
      · cases executed; exact .inl rfl
      · cases executed
    · cases executed; exact .inl rfl
    · cases executed; exact .inl rfl
  · rcases World.change_cases (Option.some.inj executed) with ⟨_, v, -, -, rfl⟩ | ⟨e, -, -, rfl⟩ <;> exact .inl rfl
  · rcases World.change_cases (Option.some.inj executed) with ⟨_, v, -, -, rfl⟩ | ⟨e, -, -, rfl⟩ <;> exact .inl rfl
  · split at executed
    · rename_i hex new
      cases executed
      exact .inr ⟨hex, rfl, new.1, new.2, rfl⟩
    · cases executed
  · cases executed

/-- A directory that a call gets is named by a new token. -/
theorem next_drawn (allowed : (task.contract settings strict).allow m op) (stem : m.stem = task.memory.stem)
    (executed : w.exec op choice = some (r, w')) (dir : (m.next op r).dir = some d) :
    m.dir = some d ∨ ∃ hex, hex ∉ w.drawn ∧ hex ∈ w'.drawn ∧ token d = hex.toList.reverse := by
  by_cases draws : op = .uuid4
  · subst draws
    cases task with
    | main => exact allowed.elim
    | prepare turns upload job =>
      cases choice with
      | hex hex =>
        simp only [World.exec] at executed
        split at executed
        · rename_i new
          cases executed
          refine .inr ⟨hex, new.1, List.mem_cons_self, ?_⟩
          have same : m.stem ++ hex = d := Option.some.inj dir
          rw [← same, stem]
          exact token_requestName job new.2
        · cases executed
      | _ => cases executed
  · exact .inl ((m.next_dir r draws).symm.trans dir)

/-! ### What the calls may rely on -/

theorem osError_reportable (e : Errno) (paths : List Path) : (osError e paths).Reportable := by
  have valid : ∀ text : String, ∀ n ∈ PyStr.ofString text, n.isValidChar := by
    intro text n member
    obtain ⟨c, -, rfl⟩ := List.mem_map.mp member
    exact c.valid
  have encodable : ∀ text : PyStr, (∀ n ∈ text, n.isValidChar) → (text.encodable?).isSome = true := by
    intro text all
    rw [PyStr.encodable?, if_pos all]
    rfl
  have told : ∃ text, (osError e paths).text = PyStr.ofString text := by
    cases e <;> exact ⟨_, rfl⟩
  obtain ⟨text, same⟩ := told
  refine ⟨by cases e <;> rfl, encodable _ fun n member => ?_⟩
  rw [Raised.reason] at member
  split at member
  · exact valid _ n member
  · rw [same] at member
    exact valid _ n (List.mem_of_mem_take member)

/-- Files of the exchange are no directories. -/
theorem Fits.no_dir (fits : Fits v ms) {name parent : String} (other : name ≠ "output") :
    v.node [name, parent] ≠ some .dir := fun here => other (fits.dirs name parent [] here)

/-- A file of a request that is there can be renamed. -/
theorem Fits.renames (fits : Fits v ms) {a b : String} (first : a ≠ "output") (second : b ≠ "output")
    (there : v.node [a, d] ≠ none) : ∃ v', v.rename [a, d] [b, d] = .ok v' := by
  cases here : v.node [a, d] with
  | none => exact absurd here there
  | some n =>
    cases n with
    | dir => exact absurd here (fits.no_dir first)
    | file k => exact Volume.rename_file here (fits.no_dir second)

/-- What is done is answered as the calls rely on it. -/
theorem exec_answer (fits : Fits w.volume ms) (told : Told settings w.volume ms task m) (here : (task, m) ∈ ms)
    (allowed : (task.contract settings strict).allow m op) (executed : w.exec op choice = some (r, w'))
    (forms : ∀ d bytes, Published ms d bytes → ∃ request : Request, bytes = request.bytes)
    (finds : strict → ∀ turns rounds, task = .main turns rounds → m.Finds w.volume op choice) :
    (task.contract settings strict).answer m op r := by
  cases task with
  | prepare turns upload job =>
    cases op with
    | write handle data =>
      cases choice with
      | count n =>
        simp only [World.exec] at executed
        split at executed
        · rename_i bound
          cases executed
          exact ⟨n, rfl, bound.1⟩
        · cases executed
      | _ => cases executed
    | uuid4 =>
      cases choice with
      | hex hex =>
        simp only [World.exec] at executed
        split at executed
        · cases executed
          exact ⟨hex, rfl⟩
        · cases executed
      | _ => cases executed
    | _ => trivial
  | main turns rounds =>
    have finds := fun holds => finds holds turns rounds rfl
    cases op with
    | scandir path =>
      have root : path = [] := allowed
      subst root
      cases choice with
      | listing entries =>
        simp only [World.exec, Volume.node_root] at executed
        split at executed
        · cases executed
          exact ⟨entries, rfl⟩
        · cases executed
      | _ => cases executed
    | exists_ path =>
      cases choice with
      | go => cases executed; exact ⟨_, rfl⟩
      | _ => cases executed
    | pause =>
      cases choice with
      | go => cases executed; exact ⟨_, rfl⟩
      | _ => cases executed
    | render =>
      cases choice with
      | go => cases executed; exact ⟨_, rfl⟩
      | _ => cases executed
    | write handle data =>
      cases choice with
      | count n =>
        simp only [World.exec] at executed
        split at executed
        · rename_i bound
          cases executed
          exact ⟨n, rfl, bound.1⟩
        · cases executed
      | _ => cases executed
    | readAll handle =>
      have read := (exec_readAll executed).2
      refine ⟨_, read, fun d k reading => ?_⟩
      obtain ⟨e, -, own⟩ := allowed
      cases own.symm.trans reading
      obtain ⟨bytes, published, closed⟩ := told.claim d handle reading
      exact closed.data ▸ forms d bytes published
    | openRead path =>
      cases r with
      | ok => trivial
      | error e =>
        cases choice with
        | go =>
          have read := (Prod.mk.inj (Option.some.inj executed)).1
          cases result : w.volume.openRead path with
          | ok =>
            rw [result] at read
            cases read
          | error errno =>
            rw [result] at read
            cases read
            exact osError_reportable errno [path]
        | _ => cases executed
    | openWrite path =>
      cases r with
      | ok => trivial
      | error e =>
        obtain ⟨d, -, rfl⟩ := allowed
        cases choice with
        | go =>
          rcases World.change_cases (Option.some.inj executed) with ⟨_, _, _, same, -⟩ | ⟨errno, result, same, -⟩
          · cases same
          · cases same
            refine ⟨osError_reportable errno _, fun holds => ?_⟩
            by_contra raised
            have inside := finds holds (eq_true_of_ne_false raised)
            have other : w.volume.node ["response.tmp", d] ≠ some .dir := fits.no_dir (by decide)
            obtain ⟨k, v', opened⟩ := Volume.openWrite_dir inside other
            cases opened.symm.trans result
        | _ => cases executed
    | rename src dst =>
      rcases exec_rename executed with ⟨v, result, rfl⟩ | ⟨errno, result, rfl⟩
      · exact fun d claim => claim_fresh strict fits here allowed executed d claim
      · refine ⟨fun d source => ?_, fun d source => ⟨osError_reportable errno _, fun holds => ?_⟩⟩
        · rcases allowed with ⟨e, rfl, rfl⟩ | ⟨e, handle, bytes, -, rfl, -⟩
          · cases node : w.volume.node ["request.json", e] with
            | none =>
              cases (Volume.rename_none node).symm.trans result
              exact ⟨_, rfl⟩
            | some n =>
              obtain ⟨v, renamed⟩ := fits.renames (d := e) (a := "request.json") (b := "processing.json") (by decide) (by decide)
                (by rw [node]; exact Option.some_ne_none n)
              cases renamed.symm.trans result
          · exact absurd (List.cons.inj source).1 (by decide)
        · rcases allowed with ⟨e, rfl, -⟩ | ⟨e, handle, bytes, -, rfl, rfl, -⟩
          · exact absurd (List.cons.inj source).1 (by decide)
          · by_contra raised
            have there := finds holds (eq_true_of_ne_false raised) rfl
            obtain ⟨v, renamed⟩ := fits.renames (a := "response.tmp") (b := "response.json") (by decide) (by decide) there
            cases renamed.symm.trans result
    | rendering output =>
      cases r with
      | ok => trivial
      | error e =>
        cases choice with
        | fail raised =>
          cases executed
          exact fun holds => finds holds
        | _ => cases executed
    | _ => exact allowed.elim

end

end Sandbox

end MonkeyOcr
