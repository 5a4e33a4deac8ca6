import MonkeyOcr.Sandbox.Contract

namespace MonkeyOcr

namespace Sandbox

open Calls Codec Files

/-- A path whose file may be written. -/
def Loose (p : Path) : Prop := ∃ d, p = ["input", d] ∨ p = ["request.tmp", d] ∨ p = ["response.tmp", d]

/-- A path whose file is complete. -/
def Closed (p : Path) : Prop :=
  ∃ d, p = ["request.json", d] ∨ p = ["processing.json", d] ∨ p = ["response.json", d]

theorem Loose.not_closed {p : Path} (loose : Loose p) : ¬ Closed p := by
  rintro ⟨d, closed⟩
  obtain ⟨d', here⟩ := loose
  rcases here with rfl | rfl | rfl <;> rcases closed with same | same | same <;>
    exact absurd (List.cons.inj same).1 (by decide)

theorem Loose.not_inner {name d : String} : ¬ Loose [name, "output", d] := by
  rintro ⟨d', same | same | same⟩ <;> cases same

theorem Closed.not_inner {name d : String} : ¬ Closed [name, "output", d] := by
  rintro ⟨d', same | same | same⟩ <;> cases same

/-- The call is the one that writes to the path. -/
def Memory.Writer (m : Memory) (p : Path) : Prop :=
  (∃ d, m.dir = some d ∧ (p = ["input", d] ∨ p = ["request.tmp", d])) ∨
    ∃ d, m.claimed.head? = some d ∧ p = ["response.tmp", d]

theorem Memory.Writer.loose {m : Memory} {p : Path} (writer : m.Writer p) : Loose p := by
  rcases writer with ⟨d, -, input | tmp⟩ | ⟨d, -, tmp⟩
  · exact ⟨d, .inl input⟩
  · exact ⟨d, .inr (.inl tmp)⟩
  · exact ⟨d, .inr (.inr tmp)⟩

/-- The renames that are made. -/
inductive Moved (m : Memory) : Path → Path → Prop
  | published {d handle done} (dir : m.dir = some d) (first : m.published = none)
      (file : m.file = some (["request.tmp", d], handle, done)) :
      Moved m ["request.tmp", d] ["request.json", d]
  | claimed (d) : Moved m ["request.json", d] ["processing.json", d]
  | answered {d handle done} (claimed : m.claimed.head? = some d)
      (file : m.file = some (["response.tmp", d], handle, done)) (complete : m.Complete d done) :
      Moved m ["response.tmp", d] ["response.json", d]

/-- What two memories have in common where no file is written and none is moved. -/
structure Memory.Alike (m m' : Memory) : Prop where
  published : m'.published = m.published := by rfl
  claimed : m'.claimed = m.claimed := by rfl
  answered : m'.answered = m.answered := by rfl
  file : m'.file = m.file := by rfl

/-- A change away from the files of the exchange: a name goes, a directory is made, or
`validate_and_render` writes in its output directory. -/
inductive Quiet (v : Volume) : Volume → Prop
  | same : Quiet v v
  | gone {p v'} (puts : v.Puts p none v') : Quiet v v'
  | made {p d v'} (place : p = [d] ∨ p = ["output", d]) (puts : v.Puts p (some .dir) v') : Quiet v v'
  | worked {name d k v'} (result : v.openWrite [name, "output", d] = .ok (k, v')) : Quiet v v'
  | appended {name d k} {data : List (BitVec 8)} (here : v.node [name, "output", d] = some (.file k)) :
      Quiet v (v.write k data)

/-- What an operation does to the volume. -/
inductive Change (m : Memory) (v : Volume) : (op : Op) → Except Raised op.Val → Volume → Prop
  | quiet {op r v'} (alike : m.Alike (m.next op r)) (quiet : Quiet v v') : Change m v op r v'
  | opened {p k v'} (writer : m.Writer p) (result : v.openWrite p = .ok (k, v')) : Change m v (.openWrite p) (.ok k) v'
  | wrote {handle : Nat} {data : List (BitVec 8)} {n : Nat} {p done} (file : m.file = some (p, handle, done)) :
      Change m v (.write handle data) (.ok n) (v.write handle (data.take n))
  | moved {src dst v'} (move : Moved m src dst) (result : v.rename src dst = .ok v') :
      Change m v (.rename src dst) (.ok ()) v'

section

variable {settings : Preprocessor} {strict : Prop} {task : Task} {m : Memory} {w w' : World} {op : Op} {choice : Choice}
  {r : Except Raised op.Val}

theorem World.change_cases {α : Type} {paths : List Path} {result : Except Errno (α × Volume)} {r : Except Raised α}
    (changed : w.change paths result = (r, w')) :
    (∃ a v, result = .ok (a, v) ∧ r = .ok a ∧ w' = { w with volume := v }) ∨
      ∃ e, result = .error e ∧ r = .error (osError e paths) ∧ w' = w := by
  unfold change at changed
  split at changed
  · cases changed
    exact .inl ⟨_, _, rfl, rfl, rfl⟩
  · cases changed
    exact .inr ⟨_, rfl, rfl, rfl⟩

/-- A call is a client or a daemon. -/
theorem Task.contract_cases (allowed : (task.contract settings strict).allow m op) :
    (∃ request, clientCalls request m op) ∨ daemonCalls m op := by
  cases task with
  | prepare => exact .inl ⟨_, allowed⟩
  | main => exact .inr allowed

theorem map_ok {v' : Volume} {result : Except Errno Volume} {a : Unit}
    (ok : (result.map fun volume => ((), volume)) = .ok (a, v')) : result = .ok v' := by
  cases result with
  | error => cases ok
  | ok => cases ok; rfl

theorem work_quiet {d : String} (work : Work) : Quiet w.volume (w.perform ["output", d] work) := by
  cases work with
  | mkdir parents =>
    have made : ∀ p, p = [d] ∨ p = ["output", d] → Quiet w.volume ((w.volume.mkdir p).toOption.getD w.volume) := by
      intro p place
      cases result : w.volume.mkdir p with
      | error => exact .same
      | ok v' => exact .made place (Volume.mkdir_ok result).2
    cases parents with
    | false => exact made _ (.inr rfl)
    | true => exact made _ (.inl rfl)
  | openFile name =>
    rw [World.perform]
    cases result : w.volume.openWrite [name, "output", d] with
    | error => exact .same
    | ok opened => exact .worked result
  | append name data =>
    rw [World.perform]
    split
    · rename_i k here
      exact .appended here
    · exact .same

/-- Every operation that is allowed does one of these things. -/
theorem exec_change (allowed : (task.contract settings strict).allow m op)
    (executed : w.exec op choice = some (r, w')) : Change m w.volume op r w'.volume := by
  have quiet : ∀ {op : Op} {r : Except Raised op.Val}, m.Alike (m.next op r) → Change m w.volume op r w.volume :=
    fun alike => .quiet alike .same
  cases op with
  | mkdir path =>
    cases choice with
    | go =>
      rcases World.change_cases (Option.some.inj executed) with ⟨_, v, result, rfl, rfl⟩ | ⟨e, -, rfl, rfl⟩
      · rcases Task.contract_cases allowed with ⟨_, d, -, place⟩ | none
        · exact .quiet {} (.made (.inl place) (Volume.mkdir_ok (map_ok result)).2)
        · exact none.elim
      · exact quiet {}
    | _ => cases executed
  | openWrite path =>
    cases choice with
    | go =>
      rcases World.change_cases (Option.some.inj executed) with ⟨k, v, result, rfl, rfl⟩ | ⟨e, -, rfl, rfl⟩
      · refine .opened ?_ result
        rcases Task.contract_cases allowed with ⟨_, d, dir, -, place⟩ | ⟨d, claimed, place⟩
        · exact .inl ⟨d, dir, place⟩
        · exact .inr ⟨d, claimed, place⟩
      · exact quiet {}
    | _ => cases executed
  | write handle data =>
    cases choice with
    | count n =>
      simp only [World.exec] at executed
      split at executed
      · cases executed
        have file : ∃ path done, m.file = some (path, handle, done) := by
          rcases Task.contract_cases allowed with ⟨_, file⟩ | file <;> exact file
        obtain ⟨path, done, file⟩ := file
        exact .wrote file
      · cases executed
    | _ => cases executed
  | rename src dst =>
    cases choice with
    | go =>
      rcases World.change_cases (Option.some.inj executed) with ⟨_, v, result, rfl, rfl⟩ | ⟨e, -, rfl, rfl⟩
      · refine .moved ?_ (map_ok result)
        rcases Task.contract_cases allowed with ⟨_, d, handle, dir, first, rfl, rfl, file⟩ | ⟨d, rfl, rfl⟩ |
          ⟨d, handle, bytes, claimed, rfl, rfl, file, complete⟩
        · exact .published dir first file
        · exact .claimed d
        · exact .answered claimed file complete
      · exact quiet {}
    | _ => cases executed
  | unlink path =>
    cases choice with
    | go =>
      rcases World.change_cases (Option.some.inj executed) with ⟨_, v, result, rfl, rfl⟩ | ⟨e, -, rfl, rfl⟩
      · exact .quiet {} (.gone (Volume.unlink_ok (map_ok result)))
      · exact quiet {}
    | _ => cases executed
  | rmdir path =>
    cases choice with
    | go =>
      rcases World.change_cases (Option.some.inj executed) with ⟨_, v, result, rfl, rfl⟩ | ⟨e, -, rfl, rfl⟩
      · exact .quiet {} (.gone (Volume.rmdir_ok (map_ok result)))
      · exact quiet {}
    | _ => cases executed
  | openRead path =>
    cases choice with
    | go =>
      cases executed
      refine quiet ?_
      cases w.volume.openRead path <;> exact {}
    | _ => cases executed
  | readAll handle =>
    cases choice with
    | go =>
      cases executed
      obtain ⟨responses, request, same⟩ := m.hasRead_eq (w.volume.data handle)
      refine quiet ?_
      change m.Alike (m.hasRead _)
      rw [same]
      exact {}
    | _ => cases executed
  | exists_ path =>
    cases choice with
    | go => cases executed; exact quiet {}
    | _ => cases executed
  | scandir path =>
    cases choice with
    | listing entries =>
      simp only [World.exec] at executed
      split at executed
      · split at executed
        · cases executed; exact quiet {}
        · cases executed
      · cases executed; exact quiet {}
      · cases executed; exact quiet {}
    | _ => cases executed
  | render source output =>
    cases choice with
    | go =>
      cases executed
      rcases Task.contract_cases allowed with ⟨_, none⟩ | ⟨d, request, -, -, -, rfl, -⟩
      · exact none.elim
      · exact quiet {}
    | _ => cases executed
  | rendering output =>
    rcases Task.contract_cases allowed with ⟨_, none⟩ | ⟨d, -, rfl, -⟩
    · exact none.elim
    · cases choice with
      | work work => cases executed; exact .quiet {} (work_quiet work)
      | go => cases executed; exact quiet {}
      | fail => cases executed; exact quiet {}
      | _ => cases executed
  | uuid4 =>
    cases choice with
    | hex hex =>
      simp only [World.exec] at executed
      split at executed
      · cases executed; exact quiet {}
      · cases executed
    | _ => cases executed
  | getBytes =>
    cases choice with
    | data => cases executed; exact quiet {}
    | fail => cases executed; exact quiet {}
    | _ => cases executed
  | putBytes =>
    cases choice with
    | go => cases executed; exact quiet {}
    | fail => cases executed; exact quiet {}
    | _ => cases executed
  | loopTime =>
    cases choice with
    | time => cases executed; exact quiet {}
    | _ => cases executed
  | sleep =>
    cases choice with
    | go => cases executed; exact quiet {}
    | fail => cases executed; exact quiet {}
    | _ => cases executed
  | pause =>
    cases choice with
    | go => cases executed; exact quiet {}
    | _ => cases executed

end

end Sandbox

end MonkeyOcr
