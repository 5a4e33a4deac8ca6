import MonkeyOcr.Sandbox.Invariant

namespace MonkeyOcr

namespace Sandbox

open Calls Codec Files

/-- What a call remembers is true: its request is its own task's, what it has read is what
others have published or answered, and it has rendered and answered what it has claimed. -/
structure Told (settings : Preprocessor) (v : Volume) (ms : Parties) (task : Task) (m : Memory) : Prop where
  stem : m.stem = task.memory.stem
  published : ∀ bytes, m.published = some bytes →
    ∃ turns upload job, task = .prepare turns upload job ∧ bytes = (settings.requested upload job).bytes
  response : ∀ d k, m.reading = some (["response.json", d], k) → ∃ bytes, Answered ms d bytes ∧ Sealed v ms k bytes
  claim : ∀ d k, m.reading = some (["processing.json", d], k) → ∃ bytes, Published ms d bytes ∧ Sealed v ms k bytes
  responses : ∀ bytes ∈ m.responses, ∃ d, m.dir = some d ∧ Answered ms d bytes
  request : ∀ turns rounds, task = .main turns rounds → ∀ json, m.request = some json →
    ∃ d request, m.claimed.head? = some d ∧ Published ms d (Request.bytes request) ∧ json = request.json
  claimed : m.claimed.Nodup
  rendered : (m.renders.map Render.dir).Nodup
  renders : ∀ render ∈ m.renders, render.dir ∈ m.claimed ∧
    ∃ request, Published ms render.dir (Request.bytes request) ∧ render = request.render render.dir
  returned : ∀ d ∈ m.returned, ∃ render ∈ m.renders, render.dir = d
  answered : ∀ d bytes, (d, bytes) ∈ m.answered → d ∈ m.claimed ∧ m.Complete d bytes

section

variable {settings : Preprocessor} {strict : Prop} {ms : Parties} {i : Nat} {task t : Task} {m n : Memory} {v v' : Volume}
  {w w' : World} {op : Op} {choice : Choice} {r : Except Raised op.Val} {d : String}

/-- A step of any call leaves what a call remembers true. -/
theorem Told.kept (told : Told settings v ms t n) (change : Change m v op r v') (at_i : ms[i]? = some (task, m))
    (grows : m.Grows (m.next op r)) : Told settings v' (ms.set i (task, m.next op r)) t n where
  stem := told.stem
  published := told.published
  response d k reading := by
    obtain ⟨bytes, answered, closed⟩ := told.response d k reading
    exact ⟨bytes, answered.step at_i grows, closed.step change at_i⟩
  claim d k reading := by
    obtain ⟨bytes, published, closed⟩ := told.claim d k reading
    exact ⟨bytes, published.step at_i grows, closed.step change at_i⟩
  responses bytes member := by
    obtain ⟨d, dir, answered⟩ := told.responses bytes member
    exact ⟨d, dir, answered.step at_i grows⟩
  request turns rounds main json asked := by
    obtain ⟨d, request, claimed, published, same⟩ := told.request turns rounds main json asked
    exact ⟨d, request, claimed, published.step at_i grows, same⟩
  claimed := told.claimed
  rendered := told.rendered
  renders render member := by
    obtain ⟨claimed, request, published, same⟩ := told.renders render member
    exact ⟨claimed, request, published.step at_i grows, same⟩
  returned := told.returned
  answered := told.answered

theorem Told.more (told : Told settings v ms t n) (task : Task) : Told settings v (ms ++ [(task, task.memory)]) t n where
  stem := told.stem
  published := told.published
  response d k reading := by
    obtain ⟨bytes, answered, closed⟩ := told.response d k reading
    exact ⟨bytes, answered.more task, closed.more task⟩
  claim d k reading := by
    obtain ⟨bytes, published, closed⟩ := told.claim d k reading
    exact ⟨bytes, published.more task, closed.more task⟩
  responses bytes member := by
    obtain ⟨d, dir, answered⟩ := told.responses bytes member
    exact ⟨d, dir, answered.more task⟩
  request turns rounds main json asked := by
    obtain ⟨d, request, claimed, published, same⟩ := told.request turns rounds main json asked
    exact ⟨d, request, claimed, published.more task, same⟩
  claimed := told.claimed
  rendered := told.rendered
  renders render member := by
    obtain ⟨claimed, request, published, same⟩ := told.renders render member
    exact ⟨claimed, request, published.more task, same⟩
  returned := told.returned
  answered := told.answered

/-- A call that starts remembers nothing. -/
theorem Told.start (task : Task) : Told settings v ms task task.memory := by
  cases task <;> exact ⟨rfl, nofun, nofun, nofun, nofun, nofun, .nil, .nil, nofun, nofun, nofun⟩

theorem Request.json_inj {a b : Request} (same : a.json = b.json) : a = b := by
  have members : a.members = b.members := Json.obj.inj same
  cases a
  cases b
  simp only [Request.members, List.cons.injEq, Prod.mk.injEq, Json.str.injEq, Json.int.injEq, true_and, and_true] at members
  simp [members]

/-- What files are open does not matter. -/
theorem Told.files (told : Told settings v ms task m) (raised : Bool) (file : Option (Path × Nat × List (BitVec 8))) :
    Told settings v ms task { m with raised, file } :=
  ⟨told.stem, told.published, told.response, told.claim, told.responses, told.request, told.claimed, told.rendered,
    told.renders, told.returned, told.answered⟩

/-- The requests and responses that are renamed are complete. -/
theorem Told.renamed {src dst : Path} (told : Told settings v ms task m)
    (allowed : (task.contract settings strict).allow m (.rename src dst))
    (fresh : ∀ d, dst = ["processing.json", d] → d ∉ m.claimed) : Told settings v ms task (m.renamed dst) := by
  have later : ∀ {name : String}, name ≠ "request.json" → (name = "request.json") = False := by simp
  cases task with
  | prepare turns upload job =>
    obtain ⟨d, handle, dir, first, -, rfl, file⟩ := allowed
    refine { told with published := fun bytes published => ⟨turns, upload, job, rfl, ?_⟩, answered := told.answered }
    simp only [Memory.renamed, if_pos, file, Option.map_some, Option.some.injEq] at published
    exact published.symm
  | main turns rounds =>
    rcases allowed with ⟨d, -, rfl⟩ | ⟨d, handle, bytes, claimed, -, rfl, file, complete⟩
    · have same : m.renamed ["processing.json", d] =
          { m with claimed := d :: m.claimed, raised := false, request := none, file := none } := rfl
      rw [same]
      refine { told with
        request := fun _ _ _ _ none => by cases none
        claimed := List.nodup_cons.mpr ⟨fresh d rfl, told.claimed⟩
        renders := fun render member => ?_
        answered := fun e bytes member => ?_ }
      · obtain ⟨before, asked⟩ := told.renders render member
        exact ⟨List.mem_cons_of_mem _ before, asked⟩
      · obtain ⟨before, complete⟩ := told.answered e bytes member
        exact ⟨List.mem_cons_of_mem _ before, complete⟩
    · have same : m.renamed ["response.json", d] =
          { m with answered := (d, (m.file.map (·.2.2)).getD []) :: m.answered, file := none } := rfl
      rw [same]
      refine { told with answered := fun e bytes' member => ?_ }
      rcases List.mem_cons.mp member with new | before
      · rw [file] at new
        cases new
        exact ⟨List.mem_of_head? claimed, complete⟩
      · exact told.answered e bytes' before

/-- What is read is what was published, or answered. -/
theorem Told.hasRead {handle : Nat} (told : Told settings v ms task m)
    (allowed : (task.contract settings strict).allow m (.readAll handle))
    (forms : ∀ d bytes, Published ms d bytes → ∃ request : Request, bytes = request.bytes) :
    Told settings v ms task (m.hasRead (v.data handle)) := by
  cases task with
  | prepare turns upload job =>
    obtain ⟨path, reading, own⟩ := allowed
    unfold Memory.hasRead
    split
    · rename_i name d k here
      cases reading.symm.trans here
      split
      · rename_i response
        subst response
        obtain ⟨bytes, answered, closed⟩ := told.response d handle reading
        refine { told with
          responses := fun bytes' member => ?_
          answered := told.answered }
        rcases List.mem_cons.mp member with rfl | before
        · exact ⟨d, own d rfl, closed.data ▸ answered⟩
        · exact told.responses bytes' before
      · exact { told with request := nofun, answered := told.answered }
    · exact told
  | main turns rounds =>
    obtain ⟨d, claimed, reading⟩ := allowed
    obtain ⟨bytes, published, closed⟩ := told.claim d handle reading
    obtain ⟨request, rfl⟩ := forms d bytes published
    have same : m.hasRead (v.data handle) = { m with request := some request.json } := by
      have other : ¬ "processing.json" = "response.json" := by decide
      rw [closed.data, Memory.hasRead, reading]
      simp only [if_neg other, Request.bytes, decode_utf8, Option.bind_some, Request.loads]
    rw [same]
    refine { told with request := fun _ _ _ json asked => ?_, answered := told.answered }
    cases asked
    exact ⟨d, request, claimed, published, rfl⟩

theorem exec_openRead {path : Path} {r : Except Raised Nat} (executed : w.exec (.openRead path) choice = some (r, w')) :
    w' = w ∧ ∀ k, r = .ok k → w.volume.node path = some (.file k) := by
  cases choice with
  | go =>
    obtain ⟨read, same⟩ := Prod.mk.inj (Option.some.inj executed)
    refine ⟨same.symm, fun k ok => ?_⟩
    subst ok
    cases result : w.volume.openRead path with
    | error =>
      rw [result] at read
      cases read
    | ok j =>
      rw [result] at read
      cases read
      exact Volume.openRead_ok result
  | _ => cases executed

theorem exec_readAll {handle : Nat} {r : Except Raised (List (BitVec 8))}
    (executed : w.exec (.readAll handle) choice = some (r, w')) : w' = w ∧ r = .ok (w.volume.data handle) := by
  cases choice with
  | go =>
    cases executed
    exact ⟨rfl, rfl⟩
  | _ => cases executed

/-- A rename that is done, or the reason why it is not. -/
theorem exec_rename {src dst : Path} {r : Except Raised Unit} (executed : w.exec (.rename src dst) choice = some (r, w')) :
    (∃ v, w.volume.rename src dst = .ok v ∧ r = .ok ()) ∨
      ∃ e, w.volume.rename src dst = .error e ∧ r = .error (osError e [src, dst]) := by
  cases choice with
  | go =>
    rcases World.change_cases (Option.some.inj executed) with ⟨_, v, result, rfl, -⟩ | ⟨e, result, rfl, -⟩
    · exact .inl ⟨v, map_ok result, rfl⟩
    · refine .inr ⟨e, ?_, rfl⟩
      cases renamed : w.volume.rename src dst with
      | error =>
        rw [renamed] at result
        cases result
        rfl
      | ok =>
        rw [renamed] at result
        cases result
  | _ => cases executed

variable (strict) in
/-- A request that a daemon claims, nobody has claimed before. -/
theorem claim_fresh (fits : Fits w.volume ms) (here : (task, m) ∈ ms) {src dst : Path}
    (allowed : (task.contract settings strict).allow m (.rename src dst))
    (executed : w.exec (.rename src dst) choice = some (.ok (), w')) (d : String) (claim : dst = ["processing.json", d]) :
    d ∉ m.claimed := by
  rcases exec_rename executed with ⟨v, result, -⟩ | ⟨e, -, same⟩
  · have source : src = ["request.json", d] := by
      rcases Task.contract_cases allowed with ⟨_, e, handle, -, -, -, rfl, -⟩ | ⟨e, rfl, rfl⟩ | ⟨e, handle, bytes, -, -, rfl, -⟩
      · exact absurd (List.cons.inj claim).1 (by decide)
      · rw [(List.cons.inj claim).2]
      · exact absurd (List.cons.inj claim).1 (by decide)
    obtain ⟨k, there, -, -, -⟩ := Volume.rename_ok result
    exact fits.pending d k (source ▸ there) _ here
  · cases same

/-- What a call learns is true. -/
theorem Told.next (told : Told settings w.volume ms task m) (fits : Fits w.volume ms) (here : (task, m) ∈ ms)
    (allowed : (task.contract settings strict).allow m op) (executed : w.exec op choice = some (r, w'))
    (forms : ∀ d bytes, Published ms d bytes → ∃ request : Request, bytes = request.bytes) :
    Told settings w.volume ms task (m.next op r) := by
  cases op with
  | uuid4 =>
    rcases Task.contract_cases allowed with ⟨_, blank⟩ | none
    · cases r with
      | error => exact told
      | ok hex =>
        refine { told with responses := fun bytes member => ?_, answered := told.answered }
        obtain ⟨d, dir, -⟩ := told.responses bytes member
        rw [blank] at dir
        cases dir
    · exact none.elim
  | openWrite path =>
    cases r with
    | error => exact told.files true m.file
    | ok handle => exact told.files m.raised (some (path, handle, []))
  | write handle data =>
    cases r with
    | error => exact told
    | ok count => exact told.files m.raised _
  | rename src dst =>
    cases r with
    | error => exact told.files true m.file
    | ok => exact told.renamed allowed (claim_fresh _ fits here allowed executed)
  | openRead path =>
    cases r with
    | error => exact told.files true m.file
    | ok handle =>
      have there := (exec_openRead executed).2 handle rfl
      refine { told with response := fun d k reading => ?_, claim := fun d k reading => ?_, answered := told.answered }
      · cases reading
        exact fits.answered d _ there
      · cases reading
        exact fits.requested d _ (.inr there)
  | readAll handle =>
    have read := (exec_readAll executed).2
    subst read
    exact told.hasRead allowed forms
  | render source output sha256 maxPages maxPixels dpi =>
    cases task with
    | prepare => exact allowed.elim
    | main turns rounds =>
      obtain ⟨d, request, claimed, once, asked, rfl, same⟩ := allowed
      obtain ⟨e, request', claimed', published, json⟩ := told.request turns rounds rfl _ asked
      cases claimed.symm.trans claimed'
      cases Request.json_inj json
      cases r with
      | error => exact told
      | ok =>
        have learnt : m.next (.render source ["output", d] sha256 maxPages maxPixels dpi) (.ok ()) =
            { m with renders := request.render d :: m.renders } := by rw [← same]; rfl
        rw [learnt]
        refine { told with
          rendered := List.nodup_cons.mpr ⟨fun again => ?_, told.rendered⟩
          renders := fun render member => ?_
          returned := fun e member => ?_
          answered := told.answered }
        · obtain ⟨render, member, again⟩ := List.mem_map.mp again
          exact once render member again
        · rcases List.mem_cons.mp member with rfl | old
          · exact ⟨List.mem_of_head? claimed, request, published, rfl⟩
          · exact told.renders render old
        · obtain ⟨render, old, dir⟩ := told.returned e member
          exact ⟨render, List.mem_cons_of_mem _ old, dir⟩
  | rendering output =>
    rcases Task.contract_cases allowed with ⟨_, none⟩ | ⟨d, -, rfl, asked⟩
    · exact none.elim
    · cases r with
      | error => exact told.files true m.file
      | ok done =>
        cases done with
        | false => exact told
        | true =>
          refine { told with returned := fun e member => ?_, answered := fun e bytes member => ?_ }
          · rcases List.mem_cons.mp member with rfl | old
            · exact asked
            · exact told.returned e old
          · obtain ⟨claimed, complete⟩ := told.answered e bytes member
            refine ⟨claimed, complete.imp (fun ok => ?_) id⟩
            exact ⟨ok.1, List.mem_cons_of_mem _ ok.2⟩
  | _ => exact told

end

end Sandbox

end MonkeyOcr
