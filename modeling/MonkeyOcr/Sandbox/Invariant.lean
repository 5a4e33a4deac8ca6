import MonkeyOcr.Sandbox.Changes

namespace MonkeyOcr

namespace Sandbox

open Calls Codec Files

/-- The calls by their tasks and memories. -/
abbrev Parties := List (Task × Memory)

/-- The client of the directory has published this request. -/
def Published (ms : Parties) (d : String) (bytes : List (BitVec 8)) : Prop :=
  ∃ call ∈ ms, call.2.dir = some d ∧ call.2.published = some bytes

/-- A daemon has answered this in the directory. -/
def Answered (ms : Parties) (d : String) (bytes : List (BitVec 8)) : Prop :=
  ∃ call ∈ ms, (d, bytes) ∈ call.2.answered

/-- The file keeps its content: nobody has it open, and it has no name that is written. -/
structure Sealed (v : Volume) (ms : Parties) (k : Nat) (bytes : List (BitVec 8)) : Prop where
  data : v.data k = bytes
  old : k < v.next
  shut : ∀ call ∈ ms, ∀ p done, call.2.file ≠ some (p, k, done)
  names : ∀ p, v.node p = some (.file k) → Closed p

/-- A file a call writes: it has no other name, and its path no other file. -/
structure Held (v : Volume) (m : Memory) (p : Path) (k : Nat) (done : List (BitVec 8)) : Prop where
  writer : m.Writer p
  old : k < v.next
  data : v.data k = done
  only : ∀ q, v.node q = some (.file k) → q = p
  here : ∀ j, v.node p = some (.file j) → j = k

/-- Two calls have different directories and requests. -/
structure Apart (m n : Memory) : Prop where
  dir : ∀ d, m.dir = some d → n.dir ≠ some d
  claimed : ∀ d ∈ m.claimed, d ∉ n.claimed
  file : ∀ p k done q l done', m.file = some (p, k, done) → n.file = some (q, l, done') → k ≠ l

/-- The files of the exchange directory and what the calls remember fit together. -/
structure Fits (v : Volume) (ms : Parties) : Prop where
  dirs : ∀ name d parent, v.node (name :: d :: parent) = some .dir → name = "output"
  file : ∀ call ∈ ms, ∀ p k done, call.2.file = some (p, k, done) → Held v call.2 p k done
  apart : ∀ (i j : Nat) call other, ms[i]? = some call → ms[j]? = some other → i ≠ j → Apart call.2 other.2
  pending : ∀ d k, v.node ["request.json", d] = some (.file k) → ∀ call ∈ ms, d ∉ call.2.claimed
  claimed : ∀ call ∈ ms, ∀ d ∈ call.2.claimed, ∃ bytes, Published ms d bytes
  requested : ∀ d k, v.node ["request.json", d] = some (.file k) ∨ v.node ["processing.json", d] = some (.file k) →
    ∃ bytes, Published ms d bytes ∧ Sealed v ms k bytes
  answered : ∀ d k, v.node ["response.json", d] = some (.file k) → ∃ bytes, Answered ms d bytes ∧ Sealed v ms k bytes

theorem Apart.symm {m n : Memory} (apart : Apart m n) : Apart n m where
  dir d here there := apart.dir d there here
  claimed d here there := apart.claimed d there here
  file p k done q l done' here there same := apart.file q l done' p k done there here same.symm

/-- No path has two writers. -/
theorem Apart.writers {m n : Memory} {p : Path} (apart : Apart m n) (first : m.Writer p) (second : n.Writer p) : False := by
  rcases first with ⟨d, dir, place⟩ | ⟨d, claimed, rfl⟩
  · rcases second with ⟨e, dir', place'⟩ | ⟨e, -, rfl⟩
    · have same : [d] = [e] := by
        rcases place with rfl | rfl <;> rcases place' with same | same <;> exact (List.cons.inj same).2
      exact apart.dir d dir ((List.cons.inj same).1 ▸ dir')
    · rcases place with same | same <;> exact absurd (List.cons.inj same).1 (by decide)
  · rcases second with ⟨e, -, same | same⟩ | ⟨e, claimed', same⟩
    · exact absurd (List.cons.inj same).1 (by decide)
    · exact absurd (List.cons.inj same).1 (by decide)
    · cases same
      exact apart.claimed d (List.mem_of_head? claimed) (List.mem_of_head? claimed')

/-- A call that knows more. -/
structure Memory.Grows (m m' : Memory) : Prop where
  dir : ∀ d, m.dir = some d → m'.dir = some d
  published : ∀ bytes, m.published = some bytes → m'.published = some bytes
  claimed : ∀ d ∈ m.claimed, d ∈ m'.claimed
  answered : ∀ entry ∈ m.answered, entry ∈ m'.answered
  returned : ∀ d ∈ m.returned, d ∈ m'.returned

section Frame

variable {m : Memory} {renames : Path → Path → Prop} {v v' : Volume} {op : Op} {r : Except Raised op.Val} {p q : Path}
  {k j : Nat} {name d : String}

/-- A file keeps its content, and gets no name but by one of the renames. -/
structure Spares (renames : Path → Path → Prop) (v v' : Volume) (k : Nat) : Prop where
  next : v.next ≤ v'.next
  data : v'.data k = v.data k
  names : ∀ q, v'.node q = some (.file k) → v.node q = some (.file k) ∨ ∃ src, renames src q ∧ v.node src = some (.file k)

theorem Moved.closed {src dst : Path} (move : Moved m src dst) : Closed dst := by
  cases move with
  | published => exact ⟨_, .inl rfl⟩
  | claimed => exact ⟨_, .inr (.inl rfl)⟩
  | answered => exact ⟨_, .inr (.inr rfl)⟩

theorem Moved.request {src : Path} (move : Moved m src ["request.json", d]) :
    src = ["request.tmp", d] ∧ m.dir = some d ∧ m.published = none ∧ ∃ handle done, m.file = some (src, handle, done) := by
  generalize same : ["request.json", d] = dst at move
  cases move with
  | published dir first file =>
    cases same
    exact ⟨rfl, dir, first, _, _, file⟩
  | claimed => exact absurd (List.cons.inj same).1 (by decide)
  | answered => exact absurd (List.cons.inj same).1 (by decide)

theorem Moved.processing {src : Path} (move : Moved m src ["processing.json", d]) : src = ["request.json", d] := by
  generalize same : ["processing.json", d] = dst at move
  cases move with
  | published => exact absurd (List.cons.inj same).1 (by decide)
  | claimed =>
    cases same
    rfl
  | answered => exact absurd (List.cons.inj same).1 (by decide)

theorem Moved.response {src : Path} (move : Moved m src ["response.json", d]) :
    src = ["response.tmp", d] ∧ ∃ handle done, m.file = some (src, handle, done) := by
  generalize same : ["response.json", d] = dst at move
  cases move with
  | published => exact absurd (List.cons.inj same).1 (by decide)
  | claimed => exact absurd (List.cons.inj same).1 (by decide)
  | answered claimed file =>
    cases same
    exact ⟨rfl, _, _, file⟩

/-- What an open for writing does to the names. -/
theorem opened_node (result : v.openWrite p = .ok (k, v')) (q : Path) :
    v'.node q = if q = p then some (.file k) else v.node q := by
  rcases Volume.openWrite_ok result with ⟨here, rfl⟩ | ⟨-, -, node, -, -⟩
  · by_cases same : q = p
    · rw [if_pos same, same]
      exact here
    · rw [if_neg same]
      rfl
  · exact node q

/-- An open for writing leaves the other files alone. -/
theorem opened_spares (result : v.openWrite p = .ok (k, v')) (old : j < v.next) (other : v.node p ≠ some (.file j)) :
    j ≠ k ∧ Spares renames v v' j := by
  have apart : j ≠ k := by
    intro same
    subst same
    rcases Volume.openWrite_ok result with ⟨here, -⟩ | ⟨-, fresh, -, -, -⟩
    · exact other here
    · omega
  refine ⟨apart, ?_, ?_, fun q there => .inl ?_⟩
  · rcases Volume.openWrite_ok result with ⟨-, rfl⟩ | ⟨-, -, -, -, next⟩
    · exact Nat.le_refl _
    · omega
  · rcases Volume.openWrite_ok result with ⟨-, rfl⟩ | ⟨-, -, -, data, -⟩
    · exact Function.update_of_ne apart _ _
    · rw [data]
      exact Function.update_of_ne apart _ _
  · rw [opened_node result] at there
    split at there
    · cases there
      exact absurd rfl apart
    · exact there

theorem write_spares {data : List (BitVec 8)} (apart : j ≠ k) : Spares renames v (v.write k data) j :=
  ⟨Nat.le_refl _, Function.update_of_ne apart _ _, fun _ there => .inl there⟩

theorem Quiet.spares (quiet : Quiet v v') (old : k < v.next)
    (outer : ∀ name d, v.node [name, "output", d] ≠ some (.file k)) : Spares renames v v' k := by
  cases quiet with
  | same => exact ⟨Nat.le_refl _, rfl, fun q there => .inl there⟩
  | gone puts =>
    refine ⟨Nat.le_of_eq puts.next.symm, congrFun puts.data k, fun q there => .inl ?_⟩
    rw [puts.node] at there
    split at there
    · cases there
    · exact there
  | made place puts =>
    refine ⟨Nat.le_of_eq puts.next.symm, congrFun puts.data k, fun q there => .inl ?_⟩
    rw [puts.node] at there
    split at there
    · cases there
    · exact there
  | worked result => exact (opened_spares result old (outer _ _)).2
  | appended here =>
    refine write_spares ?_
    intro same
    subst same
    exact outer _ _ here

/-- Quiet changes make no file of the exchange, and only the output directories. -/
theorem Quiet.node (quiet : Quiet v v') (place : Loose p ∨ Closed p) {n : Node} (there : v'.node p = some n) :
    v.node p = some n := by
  have flat : ∀ {q : Path} {d : String}, q = [d] ∨ q = ["output", d] → p ≠ q := by
    intro q d made same
    subst same
    rcases place with ⟨e, place⟩ | ⟨e, place⟩ <;> rcases made with rfl | rfl <;> simp at place
  cases quiet with
  | same => exact there
  | gone puts =>
    rw [puts.node] at there
    split at there
    · cases there
    · exact there
  | made made puts =>
    rw [puts.node, if_neg (flat made)] at there
    exact there
  | worked result =>
    rw [opened_node result, if_neg] at there
    · exact there
    · intro same
      subst same
      exact place.elim Loose.not_inner Closed.not_inner
  | appended => exact there

theorem Quiet.dirs (quiet : Quiet v v') (there : v'.node (name :: d :: q) = some .dir) :
    v.node (name :: d :: q) = some .dir ∨ name = "output" := by
  cases quiet with
  | same => exact .inl there
  | gone puts =>
    rw [puts.node] at there
    split at there
    · cases there
    · exact .inl there
  | made made puts =>
    rw [puts.node] at there
    split at there
    · rename_i same
      rcases made with rfl | rfl
      · cases same
      · exact .inr (List.cons.inj same).1
    · exact .inl there
  | worked result =>
    rw [opened_node result] at there
    split at there
    · cases there
    · exact .inl there
  | appended => exact .inl there

theorem moved_spares {src dst : Path} (move : Moved m src dst) (result : v.rename src dst = .ok v') :
    Spares (Moved m) v v' k := by
  obtain ⟨j, there, node, data, next⟩ := Volume.rename_ok result
  refine ⟨Nat.le_of_eq next.symm, congrFun data k, fun q here => ?_⟩
  rw [node] at here
  split at here
  · rename_i same
    cases here
    exact .inr ⟨src, same ▸ move, there⟩
  · split at here
    · cases here
    · exact .inl here

/-- A file that the call does not write, and whose paths it does not write to, is spared. -/
theorem Change.spares (change : Change m v op r v') (old : k < v.next)
    (outer : ∀ name d, v.node [name, "output", d] ≠ some (.file k))
    (shut : ∀ p done, m.file ≠ some (p, k, done)) (foreign : ∀ p, m.Writer p → v.node p ≠ some (.file k)) :
    Spares (Moved m) v v' k := by
  cases change with
  | quiet _ quiet => exact quiet.spares old outer
  | opened writer result => exact (opened_spares result old (foreign _ writer)).2
  | wrote file => exact write_spares fun same => shut _ _ (same ▸ file)
  | moved move result => exact moved_spares move result

end Frame

section Step

variable {ms : Parties} {i : Nat} {task : Task} {m : Memory} {v v' : Volume}
  {op : Op} {r : Except Raised op.Val} {d : String} {k : Nat} {bytes : List (BitVec 8)}

theorem mem_step {call : Task × Memory} {m' : Memory} (member : call ∈ ms.set i (task, m')) :
    (∃ j, j ≠ i ∧ ms[j]? = some call) ∨ call = (task, m') := by
  obtain ⟨j, at_j⟩ := List.mem_iff_getElem?.mp member
  by_cases same : i = j
  · subst same
    have bound : i < ms.length := by
      have inside := (List.getElem?_eq_some_iff.mp at_j).1
      rwa [List.length_set] at inside
    rw [List.getElem?_set_self bound] at at_j
    exact .inr (Option.some.inj at_j).symm
  · rw [List.getElem?_set_ne same] at at_j
    exact .inl ⟨j, Ne.symm same, at_j⟩

/-- Every call is there after a step of one of them. -/
theorem mem_kept (m' : Memory) (at_i : ms[i]? = some (task, m)) {call : Task × Memory} (member : call ∈ ms) :
    call ∈ ms.set i (task, m') ∨ call = (task, m) := by
  obtain ⟨j, at_j⟩ := List.mem_iff_getElem?.mp member
  by_cases same : i = j
  · subst same
    exact .inr (Option.some.inj (at_j.symm.trans at_i))
  · refine .inl (List.mem_iff_getElem?.mpr ⟨j, ?_⟩)
    rw [List.getElem?_set_ne same, at_j]

theorem mem_moved {m' : Memory} (at_i : ms[i]? = some (task, m)) : (task, m') ∈ ms.set i (task, m') := by
  have bound := (List.getElem?_eq_some_iff.mp at_i).1
  exact List.mem_iff_getElem?.mpr ⟨i, List.getElem?_set_self bound⟩

theorem Published.step {m' : Memory} (at_i : ms[i]? = some (task, m)) (grows : m.Grows m')
    (published : Published ms d bytes) : Published (ms.set i (task, m')) d bytes := by
  obtain ⟨call, member, dir, sent⟩ := published
  rcases mem_kept m' at_i member with kept | rfl
  · exact ⟨call, kept, dir, sent⟩
  · exact ⟨_, mem_moved at_i, grows.dir d dir, grows.published bytes sent⟩

theorem Answered.step {m' : Memory} (at_i : ms[i]? = some (task, m)) (grows : m.Grows m')
    (answered : Answered ms d bytes) : Answered (ms.set i (task, m')) d bytes := by
  obtain ⟨call, member, entry⟩ := answered
  rcases mem_kept m' at_i member with kept | rfl
  · exact ⟨call, kept, entry⟩
  · exact ⟨_, mem_moved at_i, grows.answered _ entry⟩

/-- A sealed file stays sealed. -/
theorem Sealed.step (change : Change m v op r v') (at_i : ms[i]? = some (task, m)) (closed : Sealed v ms k bytes) :
    Sealed v' (ms.set i (task, m.next op r)) k bytes := by
  have shut : ∀ p done, m.file ≠ some (p, k, done) := closed.shut _ (List.mem_of_getElem? at_i)
  have foreign : ∀ p, m.Writer p → v.node p ≠ some (.file k) := fun p writer here =>
    writer.loose.not_closed (closed.names p here)
  have spared := change.spares closed.old (fun name d here => Closed.not_inner (closed.names _ here)) shut foreign
  refine ⟨spared.data.trans closed.data, closed.old.trans_le spared.next, ?_, fun p there => ?_⟩
  · intro call member p done file
    rcases mem_step member with ⟨j, -, before⟩ | rfl
    · exact closed.shut call (List.mem_of_getElem? before) p done file
    · cases change with
      | quiet alike => exact shut p done (alike.file.symm.trans file)
      | opened writer result =>
        cases file
        exact (@opened_spares (Moved m) _ _ _ _ _ result closed.old (foreign _ writer)).1 rfl
      | wrote own =>
        simp only [Memory.next, own, Option.map_some] at file
        cases file
        exact shut _ _ own
      | moved move =>
        cases move <;> cases file
  · rcases spared.names p there with before | ⟨src, move, -⟩
    · exact closed.names p before
    · exact move.closed

/-- A file that another call writes stays that call's. -/
theorem Held.others {n : Memory} {p : Path} {done : List (BitVec 8)} (change : Change m v op r v') (apart : Apart m n)
    (file : n.file = some (p, k, done)) (held : Held v n p k done) : Held v' n p k done := by
  have foreign : ∀ q, m.Writer q → v.node q ≠ some (.file k) := by
    intro q writer here
    rw [held.only q here] at writer
    exact apart.writers writer held.writer
  have outer : ∀ name d, v.node [name, "output", d] ≠ some (.file k) := fun name d here =>
    Loose.not_inner (held.only _ here ▸ held.writer.loose)
  have spared := change.spares held.old outer (fun q done' own => apart.file q k done' p k done own file rfl) foreign
  refine ⟨held.writer, held.old.trans_le spared.next, spared.data.trans held.data, fun q there => ?_, fun j there => ?_⟩
  · rcases spared.names q there with before | ⟨src, move, here⟩
    · exact held.only q before
    · have place := held.only src here
      cases move with
      | published dir => exact absurd here (foreign _ (.inl ⟨_, dir, .inr rfl⟩))
      | claimed => exact absurd ⟨_, .inl rfl⟩ (place ▸ held.writer.loose).not_closed
      | answered claimed => exact absurd here (foreign _ (.inr ⟨_, claimed, rfl⟩))
  · refine held.here j ?_
    cases change with
    | quiet _ quiet => exact quiet.node (.inl held.writer.loose) there
    | opened writer result =>
      rw [opened_node result, if_neg] at there
      · exact there
      · intro same
        exact apart.writers writer (same ▸ held.writer)
    | wrote => exact there
    | moved move result =>
      obtain ⟨l, here, node, -, -⟩ := Volume.rename_ok result
      rw [node, if_neg] at there
      · split at there
        · cases there
        · exact there
      · intro same
        exact held.writer.loose.not_closed (same ▸ move.closed)

/-- The file a call writes is its own after each of its operations. -/
theorem Held.step {p : Path} {done : List (BitVec 8)} (change : Change m v op r v') (grows : m.Grows (m.next op r))
    (held : ∀ p k done, m.file = some (p, k, done) → Held v m p k done)
    (fresh : ∀ p k, v.node p = some (.file k) → k < v.next)
    (unshared : ∀ p q k, v.node p = some (.file k) → v.node q = some (.file k) → p = q)
    (file : (m.next op r).file = some (p, k, done)) : Held v' (m.next op r) p k done := by
  cases change with
  | quiet alike quiet =>
    obtain ⟨writer, old, data, only, here⟩ := held p k done (alike.file.symm.trans file)
    have outer : ∀ name d, v.node [name, "output", d] ≠ some (.file k) := fun name d there =>
      Loose.not_inner (only _ there ▸ writer.loose)
    have spared : Spares (fun _ _ => False) v v' k := quiet.spares old outer
    refine ⟨?_, old.trans_le spared.next, spared.data.trans data, fun q there => ?_, fun j there => ?_⟩
    · rcases writer with ⟨d, dir, place⟩ | ⟨d, claimed, place⟩
      · exact .inl ⟨d, grows.dir d dir, place⟩
      · exact .inr ⟨d, alike.claimed ▸ claimed, place⟩
    · rcases spared.names q there with before | ⟨src, none, -⟩
      · exact only q before
      · exact none.elim
    · exact here j (quiet.node (.inl writer.loose) there)
  | opened writer result =>
    cases file
    refine ⟨writer, ?_, ?_, fun q there => ?_, fun j there => ?_⟩
    · rcases Volume.openWrite_ok result with ⟨here, rfl⟩ | ⟨-, rfl, -, -, next⟩
      · exact fresh _ _ here
      · omega
    · rcases Volume.openWrite_ok result with ⟨-, rfl⟩ | ⟨-, -, -, data, -⟩
      · exact Function.update_self _ _ _
      · rw [data]
        exact Function.update_self _ _ _
    · rw [opened_node result] at there
      by_contra other
      rw [if_neg other] at there
      rcases Volume.openWrite_ok result with ⟨here, -⟩ | ⟨-, rfl, -, -, -⟩
      · exact other (unshared q _ k there here)
      · exact Nat.lt_irrefl _ (fresh q _ there)
    · rw [opened_node result, if_pos rfl] at there
      cases there
      rfl
  | wrote own =>
    simp only [Memory.next, own, Option.map_some] at file
    cases file
    obtain ⟨writer, old, data, only, here⟩ := held _ _ _ own
    exact ⟨writer, old, (Function.update_self _ _ _).trans (by rw [data]), only, here⟩
  | moved move => cases move <;> cases file

/-- The file that a call moves is sealed from then on. -/
theorem Fits.seals {src dst : Path} {done : List (BitVec 8)} (fits : Fits v ms) (at_i : ms[i]? = some (task, m))
    (move : Moved m src dst) (result : v.rename src dst = .ok v') (file : m.file = some (src, k, done)) :
    v.node src = some (.file k) ∧ Sealed v' (ms.set i (task, m.renamed dst)) k done := by
  have held := fits.file _ (List.mem_of_getElem? at_i) src k done file
  obtain ⟨j, here, node, data, next⟩ := Volume.rename_ok result
  have same := held.here j here
  subst same
  refine ⟨here, (congrFun data j).trans held.data, held.old.trans_le (Nat.le_of_eq next.symm), ?_, fun p there => ?_⟩
  · intro call member p done' other
    rcases mem_step member with ⟨l, apart, before⟩ | rfl
    · exact (fits.apart l i _ _ before at_i apart).file p j done' src j done other file rfl
    · cases move <;> cases other
  · rw [node] at there
    split at there
    · rename_i same
      exact same ▸ move.closed
    · rename_i elsewhere
      split at there
      · cases there
      · rename_i apart
        exact absurd (held.only p there) apart

/-- Where a complete file comes from. -/
theorem Change.source {q : Path} (change : Change m v op r v') (place : Closed q) (there : v'.node q = some (.file k)) :
    v.node q = some (.file k) ∨
      ∃ src, Moved m src q ∧ v.rename src q = .ok v' ∧ v.node src = some (.file k) ∧ m.next op r = m.renamed q := by
  cases change with
  | quiet _ quiet => exact .inl (quiet.node (.inr place) there)
  | opened writer result =>
    rw [opened_node result, if_neg] at there
    · exact .inl there
    · intro same
      exact writer.loose.not_closed (same ▸ place)
  | wrote => exact .inl there
  | moved move result =>
    obtain ⟨j, here, node, -, -⟩ := Volume.rename_ok result
    rw [node] at there
    split at there
    · rename_i same
      subst same
      cases there
      exact .inr ⟨_, move, result, here, rfl⟩
    · split at there
      · cases there
      · exact .inl there

/-- A request that is claimed was there, and is there no longer. -/
theorem Change.claims (change : Change m v op r v') (claimed : d ∈ (m.next op r).claimed) :
    d ∈ m.claimed ∨ (∃ k, v.node ["request.json", d] = some (.file k)) ∧ v'.node ["request.json", d] = none := by
  cases change with
  | quiet alike => exact .inl (alike.claimed ▸ claimed)
  | opened => exact .inl claimed
  | wrote => exact .inl claimed
  | moved move result =>
    cases move with
    | published => exact .inl claimed
    | claimed e =>
      obtain ⟨k, here, node, -, -⟩ := Volume.rename_ok result
      rcases List.mem_cons.mp claimed with rfl | before
      · refine .inr ⟨⟨k, here⟩, ?_⟩
        rw [node, if_neg (by simp), if_pos rfl]
      · exact .inl before
    | answered => exact .inl claimed

theorem Apart.step {n : Memory} (change : Change m v op r v') (apart : Apart m n)
    (fresh : ∀ d, (m.next op r).dir = some d → m.dir ≠ some d → n.dir ≠ some d)
    (pending : ∀ d k, v.node ["request.json", d] = some (.file k) → d ∉ n.claimed)
    (held : ∀ p k done, n.file = some (p, k, done) → Held v n p k done) : Apart (m.next op r) n where
  dir d here := by
    by_cases before : m.dir = some d
    · exact apart.dir d before
    · exact fresh d here before
  claimed d here := by
    rcases change.claims here with before | ⟨⟨k, there⟩, -⟩
    · exact apart.claimed d before
    · exact pending d k there
  file p k done q l done' here there := by
    cases change with
    | quiet alike => exact apart.file p k done q l done' (alike.file.symm.trans here) there
    | opened writer result =>
      cases here
      have own := held q l done' there
      have foreign : v.node p ≠ some (.file l) := by
        intro named
        rw [own.only p named] at writer
        exact apart.writers writer own.writer
      exact fun same => (@opened_spares (Moved m) _ _ _ _ _ result own.old foreign).1 same.symm
    | wrote own =>
      simp only [Memory.next, own, Option.map_some] at here
      cases here
      exact apart.file _ _ _ q l done' own there
    | moved move => cases move <;> cases here

/-- Every operation that is allowed keeps the fit. -/
theorem Fits.step (fits : Fits v ms) (at_i : ms[i]? = some (task, m)) (change : Change m v op r v')
    (grows : m.Grows (m.next op r))
    (fresh : ∀ d, (m.next op r).dir = some d → m.dir ≠ some d → ∀ call ∈ ms, call.2.dir ≠ some d) :
    Fits v' (ms.set i (task, m.next op r)) := by
  have here : (task, m) ∈ ms := List.mem_of_getElem? at_i
  have apart : ∀ j n, j ≠ i → ms[j]? = some n → Apart (m.next op r) n.2 := by
    intro j n other at_j
    have member := List.mem_of_getElem? at_j
    exact (fits.apart i j _ _ at_i at_j (Ne.symm other)).step change (fun d now before => fresh d now before n member)
      (fun d k there => fits.pending d k there n member) (fits.file n member)
  refine ⟨?_, ?_, ?_, ?_, ?_, ?_, ?_⟩
  · intro name d parent there
    cases change with
    | quiet _ quiet =>
      rcases quiet.dirs there with before | output
      · exact fits.dirs name d parent before
      · exact output
    | opened _ result =>
      rw [opened_node result] at there
      split at there
      · cases there
      · exact fits.dirs name d parent there
    | wrote => exact fits.dirs name d parent there
    | moved _ result =>
      obtain ⟨k, -, node, -, -⟩ := Volume.rename_ok result
      rw [node] at there
      split at there
      · cases there
      · split at there
        · cases there
        · exact fits.dirs name d parent there
  · intro call member p k done file
    rcases mem_step member with ⟨j, other, at_j⟩ | rfl
    · have held := fits.file call (List.mem_of_getElem? at_j) p k done file
      exact held.others change (fits.apart i j _ _ at_i at_j (Ne.symm other)) file
    · exact Held.step change grows (fits.file _ here) v.fresh v.unshared file
  · intro a b call other at_a at_b different
    rw [List.getElem?_set] at at_a at_b
    split at at_a
    · rename_i first
      subst first
      rw [if_neg different] at at_b
      split at at_a
      · cases at_a
        exact apart b other (Ne.symm different) at_b
      · cases at_a
    · rename_i first
      split at at_b
      · rename_i second
        subst second
        split at at_b
        · cases at_b
          exact (apart a call (Ne.symm first) at_a).symm
        · cases at_b
      · exact fits.apart a b call other at_a at_b different
  · intro d k there call member claimed
    rcases change.source ⟨d, .inl rfl⟩ there with before | ⟨src, move, result, -, same⟩
    · rcases mem_step member with ⟨j, -, at_j⟩ | rfl
      · exact fits.pending d k before call (List.mem_of_getElem? at_j) claimed
      · rcases change.claims claimed with old | ⟨-, gone⟩
        · exact fits.pending d k before _ here old
        · rw [gone] at there
          cases there
    · have old : ∃ call ∈ ms, d ∈ call.2.claimed := by
        rcases mem_step member with ⟨j, -, at_j⟩ | rfl
        · exact ⟨call, List.mem_of_getElem? at_j, claimed⟩
        · rcases change.claims claimed with old | ⟨-, gone⟩
          · exact ⟨_, here, old⟩
          · rw [gone] at there
            cases there
      obtain ⟨other, among, before⟩ := old
      obtain ⟨bytes, sender, sent, dir, published⟩ := fits.claimed other among d before
      obtain ⟨-, own, first, -⟩ := move.request
      obtain ⟨j, at_j⟩ := List.mem_iff_getElem?.mp sent
      by_cases self : i = j
      · subst self
        cases at_i.symm.trans at_j
        rw [first] at published
        cases published
      · exact (fits.apart i j _ _ at_i at_j self).dir d own dir
  · intro call member d claimed
    rcases mem_step member with ⟨j, -, at_j⟩ | rfl
    · obtain ⟨bytes, published⟩ := fits.claimed call (List.mem_of_getElem? at_j) d claimed
      exact ⟨bytes, published.step at_i grows⟩
    · rcases change.claims claimed with old | ⟨⟨k, there⟩, -⟩
      · obtain ⟨bytes, published⟩ := fits.claimed _ here d old
        exact ⟨bytes, published.step at_i grows⟩
      · obtain ⟨bytes, published, -⟩ := fits.requested d k (.inl there)
        exact ⟨bytes, published.step at_i grows⟩
  · intro d k there
    have kept : v.node ["request.json", d] = some (.file k) ∨ v.node ["processing.json", d] = some (.file k) →
        ∃ bytes, Published (ms.set i (task, m.next op r)) d bytes ∧ Sealed v' (ms.set i (task, m.next op r)) k bytes := by
      intro before
      obtain ⟨bytes, published, closed⟩ := fits.requested d k before
      exact ⟨bytes, published.step at_i grows, closed.step change at_i⟩
    rcases there with there | there
    · rcases change.source ⟨d, .inl rfl⟩ there with before | ⟨src, move, result, from_, same⟩
      · exact kept (.inl before)
      · obtain ⟨-, dir, -, handle, done, file⟩ := move.request
        obtain ⟨named, closed⟩ := fits.seals at_i move result file
        cases named.symm.trans from_
        rw [same]
        exact ⟨done, ⟨_, mem_moved at_i, dir, by simp [Memory.renamed, file]⟩, closed⟩
    · rcases change.source ⟨d, .inr (.inl rfl)⟩ there with before | ⟨src, move, result, from_, same⟩
      · exact kept (.inr before)
      · exact kept (.inl (move.processing ▸ from_))
  · intro d k there
    rcases change.source ⟨d, .inr (.inr rfl)⟩ there with before | ⟨src, move, result, from_, same⟩
    · obtain ⟨bytes, answered, closed⟩ := fits.answered d k before
      exact ⟨bytes, answered.step at_i grows, closed.step change at_i⟩
    · obtain ⟨-, handle, done, file⟩ := move.response
      obtain ⟨named, closed⟩ := fits.seals at_i move result file
      cases named.symm.trans from_
      rw [same]
      exact ⟨done, ⟨_, mem_moved at_i, by simp [Memory.renamed, file]⟩, closed⟩

/-! ### A new call -/

theorem Published.more (published : Published ms d bytes) (task : Task) :
    Published (ms ++ [(task, task.memory)]) d bytes := by
  obtain ⟨call, member, sent⟩ := published
  exact ⟨call, List.mem_append_left _ member, sent⟩

theorem Answered.more (answered : Answered ms d bytes) (task : Task) : Answered (ms ++ [(task, task.memory)]) d bytes := by
  obtain ⟨call, member, entry⟩ := answered
  exact ⟨call, List.mem_append_left _ member, entry⟩

/-- A call starts with no directory, no request and no file. -/
theorem Task.memory_blank (task : Task) :
    task.memory.dir = none ∧ task.memory.published = none ∧ task.memory.claimed = [] ∧ task.memory.file = none := by
  cases task <;> exact ⟨rfl, rfl, rfl, rfl⟩

theorem Sealed.more (closed : Sealed v ms k bytes) (task : Task) : Sealed v (ms ++ [(task, task.memory)]) k bytes := by
  refine { closed with shut := fun call member p done file => ?_ }
  rcases List.mem_append.mp member with before | new
  · exact closed.shut call before p done file
  · cases List.mem_singleton.mp new
    rw [task.memory_blank.2.2.2] at file
    cases file

theorem Apart.blank (m : Memory) (task : Task) : Apart m task.memory := by
  obtain ⟨dir, -, claimed, file⟩ := task.memory_blank
  refine ⟨fun d _ there => ?_, fun d _ there => ?_, fun p k done q l done' _ there => ?_⟩
  · rw [dir] at there
    cases there
  · rw [claimed] at there
    cases there
  · rw [file] at there
    cases there

theorem Fits.more (fits : Fits v ms) (task : Task) : Fits v (ms ++ [(task, task.memory)]) := by
  obtain ⟨-, -, claimed, file⟩ := task.memory_blank
  refine ⟨fits.dirs, ?_, ?_, ?_, ?_, ?_, ?_⟩
  · intro call member p k done open_
    rcases List.mem_append.mp member with before | new
    · exact fits.file call before p k done open_
    · cases List.mem_singleton.mp new
      rw [file] at open_
      cases open_
  · intro i j call other at_i at_j different
    rw [List.getElem?_append] at at_i at_j
    split at at_i
    · split at at_j
      · exact fits.apart i j call other at_i at_j different
      · cases List.mem_singleton.mp (List.mem_of_getElem? at_j)
        exact .blank _ task
    · cases List.mem_singleton.mp (List.mem_of_getElem? at_i)
      exact (Apart.blank _ task).symm
  · intro d k there call member mine
    rcases List.mem_append.mp member with before | new
    · exact fits.pending d k there call before mine
    · cases List.mem_singleton.mp new
      rw [claimed] at mine
      cases mine
  · intro call member d mine
    rcases List.mem_append.mp member with before | new
    · obtain ⟨bytes, published⟩ := fits.claimed call before d mine
      exact ⟨bytes, published.more task⟩
    · cases List.mem_singleton.mp new
      rw [claimed] at mine
      cases mine
  · intro d k there
    obtain ⟨bytes, published, closed⟩ := fits.requested d k there
    exact ⟨bytes, published.more task, closed.more task⟩
  · intro d k there
    obtain ⟨bytes, answered, closed⟩ := fits.answered d k there
    exact ⟨bytes, answered.more task, closed.more task⟩

end Step

end Sandbox

end MonkeyOcr
