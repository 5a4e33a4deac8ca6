import MonkeyOcr.Sandbox.Memory

namespace MonkeyOcr

namespace Sandbox

open Calls Codec
open MonkeyOcr.Sandbox.Memory (ghost)

section Parts

variable {c : Contract Sig Memory} {m : Memory} {α : Type} {Q : α → Memory → Prop} {E : Raised → Memory → Prop}

theorem await_spec (op : Op) {Q : op.Val → Memory → Prop} (allowed : c.allow m op)
    (returns : ∀ a, c.answer m op (.ok a) → Q a (m.next op (.ok a)))
    (raises : ∀ e, c.answer m op (.error e) → E e (m.next op (.error e))) : (await op).Meets ghost c Q E m := by
  refine ⟨allowed, fun r answer => ?_⟩
  cases r with
  | ok a => exact returns a answer
  | error e => exact raises e answer

/-- A contract under which an open file may be written. -/
structure Writes (c : Contract Sig Memory) : Prop where
  allow : ∀ {m : Memory} {path handle done} (data : List (BitVec 8)), m.file = some (path, handle, done) →
    c.allow m (.write handle data)
  answer : ∀ {m : Memory} {handle : Nat} {data : List (BitVec 8)} {r : Except Raised Nat},
    c.answer m (.write handle data) r → ∃ count, r = .ok count ∧ 1 ≤ count

theorem client_writes (request : Request) : Writes (client request) :=
  ⟨fun _ file => ⟨_, _, file⟩, fun answer => answer⟩

theorem daemon_writes (strict : Prop) : Writes (daemon strict) :=
  ⟨fun _ file => ⟨_, _, file⟩, fun answer => answer⟩

/-- All data is written. -/
theorem writeAll_spec (writes : Writes c) {path : Path} {handle fuel : Nat} {done data : List (BitVec 8)}
    (file : m.file = some (path, handle, done)) (enough : data.length ≤ fuel) :
    (writeAll handle fuel data).Meets ghost c
      (fun _ m' => m' = { m with file := some (path, handle, done ++ data) }) E m := by
  induction fuel generalizing m done data with
  | zero =>
    cases List.eq_nil_of_length_eq_zero (Nat.le_zero.mp enough)
    change m = _
    rw [List.append_nil, ← file]
  | succ fuel ih =>
    unfold writeAll
    split
    · rename_i none
      subst none
      change m = _
      rw [List.append_nil, ← file]
    · rename_i some
      refine Prog.Meets.bind (Q := fun count m' => 1 ≤ count ∧
        m' = { m with file := Option.some (path, handle, done ++ data.take count) }) ?_ ?_
      · refine await_spec _ (writes.allow data file) (fun count answer => ?_) fun e answer => ?_
        · obtain ⟨_, same, least⟩ := writes.answer answer
          cases same
          refine ⟨least, ?_⟩
          simp only [Memory.next, file, Option.map_some]
        · obtain ⟨_, same, -⟩ := writes.answer answer
          cases same
      · rintro (count : Nat) _ ⟨(least : 1 ≤ count), rfl⟩
        have shorter : (data.drop count).length ≤ fuel := by
          have positive := List.length_pos_iff.mpr some
          rw [List.length_drop]
          omega
        refine (ih (m := { m with file := _ }) rfl shorter).mono (fun _ m' same => ?_) fun _ _ raised => raised
        rw [same, List.append_assoc, List.take_append_drop]

theorem openWrite_spec (path : Path) (allowed : c.allow m (.openWrite path)) {f : Nat → Program α}
    (returns : ∀ handle, (f handle).Meets ghost c Q E { m with file := some (path, handle, []) })
    (raises : ∀ e, c.answer m (.openWrite path) (.error e) → E e { m with raised := true }) :
    (await (.openWrite path) >>= f).Meets ghost c Q E m :=
  Prog.meets_bind.mpr (await_spec (.openWrite path) allowed (fun handle _ => returns handle) raises)

theorem writeText_spec (writes : Writes c) {path : Path} {text : String} (allowed : c.allow m (.openWrite path))
    (raises : ∀ e, c.answer m (.openWrite path) (.error e) → E e { m with raised := true }) :
    (writeText path (some text)).Meets ghost c
      (fun _ m' => ∃ handle, m' = { m with file := some (path, handle, Bytes.utf8 text) }) E m := by
  refine openWrite_spec path allowed (fun handle => ?_) raises
  refine (writeAll_spec writes (m := { m with file := some (path, handle, []) }) rfl le_rfl).mono (fun _ m' same => ?_)
    fun _ _ raised => raised
  exact ⟨handle, same⟩

theorem writeBytes_spec (writes : Writes c) {path : Path} {data : List (BitVec 8)} (allowed : c.allow m (.openWrite path))
    (raises : ∀ e, c.answer m (.openWrite path) (.error e) → E e { m with raised := true }) :
    (writeBytes path data).Meets ghost c
      (fun _ m' => ∃ handle, m' = { m with file := some (path, handle, data) }) E m := by
  refine openWrite_spec path allowed (fun handle => ?_) raises
  refine (writeAll_spec writes (m := { m with file := some (path, handle, []) }) rfl le_rfl).mono (fun _ m' same => ?_)
    fun _ _ raised => raised
  exact ⟨handle, same⟩

end Parts

/-! ### The daemon -/

section Daemon

variable {strict : Prop} {m : Memory} {d : String} {turns : Nat}

/-- Everything the daemon renders it has claimed. -/
def Memory.Tidy (m : Memory) : Prop := ∀ render ∈ m.renders, render.dir ∈ m.claimed

/-- The request that is worked on: its directory is the one claimed last. -/
structure Memory.Works (m : Memory) (d : String) : Prop where
  claimed : m.claimed.head? = some d
  tidy : m.Tidy

theorem Memory.Works.congr {m' : Memory} (works : m.Works d) (claimed : m'.claimed = m.claimed)
    (renders : m'.renders = m.renders) : m'.Works d := by
  refine ⟨claimed ▸ works.claimed, ?_⟩
  unfold Tidy
  rw [claimed, renders]
  exact works.tidy

/-- What is raised while a request is worked on. -/
structure Trouble (strict : Prop) (d : String) (e : Raised) (m : Memory) : Prop where
  reportable : strict → e.Reportable
  works : m.Works d
  raised : m.raised = true

theorem withSuffix_response : withSuffix ".tmp" "response.json" = "response.tmp" := by decide +kernel

theorem atomicJson_response (text : Option String) : atomicJson ["response.json", d] text =
    writeText ["response.tmp", d] text >>= fun _ => await (.rename ["response.tmp", d] ["response.json", d]) := by
  rw [← withSuffix_response]
  rfl

/-- A response is written aside and renamed, or the handler hears of it. -/
theorem atomicJson_spec {text : String} (works : m.Works d) (complete : m.Complete d (Bytes.utf8 text)) :
    (atomicJson ["response.json", d] (some text)).Meets ghost (daemon strict) (fun _ m' => m'.Works d)
      (fun e m' => Trouble strict d e m' ∧ (strict → m.raised = false)) m := by
  rw [atomicJson_response]
  refine Prog.Meets.bind (writeText_spec (daemon_writes strict) ⟨d, works.claimed, rfl⟩ fun e answer => ?_) ?_
  · exact ⟨⟨fun _ => answer.1, works.congr rfl rfl, rfl⟩, answer.2⟩
  · rintro _ _ ⟨handle, rfl⟩
    refine await_spec (.rename _ _) (.inr ⟨d, handle, _, works.claimed, rfl, rfl, rfl, complete⟩) (fun _ _ => ?_)
      fun e answer => ?_
    · exact works.congr rfl rfl
    · obtain ⟨-, trouble⟩ := answer
      obtain ⟨reportable, quiet⟩ := trouble d rfl
      exact ⟨⟨fun _ => reportable, works.congr rfl rfl, rfl⟩, quiet⟩

theorem Request.literals (request : Request) : request.json.Literals := by
  simp [Request.json, Request.members, Json.Literals, Json.LiteralsMembers]

theorem Request.loads (request : Request) : Json.loads request.json.dumps = some request.json :=
  Json.loads_dumps request.literals

/-- The daemon reads the request it has claimed. -/
theorem readText_spec (works : m.Works d) :
    (readText ["processing.json", d]).Meets ghost (daemon strict)
      (fun text m' => ∃ request handle, text = (Request.json request).dumps ∧
        m' = { m with reading := some (["processing.json", d], handle), request := some request.json })
      (Trouble strict d) m := by
  refine Prog.Meets.bind (Q := fun handle m' => m' = { m with reading := some (["processing.json", d], handle) }) ?_ ?_
  · refine await_spec (.openRead _) ⟨d, works.claimed, rfl⟩ (fun _ _ => rfl) fun e answer => ?_
    exact ⟨fun _ => answer, works.congr rfl rfl, rfl⟩
  · rintro handle _ rfl
    refine Prog.Meets.bind (Q := fun bytes m' => ∃ request : Request, bytes = request.bytes ∧
      m' = { m with reading := some (["processing.json", d], handle), request := some request.json }) ?_ ?_
    · refine await_spec (.readAll handle) ⟨d, works.claimed, rfl⟩ (fun bytes answer => ?_) fun e answer => ?_
      · obtain ⟨_, same, shape⟩ := answer
        cases same
        obtain ⟨request, same⟩ := shape d handle rfl
        refine ⟨request, same, ?_⟩
        have other : ¬ "processing.json" = "response.json" := by decide
        simp only [Memory.next, Memory.hasRead, if_neg other, same, Request.bytes, decode_utf8, Option.bind_some, Request.loads]
      · obtain ⟨_, same, -⟩ := answer
        cases same
    · intro bytes m' ⟨request, same, later⟩
      rw [same, Request.bytes, decode_utf8]
      exact ⟨request, handle, rfl, later⟩

/-- `validate_and_render` returns, or raises what it likes. -/
theorem rendered_spec (works : m.Works d) (asked : ∃ render ∈ m.renders, render.dir = d) :
    (rendered ["output", d] turns).Meets ghost (daemon strict) (fun _ m' => m'.Works d ∧ d ∈ m'.returned)
      (Trouble strict d) m := by
  induction turns generalizing m with
  | zero => trivial
  | succ turns ih =>
    refine Prog.Meets.bind (Q := fun returned m' =>
      m'.Works d ∧ (∃ render ∈ m'.renders, render.dir = d) ∧ (returned = true → d ∈ m'.returned)) ?_ ?_
    · refine await_spec (.rendering _) ⟨d, works.claimed, rfl, asked⟩ (fun returned _ => ?_) fun e answer => ?_
      · cases returned with
        | false => exact ⟨works.congr rfl rfl, asked, nofun⟩
        | true => exact ⟨works.congr rfl rfl, asked, fun _ => List.mem_cons_self⟩
      · exact ⟨answer, works.congr rfl rfl, rfl⟩
    · rintro returned m' ⟨works', asked', done⟩
      cases returned with
      | false => exact ih works' asked'
      | true => exact ⟨works', done rfl⟩

theorem resolve_input : resolve [d] "input" = some ["input", d] := by
  have parts : "input".toList.splitOn '/' = ["input".toList] := by decide +kernel
  have relative : "input".toList.head? ≠ some '/' := by decide +kernel
  have named : "input".toList ≠ [] ∧ "input".toList ≠ ['.'] ∧ "input".toList ≠ ['.', '.'] := by decide +kernel
  rw [resolve, if_neg relative, parts, List.foldlM_cons, if_neg (by simp), if_neg named.2.2]
  simp

/-- What the daemon finds in a request. -/
theorem request_fields (request : Request) :
    Json.get? (Request.members request) "input" = some (.str "input") ∧
    Json.get? (Request.members request) "sha256" = some (.str request.sha256) ∧
    Json.get? (Request.members request) "max_pages" = some (.int request.maxPages) ∧
    Json.get? (Request.members request) "max_pixels" = some (.int request.maxPixels) ∧
    Json.get? (Request.members request) "dpi" = some (.int request.dpi) := by
  simp [Json.get?, Request.members]

theorem item_some {members : List (String × Json)} {key : String} {value : Json}
    (found : Json.get? members key = some value) : item members key = pure value := by
  rw [item, found]

theorem integer_some {members : List (String × Json)} {key : String} {default n : Int}
    (found : Json.get? members key = some (.int n)) : integer members key default = pure n := by
  rw [integer, found]
  rfl

theorem pure_then {α β : Type} (a : α) (f : α → Program β) : (pure a >>= f : Program β) = f a := rfl

/-- The body of the `try`. -/
theorem answerRequest_spec (works : m.Works d) (once : ∀ render ∈ m.renders, render.dir ≠ d) :
    (answerRequest turns [d]).Meets ghost (daemon strict) (fun _ m' => m'.Works d) (Trouble strict d) m := by
  refine Prog.Meets.bind (readText_spec works) ?_
  intro text m₁ ⟨request, handle, same, later⟩
  have inside : (inParents [d] ["input", d] && inParents [d] ["output", d]) = true := by
    simp [inParents, List.isSuffixOf]
  have path : (resolve [d] (Json.pyStr (.str "input"))).filter
      (fun source => inParents [d] source && inParents [d] ["output", d]) = some ["input", d] := by
    rw [Json.pyStr, resolve_input]
    exact Option.filter_some_pos inside
  obtain ⟨input, sha256, maxPages, maxPixels, dpi⟩ := request_fields request
  rw [same, Request.loads]
  simp only [Request.json, pure_then, item_some input, item_some sha256, path, integer_some maxPages,
    integer_some maxPixels, integer_some dpi]
  have works₁ : m₁.Works d := by
    rw [later]
    exact works.congr rfl rfl
  have fresh : ∀ render ∈ m₁.renders, render.dir ≠ d := by
    rw [later]
    exact once
  have asked : m₁.request = some request.json := by rw [later]
  refine Prog.Meets.bind (Q := fun _ m' => m'.Works d ∧ ∃ render ∈ m'.renders, render.dir = d) ?_ ?_
  · refine await_spec (.render ..) ⟨d, request, works₁.claimed, fresh, asked, rfl, rfl⟩ (fun _ _ => ?_) fun e answer => ?_
    · refine ⟨⟨works₁.claimed, fun render member => ?_⟩, _, List.mem_cons_self, rfl⟩
      rcases List.mem_cons.mp member with rfl | old
      · exact List.mem_of_head? works₁.claimed
      · exact works₁.tidy render old
    · obtain ⟨_, same⟩ := answer
      cases same
  · intro _ m₂ ⟨works₂, rendering⟩
    refine Prog.Meets.bind (rendered_spec works₂ rendering) ?_
    intro _ m₃ ⟨works₃, done⟩
    refine (atomicJson_spec works₃ (.inl ⟨rfl, done⟩)).mono (fun _ _ works => works) fun _ _ trouble => trouble.1

theorem Memory.Works.tidy_claimed {m : Memory} (tidy : m.Tidy) : Memory.Works
    { m with claimed := d :: m.claimed, raised := false, request := none, file := none } d :=
  ⟨rfl, fun render member => List.mem_cons_of_mem _ (tidy render member)⟩

/-- The handler of `process_request`. -/
theorem report_spec {e : Raised} (trouble : Trouble strict d e m) :
    (if e.isException then
        atomicJson ["response.json", d] (e.reason.encodable?.map fun reason => (failedPayload reason).dumps)
      else .raise e).Meets ghost (daemon strict) (fun _ m' => m'.Tidy) (fun _ _ => ¬ strict) m := by
  split
  · rename_i exception
    cases encoded : e.reason.encodable? with
    | some reason =>
      refine (atomicJson_spec trouble.works (.inr ⟨reason, rfl⟩)).mono (fun _ _ works => works.tidy) ?_
      intro _ _ ⟨_, quiet⟩ holds
      have silent := quiet holds
      rw [trouble.raised] at silent
      cases silent
    | none =>
      have lax : ¬ strict := by
        intro holds
        have told := (trouble.reportable holds).2
        rw [encoded] at told
        cases told
      rw [Option.map_none, atomicJson_response]
      refine Prog.Meets.bind (Q := fun _ _ => False) ?_ fun _ _ none => none.elim
      have allowed : (daemon strict).allow m (.openWrite ["response.tmp", d]) := ⟨d, trouble.works.claimed, rfl⟩
      exact openWrite_spec _ allowed (fun _ => lax) fun _ _ => lax
  · rename_i exit
    exact fun holds => exit (trouble.reportable holds).1

theorem processRequest_spec (tidy : m.Tidy) :
    (processRequest turns ["request.json", d]).Meets ghost (daemon strict) (fun _ m' => m'.Tidy)
      (fun _ _ => ¬ strict) m := by
  refine Prog.Meets.bind (Q := Prog.Attempted (fun _ m' => m'.Works d ∧ ∀ render ∈ m'.renders, render.dir ≠ d)
      fun e m' => m'.Tidy ∧ ∃ text, e = .fileNotFound text) ?_ ?_
  · refine Prog.meets_attempt.mpr (await_spec (.rename _ _) (.inl ⟨d, rfl, rfl⟩) (fun _ answer => ?_) fun e answer => ?_)
    · have fresh := answer d rfl
      refine ⟨.tidy_claimed tidy, fun render member same => ?_⟩
      exact fresh (same ▸ tidy render member)
    · exact ⟨tidy, answer.1 d rfl⟩
  · intro outcome m' holds
    cases outcome with
    | error e =>
      obtain ⟨tidy', text, rfl⟩ := holds
      exact tidy'
    | ok _ =>
      obtain ⟨works, once⟩ := holds
      refine Prog.meets_catchError.mpr ((answerRequest_spec works once).mono (fun _ _ works => works.tidy) ?_)
      exact fun e _ trouble => report_spec trouble

theorem pass_spec (tidy : m.Tidy) (names : List (String × Bool)) :
    (pass turns names).Meets ghost (daemon strict) (fun _ m' => m'.Tidy) (fun _ _ => ¬ strict) m := by
  induction names generalizing m with
  | nil => exact tidy
  | cons entry rest ih =>
    obtain ⟨name, isDir⟩ := entry
    cases isDir with
    | false => exact ih tidy
    | true =>
      refine Prog.Meets.bind (Q := fun _ m' => m'.Tidy) (await_spec (.exists_ _) trivial (fun _ _ => tidy) ?_) ?_
      · rintro e ⟨_, same⟩
        cases same
      · intro found m' tidy'
        cases found with
        | false => exact ih tidy'
        | true => exact (processRequest_spec tidy').bind fun _ _ later => ih later

theorem main_spec (tidy : m.Tidy) (rounds : Nat) :
    (main turns rounds).Meets ghost (daemon strict) (fun _ _ => False) (fun _ _ => ¬ strict) m := by
  induction rounds generalizing m with
  | zero => trivial
  | succ rounds ih =>
    refine Prog.Meets.bind (Q := fun _ m' => m'.Tidy) (await_spec (.scandir []) rfl (fun _ _ => tidy) ?_) ?_
    · rintro e ⟨_, same⟩
      cases same
    · intro names m' tidy'
      refine (pass_spec tidy' names).bind fun _ m' later => ?_
      refine Prog.Meets.bind (Q := fun _ m' => m'.Tidy) (await_spec .pause trivial (fun _ _ => later) ?_) ?_
      · rintro e ⟨_, same⟩
        cases same
      · exact fun _ _ tidy => ih tidy

end Daemon

/-! ### The client -/

section Client

variable {request : Request} {m : Memory} {d : String}

/-- A program that keeps to the contract from everywhere. -/
def Free (request : Request) {α : Type} (p : Program α) : Prop :=
  ∀ m, p.Meets ghost (client request) (fun _ _ => True) (fun _ _ => True) m

theorem Free.bind {α β : Type} {p : Program α} {f : α → Program β} (first : Free request p)
    (rest : ∀ a, Free request (f a)) : Free request (p >>= f) :=
  fun m => (first m).bind fun a m' _ => rest a m'

theorem Free.catchError {α : Type} {p : Program α} {handler : Raised → Program α} (first : Free request p)
    (rest : ∀ e, Free request (handler e)) : Free request (p.catchError handler) :=
  fun m => Prog.meets_catchError.mpr ((first m).mono (fun _ _ _ => trivial) fun e m' _ => rest e m')

theorem Free.attempt {α : Type} {p : Program α} (first : Free request p) :
    Free request (p.attempt : Program (Except Raised α)) :=
  fun m => Prog.meets_attempt.mpr (first m)

theorem free_pure {α : Type} (a : α) : Free request (pure a : Program α) := fun _ => trivial

theorem free_raise {α : Type} (e : Raised) : Free request (.raise e : Program α) := fun _ => trivial

theorem free_await (op : Op) (allowed : ∀ m, clientCalls request m op) : Free request (await op) :=
  fun m => await_spec op (allowed m) (fun _ _ => trivial) fun _ _ => trivial

/-- A file is read that is no response, or the response to the call itself. -/
theorem read_spec {α : Type} {path : Path} {f : (handle : Nat) → Op.Val (.readAll handle) → Program α}
    (own : ∀ d, path = ["response.json", d] → m.dir = some d) (rest : ∀ handle data, Free request (f handle data)) :
    (await (.openRead path) >>= fun handle => await (.readAll handle) >>= f handle).Meets ghost (client request)
      (fun _ _ => True) (fun _ _ => True) m := by
  refine Prog.Meets.bind (Q := fun handle m' => m'.reading = some (path, handle) ∧ m'.dir = m.dir)
    (await_spec (.openRead path) own (fun _ _ => ⟨rfl, rfl⟩) fun _ _ => trivial) ?_
  intro handle m' ⟨reading, same⟩
  have allowed : (client request).allow m' (.readAll handle) := ⟨path, reading, fun d here => same.trans (own d here)⟩
  exact (await_spec (Q := fun _ _ => True) (.readAll handle) allowed (fun _ _ => trivial) fun _ _ => trivial).bind
    fun data m'' _ => rest handle data m''

theorem readJson_spec {path : Path} (own : ∀ d, path = ["response.json", d] → m.dir = some d) :
    (Preprocessor.readJson path).Meets ghost (client request) (fun _ _ => True) (fun _ _ => True) m := by
  unfold Preprocessor.readJson readText
  refine Prog.Meets.bind (Q := fun _ _ => True) (read_spec own fun _ bytes => ?_) fun text m' _ => ?_
  · split
    · exact free_pure _
    · exact free_raise _
  · split <;> trivial

theorem free_integer (members : List (String × Json)) (key : String) (default : Int) :
    Free request (integer members key default) := by
  unfold integer
  split
  · exact free_pure _
  · split
    · exact free_pure _
    · exact free_raise _

theorem free_awaitFile (path : Path) (deadline turns : Nat) :
    Free request (Preprocessor.awaitFile path deadline turns) := by
  induction turns with
  | zero => exact fun _ => trivial
  | succ turns ih =>
    refine (free_await (.exists_ path) fun _ => trivial).bind fun found => ?_
    split
    · exact free_pure _
    · refine (free_await .loopTime fun _ => trivial).bind fun now => ?_
      split
      · exact free_raise _
      · exact (free_await .sleep fun _ => trivial).bind fun _ => ih

theorem free_storePage {pagePath : Path} (other : ∀ d, pagePath ≠ ["response.json", d]) (job : Job) (number : Nat) :
    Free request (Preprocessor.storePage pagePath job number) := by
  intro m
  refine read_spec (fun d here => absurd here (other d)) fun _ data => ?_
  split
  · exact free_raise _
  · exact (free_await (.putBytes ..) fun _ => trivial).bind fun _ => free_pure _

/-- What is below the output directory is no response. -/
theorem inner_other {path : Path} (inner : inParents ["output", d] path = true) (d' : String) :
    path ≠ ["response.json", d'] := by
  rintro rfl
  simp [inParents, List.isSuffixOf] at inner

theorem free_uploadPage (job : Job) (number : Nat) (descriptor : Json) :
    Free request (Preprocessor.uploadPage ["output", d] job number descriptor) := by
  unfold Preprocessor.uploadPage
  split
  · refine (free_integer _ "page_number" number).bind fun given => ?_
    split
    · exact free_raise _
    · split
      · split
        · exact free_raise _
        · rename_i inside
          exact free_storePage (inner_other (Option.filter_eq_some_iff.mp inside).2) job number
      · exact free_raise _
  · exact free_raise _

theorem free_uploadEach (job : Job) (descriptors : List Json) (number : Nat) :
    Free request (Preprocessor.uploadEach ["output", d] job number descriptors) := by
  induction descriptors generalizing number with
  | nil => exact free_pure _
  | cons descriptor rest ih =>
    exact (free_uploadPage job number descriptor).bind fun _ => (ih (number + 1)).bind fun _ => free_pure _

theorem free_uploadPages (settings : Preprocessor) (job : Job) :
    Free request (settings.uploadPages ["output", d] job) := by
  have manifest : Free request (Preprocessor.readJson ["manifest.json", "output", d]) :=
    fun m => readJson_spec fun d' here => absurd (List.cons.inj here).1 (by decide)
  refine Free.bind (manifest.catchError fun e => ?_) fun manifest => ?_
  · split <;> exact free_raise _
  · split
    · split
      · exact free_uploadEach job _ 1
      · exact free_raise _
    · exact free_raise _

theorem free_acceptResponse (response : Json) : Free request (Preprocessor.acceptResponse response) := by
  unfold Preprocessor.acceptResponse
  split
  · split
    · exact free_pure _
    · exact free_raise _
  · exact free_raise _

theorem free_rmtree (depth : Nat) (path : Path) : Free request (Preprocessor.rmtree depth path) := by
  induction depth generalizing path with
  | zero => exact free_pure _
  | succ depth ih =>
    refine (free_await (.scandir path) fun _ => trivial).attempt.bind fun entries => ?_
    cases entries with
    | error e => exact free_pure _
    | ok entries =>
      refine Free.bind ?_ fun _ => (free_await (.rmdir path) fun _ => trivial).attempt.bind fun _ => free_pure _
      induction entries with
      | nil => exact free_pure _
      | cons entry rest each =>
        obtain ⟨name, isDir⟩ := entry
        refine Free.bind ?_ fun _ => each
        cases isDir with
        | true => exact ih (name :: path)
        | false => exact (free_await (.unlink _) fun _ => trivial).attempt.bind fun _ => free_pure _

/-- The client has drawn its directory, and published nothing yet. -/
structure Memory.Drawn (m : Memory) (d : String) : Prop where
  dir : m.dir = some d
  published : m.published = none

variable {settings : Preprocessor} {upload : Upload} {job : Job} {turns : Nat}

/-- The directory of a client stays. -/
theorem Free.keeps {α : Type} {p : Program α} (free : Free request p) (dir : m.dir = some d) :
    p.Meets ghost (client request) (fun _ m' => m'.dir = some d) (fun _ _ => True) m := by
  refine ((free m).stable (P := fun m => m.dir = some d) (fun m op r allowed dir => ?_) dir).mono
    (fun _ _ holds => holds.2) fun _ _ _ => trivial
  by_cases draws : op = .uuid4
  · subst draws
    have none : m.dir = none := allowed
    rw [none] at dir
    cases dir
  · exact (m.next_dir r draws).trans dir

theorem exchange_spec (drawn : m.Drawn d) :
    (settings.exchange turns [d] upload job).Meets ghost (client (settings.requested upload job)) (fun _ _ => True)
      (fun _ _ => True) m := by
  refine Prog.Meets.bind (Q := fun _ m' => m'.Drawn d)
    (await_spec (.mkdir [d]) ⟨d, drawn.dir, rfl⟩ (fun _ _ => drawn) fun _ _ => trivial) fun _ m₁ drawn₁ => ?_
  refine Prog.Meets.bind (Q := fun _ m' => m'.Drawn d)
    (await_spec (.getBytes _) trivial (fun _ _ => drawn₁) fun _ _ => trivial) fun source m₂ drawn₂ => ?_
  refine Prog.Meets.bind (Q := fun _ m' => m'.Drawn d) ?_ fun _ m₃ drawn₃ => ?_
  · refine (writeBytes_spec (E := fun _ _ => True) (client_writes _) ⟨d, drawn₂.dir, drawn₂.published, .inl rfl⟩
      fun _ _ => trivial).mono ?_ fun _ _ _ => trivial
    rintro _ _ ⟨handle, rfl⟩
    exact ⟨drawn₂.dir, drawn₂.published⟩
  · refine Prog.Meets.bind (writeText_spec (client_writes _) ⟨d, drawn₃.dir, drawn₃.published, .inr rfl⟩
      fun _ _ => trivial) ?_
    rintro _ _ ⟨handle, rfl⟩
    refine Prog.Meets.bind (Q := fun _ m' => m'.dir = some d) ?_ fun _ m₅ dir₅ => ?_
    · refine await_spec (.rename _ _) ?_ (fun _ _ => drawn₃.dir) fun _ _ => trivial
      exact ⟨d, handle, drawn₃.dir, drawn₃.published, rfl, rfl, rfl⟩
    · refine Prog.Meets.bind ((free_await .loopTime fun _ => trivial).keeps dir₅) fun start m₆ dir₆ => ?_
      refine Prog.Meets.bind ((free_awaitFile _ _ turns).keeps dir₆) fun _ m₇ dir₇ => ?_
      refine Prog.Meets.bind (readJson_spec fun d' here => ?_) fun response m₈ _ => ?_
      · cases here
        exact dir₇
      · exact (free_acceptResponse response).bind (fun _ => free_uploadPages settings job) m₈

theorem stem_append (job : Job) (hex : String) :
    Preprocessor.requestName job "" ++ hex = Preprocessor.requestName job hex := by
  simp [Preprocessor.requestName]

theorem prepare_spec (stem : m.stem = Preprocessor.requestName job "") (blank : m.dir = none)
    (published : m.published = none) :
    (settings.prepare turns upload job).Meets ghost (client (settings.requested upload job)) (fun _ _ => True)
      (fun _ _ => True) m := by
  refine Prog.Meets.bind (Q := fun hex m' => m'.Drawn (Preprocessor.requestName job hex)) ?_ ?_
  · refine await_spec .uuid4 blank (fun hex _ => ⟨?_, published⟩) fun _ _ => trivial
    rw [← stem_append, ← stem]
    rfl
  · intro hex m' drawn
    refine Prog.Meets.bind (Q := fun _ _ => True)
      (Prog.meets_attempt.mpr (Prog.meets_mapError.mpr (exchange_spec drawn))) fun result m'' _ => ?_
    refine Free.bind (free_rmtree 2 _) (fun _ => ?_) m''
    cases result with
    | error e => exact free_raise e
    | ok pages => exact free_pure pages

end Client

/-- A daemon does not return. -/
def Task.Returns : Task → Reply → Memory → Prop
  | .main .., _, _ => False
  | .prepare .., _, _ => True

/-- What the calls raise. -/
def Task.Raises (strict : Prop) : Task → Raised → Memory → Prop
  | .main .., _, _ => ¬ strict
  | .prepare .., _, _ => True

theorem program_meets (settings : Preprocessor) (strict : Prop) (task : Task) :
    (program settings task).Meets ghost (task.contract settings strict) task.Returns (task.Raises strict)
      task.memory := by
  cases task with
  | prepare turns upload job => exact (prepare_spec rfl rfl rfl).bind fun _ _ _ => trivial
  | main turns rounds =>
    refine Prog.Meets.bind (main_spec ?_ rounds) fun _ _ none => none.elim
    intro render member
    cases member

end Sandbox

end MonkeyOcr
