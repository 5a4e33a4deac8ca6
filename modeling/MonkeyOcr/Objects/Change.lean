import MonkeyOcr.Infrastructure.ExecutionLemmas

namespace MonkeyOcr

open Calls

/-- The object that is stored as the page `object`. -/
def PageObject.stored (object : PageObject) : StoredContent := ⟨object.data, object.contentType, object.metadataSha256⟩

/-- All that one call does to the object at a key. -/
inductive ObjectChange (settings : Settings) (choice : Choice) (op : Op) (key : ObjectKey) :
    Option StoredContent → Option StoredContent → Prop
  | same {object} : ObjectChange settings choice op key object object
  | put {before data type} (call : op = .putBytes key data type) :
      ObjectChange settings choice op key before
        (some ⟨data, type, if settings.storage = .s3 then some data.sha256 else none⟩)
  | prepared {before upload job written result object} (call : op = .prepare upload job)
      (answer : choice.answer = .prepared written result) (member : object ∈ written)
      (own : key = .page job.id job.attempt object.name) :
      ObjectChange settings choice op key before (some object.stored)
  | deleted {before} (call : op = .deleteObject key) : ObjectChange settings choice op key before none
  | uploaded {before id object} (call : op = .presignedPut id object) (own : key = .source id) :
      ObjectChange settings choice op key before (some object)
  | assembled {before multipart parts object} (call : op = .completeUpload key (some multipart) parts)
      (answer : choice.answer = .assembled object) (accepts : ¬ (settings.storage = .s3 ∧ parts = [])) :
      ObjectChange settings choice op key before (some object)

namespace World

variable {settings : Settings} {i : Nat} {w w' : World} {op : Op} {choice : Choice} {r : Except Exc op.Val}

theorem setObject_objects (w : World) (key other : ObjectKey) (object : Option StoredContent) :
    (w.setObject key object).objects other = if other = key then object else w.objects other :=
  Function.update_apply ..

/-- What a preprocessor puts, and nothing else. -/
theorem putPageObjects_objects (job : Job) (written : List PageObject) (key : ObjectKey) :
    (written.foldl (putPageObject job) w).objects key = w.objects key ∨
      ∃ object ∈ written, key = .page job.id job.attempt object.name ∧
        (written.foldl (putPageObject job) w).objects key = some object.stored := by
  induction written generalizing w with
  | nil => exact .inl rfl
  | cons head rest ih =>
    rcases ih (w := putPageObject job w head) with same | ⟨object, member, own, stored⟩
    · by_cases here : key = .page job.id job.attempt head.name
      · have last : (putPageObject job w head).objects key = some head.stored :=
          (setObject_objects ..).trans (if_pos here)
        exact .inr ⟨head, List.mem_cons_self, here, same.trans last⟩
      · have other : (putPageObject job w head).objects key = w.objects key :=
          (setObject_objects ..).trans (if_neg here)
        exact .inl (same.trans other)
    · exact .inr ⟨object, List.mem_cons_of_mem _ member, own, stored⟩

theorem exec_objects (executed : exec settings i op choice w = some (r, w')) (key : ObjectKey) :
    ObjectChange settings choice op key (w.objects key) (w'.objects key) := by
  rcases exec_cases executed with ⟨_, -, -, rfl⟩ | ⟨r₀, performed, -⟩
  · exact .same
  by_cases quiet : Part.objects ∉ op.writes
  · rw [(perform_same quiet performed : w'.objects = w.objects)]
    exact .same
  cases op with
  | putBytes at_key data type =>
    cases performed
    rw [put, setObject_objects]
    split
    · rename_i here
      subst here
      exact .put rfl
    · exact .same
  | deleteObject at_key =>
    cases performed
    rw [setObject_objects]
    split
    · rename_i here
      subst here
      exact .deleted rfl
    · exact .same
  | presignedPut id object =>
    cases performed
    rw [setObject_objects]
    split
    · rename_i here
      exact .uploaded rfl here
    · exact .same
  | completeUpload at_key multipart parts =>
    cases multipart with
    | none =>
      cases performed
      exact .same
    | some multipart =>
      generalize answer : choice.answer = given at performed
      cases given with
      | assembled object =>
        simp only [perform] at performed
        split at performed
        · cases performed
          exact .same
        · rename_i accepts
          cases performed
          rw [setObject_objects]
          split
          · rename_i here
            subst here
            exact .assembled rfl answer accepts
          · exact .same
      | _ => cases performed
  | prepare upload job =>
    generalize answer : choice.answer = given at performed
    cases given with
    | prepared written result =>
      simp only [perform] at performed
      split at performed
      · cases performed
        rcases putPageObjects_objects job written key with same | ⟨object, member, own, stored⟩
        · rw [same]
          exact .same
        · rw [stored]
          exact .prepared rfl answer member own
      · cases performed
    | _ => cases performed
  | _ => exact absurd (by simp [Op.writes]) quiet

end World
end MonkeyOcr
