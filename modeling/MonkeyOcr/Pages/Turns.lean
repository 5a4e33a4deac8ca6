import MonkeyOcr.Application.Worker
import MonkeyOcr.Calls.Ends

namespace MonkeyOcr

open Calls

/-- What a call of `_process_page` remembers of its loop: its turns and recognitions, the
job as it has saved it with the start of the page, and the job its last read missed. -/
structure Turns where
  turns : Nat := 0
  recognitions : Nat := 0
  started : Option Job := none
  missed : Option Id := none

namespace Turns

/-- Every such call begins with the image of its page. -/
def next (t : Turns) : (op : Op) → Except Exc op.Val → Turns
  | .getBytes _, _ | .getMany, _ => {}
  | .getJob (.pageTurn _) id, r =>
    { t with
      turns := t.turns + 1
      missed := match r with | .ok none => some id | _ => none }
  | .recognize .., _ => { t with recognitions := t.recognitions + 1, missed := none }
  | .saveWithEvent job event, .ok saved =>
    { t with
      started := if event.eventType = .pageRunning then some { job with revision := saved.1 } else t.started
      missed := none }
  | .utcNow, _ => t
  | _, _ => { t with missed := none }

def ghost : Ghost Sig Turns := ⟨next⟩

/-- At most this many recognitions, and one turn more. -/
def calls (most : Nat) (t : Turns) : Op → Prop
  | .getJob (.pageTurn _) _ => t.turns ≤ most
  | .recognize .. => t.recognitions < most
  | _ => True

/-- What a turn relies on: it finds the page unfinished and its own tries counted, and
no save of a job that was missed succeeds. -/
def answers (t : Turns) : (op : Op) → Except Exc op.Val → Prop
  | .getJob (.pageTurn index) id, .ok (some latest) => latest.id = id ∧
    ∀ page, latest.pages[index]? = some page → page.state ≠ .succeeded ∧
      ∀ v, t.started = some v → v.id = id → ∀ old, v.pages[index]? = some old →
        old.processingAttempts ≤ page.processingAttempts
  | .saveWithEvent job _, .ok _ => t.missed ≠ some job.id
  | _, _ => True

def contract (most : Nat) : Contract Sig Turns := ⟨calls most, answers⟩

/-- The calls that are none of a turn. -/
def Plain : Op → Prop
  | .getJob (.pageTurn _) _ | .recognize .. | .getMany => False
  | _ => True

/-- Plain calls that leave the count of the turns. -/
def Still : Op → Prop
  | .getJob (.pageTurn _) _ | .recognize .. | .getMany | .getBytes _ => False
  | .saveWithEvent _ event => event.eventType ≠ .pageRunning
  | _ => True

structure Same (t t' : Turns) : Prop where
  turns : t'.turns = t.turns
  recognitions : t'.recognitions = t.recognitions
  started : t'.started = t.started

theorem next_same {t : Turns} {op : Op} {r : Except Exc op.Val} (still : Still op) : t.Same (t.next op r) := by
  cases op with
  | getJob site id =>
    cases site with
    | pageTurn => exact still.elim
    | _ => exact ⟨rfl, rfl, rfl⟩
  | saveWithEvent job event =>
    cases r with
    | ok saved => exact ⟨rfl, rfl, if_neg still⟩
    | error e => exact ⟨rfl, rfl, rfl⟩
  | recognize => exact still.elim
  | getMany => exact still.elim
  | getBytes => exact still.elim
  | _ => exact ⟨rfl, rfl, rfl⟩

theorem Same.trans {t t' t'' : Turns} (first : t.Same t') (rest : t'.Same t'') : t.Same t'' :=
  ⟨rest.turns.trans first.turns, rest.recognitions.trans first.recognitions, rest.started.trans first.started⟩

variable {α : Type} {ε : Type} {halts : Prop} {most : Nat} {t : Turns}

theorem makes_plain {p : Prog Sig ε α} (plain : p.Makes Plain) :
    p.Ends halts ghost (contract most) (fun _ _ => True) (fun _ _ => True) t := by
  refine plain.ends fun t op plain => ?_
  cases op with
  | getJob site id =>
    cases site with
    | pageTurn => exact plain.elim
    | _ => trivial
  | recognize => exact plain.elim
  | _ => trivial

theorem makes_still {p : Prog Sig ε α} (still : p.Makes Still) :
    p.Ends halts ghost (contract most) (fun _ t' => t.Same t') (fun _ t' => t.Same t') t := by
  induction p generalizing t with
  | ret result => cases result <;> exact ⟨rfl, rfl, rfl⟩
  | halt => exact still.elim
  | call op next ih =>
    obtain ⟨quiet, rest⟩ := still
    have same : ∀ r, t.Same (t.next op r) := fun r => next_same quiet
    refine ⟨?_, fun r _ => ?_⟩
    · cases op with
      | getJob site id =>
        cases site with
        | pageTurn => exact quiet.elim
        | _ => trivial
      | recognize => exact quiet.elim
      | _ => trivial
    · exact (ih r (rest r)).mono id (fun _ _ later => (same r).trans later) fun _ _ later => (same r).trans later

end Turns

end MonkeyOcr
