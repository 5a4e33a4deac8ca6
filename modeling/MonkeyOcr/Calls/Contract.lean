import MonkeyOcr.Calls.Program
import Mathlib.Order.Basic

namespace Calls

variable {S : Signature} {σ ε ε' α β : Type}

/-- What a program remembers of its own past, as an automaton over the
answers it received. -/
structure Ghost (S : Signature) (σ : Type) where
  next : σ → (op : S.Op) → S.Res op → σ

/-- A contract between a program and the rest of the system: the calls the
program may make, and what it may rely on of their answers. -/
structure Contract (S : Signature) (σ : Type) where
  allow : σ → S.Op → Prop
  answer : σ → (op : S.Op) → S.Res op → Prop

namespace Prog

/-- From ghost state `s`, the program makes only allowed calls as long as it
gets reliable answers; if it ends, it returns in `Q` or raises in `E`. -/
def Meets (g : Ghost S σ) (c : Contract S σ) (Q : α → σ → Prop) (E : ε → σ → Prop) :
    Prog S ε α → σ → Prop
  | .ret (.ok a), s => Q a s
  | .ret (.error e), s => E e s
  | .halt, _ => True
  | .call op next, s =>
    c.allow s op ∧ ∀ r, c.answer s op r → (next r).Meets g c Q E (g.next s op r)

variable {g : Ghost S σ} {c : Contract S σ} {Q : α → σ → Prop} {E : ε → σ → Prop} {s : σ}

@[simp] theorem meets_pure {a : α} : (pure a : Prog S ε α).Meets g c Q E s ↔ Q a s := Iff.rfl

@[simp] theorem meets_ret_ok {a : α} : (ret (.ok a) : Prog S ε α).Meets g c Q E s ↔ Q a s := Iff.rfl

@[simp] theorem meets_raise {e : ε} : (raise e : Prog S ε α).Meets g c Q E s ↔ E e s := Iff.rfl

@[simp] theorem meets_halt : (halt : Prog S ε α).Meets g c Q E s ↔ True := Iff.rfl

@[simp] theorem meets_ofExcept_ok {a : α} :
    (ofExcept (.ok a) : Prog S ε α).Meets g c Q E s ↔ Q a s := Iff.rfl

@[simp] theorem meets_ofExcept_error {e : ε} :
    (ofExcept (.error e) : Prog S ε α).Meets g c Q E s ↔ E e s := Iff.rfl

theorem meets_call {op : S.Op} {next : S.Res op → Prog S ε α} :
    (call op next).Meets g c Q E s ↔
      c.allow s op ∧ ∀ r, c.answer s op r → (next r).Meets g c Q E (g.next s op r) := Iff.rfl

/-- A weaker postcondition, on both ways out. -/
theorem Meets.mono {Q' : α → σ → Prop} {E' : ε → σ → Prop} {p : Prog S ε α}
    (h : p.Meets g c Q E s) (hQ : ∀ a s, Q a s → Q' a s) (hE : ∀ e s, E e s → E' e s) :
    p.Meets g c Q' E' s := by
  induction p generalizing s with
  | ret result => cases result with
    | ok a => exact hQ a s h
    | error e => exact hE e s h
  | halt => trivial
  | call op next ih => exact ⟨h.1, fun r hr => ih r (h.2 r hr)⟩

/-- What every allowed call preserves still holds when the program ends. -/
theorem Meets.stable {P : σ → Prop} {p : Prog S ε α} (h : p.Meets g c Q E s)
    (kept : ∀ s op r, c.allow s op → P s → P (g.next s op r)) (holds : P s) :
    p.Meets g c (fun a s => Q a s ∧ P s) (fun e s => E e s ∧ P s) s := by
  induction p generalizing s with
  | ret result => cases result <;> exact ⟨h, holds⟩
  | halt => trivial
  | call op next ih => exact ⟨h.1, fun r hr => ih r (h.2 r hr) (kept s op r h.1 holds)⟩

/-- Another ghost may watch a program whose calls it allows whatever it has
seen. -/
theorem Meets.frame {σ' : Type} {g' : Ghost S σ'} {c' : Contract S σ'} {s' : σ'} {p : Prog S ε α}
    (h : p.Meets g c Q E s) (allow : ∀ s s' op, c.allow s op → c'.allow s' op)
    (answer : ∀ s s' op r, c'.answer s' op r → c.answer s op r) :
    p.Meets g' c' (fun _ _ => True) (fun _ _ => True) s' := by
  induction p generalizing s s' with
  | ret result => cases result <;> trivial
  | halt => trivial
  | call op next ih => exact ⟨allow _ _ _ h.1, fun r hr => ih r (h.2 r (answer _ _ _ _ hr))⟩

/-- The contract that asks nothing. -/
theorem meets_free {p : Prog S ε α} {s : σ} (free : ∀ s op, c.allow s op) :
    p.Meets g c (fun _ _ => True) (fun _ _ => True) s := by
  induction p generalizing s with
  | ret result => cases result <;> trivial
  | halt => trivial
  | call op next ih => exact ⟨free s op, fun r _ => ih r⟩

/-- A contract that allows more and promises more of the answers. -/
theorem Meets.weaken {d : Contract S σ} {p : Prog S ε α} (h : p.Meets g c Q E s)
    (allow : ∀ s op, c.allow s op → d.allow s op)
    (answer : ∀ s op r, d.answer s op r → c.answer s op r) : p.Meets g d Q E s := by
  induction p generalizing s with
  | ret result => cases result <;> exact h
  | halt => trivial
  | call op next ih => exact ⟨allow _ _ h.1, fun r hr => ih r (h.2 r (answer _ _ _ hr))⟩

/-- The sequencing rule. -/
@[simp] theorem meets_bind {p : Prog S ε α} {f : α → Prog S ε β} {Q : β → σ → Prop} :
    (p >>= f).Meets g c Q E s ↔ p.Meets g c (fun a s => (f a).Meets g c Q E s) E s := by
  change (p.bind f).Meets g c Q E s ↔ _
  induction p generalizing s with
  | ret result => cases result <;> rfl
  | halt => rfl
  | call op next ih =>
    simp only [Prog.bind, meets_call]
    exact and_congr_right fun _ => forall_congr' fun r => imp_congr_right fun _ => ih r

/-- The rule of exceptions: the handler starts where the body raised. -/
@[simp] theorem meets_catchError {p : Prog S ε α} {handler : ε → Prog S ε' α} {E : ε' → σ → Prop} :
    (p.catchError handler).Meets g c Q E s ↔
      p.Meets g c Q (fun e s => (handler e).Meets g c Q E s) s := by
  induction p generalizing s with
  | ret result => cases result <;> rfl
  | halt => rfl
  | call op next ih =>
    simp only [catchError, meets_call]
    exact and_congr_right fun _ => forall_congr' fun r => imp_congr_right fun _ => ih r

@[simp] theorem meets_mapError {p : Prog S ε α} {f : ε → ε'} {E : ε' → σ → Prop} :
    (p.mapError f).Meets g c Q E s ↔ p.Meets g c Q (fun e s => E (f e) s) s := by
  simp only [mapError, meets_catchError, meets_raise]

@[simp] theorem meets_attempt {p : Prog S ε α} {Q : Except ε α → σ → Prop} {E : ε' → σ → Prop} :
    p.attempt.Meets g c Q E s ↔ p.Meets g c (fun a s => Q (.ok a) s) (fun e s => Q (.error e) s) s := by
  induction p generalizing s with
  | ret result => cases result <;> rfl
  | halt => rfl
  | call op next ih =>
    simp only [attempt, meets_call]
    exact and_congr_right fun _ => forall_congr' fun r => imp_congr_right fun _ => ih r

/-- What holds after an attempt: one assertion of a value, one of an exception. -/
def Attempted (good : α → σ → Prop) (bad : ε → σ → Prop) : Except ε α → σ → Prop
  | .ok a => good a
  | .error e => bad e

/-- Sequencing through an intermediate assertion. -/
theorem Meets.bind {p : Prog S ε α} {f : α → Prog S ε β} {Q : α → σ → Prop} {R : β → σ → Prop}
    (first : p.Meets g c Q E s) (rest : ∀ a s, Q a s → (f a).Meets g c R E s) :
    (p >>= f).Meets g c R E s :=
  meets_bind.mpr (first.mono rest fun _ _ h => h)

end Prog
end Calls
