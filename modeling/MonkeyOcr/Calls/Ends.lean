import MonkeyOcr.Calls.Machine

namespace Calls

variable {S : Signature} {σ ε ε' α β : Type}

namespace Prog

/-- As `Meets`, for a program that takes no step any more before its end only if `halts`. -/
def Ends (halts : Prop) (g : Ghost S σ) (c : Contract S σ) (Q : α → σ → Prop) (E : ε → σ → Prop) :
    Prog S ε α → σ → Prop
  | .ret (.ok a), s => Q a s
  | .ret (.error e), s => E e s
  | .halt, _ => halts
  | .call op next, s =>
    c.allow s op ∧ ∀ r, c.answer s op r → (next r).Ends halts g c Q E (g.next s op r)

variable {halts : Prop} {g : Ghost S σ} {c : Contract S σ} {Q : α → σ → Prop} {E : ε → σ → Prop} {s : σ}

@[simp] theorem ends_pure {a : α} : (pure a : Prog S ε α).Ends halts g c Q E s ↔ Q a s := Iff.rfl

@[simp] theorem ends_raise {e : ε} : (raise e : Prog S ε α).Ends halts g c Q E s ↔ E e s := Iff.rfl

@[simp] theorem ends_halt : (halt : Prog S ε α).Ends halts g c Q E s ↔ halts := Iff.rfl

theorem ends_call {op : S.Op} {next : S.Res op → Prog S ε α} :
    (call op next).Ends halts g c Q E s ↔
      c.allow s op ∧ ∀ r, c.answer s op r → (next r).Ends halts g c Q E (g.next s op r) := Iff.rfl

theorem Ends.mono {halts' : Prop} {Q' : α → σ → Prop} {E' : ε → σ → Prop} {p : Prog S ε α}
    (h : p.Ends halts g c Q E s) (hH : halts → halts') (hQ : ∀ a s, Q a s → Q' a s) (hE : ∀ e s, E e s → E' e s) :
    p.Ends halts' g c Q' E' s := by
  induction p generalizing s with
  | ret result => cases result with
    | ok a => exact hQ a s h
    | error e => exact hE e s h
  | halt => exact hH h
  | call op next ih => exact ⟨h.1, fun r hr => ih r (h.2 r hr)⟩

theorem ends_bind {p : Prog S ε α} {f : α → Prog S ε β} {Q : β → σ → Prop} :
    (p >>= f).Ends halts g c Q E s ↔ p.Ends halts g c (fun a s => (f a).Ends halts g c Q E s) E s := by
  change (p.bind f).Ends halts g c Q E s ↔ _
  induction p generalizing s with
  | ret result => cases result <;> rfl
  | halt => rfl
  | call op next ih =>
    simp only [Prog.bind, ends_call]
    exact and_congr_right fun _ => forall_congr' fun r => imp_congr_right fun _ => ih r

theorem ends_catchError {p : Prog S ε α} {handler : ε → Prog S ε' α} {E : ε' → σ → Prop} :
    (p.catchError handler).Ends halts g c Q E s ↔
      p.Ends halts g c Q (fun e s => (handler e).Ends halts g c Q E s) s := by
  induction p generalizing s with
  | ret result => cases result <;> rfl
  | halt => rfl
  | call op next ih =>
    simp only [catchError, ends_call]
    exact and_congr_right fun _ => forall_congr' fun r => imp_congr_right fun _ => ih r

theorem ends_mapError {p : Prog S ε α} {f : ε → ε'} {E : ε' → σ → Prop} :
    (p.mapError f).Ends halts g c Q E s ↔ p.Ends halts g c Q (fun e s => E (f e) s) s := by
  simp only [mapError, ends_catchError, ends_raise]

theorem ends_attempt {p : Prog S ε α} {Q : Except ε α → σ → Prop} {E : ε' → σ → Prop} :
    p.attempt.Ends halts g c Q E s ↔
      p.Ends halts g c (fun a s => Q (.ok a) s) (fun e s => Q (.error e) s) s := by
  induction p generalizing s with
  | ret result => cases result <;> rfl
  | halt => rfl
  | call op next ih =>
    simp only [attempt, ends_call]
    exact and_congr_right fun _ => forall_congr' fun r => imp_congr_right fun _ => ih r

theorem Ends.bind {p : Prog S ε α} {f : α → Prog S ε β} {Q : α → σ → Prop} {R : β → σ → Prop}
    (first : p.Ends halts g c Q E s) (rest : ∀ a s, Q a s → (f a).Ends halts g c R E s) :
    (p >>= f).Ends halts g c R E s :=
  ends_bind.mpr (first.mono id rest fun _ _ h => h)

/-- The program makes calls of one kind only, and comes to its end. -/
def Makes (P : S.Op → Prop) : Prog S ε α → Prop
  | .ret _ => True
  | .halt => False
  | .call op next => P op ∧ ∀ r, (next r).Makes P

variable {P : S.Op → Prop}

theorem Makes.bind {p : Prog S ε α} {f : α → Prog S ε β} (first : p.Makes P) (rest : ∀ a, (f a).Makes P) :
    (p >>= f).Makes P := by
  change (p.bind f).Makes P
  induction p with
  | ret result => cases result with
    | ok a => exact rest a
    | error e => trivial
  | halt => exact first.elim
  | call op next ih => exact ⟨first.1, fun r => ih r (first.2 r)⟩

theorem Makes.catchError {p : Prog S ε α} {handler : ε → Prog S ε' α} (first : p.Makes P)
    (rest : ∀ e, (handler e).Makes P) : (p.catchError handler).Makes P := by
  induction p with
  | ret result => cases result with
    | ok a => trivial
    | error e => exact rest e
  | halt => exact first.elim
  | call op next ih => exact ⟨first.1, fun r => ih r (first.2 r)⟩

theorem Makes.mapError {p : Prog S ε α} {f : ε → ε'} (first : p.Makes P) : (p.mapError f).Makes P :=
  first.catchError fun _ => trivial

theorem Makes.attempt {p : Prog S ε α} (first : p.Makes P) : (p.attempt : Prog S ε' _).Makes P := by
  induction p with
  | ret result => trivial
  | halt => exact first.elim
  | call op next ih => exact ⟨first.1, fun r => ih r (first.2 r)⟩

theorem Makes.mono {P' : S.Op → Prop} {p : Prog S ε α} (makes : p.Makes P) (wider : ∀ op, P op → P' op) :
    p.Makes P' := by
  induction p with
  | ret result => trivial
  | halt => exact makes.elim
  | call op next ih => exact ⟨wider op makes.1, fun r => ih r (makes.2 r)⟩

/-- Calls that are always allowed. -/
theorem Makes.ends {p : Prog S ε α} (makes : p.Makes P) (allowed : ∀ s op, P op → c.allow s op) :
    p.Ends halts g c (fun _ _ => True) (fun _ _ => True) s := by
  induction p generalizing s with
  | ret result => cases result <;> trivial
  | halt => exact makes.elim
  | call op next ih => exact ⟨allowed _ _ makes.1, fun r _ => ih r (makes.2 r)⟩

theorem Makes.meets {p : Prog S ε α} (makes : p.Makes P) (allowed : ∀ s op, P op → c.allow s op) :
    p.Meets g c (fun _ _ => True) (fun _ _ => True) s := by
  induction p generalizing s with
  | ret result => cases result <;> trivial
  | halt => trivial
  | call op next ih => exact ⟨allowed _ _ makes.1, fun r _ => ih r (makes.2 r)⟩

end Prog
end Calls
