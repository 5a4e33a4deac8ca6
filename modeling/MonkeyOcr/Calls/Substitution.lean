import MonkeyOcr.Calls.Contract

namespace Calls

variable {S T : Signature} {σ τ ε α : Type}

namespace Prog

/-- The program with every call replaced by the program that answers it. -/
def substitute (answering : (op : S.Op) → Prog T ε (S.Res op)) : Prog S ε α → Prog T ε α
  | .ret result => .ret result
  | .halt => .halt
  | .call op next => (answering op).bind fun r => (next r).substitute answering

variable {p : Prog S ε α} {s : σ} {t : τ}

/-- A program that keeps two contracts keeps both at once. -/
theorem Meets.both {g : Ghost S σ} {g' : Ghost S τ} {c : Contract S σ} {c' : Contract S τ}
    {Q : α → σ → Prop} {Q' : α → τ → Prop} {E : ε → σ → Prop} {E' : ε → τ → Prop} (one : p.Meets g c Q E s)
    (other : p.Meets g' c' Q' E' t) :
    p.Meets ⟨fun st op r => (g.next st.1 op r, g'.next st.2 op r)⟩
      ⟨fun st op => c.allow st.1 op ∧ c'.allow st.2 op, fun st op r => c.answer st.1 op r ∧ c'.answer st.2 op r⟩
      (fun a st => Q a st.1 ∧ Q' a st.2) (fun e st => E e st.1 ∧ E' e st.2) (s, t) := by
  induction p generalizing s t with
  | ret result => cases result <;> exact ⟨one, other⟩
  | halt => trivial
  | call op next ih =>
    refine ⟨⟨one.1, other.1⟩, fun r reliable => ?_⟩
    exact ih r (one.2 r reliable.1) (other.2 r reliable.2)

/-- The rule of substitution: if every call that the contract allows is answered
by a program that keeps the new contract, with an answer the old one relies on,
the whole program keeps the new contract. -/
theorem Meets.substitute {g : Ghost S σ} {c : Contract S σ} {g' : Ghost T τ} {c' : Contract T τ}
    {Q : α → σ → Prop} {E : ε → σ → Prop} {R : σ → τ → Prop} {answering : (op : S.Op) → Prog T ε (S.Res op)}
    (answers : ∀ op s t, c.allow s op → R s t →
      (answering op).Meets g' c' (fun r t => c.answer s op r ∧ R (g.next s op r) t) (fun _ _ => False) t)
    (meets : p.Meets g c Q E s) (related : R s t) :
    (p.substitute answering).Meets g' c' (fun a t => ∃ s, R s t ∧ Q a s) (fun e t => ∃ s, R s t ∧ E e s) t := by
  induction p generalizing s t with
  | ret result => cases result <;> exact ⟨s, related, meets⟩
  | halt => trivial
  | call op next ih =>
    have answered := answers op s t meets.1 related
    refine meets_bind.mpr (answered.mono (fun r t ⟨reliable, later⟩ => ?_) fun e t no => no.elim)
    exact ih r (meets.2 r reliable) later

end Prog
end Calls
