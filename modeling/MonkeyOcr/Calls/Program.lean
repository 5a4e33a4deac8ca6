import Mathlib.Logic.Basic

namespace Calls

/-- The calls a program may await, and what each call may answer. Failures
of a call are part of its answer. -/
structure Signature where
  Op : Type
  Res : Op → Type

/-- A sequential program, as the tree of the calls it awaits: everything it
does between two awaits is computed at once, everything other programs do
happens between a call and its answer. `ret` ends with a value or a raised
exception. `halt` is a program that takes no further step: one that was
killed, or whose loop has more turns than the prefix under study. -/
inductive Prog (S : Signature) (ε α : Type) : Type where
  | ret (result : Except ε α)
  | halt
  | call (op : S.Op) (next : S.Res op → Prog S ε α)

namespace Prog

variable {S : Signature} {ε ε' α β : Type}

def bind : Prog S ε α → (α → Prog S ε β) → Prog S ε β
  | .ret (.ok a), f => f a
  | .ret (.error e), _ => .ret (.error e)
  | .halt, _ => .halt
  | .call op next, f => .call op fun r => (next r).bind f

/-- `try p except e: handler e`. -/
def catchError : Prog S ε α → (ε → Prog S ε' α) → Prog S ε' α
  | .ret (.ok a), _ => .ret (.ok a)
  | .ret (.error e), handler => handler e
  | .halt, _ => .halt
  | .call op next, handler => .call op fun r => (next r).catchError handler

instance : Monad (Prog S ε) where
  pure a := .ret (.ok a)
  bind := Prog.bind

/-- Raise an exception. -/
def raise (e : ε) : Prog S ε α := .ret (.error e)

/-- The outcome of a synchronous function: its value, or what it raises. -/
def ofExcept (result : Except ε α) : Prog S ε α := .ret result

/-- Rename what is raised. -/
def mapError (f : ε → ε') (p : Prog S ε α) : Prog S ε' α :=
  p.catchError fun e => .raise (f e)

/-- Run `p` inside a `try` that catches everything. -/
def attempt : Prog S ε α → Prog S ε' (Except ε α)
  | .ret result => .ret (.ok result)
  | .halt => .halt
  | .call op next => .call op fun r => (next r).attempt

/-- What a program that is done has returned. -/
def returned? : Prog S ε α → Option α
  | .ret (.ok a) => some a
  | _ => none

theorem eq_of_returned? {p : Prog S ε α} {a : α} (done : p.returned? = some a) : p = .ret (.ok a) := by
  cases p with
  | ret result => cases result with
    | ok b => exact Option.some.inj done ▸ rfl
    | error => cases done
  | halt => cases done
  | call => cases done

end Prog
end Calls
