import Mathlib.Logic.Basic

/-!
Programs over an external signature.

A `Prog` is a computation tree: it is finished, or it makes one call to the
outside and continues with the reply. The tree fixes only what the code itself
decides; what a call answers, and what happens between two calls, is left to an
interpretation. One translation of a method can so be run alone, run against a
recorded list of replies, or interleaved with other threads.

`Method` is the form the code of an object takes: it reads and assigns the
attributes of the object (`σ`), makes calls, and may raise. Assignments made
before an exception stay made, as in the imperative source.
-/

namespace Nodepool.Effect

/-- The calls a program can make, the value each one returns, and the
exceptions a call can raise. -/
structure Sig where
  Call : Type
  Val : Call → Type
  Err : Type

/-- What comes back from a call: its value, or the exception it raised. -/
abbrev Sig.Reply (S : Sig) (c : S.Call) : Type := Except S.Err (S.Val c)

inductive Prog (S : Sig) (α : Type) where
  | pure (a : α) : Prog S α
  | call (c : S.Call) (k : S.Reply c → Prog S α) : Prog S α

namespace Prog

variable {S : Sig} {α β γ : Type}

def bind : Prog S α → (α → Prog S β) → Prog S β
  | .pure a, f => f a
  | .call c k, f => .call c fun r => (k r).bind f

@[simp] theorem pure_bind (a : α) (f : α → Prog S β) : (Prog.pure a).bind f = f a := rfl

@[simp] theorem call_bind (c : S.Call) (k : S.Reply c → Prog S α) (f : α → Prog S β) :
    (Prog.call c k).bind f = .call c fun r => (k r).bind f := rfl

end Prog

/-- The body of a method of an object with attributes `σ`: it ends with a value
or an exception, and in either case with the attributes it has assigned. -/
def Method (S : Sig) (σ α : Type) : Type := σ → Prog S (Except S.Err α × σ)

namespace Method

variable {S : Sig} {σ α β : Type}

protected def pure (a : α) : Method S σ α := fun s => .pure (.ok a, s)

protected def bind (m : Method S σ α) (f : α → Method S σ β) : Method S σ β := fun s =>
  (m s).bind fun
    | (.ok a, s') => f a s'
    | (.error e, s') => .pure (.error e, s')

instance : Monad (Method S σ) where
  pure := Method.pure
  bind := Method.bind

/-- `raise e` -/
def raise (e : S.Err) : Method S σ α := fun s => .pure (.error e, s)

/-- `try: m` with handler `h`, which runs on the attributes as `m` left them. -/
def handle (m : Method S σ α) (h : S.Err → Method S σ α) : Method S σ α := fun s =>
  (m s).bind fun
    | (.ok a, s') => .pure (.ok a, s')
    | (.error e, s') => h e s'

instance : MonadExceptOf S.Err (Method S σ) where
  throw := raise
  tryCatch := handle

/-- The outcome of `m` as a value, so that `try ... else ...` can branch on it. -/
def attempt (m : Method S σ α) : Method S σ (Except S.Err α) := fun s =>
  (m s).bind fun (r, s') => .pure (.ok r, s')

/-- Read the attributes. -/
def self : Method S σ σ := fun s => .pure (.ok s, s)

/-- Assign attributes. -/
def assign (f : σ → σ) : Method S σ Unit := fun s => .pure (.ok (), f s)

/-- Make a call to the outside; an exception in the reply is raised here. -/
def perform (c : S.Call) : Method S σ (S.Val c) := fun s => .call c fun r => .pure (r, s)

/-- Run the body once for each element; an exception ends the loop. -/
def forEach : List α → (α → Method S σ Unit) → Method S σ Unit
  | [], _ => pure ()
  | a :: as, f => do
      f a
      forEach as f

/-- Run the body once for each element, and collect the results in order. -/
def gather : List α → (α → Method S σ (List β)) → Method S σ (List β)
  | [], _ => pure []
  | a :: as, f => do
      let b ← f a
      let bs ← gather as f
      pure (b ++ bs)

/-- Run the body once for each element, with an accumulator. -/
def fold (f : β → α → Method S σ β) : List α → β → Method S σ β
  | [], b => pure b
  | a :: as, b => do
      let b' ← f b a
      fold f as b'

end Method

end Nodepool.Effect
