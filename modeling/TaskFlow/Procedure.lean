namespace TaskFlow

/-- A procedure that answers with an `α`: it is done, or it takes an action and goes on with what
that answers. -/
inductive Procedure {Action : Type} (Answer : Action → Type) (α : Type) : Type
  | done (a : α)
  | take (act : Action) (rest : Answer act → Procedure Answer α)

namespace Procedure

variable {Action σ α β : Type} {Answer : Action → Type}

def bind : Procedure Answer α → (α → Procedure Answer β) → Procedure Answer β
  | .done a, k => k a
  | .take act rest, k => .take act fun b => (rest b).bind k

instance : Monad (Procedure Answer) where
  pure := .done
  bind := bind

def next? : Procedure Answer α → Option Action
  | .done _ => none
  | .take act _ => some act

def run (exec : (act : Action) → σ → σ × Answer act) : Procedure Answer α → σ → σ × α
  | .done a, s => (s, a)
  | .take act rest, s => (rest (exec act s).2).run exec (exec act s).1

end Procedure

end TaskFlow
