import Totality.Action
/-!
# Sequences

A sequence holds actions in the order of time. Actions that are due together keep the order in which they were
given, since the sort is stable.
-/

namespace Totality

variable {τ : Type} [TimeScale τ]

/-- Whether `a` may stand before `b` in a sequence. -/
def Action.due (a b : Action τ) : Bool := TimeScale.le a.time b.time

structure Sequence (τ : Type) [TimeScale τ] where
  actions : List (Action τ)
  sorted : actions.Pairwise fun a b => a.due b

namespace Sequence

/-- The sequence of a list of actions. -/
def ofActions (as : List (Action τ)) : Sequence τ where
  actions := as.mergeSort Action.due
  sorted := List.pairwise_mergeSort (fun a b c => TimeScale.le_trans a.time b.time c.time)
    (fun a b => TimeScale.le_total a.time b.time) as

def empty : Sequence τ := ⟨[], .nil⟩

instance : Inhabited (Sequence τ) := ⟨empty⟩

def size (s : Sequence τ) : Nat := s.actions.length

/-- The actions whose kind is not disabled, in order. -/
def enabled (s : Sequence τ) (disabled : List ActionKind) : List (Action τ) :=
  s.actions.filter fun a => !disabled.contains a.kind

/-- Equality action by action, with numerical equality of exposures. -/
def eqv (s t : Sequence Instant) : Bool :=
  s.size == t.size && (s.actions.zip t.actions).all fun (a, b) => a.eqv b

end Sequence

end Totality
