import Mathlib.Logic.Basic

/-!
Runs of a deterministic step function, given as the list of the actions that are performed one
after another, and properties of every action of a run in the state in which it is performed.
-/

namespace Nodepool

variable {State Action : Type} {step : State → Action → State}

/-- Every action of the run satisfies `P` in the state in which it is performed. -/
def Always (step : State → Action → State) (P : State → Action → Prop) :
    State → List Action → Prop
  | _, [] => True
  | s, action :: actions => P s action ∧ Always step P (step s action) actions

/-- What follows from a property of every action, under an invariant that the actions with this
property keep. -/
theorem Always.imp {I : State → Prop} {P Q : State → Action → Prop} {s : State}
    {actions : List Action} (holds : Always step Q s actions) (init : I s)
    (keep : ∀ s action, I s → Q s action → I (step s action) ∧ P s action) :
    Always step P s actions := by
  induction actions generalizing s with
  | nil => trivial
  | cons action actions ih =>
      obtain ⟨inv, here⟩ := keep s action init holds.1
      exact ⟨here, ih holds.2 inv⟩

/-- Two properties that agree under an invariant agree on the runs that start from it, when the
actions with the second property keep it. -/
theorem always_iff {I : State → Prop} {P Q : State → Action → Prop} {s : State}
    {actions : List Action} (init : I s) (keep : ∀ s action, I s → Q s action → I (step s action))
    (same : ∀ s action, I s → (P s action ↔ Q s action)) :
    Always step P s actions ↔ Always step Q s actions := by
  constructor
  · intro holds
    refine holds.imp init fun s action inv here => ?_
    have there := (same s action inv).mp here
    exact ⟨keep s action inv there, there⟩
  · intro holds
    exact holds.imp init fun s action inv there =>
      ⟨keep s action inv there, (same s action inv).mpr there⟩

/-- What holds of every action under an invariant that is kept by the actions of the run. -/
theorem always_of {I : State → Prop} {P : State → Action → Prop} {s : State}
    {actions : List Action} (init : I s)
    (keep : ∀ s, ∀ action ∈ actions, I s → I (step s action) ∧ P s action) :
    Always step P s actions := by
  induction actions generalizing s with
  | nil => trivial
  | cons action actions ih =>
      obtain ⟨inv, holds⟩ := keep s action List.mem_cons_self init
      exact ⟨holds, ih inv fun s action mem => keep s action (List.mem_cons_of_mem _ mem)⟩

end Nodepool
