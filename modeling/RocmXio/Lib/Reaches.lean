/-
Reachability for a partial step function.

Where the labels of a run do not matter, a run with a side condition on each step is a chain of
steps.
-/

import RocmXio.Lib.Run

namespace RocmXio.Lib

universe u v

variable {State : Type u} {Label : Type v}

/-- Steps that all meet the side condition lead from one state to another. -/
def Reaches (step : State → Label → Option State) (guard : State → Label → Prop) :
    State → State → Prop :=
  Relation.ReflTransGen fun state next => ∃ label, guard state label ∧ step state label = some next

section

variable {step : State → Label → Option State} {guard : State → Label → Prop}
  {start middle final : State}

theorem Reaches.single {label : Label} (meets : guard start label)
    (move : step start label = some final) : Reaches step guard start final :=
  Relation.ReflTransGen.single ⟨label, meets, move⟩

theorem Reaches.head {label : Label} (meets : guard start label)
    (move : step start label = some middle) (rest : Reaches step guard middle final) :
    Reaches step guard start final :=
  Relation.ReflTransGen.head ⟨label, meets, move⟩ rest

theorem reaches_iff : Reaches step guard start final ↔
    ∃ labels, EveryStep step guard start labels ∧ run step start labels = some final := by
  constructor
  · intro reaches
    induction reaches using Relation.ReflTransGen.head_induction_on with
    | refl => exact ⟨[], trivial, rfl⟩
    | head first _ inductionHypothesis =>
      obtain ⟨label, meets, move⟩ := first
      obtain ⟨labels, guarded, run⟩ := inductionHypothesis
      refine ⟨label :: labels, ⟨meets, ?_⟩, (run_cons_of_step move).trans run⟩
      rw [move]
      exact guarded
  · rintro ⟨labels, guarded, run⟩
    induction labels generalizing start with
    | nil =>
      cases run
      exact .refl
    | cons label rest inductionHypothesis =>
      rw [run_cons, Option.bind_eq_some_iff] at run
      obtain ⟨next, move, tail⟩ := run
      simp only [EveryStep, move] at guarded
      exact .head guarded.1 move (inductionHypothesis guarded.2 tail)

theorem Reaches.mono {weaker : State → Label → Prop}
    (weaken : ∀ state label, guard state label → weaker state label)
    (reaches : Reaches step guard start final) : Reaches step weaker start final :=
  Relation.ReflTransGen.mono
    (fun state _ ⟨label, meets, move⟩ => ⟨label, weaken state label meets, move⟩) _ _ reaches

theorem Reaches.invariant {motive : State → Prop} (reaches : Reaches step guard start final)
    (preserved : ∀ state label next, motive state → guard state label →
      step state label = some next → motive next) (initial : motive start) : motive final := by
  induction reaches with
  | refl => exact initial
  | tail _ last inductionHypothesis =>
    obtain ⟨label, meets, move⟩ := last
    exact preserved _ label _ inductionHypothesis meets move

end

end RocmXio.Lib
