/-
Runs of a partial step function.

Every component of this development is a machine: a state, labels that say who moves and what the
environment chooses, and a step function that refuses labels that are not enabled. This file has
runs, the induction behind all invariants, also with a side condition on each step, and observers
that keep a history beside a machine.
-/

import Mathlib.Tactic

namespace RocmXio.Lib

universe u v

variable {State : Type u} {Label : Type v}

/-- The state a list of labels leads to, provided every label is enabled in its turn. -/
def run (step : State → Label → Option State) : State → List Label → Option State
  | state, [] => some state
  | state, label :: rest => (step state label).bind fun next => run step next rest

/-- Every step of the run that `labels` describe starts in a state that meets `guard`. -/
def EveryStep (step : State → Label → Option State) (guard : State → Label → Prop) :
    State → List Label → Prop
  | _, [] => True
  | state, label :: rest =>
    guard state label ∧ match step state label with
      | none => True
      | some next => EveryStep step guard next rest

instance EveryStep.decidable (step : State → Label → Option State)
    (guard : State → Label → Prop) [∀ state label, Decidable (guard state label)] :
    ∀ (state : State) (labels : List Label), Decidable (EveryStep step guard state labels)
  | _, [] => inferInstanceAs (Decidable True)
  | state, label :: rest =>
    match decided : step state label with
    | none => decidable_of_iff (guard state label) (by simp [EveryStep, decided])
    | some next =>
      have := EveryStep.decidable step guard next rest
      decidable_of_iff (guard state label ∧ EveryStep step guard next rest)
        (by simp [EveryStep, decided])

section

variable {step : State → Label → Option State} {guard : State → Label → Prop}

@[simp] theorem run_nil (state : State) : run step state [] = some state := rfl

theorem run_cons (state : State) (label : Label) (rest : List Label) :
    run step state (label :: rest) = (step state label).bind fun next => run step next rest :=
  rfl

theorem run_cons_of_step {state next : State} {label : Label} {rest : List Label}
    (move : step state label = some next) :
    run step state (label :: rest) = run step next rest := by
  rw [run_cons, move, Option.bind_some]

theorem run_append (state : State) (first second : List Label) : run step state (first ++ second) =
      (run step state first).bind fun middle => run step middle second := by
  induction first generalizing state with
  | nil => rfl
  | cons label rest inductionHypothesis =>
    rw [List.cons_append, run_cons, run_cons]
    cases step state label with
    | none => rfl
    | some next => exact inductionHypothesis next

theorem run_append_of_run {state middle : State} {first second : List Label}
    (reaches : run step state first = some middle) :
    run step state (first ++ second) = run step middle second := by
  rw [run_append, reaches, Option.bind_some]

/-- What holds at the start and is kept by every step that meets the side condition holds after
every run of such steps. -/
theorem run_invariant_of_everyStep {motive : State → Prop}
    (preserved : ∀ state label next, motive state → guard state label →
      step state label = some next → motive next)
    {start final : State} {labels : List Label} (initial : motive start)
    (guarded : EveryStep step guard start labels)
    (reaches : run step start labels = some final) : motive final := by
  induction labels generalizing start with
  | nil =>
    cases reaches
    exact initial
  | cons label rest inductionHypothesis =>
    rw [run_cons, Option.bind_eq_some_iff] at reaches
    obtain ⟨next, move, tail⟩ := reaches
    simp only [EveryStep, move] at guarded
    exact inductionHypothesis (preserved start label next initial guarded.1 move) guarded.2 tail

theorem everyStep_of_forall {labels : List Label}
    (always : ∀ state, ∀ label ∈ labels, guard state label) (start : State) :
    EveryStep step guard start labels := by
  induction labels generalizing start with
  | nil => exact trivial
  | cons label rest inductionHypothesis =>
    refine ⟨always start label List.mem_cons_self, ?_⟩
    cases step start label with
    | none => exact trivial
    | some next =>
      exact inductionHypothesis
        (fun state other member => always state other (List.mem_cons_of_mem label member)) next

theorem run_invariant {motive : State → Prop}
    (preserved : ∀ state label next, motive state → step state label = some next → motive next)
    {start final : State} {labels : List Label} (initial : motive start)
    (reaches : run step start labels = some final) : motive final :=
  run_invariant_of_everyStep
    (fun state label next holds _ move => preserved state label next holds move) initial
    (everyStep_of_forall (fun _ _ _ => True.intro) start) reaches

/-- What cannot come back once it is lost is there after a run if and only if no step has lost
it. -/
theorem run_iff_everyStep {motive kept : State → Prop}
    (preserved : ∀ state label next, motive state → step state label = some next → motive next)
    (keeps : ∀ state label next, motive state → kept state → step state label = some next →
      (kept next ↔ guard state label))
    (lost : ∀ state label next, motive state → ¬ kept state → step state label = some next →
      ¬ kept next)
    {start final : State} {labels : List Label} (initial : motive start) (holds : kept start)
    (reaches : run step start labels = some final) :
    kept final ↔ EveryStep step guard start labels := by
  induction labels generalizing start with
  | nil =>
    cases reaches
    exact iff_of_true holds trivial
  | cons label rest inductionHypothesis =>
    rw [run_cons, Option.bind_eq_some_iff] at reaches
    obtain ⟨next, move, tail⟩ := reaches
    have motiveNext := preserved start label next initial move
    simp only [EveryStep, move]
    by_cases still : kept next
    · rw [inductionHypothesis motiveNext still tail,
        and_iff_right ((keeps start label next initial holds move).mp still)]
    · have stays : ∀ state label next, motive state ∧ ¬ kept state →
          step state label = some next → motive next ∧ ¬ kept next :=
        fun state label next both step =>
          ⟨preserved state label next both.1 step, lost state label next both.1 both.2 step⟩
      have gone := run_invariant stays ⟨motiveNext, still⟩ tail
      exact iff_of_false gone.2 fun every =>
        still ((keeps start label next initial holds move).mpr every.1)

/-- Steps of its own use up what a machine has left. -/
theorem run_spends_of_everyStep {motive : State → Prop} {own : Label → Bool}
    {remaining : State → Nat}
    (spends : ∀ state label next, motive state → guard state label →
      step state label = some next →
        motive next ∧ remaining next + (own label).toNat ≤ remaining state)
    {start final : State} {labels : List Label} (initial : motive start)
    (guarded : EveryStep step guard start labels)
    (reaches : run step start labels = some final) :
    motive final ∧ labels.countP own + remaining final ≤ remaining start := by
  induction labels generalizing start with
  | nil =>
    cases reaches
    exact ⟨initial, by rw [List.countP_nil, Nat.zero_add]⟩
  | cons label rest inductionHypothesis =>
    rw [run_cons, Option.bind_eq_some_iff] at reaches
    obtain ⟨next, move, tail⟩ := reaches
    simp only [EveryStep, move] at guarded
    obtain ⟨kept, first⟩ := spends start label next initial guarded.1 move
    obtain ⟨holds, later⟩ := inductionHypothesis kept guarded.2 tail
    refine ⟨holds, ?_⟩
    rw [List.countP_cons]
    cases ours : own label with
    | true =>
      rw [ours, Bool.toNat_true] at first
      rw [if_pos rfl]
      omega
    | false =>
      rw [if_neg Bool.false_ne_true]
      omega

end

/-! ### History -/

universe w x

/-- A state together with what an observer has written down about the run so far. -/
structure Observed (State : Type u) (History : Type w) where
  state : State
  history : History

section

variable {History : Type w} {Event : Type x} {step : State → Label → Option State}
  {forget : Event → Label} {record : State → Event → State → History → History}

/-- A machine with an observer that records each step, seeing the states before and after; an event
stands for a label. -/
def observe (step : State → Label → Option State) (forget : Event → Label)
    (record : State → Event → State → History → History) (observed : Observed State History)
    (event : Event) : Option (Observed State History) :=
  (step observed.state (forget event)).map fun next =>
    ⟨next, record observed.state event next observed.history⟩

theorem observe_eq_some_iff {observed next : Observed State History} {event : Event} :
    observe step forget record observed event = some next ↔
      step observed.state (forget event) = some next.state ∧
        next.history = record observed.state event next.state observed.history := by
  rw [observe, Option.map_eq_some_iff]
  constructor
  · rintro ⟨state, move, rfl⟩
    exact ⟨move, rfl⟩
  · rintro ⟨move, recorded⟩
    exact ⟨next.state, move, by rw [← recorded]⟩

theorem run_of_observe {start final : Observed State History} {events : List Event}
    (reaches : run (observe step forget record) start events = some final) :
    run step start.state (events.map forget) = some final.state := by
  induction events generalizing start with
  | nil =>
    cases reaches
    rfl
  | cons event rest inductionHypothesis =>
    rw [run_cons, Option.bind_eq_some_iff] at reaches
    obtain ⟨next, move, tail⟩ := reaches
    rw [List.map_cons, run_cons_of_step (observe_eq_some_iff.mp move).1]
    exact inductionHypothesis tail

theorem observe_of_run {start final : State} {events : List Event} (history : History)
    (reaches : run step start (events.map forget) = some final) :
    ∃ recorded, run (observe step forget record) ⟨start, history⟩ events =
      some ⟨final, recorded⟩ := by
  induction events generalizing start history with
  | nil =>
    cases reaches
    exact ⟨history, rfl⟩
  | cons event rest inductionHypothesis =>
    rw [List.map_cons, run_cons, Option.bind_eq_some_iff] at reaches
    obtain ⟨next, move, tail⟩ := reaches
    have first : observe step forget record ⟨start, history⟩ event =
        some ⟨next, record start event next history⟩ := observe_eq_some_iff.mpr ⟨move, rfl⟩
    rw [run_cons_of_step first]
    exact inductionHypothesis (record start event next history) tail

end

end RocmXio.Lib
