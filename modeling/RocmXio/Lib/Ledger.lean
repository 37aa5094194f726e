/-
Objects that code acquires and has to release.

A ledger numbers objects as they are acquired and counts how often each was released. Between two
ledgers a piece of code owns what it acquired and has not released, and has left alone what was
there before. Such code is a sequence of steps that a negative code ends.
-/

import Mathlib.Tactic

namespace RocmXio.Lib

open Function

universe u

/-! ### Ledgers -/

/-- The number of the next object, and how often each one was released. -/
structure Ledger where
  next : Nat
  released : Nat → Nat

namespace Ledger

def empty : Ledger :=
  ⟨0, fun _ => 0⟩

/-- The object with the number `next` is acquired. -/
def acquire (ledger : Ledger) : Ledger :=
  { ledger with next := ledger.next + 1 }

def release (ledger : Ledger) (object : Nat) : Ledger :=
  { ledger with
    released := update ledger.released object (ledger.released object + 1) }

def Allocated (ledger : Ledger) (object : Nat) : Prop :=
  object < ledger.next ∧ ledger.released object = 0

/-- Every object that was acquired in between was released exactly once. -/
def Settled (before after : Ledger) : Prop :=
  ∀ object, before.next ≤ object → object < after.next → after.released object = 1

/-- Of the objects acquired in between, those in `owned` are allocated and the others were released
exactly once; older ones were left alone. -/
structure Owns (before after : Ledger) (owned : Finset Nat) : Prop where
  grows : before.next ≤ after.next
  inside : ∀ object ∈ owned, before.next ≤ object ∧ object < after.next
  allocated : ∀ object ∈ owned, after.released object = 0
  settled : ∀ object, before.next ≤ object → object < after.next → object ∉ owned →
    after.released object = 1
  kept : ∀ object < before.next, after.released object = before.released object
  fresh : ∀ object, after.next ≤ object → after.released object = 0

section

variable {before middle after : Ledger} {owned more : Finset Nat} {object : Nat}

theorem Owns.empty : Owns .empty .empty ∅ where
  grows := le_refl _
  inside := by simp
  allocated := by simp
  settled := fun _ _ impossible => absurd impossible (Nat.not_lt_zero _)
  kept := fun _ _ => rfl
  fresh := fun _ _ => rfl

theorem Owns.here (owns : Owns before after owned) : Owns after after ∅ where
  grows := le_refl _
  inside := by simp
  allocated := by simp
  settled := fun _ above below => absurd above (Nat.not_le.mpr below)
  kept := fun _ _ => rfl
  fresh := owns.fresh

theorem Owns.acquire (owns : Owns before after owned) :
    Owns before after.acquire (insert after.next owned) where
  grows := Nat.le_succ_of_le owns.grows
  inside := by
    intro object member
    rcases Finset.mem_insert.mp member with rfl | member
    · exact ⟨owns.grows, Nat.lt_succ_self _⟩
    · exact ⟨(owns.inside object member).1, Nat.lt_succ_of_lt (owns.inside object member).2⟩
  allocated := by
    intro object member
    rcases Finset.mem_insert.mp member with rfl | member
    · exact owns.fresh _ (le_refl _)
    · exact owns.allocated object member
  settled := by
    intro object above below notMember
    rw [Finset.mem_insert, not_or] at notMember
    exact owns.settled object above (Nat.lt_of_le_of_ne (Nat.le_of_lt_succ below) notMember.1)
      notMember.2
  kept := owns.kept
  fresh := fun object above => owns.fresh object (Nat.le_of_succ_le above)

theorem Owns.release (owns : Owns before after owned) (member : object ∈ owned) :
    Owns before (after.release object) (owned.erase object) where
  grows := owns.grows
  inside := fun other member => owns.inside other (Finset.mem_of_mem_erase member)
  allocated := by
    intro other member
    obtain ⟨ne, member⟩ := Finset.mem_erase.mp member
    exact (update_of_ne ne ..).trans (owns.allocated other member)
  settled := by
    intro other above below notMember
    rcases eq_or_ne other object with rfl | ne
    · exact (update_self ..).trans (by rw [owns.allocated other member])
    · refine (update_of_ne ne ..).trans (owns.settled other above below fun member => ?_)
      exact notMember (Finset.mem_erase.mpr ⟨ne, member⟩)
  kept := by
    intro other older
    have ne : other ≠ object := Nat.ne_of_lt (Nat.lt_of_lt_of_le older (owns.inside _ member).1)
    exact (update_of_ne ne ..).trans (owns.kept other older)
  fresh := by
    intro other above
    have ne : other ≠ object := Nat.ne_of_gt (Nat.lt_of_lt_of_le (owns.inside _ member).2 above)
    exact (update_of_ne ne ..).trans (owns.fresh other above)

theorem Owns.next_notMem (owns : Owns before after owned) : after.next ∉ owned :=
  fun member => absurd (owns.inside _ member).2 (Nat.lt_irrefl _)

theorem Owns.giveBack (owns : Owns before after (insert object owned)) (other : object ∉ owned) :
    Owns before (after.release object) owned := by
  have released := owns.release (Finset.mem_insert_self _ _)
  rwa [Finset.erase_insert other] at released

theorem Owns.borrow (owns : Owns before after owned) :
    Owns before (after.acquire.release after.next) owned :=
  owns.acquire.giveBack owns.next_notMem

theorem Owns.disjoint (first : Owns before middle owned) (second : Owns middle after more) :
    Disjoint owned more := by
  refine Finset.disjoint_left.mpr fun object here there => ?_
  exact absurd (first.inside object here).2 (Nat.not_lt.mpr (second.inside object there).1)

theorem Owns.trans (first : Owns before middle owned) (second : Owns middle after more) :
    Owns before after (owned ∪ more) where
  grows := first.grows.trans second.grows
  inside := by
    intro object member
    rcases Finset.mem_union.mp member with here | there
    · exact ⟨(first.inside object here).1,
        Nat.lt_of_lt_of_le (first.inside object here).2 second.grows⟩
    · exact ⟨first.grows.trans (second.inside object there).1, (second.inside object there).2⟩
  allocated := by
    intro object member
    rcases Finset.mem_union.mp member with here | there
    · exact (second.kept object (first.inside object here).2).trans (first.allocated object here)
    · exact second.allocated object there
  settled := by
    intro object above below notMember
    rw [Finset.mem_union, not_or] at notMember
    rcases Nat.lt_or_ge object middle.next with early | late
    · exact (second.kept object early).trans (first.settled object above early notMember.1)
    · exact second.settled object late below notMember.2
  kept := fun object older =>
    (second.kept object (Nat.lt_of_lt_of_le older first.grows)).trans (first.kept object older)
  fresh := second.fresh

theorem Owns.isAllocated (owns : Owns before after owned) (member : object ∈ owned) :
    after.Allocated object :=
  ⟨(owns.inside object member).2, owns.allocated object member⟩

theorem Owns.settled_iff (owns : Owns before after owned) : Settled before after ↔ owned = ∅ := by
  refine ⟨fun settled => Finset.eq_empty_of_forall_notMem fun object member => ?_, ?_⟩
  · obtain ⟨above, below⟩ := owns.inside object member
    have once := settled object above below
    rw [owns.allocated object member] at once
    exact absurd once Nat.zero_ne_one
  · rintro rfl object above below
    exact owns.settled object above below (Finset.notMem_empty _)

end

end Ledger

/-! ### Steps -/

/-- A step changes the state and returns a code that is negative when it has failed. -/
abbrev Step (State : Type u) := State → Int × State

namespace Step

variable {State : Type u}

def andThen (first second : Step State) : Step State := fun state =>
  if (first state).1 < 0 then first state else second (first state).2

def onFailure (step : Step State) (cleanup : State → State) : Step State := fun state =>
  if (step state).1 < 0 then ((step state).1, cleanup (step state).2) else step state

def when (condition : Bool) (step : Step State) : Step State := fun state =>
  if condition then step state else (0, state)

/-- From states in `pre` the step fails exactly if `fails` holds, and then leads to `failed`,
otherwise to `post`. -/
def Meets (step : Step State) (fails : Prop) (pre post failed : State → Prop) : Prop :=
  ∀ state, pre state → (fails → (step state).1 < 0 ∧ failed (step state).2) ∧
      (¬ fails → 0 ≤ (step state).1 ∧ post (step state).2)

variable {step first second : Step State} {fails firstFails secondFails : Prop}
  {pre middle post failed cleaned : State → Prop} {cleanup : State → State} {condition : Bool}

theorem Meets.of_iff {otherFails : Prop} (meets : Meets step fails pre post failed)
    (same : fails ↔ otherFails) : Meets step otherFails pre post failed := by
  intro state start
  rw [← same]
  exact meets state start

theorem Meets.andThen (firstMeets : Meets first firstFails pre middle failed)
    (secondMeets : Meets second secondFails middle post failed) :
    Meets (first.andThen second) (firstFails ∨ secondFails) pre post failed := by
  intro state start
  obtain ⟨onFail, onPass⟩ := firstMeets state start
  unfold Step.andThen
  by_cases firstFailed : firstFails
  · obtain ⟨negative, ends⟩ := onFail firstFailed
    rw [if_pos negative]
    exact ⟨fun _ => ⟨negative, ends⟩, fun passes => absurd (Or.inl firstFailed) passes⟩
  · obtain ⟨passed, reached⟩ := onPass firstFailed
    rw [if_neg (Int.not_lt.mpr passed), or_iff_right firstFailed]
    exact secondMeets _ reached

theorem Meets.onFailure (meets : Meets step fails pre post failed)
    (cleans : ∀ state, failed state → cleaned (cleanup state)) :
    Meets (step.onFailure cleanup) fails pre post cleaned := by
  intro state start
  obtain ⟨onFail, onPass⟩ := meets state start
  unfold Step.onFailure
  refine ⟨fun fails => ?_, fun passes => ?_⟩
  · obtain ⟨negative, ends⟩ := onFail fails
    rw [if_pos negative]
    exact ⟨negative, cleans _ ends⟩
  · obtain ⟨passed, reached⟩ := onPass passes
    rw [if_neg (Int.not_lt.mpr passed)]
    exact ⟨passed, reached⟩

theorem Meets.when (meets : Meets step fails pre post failed)
    (skips : ∀ state, pre state → post state) :
    Meets (step.when condition) (condition = true ∧ fails) pre post failed := by
  intro state start
  unfold Step.when
  cases condition with
  | false => exact ⟨fun impossible => absurd impossible.1 Bool.false_ne_true,
      fun _ => ⟨le_refl _, skips state start⟩⟩
  | true =>
    rw [and_iff_right rfl, if_pos rfl]
    exact meets state start

end Step

end RocmXio.Lib
