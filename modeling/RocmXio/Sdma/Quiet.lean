/-
Waiting until the engine has read what a thread submitted.

`quiet` samples a target once and then polls the read pointer. On the device the target is
`maxWritePtr` of the caller's state object, or `wptr`, and the loop ends at the first read pointer
not below it. On the host it is `hostCommittedWptr_`, and the loop ends only at a read pointer that
equals it.

A history keeps where the packets of the caller's calls end. The target is sampled in one state and
the read pointer polled in a later one; what happens in between is part of the run.
-/

import RocmXio.Sdma.RingSafety
import RocmXio.Sdma.HostRingSteps

namespace RocmXio.Sdma

open Lib

variable {Id : Type} {format : Format}

/-! ### The operations and the loops -/

/-- The operations that take a state object hand it to both halves of the submission, the fused
ones only to `submitPacket`. -/
def putSignalCounter (submission : Submission format) (fused state : Bool) : Call format :=
  ⟨submission, state && !fused, state⟩

/-- `putTile` has no parameter for the state object and submits with `nullptr`. -/
def putTile (submission : Submission format) : Call format := ⟨submission, false, false⟩

/-- The target of `quietAll`. -/
def Ring.quietTarget (ring : Ring Id format) (id : Id) (passState : Bool) : Nat :=
  if passState then (ring.producers id).state.maxWritePtr else ring.wptr

/-- The loop condition of `quietAll`. -/
def Ring.quietWaits (ring : Ring Id format) (target : Nat) : Bool := decide (ring.rptr < target)

/-- The loop condition of the host's `quiet`, whose target is `hostCommittedWptr`. -/
def HostRing.quietWaits (ring : HostRing Id format) (target : Nat) : Bool :=
  decide (ring.queueReadPtr ≠ target)

/-- The loop leaves only when the engine has read everything the caller issued, and it leaves if the
target has been reached or passed. -/
structure Quiets (issued : List Nat) (target readPtr engineRead : Nat) (waits : Bool) : Prop where
  returns : waits = false → ∀ finish ∈ issued, finish ≤ engineRead
  exits : target ≤ readPtr → waits = false

/-! ### What was issued -/

/-- A finished call: where its packets end, and whether it recorded this in the state object. -/
structure Issue where
  finish : Nat
  tracked : Bool

def Ring.ending (ring : Ring Id format) : Label Id format → Option (Id × Issue)
  | .step id =>
    match (ring.producers id).phase with
    | .advance call _ pendingWptr => some (id, ⟨pendingWptr, call.submitState⟩)
    | _ => none
  | _ => none

/-- The end of the claim that a step finishes, with its thread; padding counts as well. -/
def HostRing.ending (ring : HostRing Id format) : HostLabel Id format → Option (Id × Nat)
  | .step id _ =>
    match ring.threads id with
    | .advance _ _ pendingWptr => some (id, pendingWptr)
    | _ => none
  | _ => none

section

variable [DecidableEq Id] {State Event Entry : Type} {step : State → Event → Option State}
  {ending : State → Event → Option (Id × Entry)} {caller : Id}

def noted (step : State → Event → Option State) (ending : State → Event → Option (Id × Entry))
    (caller : Id) : Observed State (List Entry) → Event → Option (Observed State (List Entry)) :=
  observe step id fun state event _ issued =>
    match ending state event with
    | some (id, entry) => if id = caller then entry :: issued else issued
    | none => issued

theorem run_noted (bounded kept : State → Prop) (finish : Entry → Nat) (counts : Entry → Prop)
    (mark : State → Nat)
    (earlier : ∀ state event next, step state event = some next → bounded next → bounded state)
    (preserved : ∀ state event next, kept state → bounded next → step state event = some next →
      kept next ∧ mark state ≤ mark next ∧
        ∀ entry, ending state event = some (caller, entry) → counts entry →
          finish entry ≤ mark next)
    {start : State} {events : List Event} {final : Observed State (List Entry)}
    (initial : kept start)
    (reaches : run (noted step ending caller) ⟨start, []⟩ events = some final)
    (within : bounded final.state) :
    kept final.state ∧ ∀ entry ∈ final.history, counts entry → finish entry ≤ mark final.state := by
  refine run_invariant (motive := fun observed => bounded observed.state → kept observed.state ∧
    ∀ entry ∈ observed.history, counts entry → finish entry ≤ mark observed.state) ?_ ?_ reaches
    within
  · intro observed event next holds move within
    obtain ⟨move, history⟩ := observe_eq_some_iff.mp move
    obtain ⟨before, below⟩ := holds (earlier _ _ _ move within)
    obtain ⟨after, grows, ended⟩ := preserved _ _ _ before within move
    refine ⟨after, fun entry member counted => ?_⟩
    have known : ending observed.state event = some (caller, entry) ∨ entry ∈ observed.history := by
      rw [history] at member
      split at member
      · split_ifs at member with own
        · rcases List.mem_cons.mp member with rfl | old
          · exact Or.inl (own ▸ by assumption)
          · exact Or.inr old
        · exact Or.inr member
      · exact Or.inr member
    rcases known with new | old
    · exact ended entry new counted
    · exact (below entry old counted).trans grows
  · exact fun _ => ⟨initial, by simp⟩

end

/-! ### The device -/

section

variable {ring next : Ring Id format} {label : Label Id format}

theorem Shows.ending {tickets : TicketRing Nat} {holds : Id → Option (Nat × Bool)}
    (shows : Shows ring tickets holds) {caller : Id} {issue : Issue}
    (ends : ring.ending label = some (caller, issue)) : issue.finish = ring.wptr := by
  cases label with
  | step id =>
    simp only [Ring.ending] at ends
    split at ends
    case h_1 phase =>
      cases ends
      have atEnd := shows.phases caller
      rw [phase] at atEnd
      obtain ⟨-, -, rfl⟩ := atEnd
      exact shows.written.symm
    case h_2 => cases ends
  | _ => cases ends

variable [DecidableEq Id]

theorem maxWritePtr_setProducer {id : Id} {producer : Producer format}
    (same : producer.state.maxWritePtr = (ring.producers id).state.maxWritePtr) (other : Id) :
    ((ring.setProducer id producer).producers other).state.maxWritePtr =
      (ring.producers other).state.maxWritePtr :=
  forall_setProducer (motive := fun other producer =>
    producer.state.maxWritePtr = (ring.producers other).state.maxWritePtr) same
    (fun _ _ => rfl) other

theorem maxWritePtr_canWriteUpto (uptoIndex hwRead : Nat) (useState : Bool)
    (state : SdmaQueueState) :
    (canWriteUpto uptoIndex hwRead useState state).2.maxWritePtr = state.maxWritePtr := by
  rw [canWriteUpto]
  split_ifs <;> rfl

/-- Only the last phase of a call touches a `maxWritePtr`. -/
theorem Ring.advanceProducer_maxWritePtr {id : Id} (move : ring.advanceProducer id = some next)
    (going : ring.ending (.step id) = none) (other : Id) :
    (next.producers other).state.maxWritePtr = (ring.producers other).state.maxWritePtr := by
  unfold Ring.advanceProducer at move
  cases phase : (ring.producers id).phase with
  | idle =>
    rw [phase] at move
    cases move
  | load call =>
    rw [phase] at move
    cases move
    exact maxWritePtr_setProducer (by rfl) other
  | check call curIndex =>
    rw [phase] at move
    cases move
    exact maxWritePtr_setProducer (by exact maxWritePtr_canWriteUpto ..) other
  | exchange call curIndex =>
    rw [phase] at move
    simp only at move
    split_ifs at move
    · cases move
      exact maxWritePtr_setProducer (by rfl) other
    · cases move
      exact maxWritePtr_setProducer (by rfl) other
  | place call base stores pendingWptr =>
    rw [phase] at move
    cases stores with
    | nil =>
      cases move
      exact maxWritePtr_setProducer (by rfl) other
    | cons store stores =>
      cases move
      exact maxWritePtr_setProducer (by rfl) other
  | commit call base pendingWptr =>
    rw [phase] at move
    simp only at move
    split_ifs at move
    · cases move
      exact maxWritePtr_setProducer (by rfl) other
    · cases move
      rfl
  | publish call base pendingWptr | ring call base pendingWptr =>
    rw [phase] at move
    cases move
    exact maxWritePtr_setProducer (by rfl) other
  | advance call base pendingWptr =>
    simp [Ring.ending, phase] at going

/-- A step changes the `maxWritePtr` of a state object only when a call that got it ends, and then
to the index at which its packets end. -/
theorem Ring.step_maxWritePtr (move : ring.step label = some next) (caller : Id) :
    (∃ issue, ring.ending label = some (caller, issue) ∧ issue.tracked = true ∧
      (next.producers caller).state.maxWritePtr = issue.finish) ∨
    (∀ issue, ring.ending label = some (caller, issue) → issue.tracked = false) ∧
      (next.producers caller).state.maxWritePtr = (ring.producers caller).state.maxWritePtr := by
  cases label with
  | call id call | init id =>
    simp only [Ring.step] at move
    split at move
    · cases move
      exact Or.inr ⟨by simp [Ring.ending], maxWritePtr_setProducer (by rfl) caller⟩
    · cases move
  | engine dwords =>
    obtain ⟨-, ⟨⟩⟩ := Option.ite_none_right_eq_some.mp move
    exact Or.inr ⟨by simp [Ring.ending], rfl⟩
  | step id =>
    cases phase : (ring.producers id).phase with
    | advance call base pendingWptr =>
      simp only [Ring.step, Ring.advanceProducer, phase] at move
      cases move
      rcases eq_or_ne id caller with rfl | other
      · cases passed : call.submitState with
        | true =>
          refine Or.inl ⟨⟨pendingWptr, true⟩, ?_, rfl, ?_⟩
          · simp [Ring.ending, phase, passed]
          · simp [Ring.setProducer]
        | false =>
          refine Or.inr ⟨?_, maxWritePtr_setProducer (by rfl) id⟩
          simp [Ring.ending, phase, passed]
      · refine Or.inr ⟨by simp [Ring.ending, phase, other], ?_⟩
        simp only [Ring.setProducer, Function.update_of_ne other.symm]
    | _ =>
      have going : ring.ending (.step id) = none := by simp [Ring.ending, phase]
      refine Or.inr ⟨by simp [going], ?_⟩
      exact Ring.advanceProducer_maxWritePtr move going caller

theorem run_ring_issued {queueBuf : Nat → Nat} {labels : List (Label Id format)} {caller : Id}
    {called : Observed (Ring Id format) (List Issue)}
    (reaches : run (noted Ring.step Ring.ending caller) ⟨Ring.fresh queueBuf, []⟩ labels =
      some called) (bounded : called.state.totalReserved < indexRange) (passState : Bool) :
    ∀ issue ∈ called.history, (passState = true → issue.tracked = true) →
      issue.finish ≤ called.state.quietTarget caller passState := by
  refine (run_noted (fun ring => ring.totalReserved < indexRange)
    (fun ring => Invariant ring ∧ (ring.producers caller).state.maxWritePtr ≤ ring.wptr)
    Issue.finish (fun issue => passState = true → issue.tracked = true)
    (Ring.quietTarget · caller passState)
    (fun _ _ _ move bounded => (step_sound move).reserved.trans_lt bounded) ?_
    ⟨fresh_invariant queueBuf, le_refl 0⟩ reaches bounded).2
  rintro ring label next ⟨invariant, below⟩ bounded move
  have sound := step_sound move
  have forward := sound.forward invariant
  have atEnd : ∀ issue, ring.ending label = some (caller, issue) → issue.finish = ring.wptr :=
    fun issue ends => invariant.elim fun _ ⟨_, _, shows⟩ => shows.ending ends
  have recorded : (ring.producers caller).state.maxWritePtr ≤
        (next.producers caller).state.maxWritePtr ∧
      (next.producers caller).state.maxWritePtr ≤ next.wptr ∧
      ∀ issue, ring.ending label = some (caller, issue) → issue.tracked = true →
        issue.finish ≤ (next.producers caller).state.maxWritePtr := by
    rcases Ring.step_maxWritePtr move caller with ⟨issue, ends, -, same⟩ | ⟨untracked, same⟩
    · rw [same, atEnd issue ends]
      exact ⟨below, forward, fun other ends _ => (atEnd other ends).le⟩
    · rw [same]
      refine ⟨le_refl _, below.trans forward, fun issue ends tracked => ?_⟩
      rw [untracked issue ends] at tracked
      cases tracked
  refine ⟨⟨sound.kept invariant bounded, recorded.2.1⟩, ?_⟩
  cases passState with
  | false => exact ⟨forward, fun issue ends _ => (atEnd issue ends).trans_le forward⟩
  | true => exact ⟨recorded.1, fun issue ends tracked => recorded.2.2 issue ends (tracked rfl)⟩

end

/-! ### The host -/

section

variable {initialWptr : Nat} {ring next : HostRing Id format} {label : HostLabel Id format}

/-- The bytes that were claimed do not take the indices past `2 ^ 64`. -/
def HostRing.Unwrapped (initialWptr : Nat) (ring : HostRing Id format) : Prop :=
  initialWptr + ring.claimedSince 0 < indexRange

def HostRing.Still (ring : HostRing Id format) : HostLabel Id format → Prop
  | .step id _ => ∀ resume ticket pendingWptr, ring.threads id ≠ .publish resume ticket pendingWptr
  | .submit .. | .engine _ => True

theorem HostRing.Unwrapped.of_isPrefix (unwrapped : next.Unwrapped initialWptr)
    (grows : ring.claims <+: next.claims) : ring.Unwrapped initialWptr := by
  obtain ⟨more, added⟩ := grows
  refine lt_of_le_of_lt (Nat.add_le_add_left (Nat.mul_le_mul_left 4 ?_) _) unwrapped
  rw [← added, List.drop_zero, List.drop_zero, List.flatMap_append, List.length_append]
  exact Nat.le_add_right _ _

theorem HostRing.Unwrapped.timely (unwrapped : ring.Unwrapped initialWptr) : ring.Timely label := by
  cases label with
  | step id spurious =>
    intro seen _
    refine lt_of_le_of_lt (Nat.mul_le_mul_left 4 ?_) (lt_of_le_of_lt (Nat.le_add_left ..) unwrapped)
    rw [List.drop_zero]
    conv_rhs => rw [← List.take_append_drop seen ring.claims]
    rw [List.flatMap_append, List.length_append]
    exact Nat.le_add_left _ _
  | submit | engine => exact trivial

theorem HostRing.Unwrapped.indexAt_eq (unwrapped : ring.Unwrapped initialWptr)
    (aligned : 4 ∣ initialWptr) {tickets : TicketRing Nat}
    (related : Related (initialWptr / 4) ring tickets) {position : Nat}
    (inside : position ≤ tickets.total) :
    indexAt (initialWptr / 4) position = initialWptr + 4 * position := by
  have total : ring.claimedSince 0 = 4 * tickets.total := by
    rw [HostRing.claimedSince, List.drop_zero, TicketRing.total, TicketRing.stream, related.claims,
      List.flatMap_def]
  rw [HostRing.Unwrapped, total] at unwrapped
  rw [indexAt, Nat.mul_add, Nat.mul_div_cancel' aligned, Nat.mod_eq_of_lt (by omega)]

theorem Related.ending {tickets : TicketRing Nat}
    (related : Related (initialWptr / 4) ring tickets)
    (invariant : tickets.Invariant ringDwords (initialWptr / 4)) (aligned : 4 ∣ initialWptr)
    (unwrapped : ring.Unwrapped initialWptr) {id : Id} {finish : Nat}
    (ends : ring.ending label = some (id, finish)) : ring.hostCommittedWptr ≤ finish := by
  cases label with
  | step id spurious =>
    simp only [HostRing.ending] at ends
    split at ends
    case h_1 phase =>
      cases ends
      have atEnd := related.phases id
      rw [phase] at atEnd
      rw [related.committed, show finish = _ from atEnd,
        unwrapped.indexAt_eq aligned related (TicketRing.offset_le_total _),
        unwrapped.indexAt_eq aligned related (TicketRing.offset_le_total _)]
      exact Nat.add_le_add_left
        (Nat.mul_le_mul_left 4 (TicketRing.offset_mono invariant.committed)) _
    case h_2 => cases ends
  | _ => cases ends

variable [DecidableEq Id]

/-- Claims are only added, the write pointer moves with a publication, and `hostCommittedWptr`
moves to the end of a claim. -/
theorem HostRing.step_frame (move : ring.step label = some next) :
    ring.claims <+: next.claims ∧ (ring.Still label → next.queueWritePtr = ring.queueWritePtr) ∧
      next.hostCommittedWptr = ((ring.ending label).map Prod.snd).getD ring.hostCommittedWptr := by
  cases label with
  | submit id packets =>
    simp only [HostRing.step] at move
    split at move
    · cases move
      simp only [HostRing.submit]
      split <;> exact ⟨List.prefix_refl _, fun _ => rfl, rfl⟩
    · cases move
  | engine dwords =>
    obtain ⟨-, ⟨⟩⟩ := Option.ite_none_right_eq_some.mp move
    exact ⟨List.prefix_refl _, fun _ => rfl, rfl⟩
  | step id spurious =>
    have going (unfinished : ring.ending (.step id spurious) = none)
        (grows : ring.claims <+: next.claims) (kept : next.queueWritePtr = ring.queueWritePtr)
        (committed : next.hostCommittedWptr = ring.hostCommittedWptr) :
        ring.claims <+: next.claims ∧
          (ring.Still (.step id spurious) → next.queueWritePtr = ring.queueWritePtr) ∧
          next.hostCommittedWptr =
            ((ring.ending (.step id spurious)).map Prod.snd).getD ring.hostCommittedWptr := by
      refine ⟨grows, fun _ => kept, ?_⟩
      rw [unfinished]
      exact committed
    have ending : ring.ending (.step id spurious) = match ring.threads id with
      | .advance _ _ pendingWptr => some (id, pendingWptr)
      | _ => none := rfl
    simp only [HostRing.step, HostRing.advanceThread] at move
    cases phase : ring.threads id with
    | idle =>
      rw [phase] at move
      cases move
    | load batch | check batch curIndex seen | checkPadding batch curIndex seen =>
      rw [phase] at move ending
      simp only at move
      split_ifs at move <;> cases move <;> exact going ending (List.prefix_refl _) rfl rfl
    | exchange batch curIndex seen | exchangePadding batch curIndex seen =>
      rw [phase] at move ending
      simp only at move
      split_ifs at move
      · cases move
        exact going ending (List.prefix_append _ _) rfl rfl
      · cases move
        exact going ending (List.prefix_refl _) rfl rfl
    | place resume ticket base stores pendingWptr =>
      rw [phase] at move ending
      cases stores <;> cases move <;> exact going ending (List.prefix_refl _) rfl rfl
    | wait resume ticket base pendingWptr =>
      rw [phase] at move ending
      simp only at move
      split_ifs at move <;> cases move <;> exact going ending (List.prefix_refl _) rfl rfl
    | publish resume ticket pendingWptr =>
      rw [phase] at move ending
      cases move
      exact ⟨List.prefix_refl _, fun still => absurd phase (still _ _ _), by rw [ending]; rfl⟩
    | ring resume ticket pendingWptr =>
      rw [phase] at move ending
      cases move
      exact going ending (List.prefix_refl _) rfl rfl
    | advance resume ticket pendingWptr =>
      rw [phase] at move ending
      cases move
      exact ⟨List.prefix_refl _, fun _ => rfl, by rw [ending]; rfl⟩

theorem run_hostRing_issued {queueBuffer : Nat → Nat} (aligned : 4 ∣ initialWptr)
    (bounded : initialWptr < indexRange) {labels : List (HostLabel Id format)} {caller : Id}
    {called : Observed (HostRing Id format) (List Nat)}
    (reaches : run (noted HostRing.step HostRing.ending caller)
      ⟨HostRing.fresh queueBuffer initialWptr, []⟩ labels = some called)
    (unwrapped : called.state.Unwrapped initialWptr) :
    called.state.Invariant (initialWptr / 4) ∧
      ∀ finish ∈ called.history, finish ≤ called.state.hostCommittedWptr := by
  have covered := run_noted (HostRing.Unwrapped initialWptr) (HostRing.Invariant (initialWptr / 4))
    id (fun _ => True) HostRing.hostCommittedWptr
    (fun _ _ _ move unwrapped => unwrapped.of_isPrefix (HostRing.step_frame move).1) ?_
    (HostRing.fresh_invariant queueBuffer aligned bounded) reaches unwrapped
  · exact ⟨covered.1, fun finish member => covered.2 finish member trivial⟩
  · intro ring label next kept unwrapped move
    obtain ⟨grows, -, committed⟩ := HostRing.step_frame move
    have before := unwrapped.of_isPrefix grows
    refine ⟨kept.step before.timely move, ?_, fun finish ends _ => ?_⟩
    · rw [committed]
      cases ends : ring.ending label with
      | none => exact le_refl _
      | some entry =>
        obtain ⟨tickets, invariant, related⟩ := kept
        exact related.ending invariant aligned before ends
    · rw [committed, ends]
      exact le_refl finish

end

/-! ### The guarantee -/

/-- `quiet` keeps its promise: the device loop if the caller's calls recorded their ends in the
state object that it passes, the host loop if the write pointer stays at the target. -/
theorem quiet_reliable [DecidableEq Id] (caller : Id) :
    (∀ (queueBuf : Nat → Nat) (labels during : List (Label Id format))
      (called : Observed (Ring Id format) (List Issue)) (polled : Ring Id format)
      (passState : Bool),
      run (noted Ring.step Ring.ending caller) ⟨Ring.fresh queueBuf, []⟩ labels = some called →
      run Ring.step called.state during = some polled → polled.totalReserved < indexRange →
      (passState = true → ∀ issue ∈ called.history, issue.tracked = true) →
        Quiets (called.history.map Issue.finish) (called.state.quietTarget caller passState)
          polled.rptr (4 * polled.fetched.length)
          (polled.quietWaits (called.state.quietTarget caller passState))) ∧
    ∀ (queueBuffer : Nat → Nat) (initialWptr : Nat) (labels during : List (HostLabel Id format))
      (called : Observed (HostRing Id format) (List Nat)) (polled : HostRing Id format),
      4 ∣ initialWptr → initialWptr < indexRange →
      run (noted HostRing.step HostRing.ending caller)
        ⟨HostRing.fresh queueBuffer initialWptr, []⟩ labels = some called →
      run HostRing.step called.state during = some polled → polled.Unwrapped initialWptr →
      called.state.queueWritePtr = called.state.hostCommittedWptr →
      EveryStep HostRing.step HostRing.Still called.state during →
        Quiets called.history called.state.hostCommittedWptr polled.queueReadPtr
          (initialWptr + 4 * polled.fetched.length)
          (polled.quietWaits called.state.hostCommittedWptr) := by
  refine ⟨?_, ?_⟩
  · intro queueBuf labels during called polled passState reaches waiting bounded recorded
    have reserved : called.state.totalReserved ≤ polled.totalReserved :=
      run_invariant (motive := fun ring => called.state.totalReserved ≤ ring.totalReserved)
        (fun _ _ _ below move => below.trans (step_sound move).reserved) (le_refl _) waiting
    have covered := run_ring_issued reaches (reserved.trans_lt bounded) passState
    obtain ⟨final, _, _, shows⟩ := run_ring_invariant
      ((run_append_of_run (run_of_observe reaches)).trans waiting) bounded
    have read : polled.rptr = 4 * polled.fetched.length := by
      rw [shows.read, TicketRing.read, shows.fetched]
    refine ⟨fun leaves finish member => ?_, fun reached => decide_eq_false (Nat.not_lt.mpr reached)⟩
    obtain ⟨issue, issued, rfl⟩ := List.mem_map.mp member
    rw [← read]
    exact (covered issue issued fun passed => recorded passed issue issued).trans
      (Nat.not_lt.mp (of_decide_eq_false leaves))
  · intro queueBuffer initialWptr labels during called polled aligned bounded reaches waiting
      unwrapped level still
    have grows : called.state.claims <+: polled.claims :=
      run_invariant (motive := fun ring => called.state.claims <+: ring.claims)
        (fun _ _ _ below move => below.trans (HostRing.step_frame move).1) (List.prefix_refl _)
        waiting
    obtain ⟨kept, covered⟩ :=
      run_hostRing_issued aligned bounded reaches (unwrapped.of_isPrefix grows)
    obtain ⟨⟨tickets, invariant, related⟩, unmoved⟩ := run_invariant_of_everyStep
      (motive := fun ring => ring.Unwrapped initialWptr → ring.Invariant (initialWptr / 4) ∧
        ring.queueWritePtr = called.state.hostCommittedWptr)
      (fun _ _ _ kept still move unwrapped =>
        have frame := HostRing.step_frame move
        have before := unwrapped.of_isPrefix frame.1
        ⟨(kept before).1.step before.timely move, (frame.2.1 still).trans (kept before).2⟩)
      (fun _ => ⟨kept, level⟩) still waiting unwrapped
    have published : tickets.offset tickets.published ≤ tickets.total :=
      TicketRing.offset_le_total _
    have read : polled.queueReadPtr = initialWptr + 4 * tickets.read := by
      rw [related.read, unwrapped.indexAt_eq aligned related
        (invariant.readPublished.trans published)]
    refine ⟨fun leaves finish member => ?_, fun reached => ?_⟩
    · rw [← related.fetched, show tickets.fetched.length = tickets.read from rfl, ← read,
        Classical.not_not.mp (of_decide_eq_false leaves)]
      exact covered finish member
    · have behind : polled.queueReadPtr ≤ polled.queueWritePtr := by
        rw [read, related.written, unwrapped.indexAt_eq aligned related published]
        exact Nat.add_le_add_left (Nat.mul_le_mul_left 4 invariant.readPublished) _
      rw [unmoved] at behind
      exact decide_eq_false (not_not_intro (le_antisymm behind reached))

def onePacket : Packet fun _ => 2 := ⟨5, [9], by decide, by decide, by decide⟩

def oneSubmission : Submission fun _ => 2 := ⟨[onePacket], by simp, by decide⟩

def deviceCall (call : Call fun _ => 2) :
    Option (Observed (Ring Bool fun _ => 2) (List Issue)) :=
  run (noted Ring.step Ring.ending true) ⟨Ring.fresh fun _ => 0, []⟩
    (.call true call :: List.replicate 10 (.step true))

def hostSubmit (id : Bool) : List (HostLabel Bool fun _ => 2) :=
  .submit id [onePacket] :: List.replicate 10 (.step id false)

def hostCall : Option (Observed (HostRing Bool fun _ => 2) (List Nat)) :=
  run (noted HostRing.step HostRing.ending true) ⟨HostRing.fresh (fun _ => 0) 0, []⟩
    (hostSubmit true)

theorem quiet_reliable_oneCall :
    (∃ called polled, deviceCall (putSignalCounter oneSubmission true true) = some called ∧
      run Ring.step called.state [.engine 2] = some polled ∧
      Quiets (called.history.map Issue.finish) 8 polled.rptr (4 * polled.fetched.length)
        (polled.quietWaits 8)) ∧
    ∃ called polled, hostCall = some called ∧ run HostRing.step called.state [.engine 2] =
      some polled ∧ Quiets called.history 8 polled.queueReadPtr
        (0 + 4 * polled.fetched.length) (polled.quietWaits 8) := by
  have device : (deviceCall (putSignalCounter oneSubmission true true)).bind (fun called =>
      (run Ring.step called.state [.engine 2]).map fun polled => (polled.totalReserved,
        called.state.quietTarget true true, called.history.all Issue.tracked)) =
      some (8, 8, true) := by decide +kernel
  have host : hostCall.bind (fun called => (run HostRing.step called.state [.engine 2]).map
      fun polled => (polled.claimedSince 0, called.state.queueWritePtr,
        called.state.hostCommittedWptr)) = some (8, 8, 8) := by decide +kernel
  obtain ⟨called, reaches, later⟩ := Option.bind_eq_some_iff.mp device
  obtain ⟨polled, waiting, seen⟩ := Option.map_eq_some_iff.mp later
  obtain ⟨hostCalled, hostReaches, hostLater⟩ := Option.bind_eq_some_iff.mp host
  obtain ⟨hostPolled, hostWaiting, hostSeen⟩ := Option.map_eq_some_iff.mp hostLater
  simp only [Prod.mk.injEq, List.all_eq_true] at seen hostSeen
  obtain ⟨reserved, target, tracked⟩ := seen
  obtain ⟨claimed, written, committed⟩ := hostSeen
  refine ⟨⟨called, polled, reaches, waiting, ?_⟩, hostCalled, hostPolled, hostReaches, hostWaiting,
    ?_⟩
  · rw [← target]
    exact (quiet_reliable true).1 _ _ _ called polled true reaches waiting
      (reserved ▸ by decide) fun _ => tracked
  · have still : EveryStep HostRing.step HostRing.Still hostCalled.state [.engine 2] :=
      everyStep_of_forall (fun _ _ member => List.mem_singleton.mp member ▸ trivial) _
    rw [← committed]
    exact (quiet_reliable true).2 _ 0 _ _ hostCalled hostPolled (by decide) (by decide)
      hostReaches hostWaiting (by rw [HostRing.Unwrapped, claimed]; decide)
      (written.trans committed.symm) still

/-- A tile copy is not waited for at all, and the host waits on although the engine has read
past the target, since another thread submitted in between. -/
theorem quiet_unreliable : (deviceCall (putTile oneSubmission)).map (fun called =>
        (called.history.map Issue.finish, called.state.fetched,
          called.state.quietWaits (called.state.quietTarget true true))) =
      some ([8], [], false) ∧
    (hostCall.bind fun called => (run HostRing.step called.state
        (hostSubmit false ++ [.engine 4])).map fun polled =>
          (called.state.hostCommittedWptr, polled.queueReadPtr,
            polled.quietWaits called.state.hostCommittedWptr)) = some (8, 16, true) := by
  decide +kernel

end RocmXio.Sdma
