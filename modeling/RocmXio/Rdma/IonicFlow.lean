/-
Flow control of the ionic send queue.

Every wrapped counter of the queue pair is a remainder of one of three counts: completions
consumed, requests written, requests published. They differ by at most the depth of the send queue,
so the sign of a 24-bit difference is the order of the counts.
-/

import RocmXio.Rdma.Ionic

namespace RocmXio.Rdma.Ionic

open Lib

namespace Qp

/-! ### Comparing positions -/

theorem behind_iff {taken goal lag : Nat} (above : taken + lag < goal + 2 ^ 23)
    (below : goal ≤ taken + lag + 2 ^ 23) :
    behind (taken % 2 ^ 24) ((goal + 2 ^ 32 - lag) % 2 ^ 32) = true ↔ taken + lag < goal := by
  rw [behind, decide_eq_true_eq, ne_eq, and_two_pow_eq_zero_iff]
  omega

/-! ### The invariant -/

def taken (qp : Qp) : Nat :=
  qp.consumed.length

/-- What a caller waits with: the position it reserved and the position it waits for. -/
def Waiting (qp : Qp) (cons : Nat) : Caller → Prop
  | .post rma mySqProd => rma.inlineLength qp.inlineThreshold ≤ 32 ∧
      mySqProd = qp.written % 2 ^ 32 ∧ qp.sqProd = (qp.written + 1) % 2 ^ 32 ∧
      cons = (qp.written + 1 + 2 ^ 32 - qp.sqMask) % 2 ^ 32
  | .quiet => qp.sqProd = qp.written % 2 ^ 32 ∧ cons = qp.written % 2 ^ 32

def Place (qp : Qp) : Prop :=
  match qp.pc with
  | .idle => qp.sqProd = qp.written % 2 ^ 32 ∧ qp.published = qp.written
  | .outer caller cons | .inner caller cons _ _ =>
    qp.Waiting cons caller ∧ qp.published = qp.written
  | .write rma mySqProd => rma.inlineLength qp.inlineThreshold ≤ 32 ∧
      mySqProd = qp.written % 2 ^ 32 ∧ qp.sqProd = (qp.written + 1) % 2 ^ 32 ∧
      qp.published = qp.written ∧ qp.written + 1 < qp.taken + qp.sqDepth
  | .commit mySqProd => (mySqProd + 1) % 2 ^ 32 = qp.written % 2 ^ 32 ∧
      qp.sqProd = qp.written % 2 ^ 32 ∧ qp.published + 1 = qp.written
  | .quieted => qp.sqProd = qp.written % 2 ^ 32 ∧ qp.published = qp.written ∧ qp.taken = qp.written

/-- A depth of at most `2 ^ 22` that is a power of two. -/
def Sized (depth : Nat) : Prop :=
  ∃ order, order ≤ 22 ∧ depth = 2 ^ order

structure Invariant (qp : Qp) : Prop where
  sized : Sized qp.sqDepth
  cqSized : Sized qp.cqDepth
  sqDbprod : qp.sqDbprod = qp.published % 2 ^ 32
  sqMsn : qp.sqMsn = qp.taken % 2 ^ 24
  cqPos : qp.cqPos = qp.taken % 2 ^ 32
  published_le : qp.published ≤ qp.written
  done_le : qp.done ≤ qp.published
  taken_le : qp.taken ≤ qp.done
  room : qp.written < qp.taken + qp.sqDepth
  once : qp.consumed = List.range qp.taken
  forward : qp.rung = (List.range qp.published).map fun number => (number + 1) % 2 ^ 32
  completions : CompletionRing qp.cqDepth qp.taken qp.done
    (fun index cqe => cqe.color = passTag qp.cqDepth index) (completion qp.cqDepth) qp.cq
  intact : Holds qp.sqDepth 1 qp.done qp.written (some ∘ request qp.sqDepth) qp.slots
  place : qp.Place

section

variable {depth : Nat}

theorem Sized.positive (sized : Sized depth) : 0 < depth := by
  obtain ⟨order, -, rfl⟩ := sized
  exact Nat.two_pow_pos order

theorem Sized.le (sized : Sized depth) : depth ≤ 2 ^ 22 := by
  obtain ⟨order, small, rfl⟩ := sized
  exact Nat.pow_le_pow_right (by decide) small

theorem Sized.masks (sized : Sized depth) (count : Nat) :
    count % 2 ^ 32 &&& (depth - 1) = count % depth ∧
      decide (count % 2 ^ 32 &&& (depth - 1 + 1) = 0) = passTag depth count := by
  have whole : depth - 1 + 1 = depth := Nat.sub_add_cancel sized.positive
  obtain ⟨order, small, rfl⟩ := sized
  have divides : 2 * 2 ^ order ∣ 2 ^ 32 := by
    rw [← pow_succ']
    exact Nat.pow_dvd_pow 2 (by omega)
  obtain ⟨slot, tag⟩ := passTag_mod (Or.inr divides : count < 2 ^ 32 ∨ _)
  rw [whole, Nat.and_two_pow_sub_one_eq_mod, and_two_pow_eq_passTag]
  exact ⟨slot, tag⟩

end

theorem create_invariant {sqDepth cqDepth : Nat} {inlineThreshold : BitVec 32}
    (sized : Sized sqDepth) (cqSized : Sized cqDepth) :
    (create sqDepth cqDepth inlineThreshold).Invariant where
  sized := sized
  cqSized := cqSized
  sqDbprod := rfl
  sqMsn := rfl
  cqPos := rfl
  published_le := le_refl 0
  done_le := le_refl 0
  taken_le := le_refl 0
  room := by
    show 0 < 0 + sqDepth
    rw [Nat.zero_add]
    exact sized.positive
  once := rfl
  forward := rfl
  completions := completionRing_empty _ fun index _ below => by
    rw [passTag_of_lt (Nat.lt_of_lt_of_eq below (Nat.zero_add _))]
    exact Bool.false_ne_true
  intact := holds_empty _ _ _ _ _
  place := ⟨rfl, rfl⟩

section

variable {qp next : Qp}

theorem Invariant.fresh_iff (invariant : qp.Invariant) :
    qp.currentCqe.color = decide (qp.cqPos &&& (qp.cqMask + 1) = 0) ↔ qp.taken < qp.done := by
  obtain ⟨slot, tag⟩ := invariant.cqSized.masks qp.taken
  rw [currentCqe, cqMask, invariant.cqPos, slot, tag]
  exact invariant.completions.fresh_iff invariant.cqSized.positive (le_refl _) invariant.taken_le
    rfl

theorem Invariant.currentCqe_eq (invariant : qp.Invariant) (available : qp.taken < qp.done) :
    qp.currentCqe = completion qp.cqDepth qp.taken := by
  obtain ⟨slot, -⟩ := invariant.cqSized.masks qp.taken
  rw [currentCqe, cqMask, invariant.cqPos, slot]
  exact invariant.completions.holds.read (le_refl _) available

/-- Consuming changes the position, the log and the count of messages, and perhaps the
doorbell of the completion queue. -/
theorem consume_eq (qp : Qp) : ∃ cqDbpos cqDbreg, qp.consume =
    { qp with
      cqPos := (qp.cqPos + 1) % 2 ^ 32
      consumed := qp.consumed ++ [qp.currentCqe.number]
      sqMsn := qp.currentCqe.msn
      cqDbpos := cqDbpos
      cqDbreg := cqDbreg } := by
  unfold consume ringCqDoorbell
  dsimp only
  split_ifs
  · exact ⟨_, _, rfl⟩
  · exact ⟨qp.cqDbpos, qp.cqDbreg, rfl⟩

variable {caller : Caller} {cons innerCount greed : Nat}

theorem Invariant.pollWaveCqes (invariant : qp.Invariant)
    (waiting : qp.pc = .inner caller cons innerCount greed) :
    qp.pollWaveCqes.Invariant ∧ qp.pollWaveCqes.pc = qp.pc := by
  have place := invariant.place
  simp only [Place, waiting] at place
  unfold Qp.pollWaveCqes
  split_ifs
  case neg => exact ⟨invariant, rfl⟩
  case pos fresh =>
    have available := invariant.fresh_iff.mp fresh
    obtain ⟨cqDbpos, cqDbreg, consumed⟩ := qp.consume_eq
    rw [invariant.currentCqe_eq available] at consumed
    rw [consumed]
    have one : (qp.consumed ++ [(completion qp.cqDepth qp.taken).number]).length = qp.taken + 1 :=
      List.length_append
    refine ⟨{ invariant with
      sqMsn := ?_, cqPos := ?_, taken_le := ?_, room := ?_, once := ?_, completions := ?_,
      place := ?_ }, rfl⟩
    · show (qp.taken + 1) % 2 ^ 24 = (qp.consumed ++ _).length % 2 ^ 24
      rw [one]
    · show (qp.cqPos + 1) % 2 ^ 32 = (qp.consumed ++ _).length % 2 ^ 32
      rw [one, invariant.cqPos, Nat.mod_add_mod]
    · show (qp.consumed ++ _).length ≤ qp.done
      rw [one]
      exact available
    · show qp.written < (qp.consumed ++ _).length + qp.sqDepth
      rw [one]
      exact Nat.lt_of_lt_of_le invariant.room (Nat.add_le_add_right (Nat.le_succ _) _)
    · show qp.consumed ++ [qp.taken] = List.range (qp.consumed ++ _).length
      rw [one, List.range_succ, ← invariant.once]
    · show CompletionRing _ (qp.consumed ++ _).length _ _ _ _
      rw [one]
      exact invariant.completions.release (Nat.le_succ _)
    · simp only [Place, waiting]
      cases caller <;> exact place

def Granted (qp : Qp) : Caller → Prop
  | .post _ _ => qp.written + 1 < qp.taken + qp.sqDepth
  | .quiet => qp.taken = qp.written

section

variable (invariant : qp.Invariant)
include invariant

theorem Invariant.granted (waiting : qp.Waiting cons caller)
    (reached : behind qp.sqMsn cons = false) :
    qp.Granted caller := by
  have room := invariant.room
  have bound := invariant.sized.le
  have ordered : qp.taken ≤ qp.written :=
    Nat.le_trans invariant.taken_le (Nat.le_trans invariant.done_le invariant.published_le)
  rw [invariant.sqMsn, ← Bool.not_eq_true] at reached
  cases caller with
  | post rma mySqProd =>
    obtain ⟨-, -, -, rfl⟩ := waiting
    rw [Qp.behind_iff (by rw [sqMask]; omega) (by rw [sqMask]; omega), sqMask] at reached
    show qp.written + 1 < qp.taken + qp.sqDepth
    omega
  | quiet =>
    obtain ⟨-, rfl⟩ := waiting
    have plain : qp.written % 2 ^ 32 = (qp.written + 2 ^ 32 - 0) % 2 ^ 32 := by omega
    rw [plain, Qp.behind_iff (by omega) (by omega)] at reached
    show qp.taken = qp.written
    omega

theorem Invariant.proceed (waiting : qp.Waiting cons caller) (published : qp.published = qp.written)
    (reached : behind qp.sqMsn cons = false) :
    (qp.proceed caller).Invariant := by
  have granted := invariant.granted waiting reached
  cases caller with
  | post rma mySqProd =>
    obtain ⟨fits, position, sqProd, -⟩ := waiting
    exact { invariant with place := ⟨fits, position, sqProd, published, granted⟩ }
  | quiet => exact { invariant with place := ⟨waiting.1, published, granted⟩ }

theorem Invariant.wait (waiting : qp.Waiting cons caller) (published : qp.published = qp.written) :
    Invariant { qp with pc := .inner caller cons innerCount greed } := by
  cases caller <;> exact { invariant with place := ⟨waiting, published⟩ }

theorem Invariant.outerTurn (outer : qp.pc = .outer caller cons) (running : qp.stopFlag = false) :
    (qp.outerTurn caller cons).Invariant := by
  have place := invariant.place
  simp only [Place, outer] at place
  unfold Qp.outerTurn
  split_ifs with reached stopped
  · exact invariant.proceed place.1 place.2 reached
  · exact absurd (running.symm.trans stopped) Bool.false_ne_true
  · exact invariant.wait place.1 place.2

theorem Invariant.innerEnd (waiting : qp.Waiting cons caller)
    (published : qp.published = qp.written) (oldSqMsn : Nat) :
    (qp.innerEnd oldSqMsn caller cons innerCount greed).Invariant := by
  unfold Qp.innerEnd
  split_ifs with reached
  · exact invariant.proceed waiting published reached
  · exact invariant.proceed waiting published reached
  · exact invariant.wait waiting published
  · exact invariant.wait waiting published

theorem Invariant.innerTurn (inner : qp.pc = .inner caller cons innerCount greed)
    (running : ¬ (innerCount % 100 = 0 ∧ qp.stopFlag = true)) :
    (qp.innerTurn caller cons innerCount greed).Invariant := by
  have place := invariant.place
  simp only [Place, inner] at place
  unfold Qp.innerTurn
  split_ifs with reached
  · exact invariant.proceed place.1 place.2 reached
  · obtain ⟨polled, same⟩ := invariant.pollWaveCqes inner
    have later := polled.place
    simp only [Place, same, inner] at later
    exact polled.innerEnd later.1 later.2 _

theorem Invariant.reserveSqSingle {rma : Rma} (fits : rma.inlineLength qp.inlineThreshold ≤ 32)
    (sqProd : qp.sqProd = qp.written % 2 ^ 32) (published : qp.published = qp.written) :
    (qp.reserveSqSingle rma).Invariant := by
  have bound := invariant.sized.le
  have next : (qp.sqProd + 1) % 2 ^ 32 = (qp.written + 1) % 2 ^ 32 := by
    rw [sqProd, Nat.mod_add_mod]
  have goal : (qp.sqProd + 1 + 2 ^ 32 - qp.sqMask) % 2 ^ 32 =
      (qp.written + 1 + 2 ^ 32 - qp.sqMask) % 2 ^ 32 := by
    rw [sqProd, sqMask]
    omega
  exact { invariant with place := ⟨⟨fits, sqProd, next, goal⟩, published⟩ }

end

variable {rma : Rma} {mySqProd : Nat}

section

variable (invariant : qp.Invariant)
include invariant

theorem Invariant.writeWqe (writing : qp.pc = .write rma mySqProd) :
    (qp.writeWqe rma mySqProd).Invariant := by
  have place := invariant.place
  simp only [Place, writing] at place
  obtain ⟨fits, position, sqProd, published, room⟩ := place
  have taken := invariant.taken_le
  have touched : qp.touched rma (mySqProd &&& qp.sqMask) = [mySqProd &&& qp.sqMask] := by
    rw [Qp.touched, show (rma.inlineLength qp.inlineThreshold + 31) / 64 = 0 by omega]
    rfl
  obtain ⟨slot, color⟩ := invariant.sized.masks qp.written
  refine { invariant with
    published_le := Nat.le_succ_of_le invariant.published_le, room := room, intact := ?_,
    place := ⟨?_, sqProd, congrArg (· + 1) published⟩ }
  · show Holds _ 1 qp.done (qp.written + 1) _ (store qp.slots
      (qp.touched rma (mySqProd &&& qp.sqMask))
      (some ⟨qp.written, mySqProd, decide (mySqProd &&& (qp.sqMask + 1) = 0)⟩))
    rw [touched, sqMask, position, slot, color]
    exact invariant.intact.push (by omega)
  · show (mySqProd + 1) % 2 ^ 32 = (qp.written + 1) % 2 ^ 32
    rw [position, Nat.mod_add_mod]

theorem Invariant.commitSqSingle (committing : qp.pc = .commit mySqProd) :
    (qp.commitSqSingle mySqProd).Invariant := by
  have place := invariant.place
  simp only [Place, committing] at place
  obtain ⟨position, sqProd, published⟩ := place
  have step : (qp.sqDbprod + 2 ^ 32 - (mySqProd + 1) % 2 ^ 32) % 2 ^ 32 = 2 ^ 32 - 1 := by
    rw [position, invariant.sqDbprod, ← published]
    omega
  have forward : (qp.sqDbprod + 2 ^ 32 - (mySqProd + 1) % 2 ^ 32) % 2 ^ 32 &&& 2 ^ 31 ≠ 0 := by
    rw [step]
    decide
  rw [Qp.commitSqSingle, if_pos forward]
  refine { invariant with
    sqDbprod := position, published_le := le_refl _,
    done_le := Nat.le_trans invariant.done_le invariant.published_le, forward := ?_,
    place := ⟨sqProd, rfl⟩ }
  rw [position, ← published, List.range_succ, List.map_append, invariant.forward]
  rfl

theorem Invariant.complete (more : qp.done < qp.published)
    (slot : qp.done < qp.taken + qp.cqDepth) :
    qp.complete.Invariant :=
  { invariant with
    done_le := more
    taken_le := Nat.le_succ_of_le invariant.taken_le
    completions := invariant.completions.push slot (passTag_ne invariant.cqSized.positive _)
    intact := invariant.intact.drop (Nat.le_succ _) }

theorem Invariant.ready (ready : qp.ready = true) :
    qp.sqProd = qp.written % 2 ^ 32 ∧ qp.published = qp.written := by
  have place := invariant.place
  cases there : qp.pc <;> simp only [Qp.ready, there, Place] at ready place
  case idle => exact place
  case quieted => exact ⟨place.1, place.2.1⟩
  all_goals exact absurd ready Bool.false_ne_true

end

variable {label : Label}

theorem Invariant.step (invariant : qp.Invariant) (careful : qp.Careful label)
    (move : qp.step label = some next) : next.Invariant := by
  cases label with
  | post rma =>
    obtain ⟨ready, ⟨⟩⟩ := Option.ite_none_right_eq_some.mp move
    obtain ⟨sqProd, published⟩ := invariant.ready ready
    exact invariant.reserveSqSingle careful sqProd published
  | quiet =>
    obtain ⟨ready, ⟨⟩⟩ := Option.ite_none_right_eq_some.mp move
    obtain ⟨sqProd, published⟩ := invariant.ready ready
    exact { invariant with place := ⟨⟨sqProd, sqProd⟩, published⟩ }
  | lane =>
    cases place : qp.pc <;> simp only [Qp.step, Careful, place] at move careful
    case outer =>
      cases move
      exact invariant.outerTurn place careful
    case inner =>
      cases move
      exact invariant.innerTurn place careful
    case write =>
      cases move
      exact invariant.writeWqe place
    case commit =>
      cases move
      exact invariant.commitSqSingle place
    all_goals cases move
  | nic =>
    obtain ⟨more, ⟨⟩⟩ := Option.ite_none_right_eq_some.mp move
    exact invariant.complete more careful
  | stop =>
    cases move
    exact { invariant with place := invariant.place }

theorem Invariant.flowControlled (invariant : qp.Invariant) : qp.FlowControlled where
  __ := invariant
  once := ⟨invariant.once, invariant.taken_le⟩
  quiet := fun quieted => by
    have place := invariant.place
    simp only [Place, quieted] at place
    have taken := invariant.taken_le
    have done := invariant.done_le
    omega

/-! ### What a step leaves alone -/

structure SameSetup (qp next : Qp) : Prop where
  sqDepth : next.sqDepth = qp.sqDepth
  cqDepth : next.cqDepth = qp.cqDepth
  inlineThreshold : next.inlineThreshold = qp.inlineThreshold
  stopFlag : next.stopFlag = qp.stopFlag

section

variable (qp : Qp) (caller : Caller) (cons innerCount greed : Nat)

theorem sameSetup_proceed : SameSetup qp (qp.proceed caller) := by
  cases caller <;> exact ⟨rfl, rfl, rfl, rfl⟩

theorem sameSetup_pollWaveCqes : SameSetup qp qp.pollWaveCqes := by
  unfold pollWaveCqes
  split_ifs
  · obtain ⟨cqDbpos, cqDbreg, consumed⟩ := qp.consume_eq
    rw [consumed]
    exact ⟨rfl, rfl, rfl, rfl⟩
  · exact ⟨rfl, rfl, rfl, rfl⟩

theorem sameSetup_outerTurn : SameSetup qp (qp.outerTurn caller cons) := by
  unfold outerTurn
  split_ifs
  · exact qp.sameSetup_proceed caller
  · exact qp.sameSetup_proceed caller
  · exact ⟨rfl, rfl, rfl, rfl⟩

theorem sameSetup_innerEnd (oldSqMsn : Nat) :
    SameSetup qp (qp.innerEnd oldSqMsn caller cons innerCount greed) := by
  unfold innerEnd
  split_ifs
  · exact qp.sameSetup_proceed caller
  · exact qp.sameSetup_proceed caller
  · exact ⟨rfl, rfl, rfl, rfl⟩
  · exact ⟨rfl, rfl, rfl, rfl⟩

theorem sameSetup_innerTurn : SameSetup qp (qp.innerTurn caller cons innerCount greed) := by
  unfold innerTurn
  split_ifs
  · exact qp.sameSetup_proceed caller
  · exact qp.sameSetup_proceed caller
  · obtain ⟨sqDepth, cqDepth, inlineThreshold, stopFlag⟩ := qp.sameSetup_pollWaveCqes
    have ended := qp.pollWaveCqes.sameSetup_innerEnd caller cons ((innerCount + 1) % 2 ^ 32) greed
      qp.sqMsn
    exact ⟨ended.sqDepth.trans sqDepth, ended.cqDepth.trans cqDepth,
      ended.inlineThreshold.trans inlineThreshold, ended.stopFlag.trans stopFlag⟩

theorem sameSetup_commitSqSingle (mySqProd : Nat) : SameSetup qp (qp.commitSqSingle mySqProd) := by
  unfold commitSqSingle
  dsimp only
  split_ifs <;> exact ⟨rfl, rfl, rfl, rfl⟩

end

theorem sameSetup_step (other : label ≠ .stop) (move : qp.step label = some next) :
    SameSetup qp next := by
  cases label with
  | post | quiet | nic =>
    obtain ⟨-, ⟨⟩⟩ := Option.ite_none_right_eq_some.mp move
    exact ⟨rfl, rfl, rfl, rfl⟩
  | lane =>
    cases place : qp.pc <;> simp only [Qp.step, place] at move
    case outer =>
      cases move
      exact qp.sameSetup_outerTurn _ _
    case inner =>
      cases move
      exact qp.sameSetup_innerTurn _ _ _ _
    case write =>
      cases move
      exact ⟨rfl, rfl, rfl, rfl⟩
    case commit =>
      cases move
      exact qp.sameSetup_commitSqSingle _
    all_goals cases move
  | stop => exact absurd rfl other

/-- With a completion queue at least as deep as the send queue every step is careful, as long as
nobody asks to stop and inline data fits. -/
theorem Invariant.careful (invariant : qp.Invariant) (deep : qp.sqDepth ≤ qp.cqDepth)
    (running : qp.stopFlag = false)
    (fits : ∀ rma, label = .post rma → rma.inlineLength qp.inlineThreshold ≤ 32) :
    qp.Careful label := by
  cases label with
  | lane =>
    cases place : qp.pc <;> simp only [Careful, place]
    case outer => exact running
    case inner => exact fun stopped => Bool.false_ne_true (running.symm.trans stopped.2)
  | nic =>
    have done := invariant.done_le
    have published := invariant.published_le
    have room := invariant.room
    show qp.done < qp.taken + qp.cqDepth
    omega
  | post rma => exact fits rma rfl
  | quiet | stop => exact trivial

end

/-! ### Runs -/

/-- Nobody asks to stop, and inline data fits its request. -/
def Plain (inlineThreshold : BitVec 32) : Label → Prop
  | .post rma => rma.inlineLength inlineThreshold ≤ 32
  | .stop => False
  | .quiet | .lane | .nic => True

/-- Without a stop request, with inline data that fits, and with a completion queue at least as deep
as the send queue, the queue is flow controlled whatever the hardware's pace. -/
theorem ionic_deep_flow_controlled {order cqOrder : Nat} {inlineThreshold : BitVec 32}
    (small : cqOrder ≤ 22) (deep : order ≤ cqOrder) {labels : List Label} {qp : Qp}
    (reaches : run step (create (2 ^ order) (2 ^ cqOrder) inlineThreshold) labels = some qp)
    (plain : ∀ label ∈ labels, Plain inlineThreshold label) : qp.FlowControlled := by
  have kept : qp.Invariant ∧ SameSetup (create (2 ^ order) (2 ^ cqOrder) inlineThreshold) qp :=
    run_invariant_of_everyStep (motive := fun qp => qp.Invariant ∧ SameSetup _ qp)
      (fun qp label next held plain move => by
        obtain ⟨invariant, sqDepth, cqDepth, threshold, running⟩ := held
        have same := sameSetup_step (fun stops => by rw [stops] at plain; exact plain) move
        have wide : qp.sqDepth ≤ qp.cqDepth := by
          rw [sqDepth, cqDepth]
          exact Nat.pow_le_pow_right (by decide) deep
        have fits : ∀ rma, label = .post rma → rma.inlineLength qp.inlineThreshold ≤ 32 := by
          rintro rma rfl
          rw [threshold]
          exact plain
        exact ⟨invariant.step (invariant.careful wide running fits) move,
          same.sqDepth.trans sqDepth, same.cqDepth.trans cqDepth,
          same.inlineThreshold.trans threshold, same.stopFlag.trans running⟩)
      ⟨create_invariant ⟨order, Nat.le_trans deep small, rfl⟩ ⟨cqOrder, small, rfl⟩,
        rfl, rfl, rfl, rfl⟩
      (show EveryStep step (fun _ => Plain inlineThreshold) _ labels from
        everyStep_of_forall (fun _ => plain) _) reaches
  exact kept.1.flowControlled

/-- In every run of careful steps no request is overwritten before it is completed and each has the
color of its pass, the doorbell only moves forward, each completion is consumed once, and a quiet
waits for all requests, across every wrap of the counters. -/
theorem ionic_flow_controlled (order cqOrder : Nat) (small : order ≤ 22) (cqSmall : cqOrder ≤ 22)
    (inlineThreshold : BitVec 32) (labels : List Label) (qp : Qp)
    (reaches : run step (create (2 ^ order) (2 ^ cqOrder) inlineThreshold) labels = some qp)
    (careful :
      EveryStep step Careful (create (2 ^ order) (2 ^ cqOrder) inlineThreshold) labels) :
    qp.FlowControlled :=
  (run_invariant_of_everyStep (fun _ _ _ invariant careful move => invariant.step careful move)
    (create_invariant ⟨order, small, rfl⟩ ⟨cqOrder, cqSmall, rfl⟩) careful
    reaches).flowControlled

/-- A put of some bytes from a buffer, up to its doorbell. -/
def onePost (size : BitVec 32) : List Label :=
  [.post ⟨size, true, true⟩, .lane, .lane, .lane]

def postQuiet : List Label :=
  onePost 8 ++ [.nic, .quiet, .lane, .lane, .lane]

theorem ionic_flow_controlled_postQuiet :
    ∃ qp, run step (create (2 ^ 3) (2 ^ 1) 28) postQuiet = some qp ∧ qp.pc = .quieted ∧
      qp.FlowControlled := by
  have returns : (run step (create (2 ^ 3) (2 ^ 1) 28) postQuiet).any
      (fun qp => qp.pc == .quieted) = true := by decide +kernel
  obtain ⟨qp, reaches, quieted⟩ := (Option.any_eq_true _ _).mp returns
  exact ⟨qp, reaches, eq_of_beq quieted, ionic_flow_controlled 3 1 (by decide) (by decide) 28
    postQuiet qp reaches (by decide +kernel)⟩

theorem ionic_deep_flow_controlled_onePost :
    ∃ qp, run step (create (2 ^ 3) (2 ^ 3) 28) (onePost 8) = some qp ∧ qp.FlowControlled := by
  have returns : (run step (create (2 ^ 3) (2 ^ 3) 28) (onePost 8)).isSome := by decide +kernel
  obtain ⟨qp, reaches⟩ := Option.isSome_iff_exists.mp returns
  exact ⟨qp, reaches, ionic_deep_flow_controlled (by decide) (le_refl 3) reaches (by
    rw [onePost, List.forall_mem_cons]
    exact ⟨show Rma.inlineLength _ _ ≤ 32 by decide, by simp [Plain]⟩)⟩

/-- Five posts are completed before the lane looks, twice around two entries. -/
def lapped : List Label :=
  onePost 8 ++ onePost 8 ++ onePost 8 ++ onePost 8 ++ onePost 8 ++
    [.nic, .nic, .nic, .nic, .nic, .quiet, .lane, .lane]

/-- Five puts of 200 bytes in four slots, two of them completed: the last one starts in the first
slot. -/
def overrun : List Label :=
  onePost 200 ++ onePost 200 ++ onePost 200 ++ [.nic, .nic] ++
    onePost 200 ++ [.lane, .lane] ++ onePost 200 ++ [.lane, .lane]

/-- Under a stop request a quiet returns with a request outstanding. Hardware that goes twice around
a completion queue of two entries makes the lane consume the fifth completion first. And inline data
of 200 bytes runs over a request that is not completed. -/
theorem ionic_stopped_lapped_or_overrun :
    (∃ labels qp, run step (create (2 ^ 3) (2 ^ 3) 28) labels = some qp ∧ ¬ qp.FlowControlled) ∧
    (∃ labels qp, run step (create (2 ^ 3) (2 ^ 1) 28) labels = some qp ∧ qp.stopFlag = false ∧
      ¬ qp.FlowControlled) ∧
    ∃ labels qp, run step (create (2 ^ 2) (2 ^ 2) 256) labels = some qp ∧ qp.stopFlag = false ∧
      ¬ qp.FlowControlled := by
  have stopped : (run step (create (2 ^ 3) (2 ^ 3) 28) (onePost 8 ++ [.stop, .quiet, .lane])).any
      (fun qp => decide (qp.pc = .quieted ∧ qp.done ≠ qp.written)) = true := by decide +kernel
  have skipped : (run step (create (2 ^ 3) (2 ^ 1) 28) lapped).any
      (fun qp => decide (qp.stopFlag = false ∧ qp.consumed = [4])) = true := by decide +kernel
  have overwritten : (run step (create (2 ^ 2) (2 ^ 2) 256) overrun).any
      (fun qp => decide (qp.stopFlag = false ∧ qp.done = 2 ∧ 2 < qp.written ∧
        qp.slots (2 % qp.sqDepth) ≠ some (request qp.sqDepth 2))) = true := by decide +kernel
  obtain ⟨early, stops, returned⟩ := (Option.any_eq_true _ _).mp stopped
  obtain ⟨late, laps, consumed⟩ := (Option.any_eq_true _ _).mp skipped
  obtain ⟨last, overruns, lost⟩ := (Option.any_eq_true _ _).mp overwritten
  rw [decide_eq_true_eq] at returned consumed lost
  obtain ⟨running, done, written, lost⟩ := lost
  refine ⟨⟨_, early, stops, fun controlled => returned.2 (controlled.quiet returned.1)⟩,
    ⟨_, late, laps, consumed.1, fun controlled => ?_⟩, ⟨_, last, overruns, running,
    fun controlled => lost (controlled.intact.read (Nat.le_of_eq done) written)⟩⟩
  have once := controlled.once.1
  rw [consumed.2] at once
  exact absurd once (by decide)

end Qp

end RocmXio.Rdma.Ionic
