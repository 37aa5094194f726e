/-
The completion queue of the bnxt provider.

Here the hardware writes completions whether or not the lane has passed over the one in their place.
`poll_cq_until` looks at the completion queue only when the send queue is short of slots, so up to a
third of its slots can be completed before it looks. The completion queue is never overrun exactly
when it has an entry for each request that the send queue has room for; the default configuration
has 256 entries for 682 requests.

The proof follows the machine with the hardware of the flow control beside it, whose completions are
given back at once.
-/

import RocmXio.Rdma.BnxtFlow
import RocmXio.Rdma.Config
import RocmXio.Lib.Reaches

namespace RocmXio.Rdma.Bnxt

open Lib

namespace Qp

/-- The number of completions that are written and that `poll_cq_until` has not passed over. -/
def unpolled (qp : Qp) : Nat :=
  qp.done - qp.taken

/-- One step of the system with hardware that does not look for room in the completion queue. -/
def stepFree (qp : Qp) : Label → Option Qp
  | .nic => if qp.done < qp.published then some qp.complete else none
  | label => qp.step label

/-! ### Completions given back at once -/

/-- The queue pair with its completions given back up to the last taken. -/
def levelled (qp : Qp) : Qp :=
  { qp with acked := qp.taken }

section

variable {qp next : Qp} {label : Label}

theorem Invariant.levelled (invariant : qp.Invariant False) : qp.levelled.Invariant False :=
  { invariant with
    acked_le := le_refl _
    completions := invariant.completions.release invariant.acked_le
    place := invariant.place }

variable (caller : Caller)

theorem pollTurn_levelled (cqCons pollCount : Nat) (cqDirty : Bool) :
    qp.levelled.pollTurn caller cqCons pollCount cqDirty =
      { qp.pollTurn caller cqCons pollCount cqDirty with acked := qp.taken } := by
  have asked : qp.levelled.requested caller = qp.requested caller := by
    cases caller <;> rfl
  simp only [pollTurn, asked, show qp.levelled.available = qp.available from rfl,
    show qp.levelled.stopFlag = qp.stopFlag from rfl, show qp.levelled.cq = qp.cq from rfl,
    show qp.levelled.cqDepth = qp.cqDepth from rfl]
  cases caller <;> split_ifs <;> rfl

theorem pollTurn_depths (cqCons pollCount : Nat) (cqDirty : Bool) :
    (qp.pollTurn caller cqCons pollCount cqDirty).depth = qp.depth ∧
      (qp.pollTurn caller cqCons pollCount cqDirty).cqDepth = qp.cqDepth := by
  unfold pollTurn
  cases caller <;> split_ifs <;> exact ⟨rfl, rfl⟩

theorem step_levelled (notNic : label ≠ .nic) (move : qp.step label = some next) :
    ∃ other, qp.levelled.step label = some other ∧ other.levelled = next.levelled := by
  cases label with
  | call | quiet | doorbell =>
    obtain ⟨ready, ⟨⟩⟩ := Option.ite_none_right_eq_some.mp move
    exact ⟨_, if_pos ready, rfl⟩
  | lane =>
    cases place : qp.pc <;> simp only [step, lane, place] at move
    case poll caller cqCons pollCount cqDirty =>
      cases move
      refine ⟨qp.levelled.pollTurn caller cqCons pollCount cqDirty, ?_, ?_⟩
      · simp only [step, lane, show qp.levelled.pc = qp.pc from rfl, place]
      · rw [pollTurn_levelled]
        rfl
    case write op =>
      cases move
      refine ⟨qp.levelled.writeWqe op, ?_, rfl⟩
      simp only [step, lane, show qp.levelled.pc = qp.pc from rfl, place]
    case ring op =>
      cases move
      refine ⟨qp.levelled.finish op, ?_, by cases op <;> rfl⟩
      simp only [step, lane, show qp.levelled.pc = qp.pc from rfl, place]
    all_goals cases move
  | nic => exact absurd rfl notNic
  | stop =>
    cases move
    exact ⟨_, rfl, rfl⟩

theorem stepFree_depths (move : qp.stepFree label = some next) :
    next.depth = qp.depth ∧ next.cqDepth = qp.cqDepth := by
  cases label with
  | call | quiet | doorbell | nic =>
    obtain ⟨-, ⟨⟩⟩ := Option.ite_none_right_eq_some.mp move
    exact ⟨rfl, rfl⟩
  | lane =>
    cases place : qp.pc <;> simp only [stepFree, step, lane, place] at move
    case poll =>
      cases move
      exact pollTurn_depths _ _ _ _
    case write =>
      cases move
      exact ⟨rfl, rfl⟩
    case ring op =>
      cases move
      cases op <;> exact ⟨rfl, rfl⟩
    all_goals cases move
  | stop =>
    cases move
    exact ⟨rfl, rfl⟩

/-! ### An entry for each request -/

structure Controlled (qp : Qp) : Prop where
  levelled : qp.levelled.Invariant False

theorem Controlled.step (controlled : qp.Controlled) (steady : qp.Steady label)
    (notNic : label ≠ .nic) (move : qp.step label = some next) : next.Controlled := by
  obtain ⟨other, answer, same⟩ := step_levelled notNic move
  have steady : qp.levelled.Steady label := steady
  exact ⟨same ▸ (controlled.levelled.step steady False.elim answer).levelled⟩

theorem Controlled.posted_le (controlled : qp.Controlled)
    (enough : qp.depth / slotCount ≤ qp.cqDepth) : qp.posted ≤ qp.taken + qp.cqDepth := by
  have room : slotCount * qp.posted ≤ slotCount * qp.taken + qp.depth := controlled.levelled.room
  simp only [slotCount] at room enough
  omega

theorem Controlled.unpolled_le (controlled : qp.Controlled)
    (enough : qp.depth / slotCount ≤ qp.cqDepth) : qp.unpolled ≤ qp.cqDepth := by
  have posted := controlled.posted_le enough
  have completed : qp.done ≤ qp.posted :=
    Nat.le_trans controlled.levelled.done_le controlled.levelled.published_le
  exact Nat.sub_le_iff_le_add'.mpr (Nat.le_trans completed posted)

theorem Controlled.complete (controlled : qp.Controlled)
    (enough : qp.depth / slotCount ≤ qp.cqDepth) (more : qp.done < qp.published) :
    qp.complete.Controlled := by
  have posted := controlled.posted_le enough
  have published : qp.published ≤ qp.posted := controlled.levelled.published_le
  exact ⟨controlled.levelled.complete more
    (Nat.lt_of_lt_of_le more (Nat.le_trans published posted))⟩

/-- The flow control holds, and there is an entry for each request. -/
structure Provided (qp : Qp) : Prop where
  controlled : qp.Controlled
  enough : qp.depth / slotCount ≤ qp.cqDepth

theorem Provided.stepFree (provided : qp.Provided) (steady : qp.Steady label)
    (move : qp.stepFree label = some next) : next.Provided := by
  obtain ⟨holds, enough⟩ := provided
  obtain ⟨sameDepth, sameCqDepth⟩ := stepFree_depths move
  refine ⟨?_, by rw [sameDepth, sameCqDepth]; exact enough⟩
  cases label with
  | nic =>
    obtain ⟨more, ⟨⟩⟩ := Option.ite_none_right_eq_some.mp move
    exact holds.complete enough more
  | call | quiet | doorbell | lane | stop => exact holds.step steady (by simp) move

end

/-! ### Too few entries -/

/-- After `count` requests, none of them completed. -/
structure Piled (qp : Qp) (count : Nat) : Prop where
  controlled : qp.Controlled
  running : qp.stopFlag = false
  idle : qp.pc = .idle
  posted : qp.posted = count
  done : qp.done = 0
  taken : qp.taken = 0

section

variable {qp : Qp} {count : Nat}

theorem Piled.more (piled : qp.Piled count) (room : slotCount * (count + 1) ≤ qp.depth) :
    ∃ next : Qp, Reaches stepFree Steady qp next ∧ next.Piled (count + 1) ∧
      next.depth = qp.depth ∧ next.cqDepth = qp.cqDepth := by
  have outstanding : slotCount * (qp.posted - qp.taken) = slotCount * count := by
    rw [piled.posted, piled.taken, Nat.sub_zero]
  rw [Nat.mul_succ, slotCount] at room
  have notFull : slotCount * (qp.posted - qp.taken) ≠ qp.depth := by
    rw [outstanding, slotCount]
    omega
  have enough : qp.available ≥ slotCount := by
    have free : qp.available = qp.depth - slotCount * (qp.posted - qp.taken) :=
      piled.controlled.levelled.available_eq notFull
    rw [free, outstanding, slotCount]
    omega
  let op : Op := .rma 4096 true false
  have calls : qp.stepFree (.call op) =
      some { qp with pc := .poll (.post op) qp.cqHead 0 false } := by
    show qp.step (.call op) = _
    simp only [Qp.step, ready, piled.idle, decide_true, Bool.true_or, if_true]
  have polls : stepFree { qp with pc := .poll (.post op) qp.cqHead 0 false } .lane =
      some { qp with pc := .write op } := poll_finds piled.running enough
  have steady : Steady { qp with pc := .poll (.post op) qp.cqHead 0 false } .lane := by
    refine ⟨fun stopped => Bool.false_ne_true (piled.running.symm.trans stopped.1), notFull,
      .inl ?_, .inl ?_⟩
    · rw [piled.taken]
      exact Nat.two_pow_pos 32
    · rw [piled.taken]
      decide
  have writes : stepFree { qp with pc := .write op } .lane =
      some ({ qp with pc := .write op }.writeWqe op) := rfl
  have rings : ({ qp with pc := .write op }.writeWqe op).stepFree .lane =
      some (({ qp with pc := .write op }.writeWqe op).finish op) := rfl
  have reaches : Reaches stepFree (fun qp label => qp.Steady label ∧ label ≠ .nic) qp
      (({ qp with pc := .write op }.writeWqe op).finish op) := by
    refine .head ?_ calls (.head ?_ polls (.head ?_ writes (.single ?_ rings)))
    · exact ⟨trivial, by simp⟩
    · exact ⟨steady, by simp⟩
    · exact ⟨trivial, by simp⟩
    · exact ⟨trivial, by simp⟩
  have controlled := reaches.invariant (fun _ label _ holds meets move =>
    holds.step meets.1 meets.2 (by cases label <;> first | exact move | exact absurd rfl meets.2))
    piled.controlled
  exact ⟨_, reaches.mono fun _ _ meets => meets.1,
    ⟨controlled, piled.running, rfl, congrArg (· + 1) piled.posted, piled.done, piled.taken⟩,
    rfl, rfl⟩

theorem Piled.all (piled : qp.Piled 0) (room : slotCount * count ≤ qp.depth) :
    ∃ next : Qp, Reaches stepFree Steady qp next ∧ next.Piled count ∧
      next.depth = qp.depth ∧ next.cqDepth = qp.cqDepth := by
  induction count with
  | zero => exact ⟨qp, .refl, piled, rfl, rfl⟩
  | succ count inductionHypothesis =>
    obtain ⟨here, reaches, again, sameDepth, sameCqDepth⟩ :=
      inductionHypothesis (Nat.le_trans (Nat.mul_le_mul_left _ (Nat.le_succ count)) room)
    obtain ⟨next, further, onePiled, depth, cqDepth⟩ := again.more (sameDepth.symm ▸ room)
    exact ⟨next, reaches.trans further, onePiled, depth.trans sameDepth,
      cqDepth.trans sameCqDepth⟩

theorem complete_all (more : qp.done + count ≤ qp.published) :
    ∃ next : Qp, Reaches stepFree Steady qp next ∧ next.done = qp.done + count ∧
      next.published = qp.published ∧ next.taken = qp.taken ∧ next.cqDepth = qp.cqDepth := by
  induction count with
  | zero => exact ⟨qp, .refl, rfl, rfl, rfl, rfl⟩
  | succ count inductionHypothesis =>
    obtain ⟨here, reaches, done, published, taken, cqDepth⟩ :=
      inductionHypothesis (Nat.le_of_succ_le more)
    have enabled : here.done < here.published := by
      rw [done, published]
      exact more
    have completes : here.stepFree .nic = some here.complete := if_pos enabled
    have steady : here.Steady .nic := trivial
    exact ⟨here.complete, reaches.trans (Reaches.single steady completes),
      congrArg (· + 1) done, published, taken, cqDepth⟩

end

variable (cqDepth : Nat)

theorem create_piled {sqDepth inlineThreshold : Nat}
    (positive : 0 < computeSq sqDepth 1 inlineThreshold) :
    (create sqDepth inlineThreshold cqDepth).Piled 0 :=
  ⟨⟨(create_invariant positive).levelled⟩, rfl, rfl, rfl, rfl, rfl⟩

theorem unpolled_reaches {sqDepth inlineThreshold count : Nat}
    (positive : 0 < computeSq sqDepth 1 inlineThreshold)
    (room : slotCount * count ≤ computeSq sqDepth 1 inlineThreshold) :
    ∃ labels qp, run stepFree (create sqDepth inlineThreshold cqDepth) labels = some qp ∧
      EveryStep stepFree Steady (create sqDepth inlineThreshold cqDepth) labels ∧
      qp.unpolled = count ∧ qp.cqDepth = cqDepthFor cqDepth := by
  obtain ⟨full, fills, piled, -, sameCqDepth⟩ := (create_piled cqDepth positive).all room
  have rings : full.stepFree .doorbell = some { full with published := full.posted } := by
    show full.step .doorbell = _
    simp only [Qp.step, ready, piled.idle, decide_true, Bool.true_or, if_true]
  have steady : full.Steady .doorbell := trivial
  have more : full.done + count ≤ full.posted := by
    rw [piled.done, piled.posted, Nat.zero_add]
  obtain ⟨last, completes, done, -, taken, lastCqDepth⟩ :=
    complete_all (show Qp.done { full with published := full.posted } + count ≤ _ from more)
  obtain ⟨labels, steady, reaches⟩ :=
    reaches_iff.mp (fills.trans ((Reaches.single steady rings).trans completes))
  refine ⟨labels, last, reaches, steady, ?_, lastCqDepth.trans sameCqDepth⟩
  rw [unpolled, done, taken, piled.done, piled.taken, Nat.zero_add, Nat.sub_zero]

/-- In the runs whose steps are all steady the completion queue is never overrun, if and only if
it has an entry for each request that the send queue has room for. -/
theorem bnxt_cq_never_overruns_iff (sqDepth inlineThreshold cqDepth : Nat)
    (positive : 0 < computeSq sqDepth 1 inlineThreshold) :
    (∀ labels qp, run stepFree (create sqDepth inlineThreshold cqDepth) labels = some qp →
      EveryStep stepFree Steady (create sqDepth inlineThreshold cqDepth) labels →
      qp.unpolled ≤ qp.cqDepth) ↔
    computeSq sqDepth 1 inlineThreshold / slotCount ≤ cqDepthFor cqDepth := by
  constructor
  · intro never
    obtain ⟨labels, qp, reaches, steady, unpolled, depth⟩ :=
      unpolled_reaches cqDepth positive (Nat.mul_div_le _ slotCount)
    rw [← unpolled, ← depth]
    exact never labels qp reaches steady
  · intro enough labels qp reaches steady
    have initial : (create sqDepth inlineThreshold cqDepth).Provided :=
      ⟨(create_piled cqDepth positive).controlled, enough⟩
    have kept : qp.Provided := run_invariant_of_everyStep
      (fun _ _ _ provided steady move => provided.stepFree steady move) initial steady reaches
    exact kept.controlled.unpolled_le kept.enough

/-- A put with room for 682 requests and 1024 entries. -/
theorem bnxt_cq_never_overruns_onePut :
    ∃ qp, run stepFree (create 256 28 1024) onePut = some qp ∧ qp.done = 1 ∧
      qp.unpolled ≤ qp.cqDepth :=
  ⟨_, rfl, rfl, (bnxt_cq_never_overruns_iff 256 28 1024 (by decide)).mpr (by decide) onePut _ rfl
    (by decide)⟩

def wideBatch : RdmaEpConfig := { sqDepth := 512, batchSize := 300 }

/-- The configuration is accepted, and the puts of one batch with the doorbell make 300 completions
in a queue of 256. -/
theorem bnxt_cq_wideBatch_overruns : wideBatch.validateConfig 1024 = (wideBatch, "") ∧
    ∃ labels qp, run stepFree (create wideBatch.sqDepth 28 256) labels = some qp ∧
      EveryStep stepFree Steady (create wideBatch.sqDepth 28 256) labels ∧
      qp.unpolled = wideBatch.batchSize ∧ qp.cqDepth = 256 :=
  ⟨by decide, unpolled_reaches 256 (by decide) (by decide)⟩

end Qp

end RocmXio.Rdma.Bnxt
