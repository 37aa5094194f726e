/-
A batch over the ernic send queue.

`rdma_ep_batch_kernel` posts a batch and rings once: from two requests on, the first quiet never
returns, for every depth that is a power of two.
-/

import RocmXio.Rdma.Ernic

namespace RocmXio.Rdma.Ernic

open Lib

namespace Qp

/-- Depths for which the masks are remainders and the offsets of the slots fit 32 bits. -/
structure Powers (qp : Qp) : Prop where
  sq : ∃ order, order ≤ 24 ∧ qp.depth = 2 ^ order
  cq : ∃ order, order ≤ 30 ∧ qp.cqDepth = 2 ^ order

theorem masks_two_pow {order : Nat} (small : order ≤ 30) (index : Nat) :
    Masks (2 ^ order) index := by
  have bound : 2 ^ (order + 1) ≤ 2 ^ 31 := Nat.pow_le_pow_right (by decide) (by omega)
  have positive : 0 < 2 ^ order := Nat.two_pow_pos order
  have mask : ringMask (2 ^ order) = 2 ^ (order + 1) - 1 := by
    unfold ringMask
    omega
  rw [Masks, mask, Nat.and_two_pow_sub_one_eq_mod, pow_succ, Nat.mul_comm]

section

variable {qp next : Qp} {label : Label}

theorem takeCqe_frame (qp : Qp) : (qp.takeCqe.depth = qp.depth ∧ qp.takeCqe.cqDepth = qp.cqDepth) ∧
    qp.takeCqe.written = qp.written ∧ qp.takeCqe.doorbells = qp.doorbells := by
  unfold takeCqe
  split_ifs <;> exact ⟨⟨rfl, rfl⟩, rfl, rfl⟩

theorem step_depths (move : qp.step label = some next) :
    next.depth = qp.depth ∧ next.cqDepth = qp.cqDepth := by
  cases label with
  | call | doorbell | nic =>
    obtain ⟨-, ⟨⟩⟩ := Option.ite_none_right_eq_some.mp move
    exact ⟨rfl, rfl⟩
  | lane =>
    cases place : qp.pc <;> simp only [Qp.step, place] at move
    case poll caller =>
      cases move
      unfold pollTurn
      split_ifs
      · cases caller <;> exact qp.takeCqe_frame.1
      · exact qp.takeCqe_frame.1
    case write | ring =>
      cases move
      exact ⟨rfl, rfl⟩
    all_goals cases move

theorem Powers.step (powers : qp.Powers) (move : qp.step label = some next) : next.Powers := by
  obtain ⟨depth, cqDepth⟩ := step_depths move
  exact ⟨depth ▸ powers.sq, cqDepth ▸ powers.cq⟩

/-- A step is orderly when the ring is not full and a doorbell has a request to tell of. -/
theorem Powers.orderly (powers : qp.Powers) (invariant : qp.Invariant)
    (notFull : qp.written - qp.taken ≠ qp.depth)
    (told : label = .lane → qp.pc = .ring → qp.doorbells < qp.written) : qp.Orderly label := by
  obtain ⟨order, small, depth⟩ := powers.sq
  obtain ⟨cqOrder, cqSmall, cqDepth⟩ := powers.cq
  cases label with
  | call | doorbell | nic => exact trivial
  | lane =>
    cases place : qp.pc <;> simp only [Orderly, place]
    case poll =>
      refine ⟨Or.inl notFull, fun _ => ?_⟩
      rw [cqDepth]
      exact masks_two_pow cqSmall _
    case write =>
      have bound : qp.depth ≤ 2 ^ 24 := by
        rw [depth]
        exact Nat.pow_le_pow_right (by decide) small
      have tailLt : qp.tail < qp.depth := invariant.tail ▸ Nat.mod_lt _ invariant.depth_pos
      rw [getSqWqe]
      omega
    case ring =>
      refine ⟨told rfl place, ?_⟩
      rw [depth]
      exact masks_two_pow (by omega) _

end

/-! ### A batch -/

section

variable {qp next : Qp} {batchCount : Nat}

/-- What `rdma_ep_batch_kernel` calls for its first batch: the posts, one doorbell and a
quiet. -/
def BatchKernel (batchCount : Nat) (qp : Qp) : Label → Prop
  | .call (.post ringDb) => ringDb = false ∧ qp.written < batchCount ∧ qp.doorbells = 0
  | .doorbell => qp.written = batchCount ∧ qp.doorbells = 0
  | .call .quiet => qp.doorbells = 1
  | .lane | .nic => True

def Batched (batchCount : Nat) (qp : Qp) : Prop :=
  match qp.pc with
  | .idle => qp.written ≤ batchCount ∧ qp.doorbells = 0
  | .poll (.post ringDb) | .write ringDb =>
    ringDb = false ∧ qp.written < batchCount ∧ qp.doorbells = 0
  | .ring => qp.written = batchCount ∧ qp.doorbells = 0
  | .rung | .poll .quiet | .quieted => qp.written = batchCount ∧ qp.doorbells = 1

theorem Batched.written_le (batched : Batched batchCount qp) : qp.written ≤ batchCount := by
  unfold Batched at batched
  split at batched <;> omega

variable {label : Label}

theorem Batched.orderly (batched : Batched batchCount qp) (powers : qp.Powers)
    (invariant : qp.Invariant) (positive : 0 < batchCount) (fits : batchCount < qp.depth) :
    qp.Orderly label := by
  have written := batched.written_le
  refine powers.orderly invariant (by omega) fun _ ringing => ?_
  simp only [Batched, ringing] at batched
  omega

theorem Batched.pollTurn {caller : Caller} (batched : Batched batchCount qp)
    (polling : qp.pc = .poll caller) : Batched batchCount (qp.pollTurn caller) := by
  obtain ⟨-, written, doorbells⟩ := qp.takeCqe_frame
  have pc := qp.takeCqe_pc
  simp only [Batched, polling] at batched
  unfold Qp.pollTurn
  split_ifs
  · cases caller <;> simp only [proceed, Batched, written, doorbells] <;> exact batched
  · cases caller <;> simp only [Batched, pc, polling, written, doorbells] <;> exact batched

theorem Batched.step (batched : Batched batchCount qp) (kernel : qp.BatchKernel batchCount label)
    (move : qp.step label = some next) :
    Batched batchCount next := by
  cases label with
  | call caller =>
    obtain ⟨ready, ⟨⟩⟩ := Option.ite_none_right_eq_some.mp move
    cases caller with
    | post ringDb => exact kernel
    | quiet =>
      have rung : qp.doorbells = 1 := kernel
      unfold Batched at batched
      unfold Qp.ready at ready
      cases place : qp.pc <;> simp only [place] at batched ready
      case idle => omega
      case rung | quieted => exact batched
      all_goals exact absurd ready Bool.false_ne_true
  | doorbell =>
    obtain ⟨-, ⟨⟩⟩ := Option.ite_none_right_eq_some.mp move
    exact kernel
  | lane =>
    cases place : qp.pc <;> simp only [Qp.step, place] at move
    case poll caller =>
      cases move
      exact batched.pollTurn place
    case write ringDb =>
      cases move
      simp only [Batched, place] at batched
      obtain ⟨rfl, more, none⟩ := batched
      exact ⟨more, none⟩
    case ring =>
      cases move
      simp only [Batched, place] at batched
      exact ⟨batched.1, congrArg (· + 1) batched.2⟩
    all_goals cases move
  | nic =>
    obtain ⟨-, ⟨⟩⟩ := Option.ite_none_right_eq_some.mp move
    exact batched

end

/-- A batch of at least two requests never ends: its quiet waits for requests that the device
was not told of. -/
theorem batch_kernel_never_returns {order cqOrder batchCount : Nat} (several : 2 ≤ batchCount)
    (fits : batchCount < 2 ^ order) (small : order ≤ 24) (cqSmall : cqOrder ≤ 30)
    {labels : List Label} {qp : Qp}
    (reaches : run step (create (2 ^ order) (2 ^ cqOrder)) labels = some qp)
    (kernel : EveryStep step (BatchKernel batchCount) (create (2 ^ order) (2 ^ cqOrder)) labels) :
    qp.pc ≠ .quieted := by
  have initial : (create (2 ^ order) (2 ^ cqOrder)).Invariant :=
    create_invariant (Nat.two_pow_pos order) (Nat.pow_le_pow_right (by decide) (by omega))
      (Nat.two_pow_pos cqOrder)
  have kept : qp.Invariant ∧ Batched batchCount qp ∧ qp.Powers ∧ batchCount < qp.depth := by
    refine run_invariant_of_everyStep
      (motive := fun qp =>
        qp.Invariant ∧ Batched batchCount qp ∧ qp.Powers ∧ batchCount < qp.depth)
      (fun qp label next held kernel move => ?_)
      ⟨initial, by exact ⟨Nat.zero_le _, rfl⟩, ⟨⟨order, small, rfl⟩, ⟨cqOrder, cqSmall, rfl⟩⟩, fits⟩
      kernel reaches
    obtain ⟨invariant, batched, powers, room⟩ := held
    exact ⟨invariant.step (batched.orderly powers invariant (by omega) room) move,
      batched.step kernel move, powers.step move, (step_depths move).1 ▸ room⟩
  intro quieted
  have told := (kept.1.drained quieted).1
  have batched := kept.2.1
  simp only [Batched, quieted] at batched
  omega

def twoPosts : List Label :=
  [.call (.post false), .lane, .lane, .call (.post false), .lane, .lane, .doorbell, .lane,
    .call .quiet, .lane]

theorem batch_kernel_never_returns_twoPosts :
    ∃ qp, run step (create (2 ^ 2) (2 ^ 2)) twoPosts = some qp ∧ qp.pc ≠ .quieted :=
  ⟨_, rfl, batch_kernel_never_returns (le_refl 2) (show 2 < 2 ^ 2 by decide) (by decide)
    (show 2 ≤ 30 by decide) rfl
    (show EveryStep step (BatchKernel 2) (create (2 ^ 2) (2 ^ 2)) twoPosts from
      ⟨⟨rfl, by decide, rfl⟩, trivial, trivial, ⟨rfl, by decide, rfl⟩, trivial, trivial,
        ⟨rfl, rfl⟩, trivial, rfl, trivial, trivial⟩)⟩

end Qp

end RocmXio.Rdma.Ernic
