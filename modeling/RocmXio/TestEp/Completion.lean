/-
The completions of test-ep in doorbell mode: `cpuThreadDoorbell` puts the sequence number and the
low half of its clock in one word, and a thread that polls compares both.
-/
import Mathlib.Data.List.Chain
import RocmXio.Lib.BitFields

namespace RocmXio.TestEp

open Lib

def cqeMagicId : Nat := 0xBABECAFEBEEFDEAD

/-- `cqeType`. -/
structure Cqe where
  magic : Nat
  cpuTime : Nat
deriving DecidableEq, Repr

/-- An operation of a thread: its sequence number, and what `getCpuTime` returned for it. -/
structure Operation where
  seq : UInt32
  cpuTime : UInt64
deriving DecidableEq, Repr

/-- What `cpuThreadDoorbell` writes: `((uint64_t)sqeSeq << 32) | (cpuTime & 0xFFFFFFFFULL)`. -/
def Operation.cqe (operation : Operation) : Cqe where
  magic := cqeMagicId
  cpuTime := packFields [(32, operation.cpuTime.toNat), (32, operation.seq.toNat)]

/-- The test of the polling loop in `endpoint_kernel` and `endpoint_kernel_cpu_emulate`. -/
def Cqe.accepted (cqe : Cqe) (expectedSeq : UInt32) (lastCpuTime : Nat) : Bool :=
  cqe.magic == cqeMagicId && cqe.cpuTime != 0 && field 32 32 cqe.cpuTime == expectedSeq.toNat &&
    (field 0 32 cqe.cpuTime != field 0 32 lastCpuTime || lastCpuTime == 0)

/-- The loop of a thread over its operations: what it completes. The entry of an operation stays
while the thread polls, so one that is ignored once is ignored forever. -/
def completed (lastCpuTime : Nat) : List Operation → List Operation
  | [] => []
  | operation :: rest =>
    if operation.cqe.accepted operation.seq lastCpuTime then
      operation :: completed operation.cqe.cpuTime rest
    else []

def Operation.stamp (operation : Operation) : Nat :=
  operation.cpuTime.toNat % 2 ^ 32

section

variable (operation : Operation) (lastCpuTime : Nat)

theorem cqe_cpuTime : operation.cqe.cpuTime = operation.stamp + 2 ^ 32 * operation.seq.toNat := by
  have bound := operation.seq.toNat_lt
  simp only [Operation.cqe, packFields, Operation.stamp]
  omega

theorem cqe_stamp : field 0 32 operation.cqe.cpuTime = operation.stamp := field_packFields_head ..

theorem cpuTime_ne_zero : operation.cqe.cpuTime ≠ 0 ↔ operation.seq ≠ 0 ∨ operation.stamp ≠ 0 := by
  rw [cqe_cpuTime, Ne, Ne, ← UInt32.toNat_inj, UInt32.toNat_zero]
  omega

theorem accepted_iff : operation.cqe.accepted operation.seq lastCpuTime = true ↔
    (operation.seq ≠ 0 ∨ operation.stamp ≠ 0) ∧
      (lastCpuTime = 0 ∨ operation.stamp ≠ field 0 32 lastCpuTime) := by
  have seq : field 32 32 operation.cqe.cpuTime = operation.seq.toNat := by
    simp [Operation.cqe, Nat.mod_eq_of_lt operation.seq.toNat_lt]
  simp only [Cqe.accepted, Bool.and_eq_true, Bool.or_eq_true, bne_iff_ne, beq_iff_eq, seq,
    cpuTime_ne_zero, cqe_stamp, show operation.cqe.magic = cqeMagicId from rfl]
  tauto

end

theorem completed_eq_iff_head (operations : List Operation) (lastCpuTime : Nat) :
    completed lastCpuTime operations = operations ↔
      (∀ operation ∈ operations, operation.seq ≠ 0 ∨ operation.stamp ≠ 0) ∧
        operations.IsChain (fun first second => first.stamp ≠ second.stamp) ∧
        ∀ operation ∈ operations.head?, lastCpuTime = 0 ∨
          operation.stamp ≠ field 0 32 lastCpuTime := by
  induction operations generalizing lastCpuTime with
  | nil => simp [completed]
  | cons operation rest inductionHypothesis =>
    rw [completed, List.forall_mem_cons, List.isChain_cons]
    by_cases taken : operation.cqe.accepted operation.seq lastCpuTime = true
    · obtain ⟨set, fresh⟩ := (accepted_iff operation lastCpuTime).mp taken
      have last : operation.cqe.cpuTime ≠ 0 := (cpuTime_ne_zero operation).mpr set
      simp only [if_pos taken, List.cons.injEq, true_and, inductionHypothesis, cqe_stamp, last,
        false_or, List.head?_cons, Option.mem_some_iff, forall_eq', fresh, set, and_true]
      simp only [ne_comm, and_comm, and_left_comm]
    · rw [accepted_iff] at taken
      rw [if_neg (by rwa [accepted_iff])]
      simp only [List.head?_cons, Option.mem_some_iff, forall_eq', reduceCtorEq, false_iff]
      tauto

/-- A thread completes all its operations if and only if none has sequence number and stamp zero,
and no two in a row have the same stamp. -/
theorem completed_eq_iff (operations : List Operation) : completed 0 operations = operations ↔
    (∀ operation ∈ operations, operation.seq ≠ 0 ∨ operation.stamp ≠ 0) ∧
      operations.IsChain fun first second => first.stamp ≠ second.stamp := by
  rw [completed_eq_iff_head]
  simp

/-- A clock that stands still between two completions, or shows a multiple of `2 ^ 32` at the first
one, leaves the thread waiting. -/
theorem completed_stuck :
    completed 0 [⟨1, 5⟩, ⟨2, 5⟩] = [⟨1, 5⟩] ∧ completed 0 [⟨0, 4294967296⟩] = [] :=
  ⟨rfl, rfl⟩

end RocmXio.TestEp
