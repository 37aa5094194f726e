/-
The stateful kernel: a call submits some number of commands, waits for as many completions and
returns, and leaves tail, head and phase in two words of memory for the next call.

Nothing bounds the number of commands. A call that submits at least a whole ring announces fewer
commands than it waits for and ends in the trap that follows too many polls. A call that returns has
consumed the completion of each of its commands, whatever their statuses.
-/

import RocmXio.Nvme.Drive

namespace RocmXio.Nvme

open Lib

namespace Stateful

/-- Where the kernel is: not running, in its three phases, about to write its state back, or
stopped by the trap. -/
inductive Pc where
  | idle
  | submit (done nOps : Nat)
  | ring (nOps : Nat)
  | poll (done nOps pollCount : Nat)
  | writeBack
  | trapped
deriving DecidableEq, Repr

inductive Label where
  | call (nOps : Nat)
  | thread
  | controller (label : QueuePair.Controller)
deriving DecidableEq, Repr

end Stateful

/-- The queue pair with the two words of state, the kernel, and how many operations belong to
calls that have returned. -/
structure Stateful where
  queue : QueuePair
  state0 : Nat
  state1 : Nat
  pc : Stateful.Pc
  finished : Nat

namespace Stateful

/-- `rxio_setup`: the words are zero and one. -/
def setup (queueSize : Nat) : Stateful where
  queue := .create queueSize
  state0 := 0
  state1 := 1
  pc := .idle
  finished := 0

def load (kernel : Stateful) : QueuePair :=
  { kernel.queue with
    sqTail := kernel.state0 % 2 ^ 16
    cqHead := kernel.state0 / 2 ^ 16 % 2 ^ 16
    expectedPhase := kernel.state1 % 2 == 1 }

/-- The completion doorbell is rung and the words are written; the kernel returns. -/
def store (kernel : Stateful) : Stateful :=
  { kernel with
    queue := kernel.queue.ringCq
    state0 := kernel.queue.cqHead * 2 ^ 16 + kernel.queue.sqTail
    state1 := kernel.queue.expectedPhase.toNat
    pc := .idle
    finished := kernel.queue.submitted }

/-- One step of `gpuKernelStateful`. -/
def thread (kernel : Stateful) : Option Stateful :=
  match kernel.pc with
  | .idle | .trapped => none
  | .submit done nOps =>
    if done < nOps then
      some { kernel with queue := kernel.queue.submit, pc := .submit (done + 1) nOps }
    else some { kernel with pc := .ring nOps }
  | .ring nOps => some { kernel with queue := kernel.queue.ringSq, pc := .poll 0 nOps 0 }
  | .poll done nOps pollCount =>
    if done < nOps then
      if kernel.queue.cqeReady then
        some { kernel with queue := kernel.queue.consume, pc := .poll (done + 1) nOps 0 }
      else if pollCount + 1 ≥ maxPolls then some { kernel with pc := .trapped }
      else some { kernel with pc := .poll done nOps (pollCount + 1) }
    else some { kernel with pc := .writeBack }
  | .writeBack => some kernel.store

def step (kernel : Stateful) : Label → Option Stateful
  | .call nOps =>
    match kernel.pc with
    | .idle => some { kernel with queue := kernel.load, pc := .submit 0 nOps }
    | _ => none
  | .thread => kernel.thread
  | .controller label =>
    match kernel.queue.controller label with
    | none => none
    | some queue => some { kernel with queue := queue }

/-! ### The property -/

/-- The completion of a command was consumed and reports success. -/
def Succeeded (queue : QueuePair) (command : Nat) : Prop :=
  ∃ cqe ∈ queue.accepted, cqe.command = command ∧ cqe.ok = true

instance Succeeded.decidable (queue : QueuePair) (command : Nat) :
    Decidable (Succeeded queue command) :=
  inferInstanceAs (Decidable (∃ cqe ∈ queue.accepted, _))

/-- Each operation of a call that has returned has succeeded, and the words left behind say how many
completions are owed. -/
structure SuccessReported (kernel : Stateful) : Prop where
  signalled : ∀ operation, operation < kernel.finished → Succeeded kernel.queue operation
  saved : kernel.pc = .idle →
    (kernel.state0 % 2 ^ 16 + kernel.queue.queueSize - kernel.state0 / 2 ^ 16 % 2 ^ 16) %
      kernel.queue.queueSize = kernel.queue.submitted - kernel.queue.posted.length

def Careful (_ : Stateful) : Label → Prop
  | .controller label => label.Succeeds
  | .call _ | .thread => True

instance Careful.decidable (kernel : Stateful) : ∀ label, Decidable (kernel.Careful label)
  | .controller label => inferInstanceAs (Decidable label.Succeeds)
  | .call _ | .thread => inferInstanceAs (Decidable True)

/-! ### The invariant -/

def Saved (kernel : Stateful) : Prop :=
  kernel.state0 % 2 ^ 16 = kernel.queue.sqTail ∧
    kernel.state0 / 2 ^ 16 % 2 ^ 16 = kernel.queue.cqHead ∧
    (kernel.state1 % 2 == 1) = kernel.queue.expectedPhase

theorem Saved.load_eq {kernel : Stateful} (saved : kernel.Saved) : kernel.load = kernel.queue := by
  rw [load, saved.1, saved.2.1, saved.2.2]

/-- A call of a whole ring or more keeps the queue coherent, but has not announced everything that
it waits for. -/
def Place (kernel : Stateful) : Prop :=
  match kernel.pc with
  | .idle => kernel.queue.Disciplined ∧ kernel.queue.accepted.length = kernel.queue.submitted ∧
      kernel.finished = kernel.queue.submitted ∧ kernel.Saved
  | .submit done nOps => done ≤ nOps ∧ kernel.queue.announced = kernel.finished ∧
      kernel.queue.accepted.length = kernel.finished ∧
      kernel.queue.submitted = kernel.finished + done ∧
      (done < kernel.queue.queueSize → kernel.queue.Disciplined)
  | .ring nOps => kernel.queue.announced = kernel.finished ∧
      kernel.queue.accepted.length = kernel.finished ∧
      kernel.queue.submitted = kernel.finished + nOps ∧
      (nOps < kernel.queue.queueSize → kernel.queue.Disciplined)
  | .poll done nOps _ => done ≤ nOps ∧ kernel.queue.accepted.length = kernel.finished + done ∧
      kernel.queue.submitted = kernel.finished + nOps ∧
      (kernel.queue.announced = kernel.queue.submitted → kernel.queue.Disciplined)
  | .writeBack => kernel.queue.Disciplined ∧ kernel.queue.accepted.length = kernel.queue.submitted
  | .trapped => True

structure Invariant (kernel : Stateful) : Prop where
  short : kernel.queue.queueSize ≤ 2 ^ 16
  coherent : kernel.queue.Coherent
  posted_ok : ∀ cqe ∈ kernel.queue.posted, cqe.ok = true
  consumed : ∀ operation, operation < kernel.finished →
    ∃ cqe ∈ kernel.queue.accepted, cqe.command = operation
  place : kernel.Place

theorem setup_invariant {queueSize : Nat} (size : 2 ≤ queueSize) (short : queueSize ≤ 2 ^ 16) :
    (setup queueSize).Invariant where
  short := short
  coherent := QueuePair.create_coherent size
  posted_ok := fun _ impossible => absurd impossible List.not_mem_nil
  consumed := fun _ impossible => absurd impossible (Nat.not_lt_zero _)
  place := ⟨QueuePair.create_disciplined size, rfl, rfl, rfl,
    show 0 / 2 ^ 16 % 2 ^ 16 = 0 by decide, rfl⟩

section

variable {kernel next : Stateful}

section

variable (invariant : kernel.Invariant)
include invariant

theorem Invariant.call (idle : kernel.pc = .idle) (nOps : Nat) :
    Invariant { kernel with queue := kernel.load, pc := .submit 0 nOps } := by
  have place := invariant.place
  simp only [Place, idle] at place
  obtain ⟨disciplined, all, finished, saved⟩ := place
  have announced := disciplined.announced_le
  have fetched := disciplined.fetched_le
  have posted := disciplined.posted_add
  have accepted := disciplined.toCoherent.accepted_le
  rw [saved.load_eq]
  exact { invariant with
    place := ⟨Nat.zero_le _, show kernel.queue.announced = kernel.finished by omega,
      all.trans finished.symm, finished.symm, fun _ => disciplined⟩ }

theorem Invariant.submit {done nOps : Nat} (submitting : kernel.pc = .submit done nOps)
    (more : done < nOps) :
    Invariant { kernel with queue := kernel.queue.submit, pc := .submit (done + 1) nOps } := by
  have place := invariant.place
  simp only [Place, submitting] at place
  obtain ⟨-, announced, accepted, submitted, disciplined⟩ := place
  refine { invariant with
    coherent := (invariant.coherent.sqeWrite _ _).advanceTail 1
    place := ⟨more, announced, accepted, congrArg (· + 1) submitted, fun room => ?_⟩ }
  have inside : done + 1 < kernel.queue.queueSize := room
  exact (disciplined (by omega)).submit (by omega)

/-- The doorbell announces everything, or less than what was submitted if that was a whole
ring or more. -/
theorem Invariant.ring {nOps : Nat} (ringing : kernel.pc = .ring nOps) :
    Invariant { kernel with queue := kernel.queue.ringSq, pc := .poll 0 nOps 0 } := by
  have place := invariant.place
  simp only [Place, ringing] at place
  obtain ⟨announced, accepted, submitted, disciplined⟩ := place
  have size := invariant.coherent.size
  have rung := invariant.coherent.ringSq_announced
  have ahead : kernel.queue.submitted - kernel.queue.announced = nOps := by omega
  rw [ahead] at rung
  refine { invariant with
    coherent := invariant.coherent.ringSq
    place := ⟨Nat.zero_le _, accepted, submitted, fun all => ?_⟩ }
  have whole : kernel.queue.ringSq.announced = kernel.queue.submitted := all
  have inside : nOps % kernel.queue.queueSize < kernel.queue.queueSize := Nat.mod_lt _ (by omega)
  exact (disciplined (by omega)).ringSq

theorem Invariant.consume {done nOps pollCount : Nat}
    (polling : kernel.pc = .poll done nOps pollCount) (more : done < nOps)
    (ready : kernel.queue.cqeReady = true) :
    Invariant { kernel with queue := kernel.queue.consume, pc := .poll (done + 1) nOps 0 } := by
  have place := invariant.place
  simp only [Place, polling] at place
  obtain ⟨-, accepted, submitted, disciplined⟩ := place
  refine { invariant with
    coherent := invariant.coherent.consume ready
    consumed := fun operation below => ?_
    place := ⟨more, ?_, submitted, fun all => (disciplined all).consume ready⟩ }
  · obtain ⟨cqe, member, command⟩ := invariant.consumed operation below
    exact ⟨cqe, List.mem_append_left _ member, command⟩
  · show (kernel.queue.accepted ++ [_]).length = kernel.finished + (done + 1)
    rw [List.length_append, accepted, List.length_singleton, Nat.add_assoc]

theorem Invariant.leave {done nOps pollCount : Nat}
    (polling : kernel.pc = .poll done nOps pollCount) (last : ¬ done < nOps) :
    Invariant { kernel with pc := .writeBack } := by
  have place := invariant.place
  simp only [Place, polling] at place
  obtain ⟨most, accepted, submitted, disciplined⟩ := place
  have announced := invariant.coherent.announced_le
  have fetched := invariant.coherent.fetched_le
  have posted := invariant.coherent.posted_add
  have acceptedLe := invariant.coherent.accepted_le
  have all : kernel.queue.accepted.length = kernel.queue.submitted := by omega
  exact { invariant with place := ⟨disciplined (by omega), all⟩ }

end

theorem saved_store (short : kernel.queue.queueSize ≤ 2 ^ 16)
    (disciplined : kernel.queue.Disciplined) : kernel.store.Saved := by
  have size := disciplined.size
  have tailLt : kernel.queue.sqTail < kernel.queue.queueSize :=
    disciplined.tail ▸ Nat.mod_lt _ (by omega)
  have headLt : kernel.queue.cqHead < kernel.queue.queueSize :=
    disciplined.head ▸ Nat.mod_lt _ (by omega)
  have low : (kernel.queue.cqHead * 2 ^ 16 + kernel.queue.sqTail) % 2 ^ 16 =
      kernel.queue.sqTail := by omega
  have high : (kernel.queue.cqHead * 2 ^ 16 + kernel.queue.sqTail) / 2 ^ 16 % 2 ^ 16 =
      kernel.queue.cqHead := by omega
  have phase : (kernel.queue.expectedPhase.toNat % 2 == 1) = kernel.queue.expectedPhase := by
    cases kernel.queue.expectedPhase <;> rfl
  exact ⟨low, high, phase⟩

section

variable (invariant : kernel.Invariant)
include invariant

theorem Invariant.store (writing : kernel.pc = .writeBack) : kernel.store.Invariant := by
  have place := invariant.place
  simp only [Place, writing] at place
  obtain ⟨disciplined, all⟩ := place
  refine { invariant with
    coherent := invariant.coherent.ringCq
    consumed := fun operation below => ?_
    place := ⟨disciplined.ringCq, all, rfl, saved_store invariant.short disciplined⟩ }
  have member : operation ∈ kernel.queue.accepted.map Cqe.command :=
    (disciplined.drained all).mem_iff.mpr (List.mem_range.mpr below)
  exact List.mem_map.mp member

theorem Invariant.thread (move : kernel.thread = some next) : next.Invariant := by
  have place := invariant.place
  cases there : kernel.pc <;> simp only [Stateful.thread, there, Place] at move place
  case submit done nOps =>
    split_ifs at move with more <;> cases move
    · exact invariant.submit there more
    · have last : done = nOps := by omega
      exact { invariant with place := last ▸ place.2 }
  case ring nOps =>
    cases move
    exact invariant.ring there
  case poll =>
    split_ifs at move with more ready <;> cases move
    · exact invariant.consume there more ready
    · exact { invariant with place := trivial }
    · exact { invariant with place := place }
    · exact invariant.leave there more
  case writeBack =>
    cases move
    exact invariant.store there
  all_goals cases move

theorem Invariant.controller {label : QueuePair.Controller} {queue : QueuePair}
    (success : label.Succeeds) (move : kernel.queue.controller label = some queue) :
    Invariant { kernel with queue := queue } := by
  have disciplined : kernel.queue.Disciplined → queue.Disciplined := fun before =>
    before.controller move
  have place := invariant.place
  refine { invariant with
    short := ?_, coherent := invariant.coherent.controller move,
    posted_ok := QueuePair.posted_ok success move invariant.posted_ok, consumed := ?_, place := ?_ }
  all_goals rcases QueuePair.controller_cases move with ⟨-, -, rfl⟩ | ⟨_, _, _, -, -, -, rfl⟩
  · exact invariant.short
  · exact invariant.short
  · exact invariant.consumed
  · exact invariant.consumed
  all_goals
    cases there : kernel.pc <;> simp only [Place, there] at place ⊢
    case idle => exact ⟨disciplined place.1, place.2⟩
    case submit =>
      obtain ⟨most, announced, accepted, submitted, before⟩ := place
      exact ⟨most, announced, accepted, submitted, fun room => disciplined (before room)⟩
    case ring =>
      obtain ⟨announced, accepted, submitted, before⟩ := place
      exact ⟨announced, accepted, submitted, fun room => disciplined (before room)⟩
    case poll =>
      obtain ⟨most, accepted, submitted, before⟩ := place
      exact ⟨most, accepted, submitted, fun all => disciplined (before all)⟩
    case writeBack => exact ⟨disciplined place.1, place.2⟩

theorem Invariant.step {label : Label} (careful : kernel.Careful label)
    (move : kernel.step label = some next) : next.Invariant := by
  cases label with
  | call nOps =>
    cases there : kernel.pc <;> simp only [Stateful.step, there] at move
    case idle =>
      cases move
      exact invariant.call there nOps
    all_goals cases move
  | thread => exact invariant.thread move
  | controller label =>
    simp only [Stateful.step] at move
    split at move
    case h_1 => cases move
    case h_2 queue answer =>
      cases move
      exact invariant.controller careful answer

theorem Invariant.successReported : kernel.SuccessReported where
  signalled := fun operation below => by
    obtain ⟨cqe, member, command⟩ := invariant.consumed operation below
    exact ⟨cqe, member, command, invariant.posted_ok cqe
      (invariant.coherent.accepted_prefix.subset member)⟩
  saved := fun idle => by
    have place := invariant.place
    simp only [Place, idle] at place
    obtain ⟨disciplined, all, -, tail, head, -⟩ := place
    have accepted := disciplined.toCoherent.accepted_le
    have size := disciplined.size
    rw [tail, head, disciplined.tail, disciplined.head, distance_eq (by omega) (by omega)]
    omega

end

end

/-- If no command fails, a call that has returned has consumed a successful completion for each of
its operations, and the words it left say that nothing is owed. -/
theorem run_successReported {queueSize : Nat} (size : 2 ≤ queueSize) (short : queueSize ≤ 2 ^ 16)
    {labels : List Label} {kernel : Stateful}
    (reaches : run step (setup queueSize) labels = some kernel)
    (careful : EveryStep step Careful (setup queueSize) labels) : kernel.SuccessReported :=
  (run_invariant_of_everyStep (fun _ _ _ invariant careful move => invariant.step careful move)
    (setup_invariant size short) careful reaches).successReported

end Stateful

end RocmXio.Nvme
