/-
The two drives of the NVMe endpoint.

`driveEndpointSingle` is one thread: it writes the entries of a batch, rings the submission
doorbell, takes one completion after the other and rings the completion doorbell. In
`driveEndpointWavefront` thread 0 computes the batch, the other threads write one entry each, in any
order, ahead of the tail, and after a barrier thread 0 does the rest. Both run until all operations
are done, or for ever in infinite mode, unless they are asked to stop.

When a completion reports an error or does not arrive within `NVME_EP_MAX_POLLS` polls, the single
drive traps and the wavefront drive returns. A step is one access to the memory shared with the
controller, or one worker's part of a batch.
-/

import RocmXio.Nvme.QueuePair
import RocmXio.Nvme.Prp

namespace RocmXio.Nvme

open Lib

def maxPolls : Nat := 10000000

/-- What a drive is started with, and whether the configuration has timing statistics and a stop
flag. -/
structure Setup where
  params : IoParams
  buffers : BufferParams params
  timingStats : Bool
  stopRequested : Bool

inductive Cause where
  | done
  | stop
  | timeout
  | cqeError
  | prpError
deriving DecidableEq, Repr

/-- `prepare` is the part of a wavefront batch in which the workers write; `epilogue` follows the
polls and knows why they were given up, if they were. -/
inductive Pc where
  | top
  | write (b : Nat)
  | prepare (prepared : List Nat)
  | poll (b pollCount : Nat)
  | epilogue (early : Option Cause)
  | returned (cause : Cause)
  | trapped
deriving DecidableEq, Repr

structure Drive where
  queue : QueuePair
  opsDone : Nat
  batchCount : Nat
  shError : Bool
  pc : Pc
  stopFlag : Bool

inductive DriveLabel where
  | thread
  | worker (b : Nat)
  | controller (label : QueuePair.Controller)
  | stop
deriving DecidableEq, Repr

namespace Setup

def start (setup : Setup) : Drive where
  queue := QueuePair.create setup.params.queueSize
  opsDone := 0
  batchCount := 0
  shError := false
  pc := .top
  stopFlag := false

/-! ### Batches and entries -/

/-- `batch_size` of `driveEndpointSingle`. -/
def singleBatch (setup : Setup) : Nat :=
  if setup.timingStats = true ∧ setup.params.effBatch > 256 then 256 else setup.params.effBatch

/-- `batch_size` of `driveEndpointWavefront`, where zero stays zero. -/
def wavefrontBatch (setup : Setup) : Nat :=
  let batchSize :=
    if setup.params.batchSize > setup.params.queueSize - 1 then setup.params.queueSize - 1
    else setup.params.batchSize
  if setup.params.infiniteMode = false ∧ batchSize > setup.params.totalOps then
    setup.params.totalOps
  else batchSize

/-- `batch_count` in 32-bit arithmetic: the last batch of a finite drive is cut. -/
def batchCount (setup : Setup) (batchSize opsDone : Nat) : Nat :=
  if setup.params.infiniteMode = false ∧ (opsDone + batchSize) % 2 ^ 32 > setup.params.totalOps then
    (setup.params.totalOps + 2 ^ 32 - opsDone) % 2 ^ 32
  else batchSize

/-- `is_read_op`. Without infinite mode, writes come before reads. -/
def isReadOp (setup : Setup) (opIdx : Nat) : Bool :=
  if setup.params.infiniteMode then decide (setup.params.readIo > 0)
  else if setup.params.writeIo > 0 ∧ setup.params.readIo > 0 then
    decide (opIdx ≥ setup.params.writeIo)
  else decide (setup.params.readIo > 0)

/-- `prp_valid`: there is a buffer for the direction and the slot lies inside it. -/
def prpValid (setup : Setup) (opIdx b : Nat) : Bool :=
  let mapping := (setup.buffers.direction (!setup.isReadOp opIdx)).toMapping
  decide (mapping.buffer ≠ 0 ∧ 0 < setup.buffers.bufferSize) &&
    decide ((BufferParams.bufOff setup.params b + setup.params.transferSize) % 2 ^ 64 ≤
      setup.buffers.bufferSize)

def stopSeen (setup : Setup) (drive : Drive) : Bool :=
  setup.stopRequested && drive.stopFlag

/-! ### The single drive -/

/-- One step of `driveEndpointSingle`. The data words of the first 256 slots are computed before the
loop; a later slot is checked when it is written. -/
def singleThread (setup : Setup) (drive : Drive) : Option Drive :=
  match drive.pc with
  | .top =>
    if (setup.params.infiniteMode = true ∨ drive.opsDone < setup.params.totalOps) ∧
        setup.stopSeen drive = false then
      some { drive with
        batchCount := setup.batchCount setup.singleBatch drive.opsDone
        pc := .write 0 }
    else
      some { drive with
        pc := .returned
          (if setup.params.infiniteMode = false ∧ setup.params.totalOps ≤ drive.opsDone then .done
          else .stop) }
  | .write b =>
    if b < drive.batchCount then
      if b < min setup.singleBatch 256 ∨ setup.prpValid ((drive.opsDone + b) % 2 ^ 32) b = true then
        some { drive with queue := drive.queue.submit, pc := .write (b + 1) }
      else some { drive with pc := .trapped }
    else some { drive with queue := drive.queue.ringSq, pc := .poll 0 0 }
  | .poll b pollCount =>
    if b < drive.batchCount then
      if setup.stopSeen drive = true ∧ pollCount % 100 = 0 then
        some { drive with pc := .returned .stop }
      else if drive.queue.cqeReady then
        if (drive.queue.completionQueue drive.queue.cqHead).ok then
          some { drive with queue := drive.queue.consume, pc := .poll (b + 1) 0 }
        else some { drive with pc := .trapped }
      else if pollCount + 1 ≥ maxPolls then some { drive with pc := .trapped }
      else some { drive with pc := .poll b (pollCount + 1) }
    else
      some { drive with
        queue := drive.queue.ringCq
        opsDone := (drive.opsDone + drive.batchCount) % 2 ^ 32
        pc := .top }
  | .prepare _ | .epilogue _ | .returned _ | .trapped => none

/-! ### The wavefront drive -/

/-- Thread `b + 1` in a batch: it sets the error flag when it has no valid data words, and writes
its entry when no error is known. -/
def worker (setup : Setup) (drive : Drive) (prepared : List Nat) (b : Nat) : Drive :=
  let shError := drive.shError || !setup.prpValid ((drive.opsDone + b) % 2 ^ 32) b
  { drive with
    shError := shError
    queue :=
      if shError then drive.queue
      else drive.queue.sqeWrite ((drive.queue.sqTail + b) % drive.queue.queueSize)
        (drive.queue.submitted + b)
    pc := .prepare (b :: prepared) }

/-- After the polls of a batch: the completion doorbell is left alone when they were given up, and
the batch is counted in any case. -/
def epilogue (setup : Setup) (drive : Drive) (early : Option Cause) : Drive :=
  let opsDone := (drive.opsDone + drive.batchCount) % 2 ^ 32
  { drive with
    queue := if early.isSome then drive.queue else drive.queue.ringCq
    opsDone := opsDone
    pc :=
      match early with
      | some cause => .returned cause
      | none =>
        if setup.params.infiniteMode = false ∧ setup.params.totalOps ≤ opsDone then
          .returned .done
        else if setup.stopSeen drive then .returned .stop
        else .top }

/-- One step of thread 0 of `driveEndpointWavefront`, which passes the barrier when every worker has
arrived. -/
def wavefrontThread (setup : Setup) (drive : Drive) : Option Drive :=
  match drive.pc with
  | .top =>
    some { drive with
      batchCount := setup.batchCount setup.wavefrontBatch drive.opsDone
      pc := .prepare [] }
  | .prepare prepared =>
    if (List.range drive.batchCount).all prepared.contains then
      if drive.shError then some { drive with pc := .returned .prpError }
      else
        some { drive with
          queue := (drive.queue.advanceTail drive.batchCount).ringSq
          pc := .poll 0 0 }
    else none
  | .poll b pollCount =>
    if b < drive.batchCount then
      if setup.stopSeen drive = true ∧ pollCount ≠ 0 ∧ pollCount % 100 = 0 then
        some { drive with pc := .epilogue (some .stop) }
      else if drive.queue.cqeReady then
        if (drive.queue.completionQueue drive.queue.cqHead).ok then
          some { drive with queue := drive.queue.consume, pc := .poll (b + 1) 0 }
        else some { drive with pc := .epilogue (some .cqeError) }
      else if pollCount + 1 ≥ maxPolls then some { drive with pc := .epilogue (some .timeout) }
      else some { drive with pc := .poll b (pollCount + 1) }
    else some { drive with pc := .epilogue none }
  | .epilogue early => some (setup.epilogue drive early)
  | .write _ | .returned _ | .trapped => none

/-! ### The systems -/

def environment (drive : Drive) : DriveLabel → Option Drive
  | .controller label =>
    match drive.queue.controller label with
    | none => none
    | some queue => some { drive with queue := queue }
  | .stop => some { drive with stopFlag := true }
  | .thread | .worker _ => none

/-- `driveEndpointSingle`, run by one thread. -/
def driveEndpointSingle (setup : Setup) (drive : Drive) : DriveLabel → Option Drive
  | .thread => setup.singleThread drive
  | .worker _ => none
  | .controller label => environment drive (.controller label)
  | .stop => environment drive .stop

/-- `driveEndpointWavefront`, run by a block with a worker for each entry of a batch. -/
def driveEndpointWavefront (setup : Setup) (drive : Drive) : DriveLabel → Option Drive
  | .thread => setup.wavefrontThread drive
  | .worker b =>
    match drive.pc with
    | .prepare prepared =>
      if b < drive.batchCount ∧ prepared.contains b = false then
        some (setup.worker drive prepared b)
      else none
    | _ => none
  | .controller label => environment drive (.controller label)
  | .stop => environment drive .stop

/-! ### What a step can do -/

inductive Kind where
  | single
  | wavefront
deriving DecidableEq, Repr

def batchSizeOf (setup : Setup) : Kind → Nat
  | .single => setup.singleBatch
  | .wavefront => setup.wavefrontBatch

def driveEndpointOf (setup : Setup) : Kind → Drive → DriveLabel → Option Drive
  | .single => setup.driveEndpointSingle
  | .wavefront => setup.driveEndpointWavefront

def Kind.opening : Kind → Pc
  | .single => .write 0
  | .wavefront => .prepare []

def Kind.givenUp : Kind → Cause → Pc
  | .single, .stop => .returned .stop
  | .single, _ => .trapped
  | .wavefront, cause => .epilogue (some cause)

/-- All the steps of both drives, with what is known when they are taken. -/
inductive Move (setup : Setup) (kind : Kind) (drive : Drive) : DriveLabel → Drive → Prop
  | opens (place : drive.pc = .top)
      (wanted : kind = .single →
        setup.params.infiniteMode = true ∨ drive.opsDone < setup.params.totalOps) :
      Move setup kind drive .thread { drive with
        batchCount := setup.batchCount (setup.batchSizeOf kind) drive.opsDone
        pc := kind.opening }
  | leaves (isSingle : kind = .single) (place : drive.pc = .top)
      (left : ¬ ((setup.params.infiniteMode = true ∨ drive.opsDone < setup.params.totalOps) ∧
        setup.stopSeen drive = false)) :
      Move setup kind drive .thread { drive with
        pc := .returned
          (if setup.params.infiniteMode = false ∧ setup.params.totalOps ≤ drive.opsDone then .done
          else .stop) }
  | submits (b : Nat) (isSingle : kind = .single) (place : drive.pc = .write b)
      (inBatch : b < drive.batchCount)
      (valid : b < min setup.singleBatch 256 ∨
        setup.prpValid ((drive.opsDone + b) % 2 ^ 32) b = true) :
      Move setup kind drive .thread
        { drive with queue := drive.queue.submit, pc := .write (b + 1) }
  | refuses (b : Nat) (isSingle : kind = .single) (place : drive.pc = .write b)
      (inBatch : b < drive.batchCount)
      (invalid : ¬ (b < min setup.singleBatch 256 ∨
        setup.prpValid ((drive.opsDone + b) % 2 ^ 32) b = true)) :
      Move setup kind drive .thread { drive with pc := .trapped }
  | rings (b : Nat) (isSingle : kind = .single) (place : drive.pc = .write b)
      (whole : ¬ b < drive.batchCount) :
      Move setup kind drive .thread
        { drive with queue := drive.queue.ringSq, pc := .poll 0 0 }
  | prepares (prepared : List Nat) (b : Nat) (isWavefront : kind = .wavefront)
      (place : drive.pc = .prepare prepared) (inBatch : b < drive.batchCount)
      (first : prepared.contains b = false) :
      Move setup kind drive (.worker b) (setup.worker drive prepared b)
  | aborts (prepared : List Nat) (isWavefront : kind = .wavefront)
      (place : drive.pc = .prepare prepared) (failed : drive.shError = true) :
      Move setup kind drive .thread { drive with pc := .returned .prpError }
  | publishes (prepared : List Nat) (isWavefront : kind = .wavefront)
      (place : drive.pc = .prepare prepared)
      (arrived : ∀ b, b < drive.batchCount → b ∈ prepared) (fine : drive.shError = false) :
      Move setup kind drive .thread { drive with
        queue := (drive.queue.advanceTail drive.batchCount).ringSq
        pc := .poll 0 0 }
  | stops (b pollCount : Nat) (place : drive.pc = .poll b pollCount)
      (inBatch : b < drive.batchCount) (seen : setup.stopSeen drive = true) :
      Move setup kind drive .thread { drive with pc := kind.givenUp .stop }
  | takes (b pollCount : Nat) (place : drive.pc = .poll b pollCount)
      (inBatch : b < drive.batchCount) (ready : drive.queue.cqeReady = true)
      (success : (drive.queue.completionQueue drive.queue.cqHead).ok = true) :
      Move setup kind drive .thread
        { drive with queue := drive.queue.consume, pc := .poll (b + 1) 0 }
  | fails (b pollCount : Nat) (place : drive.pc = .poll b pollCount)
      (inBatch : b < drive.batchCount) (ready : drive.queue.cqeReady = true)
      (failed : ¬ (drive.queue.completionQueue drive.queue.cqHead).ok = true) :
      Move setup kind drive .thread { drive with pc := kind.givenUp .cqeError }
  | expires (b pollCount : Nat) (place : drive.pc = .poll b pollCount)
      (inBatch : b < drive.batchCount) (empty : ¬ drive.queue.cqeReady = true)
      (last : pollCount + 1 ≥ maxPolls) :
      Move setup kind drive .thread { drive with pc := kind.givenUp .timeout }
  | waits (b pollCount : Nat) (place : drive.pc = .poll b pollCount)
      (inBatch : b < drive.batchCount) (empty : ¬ drive.queue.cqeReady = true)
      (patient : ¬ pollCount + 1 ≥ maxPolls) :
      Move setup kind drive .thread { drive with pc := .poll b (pollCount + 1) }
  | closes (b pollCount : Nat) (isSingle : kind = .single)
      (place : drive.pc = .poll b pollCount) (whole : ¬ b < drive.batchCount) :
      Move setup kind drive .thread { drive with
        queue := drive.queue.ringCq
        opsDone := (drive.opsDone + drive.batchCount) % 2 ^ 32
        pc := .top }
  | polled (b pollCount : Nat) (isWavefront : kind = .wavefront)
      (place : drive.pc = .poll b pollCount) (whole : ¬ b < drive.batchCount) :
      Move setup kind drive .thread { drive with pc := .epilogue none }
  | ends (early : Option Cause) (isWavefront : kind = .wavefront)
      (place : drive.pc = .epilogue early) :
      Move setup kind drive .thread (setup.epilogue drive early)
  | asked : Move setup kind drive .stop { drive with stopFlag := true }
  | answers (label : QueuePair.Controller) (queue : QueuePair)
      (answer : drive.queue.controller label = some queue) :
      Move setup kind drive (.controller label) { drive with queue := queue }

section

variable {setup : Setup} {drive next : Drive}

theorem move_of_singleThread (move : setup.singleThread drive = some next) :
    Move setup .single drive .thread next := by
  cases place : drive.pc with
  | top =>
    simp only [singleThread, place] at move
    split at move <;> obtain rfl := Option.some.inj move
    case isTrue wanted => exact .opens place fun _ => wanted.1
    case isFalse left => exact .leaves rfl place left
  | write b =>
    simp only [singleThread, place] at move
    split at move
    case isTrue inBatch =>
      split at move <;> cases move
      case isTrue valid => exact .submits b rfl place inBatch valid
      case isFalse invalid => exact .refuses b rfl place inBatch invalid
    case isFalse whole =>
      cases move
      exact .rings b rfl place whole
  | poll b pollCount =>
    simp only [singleThread, place] at move
    split at move
    case isTrue inBatch =>
      split at move
      case isTrue stopped =>
        cases move
        exact .stops b pollCount place inBatch stopped.1
      case isFalse =>
        split at move <;> rename_i polled <;> split at move <;> rename_i outcome <;>
          obtain rfl := Option.some.inj move
        · exact .takes b pollCount place inBatch polled outcome
        · exact .fails b pollCount place inBatch polled outcome
        · exact .expires b pollCount place inBatch polled outcome
        · exact .waits b pollCount place inBatch polled outcome
    case isFalse whole =>
      obtain rfl := Option.some.inj move
      exact .closes b pollCount rfl place whole
  | prepare | epilogue | returned | trapped => exact absurd move (by simp [singleThread, place])

theorem move_of_wavefrontThread (move : setup.wavefrontThread drive = some next) :
    Move setup .wavefront drive .thread next := by
  cases place : drive.pc with
  | top =>
    simp only [wavefrontThread, place, Option.some.injEq] at move
    subst move
    exact .opens place fun impossible => absurd impossible (by simp)
  | prepare prepared =>
    simp only [wavefrontThread, place] at move
    split at move
    case isFalse => cases move
    case isTrue arrived =>
      split at move <;> cases move
      case isTrue failed => exact .aborts prepared rfl place failed
      case isFalse fine =>
        refine .publishes prepared rfl place (fun b below => ?_) (Bool.eq_false_iff.mpr fine)
        exact List.contains_iff_mem.mp (List.all_eq_true.mp arrived b (List.mem_range.mpr below))
  | poll b pollCount =>
    simp only [wavefrontThread, place] at move
    split at move
    case isTrue inBatch =>
      split at move
      case isTrue stopped =>
        cases move
        exact .stops b pollCount place inBatch stopped.1
      case isFalse =>
        split at move <;> rename_i polled <;> split at move <;> rename_i outcome <;>
          cases move
        · exact .takes b pollCount place inBatch polled outcome
        · exact .fails b pollCount place inBatch polled outcome
        · exact .expires b pollCount place inBatch polled outcome
        · exact .waits b pollCount place inBatch polled outcome
    case isFalse whole =>
      cases move
      exact .polled b pollCount rfl place whole
  | epilogue early =>
    simp only [wavefrontThread, place, Option.some.injEq] at move
    subst move
    exact .ends early rfl place
  | write | returned | trapped => exact absurd move (by simp [wavefrontThread, place])

theorem move_of_environment {kind : Kind} {label : DriveLabel}
    (move : environment drive label = some next) : Move setup kind drive label next := by
  cases label with
  | thread | worker => exact absurd move (by simp [environment])
  | stop =>
    cases move
    exact .asked
  | controller label =>
    cases answer : drive.queue.controller label with
    | none => exact absurd move (by simp [environment, answer])
    | some queue =>
      simp only [environment, answer, Option.some.injEq] at move
      subst move
      exact .answers label queue answer

theorem move_of_step {kind : Kind} {label : DriveLabel}
    (move : setup.driveEndpointOf kind drive label = some next) :
    Move setup kind drive label next := by
  cases kind with
  | single =>
    cases label with
    | thread => exact move_of_singleThread move
    | worker => exact absurd move (by simp [driveEndpointOf, driveEndpointSingle])
    | stop => exact move_of_environment move
    | controller => exact move_of_environment move
  | wavefront =>
    cases label with
    | thread => exact move_of_wavefrontThread move
    | stop => exact move_of_environment move
    | controller => exact move_of_environment move
    | worker b =>
      simp only [driveEndpointOf, driveEndpointWavefront] at move
      split at move
      case h_2 => cases move
      case h_1 prepared place =>
        obtain ⟨⟨inBatch, first⟩, ⟨⟩⟩ := Option.ite_none_right_eq_some.mp move
        exact .prepares prepared b rfl place inBatch first

end

end Setup

end RocmXio.Nvme
