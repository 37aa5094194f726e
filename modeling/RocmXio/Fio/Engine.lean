/-
The fio engine: a CPU thread that posts operations to a persistent GPU kernel.

The engine keeps the outstanding `io_u`s of one file in a ring of `RXIO_RING` places and posts a
work item for each into a second ring. Its sequence word is odd when posted, even when done and zero
when reaped. The kernel turns each item into one NVMe command and waits for its completion.

The model interleaves the calls of the CPU thread, the iterations of `fio_rocm_xio_getevents`, the
kernel, the controller and the stop flag. History records which operations were queued, signalled,
reaped and handed to fio, and what the controller owed when the kernel exited.
-/

import RocmXio.Nvme.Prp
import RocmXio.Nvme.QueuePair

namespace RocmXio.Fio

open Nvme Function

def wordRange : Nat := 2 ^ 32

def rxioRing : Nat := 63

/-- The value of an `unsigned int` converted to `int`. -/
def asInt (value : Nat) : Int :=
  if value % wordRange < 2 ^ 31 then (value % wordRange : Nat)
  else (value % wordRange : Nat) - (wordRange : Nat)

inductive Ddir where
  | read
  | write
  | sync
  | datasync
  | other
deriving DecidableEq, Repr

/-- The part of fio's `io_u` that the engine reads, with a number that tells `io_u`s apart. -/
structure IoU where
  tag : Nat
  ddir : Ddir
  offset : Nat
  xferBuflen : Nat
deriving DecidableEq, Repr

structure WorkItem where
  lba : Nat := 0
  lbas : Nat := 0
  slot : Nat := 0
  isWrite : Bool := false
  seq : Nat := 0
deriving DecidableEq, Repr

/-- The job options and device properties that `fio_rocm_xio_open_file` works from. -/
structure Job where
  iodepth : Nat
  maxBsRead : Nat
  maxBsWrite : Nat
  lbaSize : Nat
  queueDepth : Nat
deriving DecidableEq, Repr

namespace Job

/-- The iodepth capped to the `io_u` ring: the depth of the work ring and the number of
buffer slots. -/
def cappedIodepth (job : Job) : Nat :=
  if asInt job.iodepth < 1 then 1
  else if asInt job.iodepth > rxioRing then rxioRing
  else (asInt job.iodepth).toNat

theorem cappedIodepth_le (job : Job) : job.cappedIodepth ≤ 63 := by
  have ring : rxioRing = 63 := rfl
  rw [cappedIodepth]
  split_ifs <;> omega

/-- The number of slots for which `rxio_setup` allocates buffer space and PRP lists. -/
def batchCap (job : Job) : Nat :=
  job.cappedIodepth

def singleSize (job : Job) : Nat :=
  pageRound (max job.maxBsRead job.maxBsWrite)

def bufSize (job : Job) : Nat :=
  job.singleSize * job.cappedIodepth % 2 ^ 64

/-- `ev->cap`. -/
def eventCap (job : Job) : Int :=
  asInt (job.iodepth + 16)

end Job

/-- Where the CPU thread is: outside `fio_rocm_xio_getevents`, in its inner loop, or at the
test of its outer loop. -/
inductive Cpu where
  | outside
  | drain (min max : Nat) (found : Int)
  | check (min max : Nat) (found : Int)
deriving DecidableEq, Repr

/-- Where the kernel is: at the top of its loop, waiting for an item, polling for its completion, or
gone. -/
inductive Gpu where
  | top
  | spin
  | poll (item : WorkItem) (pollCount : Nat)
  | exited
deriving DecidableEq, Repr

/-- The file, the shared memory, the kernel and the queue pair. `queued`, `completed`, `reaped`,
`returned` and `owedAtExit` are history. -/
structure Engine where
  job : Job
  ring : Nat → Option IoU
  ringHead : Nat
  ringTail : Nat
  ringCount : Nat
  prodIdx : Nat
  consIdx : Nat
  workRing : Nat → WorkItem
  cpu : Cpu
  gpu : Gpu
  index : Nat
  queue : QueuePair
  stopFlag : Bool
  savedTail : Nat
  savedHead : Nat
  queued : List (IoU × WorkItem)
  completed : List WorkItem
  reaped : List IoU
  returned : List IoU
  owedAtExit : Nat

/-- The state after a successful `fio_rocm_xio_open_file`. -/
def Engine.openFile (job : Job) : Engine where
  job := job
  ring := fun _ => none
  ringHead := 0
  ringTail := 0
  ringCount := 0
  prodIdx := 0
  consIdx := 0
  workRing := fun _ => {}
  cpu := .outside
  gpu := .top
  index := 0
  queue := .create job.queueDepth
  stopFlag := false
  savedTail := 0
  savedHead := 0
  queued := []
  completed := []
  reaped := []
  returned := []
  owedAtExit := 0

namespace Engine

/-! ### The CPU side -/

def workSeq (idx : Nat) : Nat := (idx * 2 + 1) % wordRange

def doneSeq (idx : Nat) : Nat := (idx * 2 + 2) % wordRange

variable (engine : Engine)

/-- `rxio_post_work`; `none` is `-ENOSPC`. -/
def rxioPostWork (lba lbas : Nat) (isWrite : Bool) (slot : Nat) : Option (WorkItem × Engine) :=
  let idx := engine.prodIdx
  let pos := idx % engine.job.cappedIodepth
  if (engine.workRing pos).seq ≠ 0 then none
  else
    let item : WorkItem := ⟨lba, lbas, slot, isWrite, workSeq idx⟩
    some (item, { engine with
      workRing := update engine.workRing pos item
      prodIdx := (idx + 1) % wordRange })

/-- `rxio_reap`: `none` stands for the return value 0, `some` for 1. -/
def rxioReap : Option Engine :=
  let idx := engine.consIdx
  if idx ≥ engine.prodIdx then none
  else
    let pos := idx % engine.job.cappedIodepth
    if (engine.workRing pos).seq ≠ doneSeq idx then none
    else some { engine with
      workRing := update engine.workRing pos { engine.workRing pos with seq := 0 }
      consIdx := (idx + 1) % wordRange }

inductive QStatus where
  | completed
  | queued
  | busy
deriving DecidableEq, Repr

def transferBlocks (ioU : IoU) : Nat :=
  let blocks := ioU.xferBuflen / engine.job.lbaSize % wordRange
  if blocks = 0 then 1 else blocks

/-- `fio_rocm_xio_queue` for a read or a write. -/
def queueTransfer (ioU : IoU) : QStatus × Engine :=
  if engine.job.lbaSize = 0 then (.completed, engine)
  else if engine.ringCount ≥ engine.job.cappedIodepth then (.busy, engine)
  else
    let isWrite := decide (ioU.ddir = .write)
    let lba := ioU.offset / engine.job.lbaSize
    let lbas := engine.transferBlocks ioU
    let slot := engine.ringHead
    let recorded := { engine with
      ring := update engine.ring slot (some ioU)
      ringHead := (engine.ringHead + 1) % rxioRing
      ringCount := engine.ringCount + 1 }
    match recorded.rxioPostWork lba lbas isWrite slot with
    | none => (.busy, { engine with ring := update engine.ring slot none })
    | some (item, posted) =>
      (.queued, { posted with queued := posted.queued ++ [(ioU, item)] })

/-- `fio_rocm_xio_queue`. -/
def fioQueue (ioU : IoU) : QStatus × Engine :=
  match ioU.ddir with
  | .sync | .datasync | .other => (.completed, engine)
  | .read | .write => engine.queueTransfer ioU

/-- One turn of the inner loop of `fio_rocm_xio_getevents`. -/
def drainStep (min max : Nat) (found : Int) : Engine :=
  if 0 < engine.ringCount ∧ found < asInt max then
    match engine.rxioReap with
    | none => { engine with cpu := .check min max found }
    | some reaped =>
      let retired := { reaped with
        ringTail := (reaped.ringTail + 1) % rxioRing
        ringCount := reaped.ringCount - 1 }
      match reaped.ring reaped.ringTail with
      | none => { retired with cpu := .drain min max found }
      | some ioU =>
        let retired := { retired with reaped := retired.reaped ++ [ioU] }
        if found < retired.job.eventCap then
          { retired with
            returned := retired.returned ++ [ioU]
            cpu := .drain min max (found + 1) }
        else { retired with cpu := .drain min max found }
  else { engine with cpu := .check min max found }

/-! ### The kernel -/

/-- `done`: the kernel writes the queue state back and exits. -/
def exitKernel : Engine :=
  { engine with
    gpu := .exited
    savedTail := engine.queue.sqTail
    savedHead := engine.queue.cqHead
    owedAtExit := engine.queue.submitted - engine.queue.posted.length }

/-- The kernel submits the command of an item and rings the doorbell. -/
def takeItem (item : WorkItem) : Engine :=
  { engine with
    queue := engine.queue.submit.ringSq
    gpu := .poll item 0 }

/-- The kernel takes the completion, rings the doorbell, makes the item's sequence word even and
writes the queue state back. -/
def completeItem (item : WorkItem) : Engine :=
  let queue := engine.queue.consume.ringCq
  let pos := engine.index % engine.job.cappedIodepth
  { engine with
    queue := queue
    workRing := update engine.workRing pos
      { engine.workRing pos with seq := doneSeq engine.index }
    savedTail := queue.sqTail
    savedHead := queue.cqHead
    index := (engine.index + 1) % wordRange
    gpu := .top
    completed := engine.completed ++ [item] }

/-- One step of `gpuKernelPersistent`. -/
def gpuStep : Option Engine :=
  match engine.gpu with
  | .top => some (if engine.stopFlag then engine.exitKernel else { engine with gpu := .spin })
  | .spin =>
    let item := engine.workRing (engine.index % engine.job.cappedIodepth)
    if item.seq = workSeq engine.index then some (engine.takeItem item)
    else if engine.stopFlag then some engine.exitKernel
    else some engine
  | .poll item pollCount =>
    if pollCount % 4096 = 0 ∧ engine.stopFlag then some engine.exitKernel
    else if engine.queue.cqeReady then some (engine.completeItem item)
    else some { engine with gpu := .poll item (pollCount + 1) }
  | .exited => none

/-! ### The system -/

/-- Who moves. The flag of a CPU step says whether the deadline of `getevents` has passed. -/
inductive Label where
  | queue (ioU : IoU)
  | getevents (min max : Nat)
  | cpu (expired : Bool)
  | gpu
  | controller (label : QueuePair.Controller)
  | stop
deriving DecidableEq, Repr

/-- One step of the system. A `getevents` call whose event array cannot be allocated returns
at once. -/
def step : Label → Option Engine
  | .queue ioU =>
    match engine.cpu with
    | .outside => some (engine.fioQueue ioU).2
    | _ => none
  | .getevents min max =>
    match engine.cpu with
    | .outside =>
      if 0 ≤ engine.job.eventCap then some { engine with cpu := .drain min max 0 }
      else some engine
    | _ => none
  | .cpu expired =>
    match engine.cpu with
    | .outside => none
    | .drain min max found => some (engine.drainStep min max found)
    | .check min max found =>
      if found < asInt min ∧ expired = false then
        some { engine with cpu := .drain min max found }
      else some { engine with cpu := .outside }
  | .gpu => engine.gpuStep
  | .controller label =>
    match engine.queue.controller label with
    | none => none
    | some queue => some { engine with queue := queue }
  | .stop => some { engine with stopFlag := true }

/-! ### What a step can do -/

def recordPost (ioU : IoU) (item : WorkItem) : Engine :=
  { engine with
    ring := update engine.ring engine.ringHead (some ioU)
    ringHead := (engine.ringHead + 1) % rxioRing
    ringCount := engine.ringCount + 1
    workRing := update engine.workRing (engine.prodIdx % engine.job.cappedIodepth) item
    prodIdx := (engine.prodIdx + 1) % wordRange
    queued := engine.queued ++ [(ioU, item)] }

def recordReap (ioUs returned : List IoU) (cpu : Cpu) : Engine :=
  { engine with
    workRing := update engine.workRing (engine.consIdx % engine.job.cappedIodepth)
      { engine.workRing (engine.consIdx % engine.job.cappedIodepth) with seq := 0 }
    consIdx := (engine.consIdx + 1) % wordRange
    ringTail := (engine.ringTail + 1) % rxioRing
    ringCount := engine.ringCount - 1
    reaped := engine.reaped ++ ioUs
    returned := returned
    cpu := cpu }

/-- The possible effects of a step, with what is known when they happen. -/
inductive Transition (engine : Engine) : Label → Engine → Prop where
  | idle (label : Label) : Transition engine label engine
  | refused (ioU : IoU) (room : engine.ringCount < engine.job.cappedIodepth) :
    Transition engine (.queue ioU)
      { engine with ring := update engine.ring engine.ringHead none }
  | post (ioU : IoU) (item : WorkItem) (outside : engine.cpu = .outside)
    (accepted : (engine.fioQueue ioU).1 = .queued)
    (room : engine.ringCount < engine.job.cappedIodepth)
    (free : (engine.workRing (engine.prodIdx % engine.job.cappedIodepth)).seq = 0)
    (slot : item.slot = engine.ringHead) (seq : item.seq = workSeq engine.prodIdx) :
    Transition engine (.queue ioU) (engine.recordPost ioU item)
  | cpu (label : Label) (cpu : Cpu)
    (continues : ∀ min max found, cpu = .drain min max found ∨ cpu = .check min max found →
      found = 0 ∧ engine.cpu = .outside ∨
        engine.cpu = .drain min max found ∨ engine.cpu = .check min max found) :
    Transition engine label { engine with cpu := cpu }
  | reap (expired : Bool) (min max : Nat) (found : Int) (ioU : Option IoU) (handed : Bool)
    (draining : engine.cpu = .drain min max found)
    (more : engine.consIdx < engine.prodIdx)
    (done : (engine.workRing (engine.consIdx % engine.job.cappedIodepth)).seq =
      doneSeq engine.consIdx)
    (oldest : engine.ring engine.ringTail = ioU) (outstanding : 0 < engine.ringCount)
    (space : handed = true ↔ found < engine.job.eventCap ∧ ioU ≠ none) :
    Transition engine (.cpu expired) (engine.recordReap ioU.toList
      (if handed then engine.returned ++ ioU.toList else engine.returned)
      (.drain min max (if handed then found + 1 else found)))
  | spin (top : engine.gpu = .top) : Transition engine .gpu { engine with gpu := .spin }
  | exit (stopped : engine.stopFlag = true) (running : engine.gpu ≠ .exited) :
    Transition engine .gpu engine.exitKernel
  | take (spinning : engine.gpu = .spin)
    (seq : (engine.workRing (engine.index % engine.job.cappedIodepth)).seq = workSeq engine.index) :
    Transition engine .gpu
      (engine.takeItem (engine.workRing (engine.index % engine.job.cappedIodepth)))
  | complete (item : WorkItem) (pollCount : Nat) (polling : engine.gpu = .poll item pollCount)
    (ready : engine.queue.cqeReady = true) : Transition engine .gpu (engine.completeItem item)
  | again (item : WorkItem) (pollCount : Nat) (polling : engine.gpu = .poll item pollCount) :
    Transition engine .gpu { engine with gpu := .poll item (pollCount + 1) }
  | controller (label : QueuePair.Controller) (queue : QueuePair)
    (move : engine.queue.controller label = some queue) :
    Transition engine (.controller label) { engine with queue := queue }
  | stop : Transition engine .stop { engine with stopFlag := true }

def transferItem (ioU : IoU) : WorkItem where
  lba := ioU.offset / engine.job.lbaSize
  lbas := engine.transferBlocks ioU
  slot := engine.ringHead
  isWrite := decide (ioU.ddir = .write)
  seq := workSeq engine.prodIdx

theorem queueTransfer_eq (ioU : IoU) (size : engine.job.lbaSize ≠ 0)
    (room : engine.ringCount < engine.job.cappedIodepth)
    (free : (engine.workRing (engine.prodIdx % engine.job.cappedIodepth)).seq = 0) :
    engine.queueTransfer ioU = (.queued, engine.recordPost ioU (engine.transferItem ioU)) := by
  simp [queueTransfer, rxioPostWork, size, Nat.not_le_of_lt room, free, transferItem, recordPost]

theorem queueTransfer_transition (ioU : IoU) (outside : engine.cpu = .outside)
    (transfer : engine.fioQueue ioU = engine.queueTransfer ioU) :
    Transition engine (.queue ioU) (engine.queueTransfer ioU).2 := by
  by_cases noSize : engine.job.lbaSize = 0
  · rw [queueTransfer, if_pos noSize]
    exact .idle _
  by_cases full : engine.ringCount ≥ engine.job.cappedIodepth
  · rw [queueTransfer, if_neg noSize, if_pos full]
    exact .idle _
  by_cases free : (engine.workRing (engine.prodIdx % engine.job.cappedIodepth)).seq = 0
  · have accepted := queueTransfer_eq engine ioU noSize (Nat.lt_of_not_ge full) free
    rw [accepted] at transfer ⊢
    exact .post ioU _ outside (by rw [transfer]) (Nat.lt_of_not_ge full) free rfl rfl
  · have refused : Transition engine _ _ := .refused ioU (Nat.lt_of_not_ge full)
    simpa [queueTransfer, rxioPostWork, noSize, full, free] using refused

theorem fioQueue_transition (ioU : IoU) (outside : engine.cpu = .outside) :
    Transition engine (.queue ioU) (engine.fioQueue ioU).2 := by
  cases ddir : ioU.ddir with
  | read | write =>
    have transfer : engine.fioQueue ioU = engine.queueTransfer ioU := by simp [fioQueue, ddir]
    rw [transfer]
    exact queueTransfer_transition engine ioU outside transfer
  | sync | datasync | other =>
    have nothing : (engine.fioQueue ioU).2 = engine := by simp [fioQueue, ddir]
    rw [nothing]
    exact .idle _

theorem drainStep_transition (expired : Bool) {min max : Nat} {found : Int}
    (draining : engine.cpu = .drain min max found) :
    Transition engine (.cpu expired) (engine.drainStep min max found) := by
  have toCheck : Transition engine (.cpu expired) { engine with cpu := .check min max found } := by
    refine .cpu _ _ fun otherMin otherMax otherFound same => ?_
    simp only [reduceCtorEq, Cpu.check.injEq, false_or] at same
    obtain ⟨rfl, rfl, rfl⟩ := same
    exact Or.inr (Or.inl draining)
  by_cases goes : 0 < engine.ringCount ∧ found < asInt max
  · by_cases empty : engine.consIdx ≥ engine.prodIdx
    · simpa [drainStep, rxioReap, goes, empty] using toCheck
    · by_cases done : (engine.workRing (engine.consIdx % engine.job.cappedIodepth)).seq =
          doneSeq engine.consIdx
      · have reap := fun ioU handed => Transition.reap expired min max found ioU handed draining
          (Nat.lt_of_not_ge empty) done
        cases oldest : engine.ring engine.ringTail with
        | none =>
          simpa [drainStep, rxioReap, goes, empty, done, oldest, recordReap] using
            reap none false oldest goes.1 (by simp)
        | some ioU =>
          by_cases room : found < engine.job.eventCap
          · simpa [drainStep, rxioReap, goes, empty, done, oldest, room, recordReap] using
              reap (some ioU) true oldest goes.1 (by simp [room])
          · simpa [drainStep, rxioReap, goes, empty, done, oldest, room, recordReap] using
              reap (some ioU) false oldest goes.1 (by simp [room])
      · simpa [drainStep, rxioReap, goes, empty, done] using toCheck
  · simpa [drainStep, goes] using toCheck

theorem gpuStep_transition {engine next : Engine} (move : engine.gpuStep = some next) :
    Transition engine .gpu next := by
  cases gpu : engine.gpu with
  | top =>
    simp only [gpuStep, gpu, Option.some.injEq] at move
    subst move
    split
    case isTrue stopped => exact .exit stopped (by simp [gpu])
    case isFalse => exact .spin gpu
  | spin =>
    simp only [gpuStep, gpu] at move
    split at move
    case isTrue seq =>
      cases move
      exact .take gpu seq
    case isFalse =>
      split at move
      case isTrue stopped =>
        cases move
        exact .exit stopped (by simp [gpu])
      case isFalse =>
        cases move
        exact .idle _
  | poll item pollCount =>
    simp only [gpuStep, gpu] at move
    split at move
    case isTrue stopped =>
      cases move
      exact .exit stopped.2 (by simp [gpu])
    case isFalse =>
      split at move
      case isTrue ready =>
        cases move
        exact .complete item pollCount gpu ready
      case isFalse =>
        cases move
        exact .again item pollCount gpu
  | exited =>
    simp only [gpuStep, gpu] at move
    exact absurd move (by simp)

theorem step_transition {engine next : Engine} {label : Label}
    (move : engine.step label = some next) : Transition engine label next := by
  cases label with
  | queue ioU =>
    cases cpu : engine.cpu with
    | outside =>
      simp only [step, cpu, Option.some.injEq] at move
      exact move ▸ fioQueue_transition engine ioU cpu
    | drain | check => simp [step, cpu] at move
  | getevents min max =>
    cases cpu : engine.cpu with
    | outside =>
      simp only [step, cpu] at move
      split at move
      case isTrue =>
        cases move
        refine .cpu _ _ fun otherMin otherMax found same => Or.inl ?_
        simp only [Cpu.drain.injEq, reduceCtorEq, or_false] at same
        exact ⟨same.2.2.symm, cpu⟩
      case isFalse =>
        cases move
        exact .idle _
    | drain | check => simp [step, cpu] at move
  | cpu expired =>
    cases cpu : engine.cpu with
    | outside => simp [step, cpu] at move
    | drain min max found =>
      simp only [step, cpu, Option.some.injEq] at move
      exact move ▸ drainStep_transition engine expired cpu
    | check min max found =>
      simp only [step, cpu] at move
      split at move
      case isTrue =>
        cases move
        refine .cpu _ _ fun otherMin otherMax otherFound same => Or.inr (Or.inr ?_)
        simp only [Cpu.drain.injEq, reduceCtorEq, or_false] at same
        obtain ⟨rfl, rfl, rfl⟩ := same
        exact cpu
      case isFalse =>
        cases move
        exact .cpu _ _ fun _ _ _ impossible => absurd impossible (by simp)
  | gpu => exact gpuStep_transition move
  | controller label =>
    simp only [step] at move
    split at move
    case h_1 => cases move
    case h_2 queue moved =>
      cases move
      exact .controller label queue moved
  | stop =>
    cases move
    exact .stop

end Engine

end RocmXio.Fio
