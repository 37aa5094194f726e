/-
`createQueue`: all or nothing.

`createQueue` opens the kernel module and the controller, sets up the memory of the two queues,
registers it and has the controller create the queues. When a call fails it should return a negative
code, release what it has acquired, and leave no queue whose memory is gone.

That goes wrong in four ways. When the kind of the controller cannot be detected, the code is
negated twice and comes out positive. Memory that `malloc` gave in place of coherent memory is not
freed. A refused submission queue leaves the completion queue on the controller, in memory that is
then freed. And a command that is refused with a status passes for a success. This file says exactly
when none of these happens.
-/

import RocmXio.Common.QueueOwnership
import RocmXio.Nvme.Prp

namespace RocmXio.Nvme

open Lib Common Errno Function

/-! ### The commands -/

/-- The ioctl with an admin command fails, or returns the status of the command and fills in its
result. An interrupted command is sent again, so this is the answer to the last one. -/
inductive AdminReply where
  | failed (errno : Errno)
  | completed (status result : Nat)

namespace AdminReply

def succeeded : AdminReply → Bool
  | .completed 0 _ => true
  | _ => false

/-- What `createQueueCommands` takes from it: the result is checked as if it were the status. -/
def code : AdminReply → Int
  | .failed errno => errno.negated
  | .completed _ result => if result &&& 0xFFFE ≠ 0 then EIO.negated else 0

end AdminReply

inductive Side where
  | sq
  | cq
deriving DecidableEq

/-- The queues with the given id on the controller, and the objects in which each one lies. -/
abbrev Controller := Side → Option (Finset Nat)

/-- The arguments of `createQueue`, whether queues with that id exist already, and the outcomes of
all calls. -/
structure QueueCall where
  nvmeDevice : Bool
  kernelModuleDevice : Bool
  info : Bool
  queueSize : Nat
  memoryMode : Nat
  existing : Side → Bool
  openKmod : Option Errno
  detect : DetectCalls
  openNvme : Nat → Option Errno
  cap : CapCalls
  queues : Side → QueueCalls
  deleteSq : AdminReply
  deleteCq : AdminReply
  createCq : AdminReply
  createSq : AdminReply

/-- The local variables of `createQueue`, what is registered by the number of the block, and the
controller. -/
structure QueueFrame where
  setups : Side → QueueSetup
  ledger : Ledger
  registered : Nat → Finset Nat
  controller : Controller

/-- What `createQueue` returns, the fields of `info`, and what it leaves. -/
structure QueueOutcome where
  code : Int
  info : Option (Side → QueueSetup)
  ledger : Ledger
  controller : Controller

namespace QueueCall

/-- The size of an entry: `NVME_EP_SQE_SIZE` and `NVME_EP_CQE_SIZE`. -/
def entrySize : Side → Nat
  | .sq => 64
  | .cq => 16

variable (call : QueueCall)

/-- `sq_size_bytes` and `cq_size_bytes`. -/
def sizeBytes (side : Side) : Nat :=
  call.queueSize * entrySize side

/-- `sq_is_device` and `cq_is_device`. -/
def isDevice : Side → Bool
  | .sq => call.memoryMode.testBit 0
  | .cq => call.memoryMode.testBit 1

/-- `sq_multi_page` and `cq_multi_page`. -/
def multiPage (side : Side) : Bool :=
  !call.isDevice side && decide (call.sizeBytes side > pageSize)

def valid : Bool :=
  call.nvmeDevice && call.kernelModuleDevice && call.info && call.queueSize != 0 &&
    call.queueSize &&& (call.queueSize - 1) == 0

def oldController : Controller := fun side =>
  if call.existing side then some ∅ else none

/-- `deleteQueue`: failures are ignored. -/
def deleteQueue (controller : Controller) : Controller
  | .sq => if call.deleteSq.succeeded then none else controller .sq
  | .cq => if call.deleteCq.succeeded then none else controller .cq

/-- One queue as the controller has it after a command to create it. -/
def created (reply : AdminReply) (side : Side) (memory : Finset Nat) (controller : Controller) :
    Controller :=
  if reply.succeeded then update controller side (some memory) else controller

/-- `createQueueCommands`. The kernel module puts the registered addresses into the
commands. -/
def createQueueCommands (sqVirt cqVirt : Option Block)
    (registered : Nat → Finset Nat) (controller : Controller) : Int × Controller :=
  match sqVirt, cqVirt with
  | some sqVirt, some cqVirt =>
    if call.queueSize = 0 then (EINVAL.negated, controller)
    else
      let controller := created call.createCq .cq (registered cqVirt.object) controller
      if call.createCq.code < 0 then (call.createCq.code, controller)
      else
        (call.createSq.code, created call.createSq .sq (registered sqVirt.object) controller)
  | _, _ => (EINVAL.negated, controller)

/-! ### The steps -/

/-- Memory for a queue: a contiguous buffer if the controller needs one. -/
def setupQueue (emulated cqr : Bool) (side : Side) : Step QueueFrame :=
  fun frame =>
    let result :=
      if cqr && call.multiPage side then
        (call.queues side).contig.setupContigQueueForGpu (call.sizeBytes side) frame.ledger
      else
        (call.queues side).setupQueueForGpu (call.sizeBytes side) (call.isDevice side)
          call.kernelModuleDevice emulated frame.ledger
    (result.1, { frame with
      setups := update frame.setups side result.2.1, ledger := result.2.2 })

/-- `freeQueueSetup` for one of the queues. -/
def freeQueue (side : Side) (frame : QueueFrame) : QueueFrame :=
  let result := (frame.setups side).freeQueueSetup (call.isDevice side) frame.ledger
  { frame with setups := update frame.setups side result.1, ledger := result.2 }

def freeQueues (frame : QueueFrame) : QueueFrame :=
  call.freeQueue .cq (call.freeQueue .sq frame)

/-- `buildQueuePrpList` for one of the queues. -/
def buildList (side : Side) : Step QueueFrame := fun frame =>
  let result := (call.queues side).buildQueuePrpList (frame.setups side) (call.sizeBytes side)
    (call.isDevice side) frame.ledger
  (result.1, { frame with
    setups := update frame.setups side result.2.1, ledger := result.2.2 })

/-- The objects behind `sq_prp1` or `cq_prp1`: the list, if there is one, names the pages. -/
def prp1Objects (setup : QueueSetup) (virt : Block) : Finset Nat :=
  if setup.prpListPhys = 0 then virt.objects
  else virt.objects ∪ setup.prpList.elim ∅ singleton

/-- `kmodRegQueue` for one of the queues. -/
def kmodRegQueue (side : Side) : Step QueueFrame := fun frame =>
  match (frame.setups side).virt with
  | none => (EINVAL.negated, frame)
  | some virt =>
    if call.sizeBytes side = 0 then (EINVAL.negated, frame)
    else
      match (call.queues side).registerQueue with
      | some errno => (errno.negated, frame)
      | none =>
        let objects := prp1Objects (frame.setups side) virt
        (0, { frame with registered := update frame.registered virt.object objects })

def prepare (emulated cqr : Bool) : Step QueueFrame :=
  (call.setupQueue emulated cqr .sq).andThen
    (((call.setupQueue emulated cqr .cq).onFailure (call.freeQueue .sq)).andThen
      ((((call.buildList .sq).onFailure call.freeQueues).when
          (!cqr && call.multiPage .sq)).andThen
        ((((call.buildList .cq).onFailure call.freeQueues).when
            (!cqr && call.multiPage .cq)).andThen
          (((call.kmodRegQueue .sq).onFailure call.freeQueues).andThen
            ((call.kmodRegQueue .cq).onFailure call.freeQueues)))))

def createQueues : Step QueueFrame := fun frame =>
  let result := call.createQueueCommands (frame.setups .sq).virt (frame.setups .cq).virt
    frame.registered (call.deleteQueue frame.controller)
  (result.1, { frame with controller := result.2 })

/-- The end of `createQueue`, or the label `cleanup`. -/
def finish (kmodFd nvmeFd : Nat) (ret : Int) (frame : QueueFrame) : QueueOutcome :=
  if ret < 0 then
    let frame := call.freeQueues frame
    ⟨ret, none, (frame.ledger.release nvmeFd).release kmodFd, frame.controller⟩
  else ⟨0, some frame.setups, (frame.ledger.release nvmeFd).release kmodFd, frame.controller⟩

/-- `createQueue` when both descriptors are open. -/
def createWith (emulated : Bool) (kmodFd nvmeFd : Nat) (ledger : Ledger) : QueueOutcome :=
  match call.cap.readNvmeCapCqr ledger with
  | (code, cqr, ledger) =>
    let cqr := if code < 0 then true else cqr
    let body := (call.prepare emulated cqr).andThen (call.createQueues.onFailure call.freeQueues)
    let result := body ⟨fun _ => .zero, ledger, fun _ => ∅, call.oldController⟩
    call.finish kmodFd nvmeFd result.1 result.2

/-- `createQueue`. -/
def createQueue : QueueOutcome :=
  if !call.valid then ⟨EINVAL.negated, none, .empty, call.oldController⟩
  else
    match openFile call.openKmod .empty with
    | (.error errno, ledger) => ⟨errno.negated, none, ledger, call.oldController⟩
    | (.ok kmodFd, ledger) =>
      match call.detect.detectEmulatedNvme ledger with
      | (code, emulated, ledger) =>
        if code ≠ 0 then ⟨-code, none, ledger.release kmodFd, call.oldController⟩
        else
          match openDeviceWithRetry call.openNvme ledger with
          | (.error errno, ledger) =>
            ⟨errno.negated, none, ledger.release kmodFd, call.oldController⟩
          | (.ok nvmeFd, ledger) => call.createWith emulated kmodFd nvmeFd ledger

/-! ### The property and the condition -/

/-- A code that is not negative means that both queues exist, in allocated memory; a negative one
that everything was released once, and no queue is left in memory that was. -/
structure Atomic (outcome : QueueOutcome) : Prop where
  established : 0 ≤ outcome.code → ∃ setups, outcome.info = some setups ∧ ∀ side,
    outcome.controller side = some (setups side).objects ∧
      ∀ object ∈ (setups side).objects, outcome.ledger.Allocated object
  released : outcome.code < 0 → Ledger.Settled .empty outcome.ledger ∧
    ∀ side memory, outcome.controller side = some memory →
      ∀ object ∈ memory, outcome.ledger.Allocated object

def contiguous (side : Side) : Bool :=
  call.cap.cqr && call.multiPage side

def setupFails (side : Side) : Bool :=
  if call.contiguous side then (call.queues side).contig.setupFails (call.sizeBytes side)
  else (call.queues side).setupFails (call.sizeBytes side) (call.isDevice side)
    call.kernelModuleDevice call.detect.emulated

/-- The queue lies in a block of `malloc` that is taken for coherent memory. -/
def fallsBack (side : Side) : Bool :=
  !call.contiguous side && (call.queues side).fallsBack (call.sizeBytes side) (call.isDevice side)

def listFails (side : Side) : Bool :=
  !call.cap.cqr && call.multiPage side &&
    (call.queues side).listFails (call.sizeBytes side) (call.isDevice side)

def preparationFails : Bool :=
  call.setupFails .sq || call.setupFails .cq || call.listFails .sq || call.listFails .cq ||
    (call.queues .sq).registerQueue.isSome || (call.queues .cq).registerQueue.isSome

def losesMemory : Bool :=
  call.fallsBack .sq || (!call.setupFails .sq && call.fallsBack .cq)

def creationFails : Bool :=
  decide (call.createCq.code < 0) || decide (call.createSq.code < 0)

/-- The commands have created a queue, although one of them is taken for a failure. -/
def leavesQueue : Bool :=
  call.createCq.succeeded || (decide (0 ≤ call.createCq.code) && call.createSq.succeeded)

/-- If the kind of the controller is asked for, it is detected. A failure after that finds no memory
of `malloc` in place of coherent memory, and no queue already created; and commands not taken for
failures have created both queues. -/
def Recovers : Prop :=
  call.valid = true → call.openKmod = none → call.detect.fails = false ∧
    (retries call.openNvme 4 0 = none →
      if call.preparationFails then call.losesMemory = false
      else if call.creationFails then call.losesMemory = false ∧ call.leavesQueue = false
      else call.createCq.succeeded = true ∧ call.createSq.succeeded = true)

/-! ### Preparation -/

section

variable {call} {base : Ledger} {frame : QueueFrame}

structure FirstReady (call : QueueCall) (base : Ledger) (frame : QueueFrame) : Prop where
  ready : (frame.setups .sq).Ready base (call.isDevice .sq) (call.fallsBack .sq) frame.ledger
  passed : call.setupFails .sq = false
  controller : frame.controller = call.oldController

structure Holding (call : QueueCall) (base : Ledger) (frame : QueueFrame) : Prop where
  owns : base.Owns frame.ledger ((frame.setups .sq).objects ∪ (frame.setups .cq).objects)
  apart : Disjoint (frame.setups .sq).objects (frame.setups .cq).objects
  held : ∀ side, (frame.setups side).Held (call.isDevice side)
  lost : ∀ side, (frame.setups side).lost.Nonempty ↔ call.fallsBack side = true
  passed : call.setupFails .sq = false
  controller : frame.controller = call.oldController

/-- No queue has memory, and `losesMemory` says whether some is lost. -/
structure Dropped (call : QueueCall) (base : Ledger) (frame : QueueFrame) : Prop where
  empty : ∀ side, (frame.setups side).virt = none
  lost : ∃ lost, base.Owns frame.ledger lost ∧ (lost.Nonempty ↔ call.losesMemory = true)

theorem setupQueue_cases (call : QueueCall) (side : Side)
    (start : frame.ledger.Owns frame.ledger ∅) :
    ∃ code setup after, call.setupQueue call.detect.emulated call.cap.cqr side frame =
        (code, { frame with setups := update frame.setups side setup, ledger := after }) ∧
      ((call.setupFails side = true ∧ code < 0 ∧
          setup.Abandoned frame.ledger (call.fallsBack side) after) ∨
        (call.setupFails side = false ∧ code = 0 ∧
          setup.Ready frame.ledger (call.isDevice side) (call.fallsBack side) after)) := by
  unfold setupQueue setupFails fallsBack contiguous
  cases call.cap.cqr && call.multiPage side with
  | true =>
    obtain ⟨code, setup, after, result, outcome⟩ :=
      (call.queues side).contig.setupContigQueueForGpu_cases (call.sizeBytes side)
        (call.isDevice side) start
    simp only [if_true, result]
    exact ⟨_, _, _, rfl, outcome⟩
  | false =>
    obtain ⟨code, setup, after, result, outcome⟩ :=
      (call.queues side).setupQueueForGpu_cases (call.sizeBytes side) (call.isDevice side)
        call.kernelModuleDevice call.detect.emulated start
    simp only [Bool.false_eq_true, if_false, result]
    exact ⟨_, _, _, rfl, outcome⟩

variable {side : Side} {rest : Finset Nat}

theorem freeQueue_owns (held : (frame.setups side).Held (call.isDevice side))
    (owns : base.Owns frame.ledger ((frame.setups side).objects ∪ rest))
    (apart : Disjoint (frame.setups side).objects rest) :
    ((call.freeQueue side frame).setups side).virt = none ∧
      base.Owns (call.freeQueue side frame).ledger ((frame.setups side).lost ∪ rest) := by
  obtain ⟨empty, freed⟩ := held.freeQueueSetup_owns owns apart
  exact ⟨(congrArg QueueSetup.virt (update_self ..)).trans empty, freed⟩

variable {other : Side}

theorem freeQueue_setups_of_ne (ne : other ≠ side) :
    (call.freeQueue side frame).setups other = frame.setups other :=
  update_of_ne ne ..

theorem Holding.dropped (holding : Holding call base frame) :
    Dropped call base (call.freeQueues frame) := by
  obtain ⟨sqEmpty, sqFreed⟩ := freeQueue_owns (holding.held .sq) holding.owns holding.apart
  have cqSetup : (call.freeQueue .sq frame).setups .cq = frame.setups .cq :=
    freeQueue_setups_of_ne (fun impossible => nomatch impossible)
  have cqHeld := holding.held .cq
  rw [← cqSetup] at cqHeld
  rw [Finset.union_comm, ← cqSetup] at sqFreed
  have apart : Disjoint ((call.freeQueue .sq frame).setups .cq).objects
      (frame.setups .sq).lost := by
    exact holding.apart.symm.mono_right (QueueSetup.lost_subset _)
  obtain ⟨cqEmpty, cqFreed⟩ := freeQueue_owns cqHeld sqFreed apart
  refine ⟨fun side => ?_, _, cqFreed, ?_⟩
  · cases side with
    | sq =>
      refine (congrArg QueueSetup.virt ?_).trans sqEmpty
      exact freeQueue_setups_of_ne (fun impossible => nomatch impossible)
    | cq => exact cqEmpty
  · rw [Finset.union_nonempty, cqSetup, holding.lost .cq, holding.lost .sq, losesMemory,
      holding.passed, Bool.not_false, Bool.true_and, Bool.or_eq_true, or_comm]

theorem setupSq_meets (start : base.Owns base ∅) :
    Step.Meets (call.setupQueue call.detect.emulated call.cap.cqr .sq) (call.setupFails .sq = true)
      (fun frame => frame.ledger = base ∧ (frame.setups .cq).virt = none ∧
        frame.controller = call.oldController)
      (FirstReady call base)
      (fun frame => Dropped call base frame ∧ frame.controller = call.oldController) := by
  rintro frame ⟨rfl, empty, controller⟩
  obtain ⟨code, setup, after, result, ⟨fails, negative, abandoned⟩ | ⟨passes, isZero, ready⟩⟩ :=
    setupQueue_cases call .sq start
  · rw [result]
    refine ⟨fun _ => ⟨negative, ⟨fun side => ?_, ?_⟩, controller⟩,
      fun passes => absurd fails passes⟩
    · cases side with
      | sq => exact abandoned.empty
      | cq => exact empty
    · obtain ⟨lost, owns, isLost⟩ := abandoned.lost
      refine ⟨lost, owns, ?_⟩
      rw [isLost, losesMemory, fails, Bool.not_true, Bool.false_and, Bool.or_false]
  · rw [result, passes]
    refine ⟨Bool.false_ne_true.elim, fun _ => ?_⟩
    exact ⟨isZero.ge, ready, passes, controller⟩

/-- The submission queue has its memory, and what was acquired for the other one is lost. -/
structure SecondFailed (call : QueueCall) (base : Ledger) (frame : QueueFrame) : Prop where
  held : (frame.setups .sq).Held (call.isDevice .sq)
  empty : (frame.setups .cq).virt = none
  owns : ∃ lost, base.Owns frame.ledger ((frame.setups .sq).objects ∪ lost) ∧
    Disjoint (frame.setups .sq).objects lost ∧ (lost.Nonempty ↔ call.fallsBack .cq = true)
  lost : (frame.setups .sq).lost.Nonempty ↔ call.fallsBack .sq = true
  passed : call.setupFails .sq = false
  controller : frame.controller = call.oldController

theorem SecondFailed.dropped (failed : SecondFailed call base frame) :
    Dropped call base (call.freeQueue .sq frame) ∧
      (call.freeQueue .sq frame).controller = call.oldController := by
  obtain ⟨lost, owns, apart, isLost⟩ := failed.owns
  obtain ⟨empty, freed⟩ := freeQueue_owns failed.held owns apart
  refine ⟨⟨fun side => ?_, _, freed, ?_⟩, failed.controller⟩
  · cases side with
    | sq => exact empty
    | cq =>
      refine (congrArg QueueSetup.virt ?_).trans failed.empty
      exact freeQueue_setups_of_ne (fun impossible => nomatch impossible)
  · rw [Finset.union_nonempty, failed.lost, isLost, losesMemory, failed.passed, Bool.not_false,
      Bool.true_and, Bool.or_eq_true]

theorem setupCq_meets :
    Step.Meets (call.setupQueue call.detect.emulated call.cap.cqr .cq) (call.setupFails .cq = true)
      (FirstReady call base)
      (fun frame => Holding call base frame ∧ (frame.setups .sq).prpList = none ∧
        (frame.setups .cq).prpList = none ∧ True)
      (SecondFailed call base) := by
  intro frame first
  have owns := first.ready.owns
  obtain ⟨code, setup, after, result, ⟨fails, negative, abandoned⟩ | ⟨passes, isZero, ready⟩⟩ :=
    setupQueue_cases call .cq owns.here
  · rw [result]
    refine ⟨fun _ => ⟨negative, ?_⟩, fun passes => absurd fails passes⟩
    obtain ⟨lost, more, isLost⟩ := abandoned.lost
    exact ⟨first.ready.held, abandoned.empty,
      ⟨lost, owns.trans more, owns.disjoint more, isLost⟩, first.ready.lost, first.passed,
      first.controller⟩
  · rw [result, passes]
    refine ⟨Bool.false_ne_true.elim,
      fun _ => ⟨isZero.ge, ?_, first.ready.unlisted, ready.unlisted, trivial⟩⟩
    · refine ⟨owns.trans ready.owns, owns.disjoint ready.owns, fun side => ?_, fun side => ?_,
        first.passed, first.controller⟩
      · cases side with
        | sq => exact first.ready.held
        | cq => exact ready.held
      · cases side with
        | sq => exact first.ready.lost
        | cq => exact ready.lost

variable {setup : QueueSetup} {after : Ledger}

theorem Holding.listed (holding : Holding call base frame) {extra : Finset Nat}
    (listed : QueueCalls.Listed frame.ledger (call.isDevice side) (frame.setups side) setup after
      extra) :
    Holding call base
      { frame with setups := update frame.setups side setup, ledger := after } := by
  have owns := holding.owns.trans listed.owns
  have fresh := holding.owns.disjoint listed.owns
  rw [Finset.disjoint_union_left] at fresh
  have held : ∀ other, (update frame.setups side setup other).Held
      (call.isDevice other) := by
    intro other
    rcases eq_or_ne other side with rfl | ne
    · rw [update_self]
      exact listed.held
    · rw [update_of_ne ne]
      exact holding.held other
  have lost : ∀ other, (update frame.setups side setup other).lost.Nonempty ↔
      call.fallsBack other = true := by
    intro other
    rcases eq_or_ne other side with rfl | ne
    · rw [update_self, listed.lost]
      exact holding.lost other
    · rw [update_of_ne ne]
      exact holding.lost other
  cases side with
  | sq =>
    have objects : ((update frame.setups .sq setup) .sq).objects =
        (frame.setups .sq).objects ∪ extra := by
      rw [update_self, listed.objects]
    refine ⟨?_, ?_, held, lost, holding.passed, holding.controller⟩
    · rw [Finset.union_right_comm, ← objects] at owns
      exact owns
    · rw [objects]
      exact Finset.disjoint_union_left.mpr ⟨holding.apart, fresh.2.symm⟩
  | cq =>
    have objects : ((update frame.setups .cq setup) .cq).objects =
        (frame.setups .cq).objects ∪ extra := by
      rw [update_self, listed.objects]
    refine ⟨?_, ?_, held, lost, holding.passed, holding.controller⟩
    · rw [Finset.union_assoc, ← objects] at owns
      exact owns
    · rw [objects]
      exact Finset.disjoint_union_right.mpr ⟨holding.apart, fresh.1⟩

theorem Holding.older (holding : Holding call base frame) (side : Side) :
    ∀ object ∈ (frame.setups side).objects, object < frame.ledger.next := by
  intro object member
  refine (holding.owns.inside object ?_).2
  cases side with
  | sq => exact Finset.mem_union_left _ member
  | cq => exact Finset.mem_union_right _ member

theorem buildList_meets (call : QueueCall) (base : Ledger) (side : Side)
    (other : (Side → QueueSetup) → Prop)
    (kept : ∀ setups setup, other setups → other (update setups side setup)) :
    Step.Meets (call.buildList side)
      ((call.queues side).listFails (call.sizeBytes side) (call.isDevice side) = true)
      (fun frame => Holding call base frame ∧ (frame.setups side).prpList = none ∧
        other frame.setups)
      (fun frame => Holding call base frame ∧ other frame.setups)
      (Holding call base) := by
  rintro frame ⟨holding, unlisted, others⟩
  obtain ⟨code, setup, after, extra, result, listed, outcome⟩ :=
    (call.queues side).buildQueuePrpList_cases (call.sizeBytes side) (holding.held side) unlisted
      holding.owns.here (holding.older side)
  have next := holding.listed listed
  unfold buildList
  simp only [result]
  rcases outcome with ⟨fails, negative⟩ | ⟨passes, isZero⟩
  · exact ⟨fun _ => ⟨negative, next⟩, fun passes => absurd fails passes⟩
  · rw [passes]
    refine ⟨Bool.false_ne_true.elim, fun _ => ?_⟩
    exact ⟨isZero.ge, next, kept _ _ others⟩

def Registered (frame : QueueFrame) (side : Side) : Prop :=
  ∀ virt, (frame.setups side).virt = some virt →
    frame.registered virt.object = (frame.setups side).objects

theorem prp1Objects_eq {isDevice : Bool} {virt : Block} (held : setup.Held isDevice)
    (isVirt : setup.virt = some virt) :
    prp1Objects setup virt = setup.objects := by
  unfold prp1Objects QueueSetup.objects
  rw [isVirt, Option.elim_some]
  split_ifs with noList
  · rw [held.listed.mp noList, Option.elim_none, Finset.union_empty]
  · rfl

theorem sizeBytes_pos (positive : call.queueSize ≠ 0) (side : Side) : call.sizeBytes side ≠ 0 := by
  cases side <;> exact Nat.mul_ne_zero positive (by decide)

theorem kmodRegQueue_meets (call : QueueCall) (base : Ledger) (side : Side)
    (other : QueueFrame → Prop) (positive : call.queueSize ≠ 0)
    (kept : ∀ frame virt, Holding call base frame → other frame →
      (frame.setups side).virt = some virt → other { frame with
        registered := update frame.registered virt.object
          (frame.setups side).objects }) :
    Step.Meets (call.kmodRegQueue side) ((call.queues side).registerQueue.isSome = true)
      (fun frame => Holding call base frame ∧ other frame)
      (fun frame => Holding call base frame ∧ Registered frame side ∧ other frame)
      (Holding call base) := by
  rintro frame ⟨holding, others⟩
  obtain ⟨virt, isVirt, -⟩ := (holding.held side).block
  unfold kmodRegQueue
  simp only [isVirt, if_neg (sizeBytes_pos positive side)]
  cases (call.queues side).registerQueue with
  | some errno =>
    exact ⟨fun _ => ⟨errno.negated_neg, holding⟩, fun passes => absurd rfl passes⟩
  | none =>
    refine ⟨Bool.false_ne_true.elim, fun _ => ⟨le_refl _, ?_⟩⟩
    rw [prp1Objects_eq (holding.held side) isVirt]
    refine ⟨⟨holding.owns, holding.apart, holding.held, holding.lost, holding.passed,
      holding.controller⟩, fun block isBlock => ?_, kept frame virt holding others isVirt⟩
    obtain rfl : virt = block := Option.some.inj (isVirt.symm.trans isBlock)
    exact update_self ..

theorem Holding.object_ne (holding : Holding call base frame) {sqVirt cqVirt : Block}
    (isSq : (frame.setups .sq).virt = some sqVirt) (isCq : (frame.setups .cq).virt = some cqVirt) :
    sqVirt.object ≠ cqVirt.object := by
  have member : ∀ {side virt}, (frame.setups side).virt = some virt →
      virt.object ∈ (frame.setups side).objects := by
    intro side virt isVirt
    rw [QueueSetup.objects, isVirt]
    exact Finset.mem_union_left _ virt.object_mem
  intro same
  have both := member isCq
  rw [← same] at both
  exact Finset.disjoint_left.mp holding.apart (member isSq) both

theorem Registered.keep (holding : Holding call base frame) (registered : Registered frame .sq)
    {cqVirt : Block} (isCq : (frame.setups .cq).virt = some cqVirt) {objects : Finset Nat} :
    Registered { frame with
      registered := update frame.registered cqVirt.object objects } .sq :=
  fun sqVirt isSq =>
    (update_of_ne (holding.object_ne isSq isCq) ..).trans (registered sqVirt isSq)

/-- No queue has memory, and the controller was not asked for anything. -/
def Cleaned (call : QueueCall) (base : Ledger) (frame : QueueFrame) : Prop :=
  Dropped call base frame ∧ frame.controller = call.oldController

theorem cleaned_of_holding (frame : QueueFrame) (holding : Holding call base frame) :
    Cleaned call base (call.freeQueues frame) :=
  ⟨holding.dropped, holding.controller⟩

theorem listStage_meets (call : QueueCall) (base : Ledger) (side : Side)
    (other : (Side → QueueSetup) → Prop)
    (kept : ∀ setups setup, other setups → other (update setups side setup)) :
    Step.Meets (((call.buildList side).onFailure call.freeQueues).when
        (!call.cap.cqr && call.multiPage side))
      (call.listFails side = true)
      (fun frame => Holding call base frame ∧ (frame.setups side).prpList = none ∧
        other frame.setups)
      (fun frame => Holding call base frame ∧ other frame.setups)
      (Cleaned call base) := by
  refine Step.Meets.of_iff ?_ Bool.and_eq_true_iff.symm
  refine ((buildList_meets call base side other kept).onFailure cleaned_of_holding).when ?_
  exact fun _ start => ⟨start.1, start.2.2⟩

/-- Preparation fails as `preparationFails` says. It ends with both queues registered, or
without memory for either. -/
theorem prepare_meets (start : base.Owns base ∅) (positive : call.queueSize ≠ 0) :
    Step.Meets (call.prepare call.detect.emulated call.cap.cqr) (call.preparationFails = true)
      (fun frame => frame.ledger = base ∧ (frame.setups .cq).virt = none ∧
        frame.controller = call.oldController)
      (fun frame => Holding call base frame ∧ Registered frame .cq ∧ Registered frame .sq ∧ True)
      (Cleaned call base) := by
  have listSq := listStage_meets call base .sq
    (fun setups => (setups .cq).prpList = none ∧ True) fun _ _ others => others
  have listCq := listStage_meets call base .cq (fun _ => True) fun _ _ _ => trivial
  have registerSq := (kmodRegQueue_meets call base .sq (fun _ => True) positive
    fun _ _ _ _ _ => trivial).onFailure cleaned_of_holding
  have registerCq := (kmodRegQueue_meets call base .cq
    (fun frame => Registered frame .sq ∧ True) positive
    fun _ _ holding registered isCq => ⟨registered.1.keep holding isCq, trivial⟩).onFailure
      cleaned_of_holding
  refine Step.Meets.of_iff ((setupSq_meets start).andThen ((setupCq_meets.onFailure
    fun _ failed => SecondFailed.dropped failed).andThen (listSq.andThen (listCq.andThen
      (registerSq.andThen registerCq))))) ?_
  simp only [preparationFails, Bool.or_eq_true, or_assoc]

/-! ### The commands -/

def commanded (call : QueueCall) (objects : Side → Finset Nat) : Controller :=
  let controller := created call.createCq .cq (objects .cq) (call.deleteQueue call.oldController)
  if call.createCq.code < 0 then controller
  else created call.createSq .sq (objects .sq) controller

theorem createQueues_cases (positive : call.queueSize ≠ 0) (holding : Holding call base frame)
    (registered : ∀ side, Registered frame side) :
    ∃ code, call.createQueues frame = (code, { frame with
        controller := call.commanded fun side => (frame.setups side).objects }) ∧
      ((call.creationFails = true ∧ code < 0) ∨ (call.creationFails = false ∧ 0 ≤ code)) := by
  obtain ⟨sqVirt, isSq, -⟩ := (holding.held .sq).block
  obtain ⟨cqVirt, isCq, -⟩ := (holding.held .cq).block
  unfold createQueues createQueueCommands commanded creationFails
  simp only [isSq, isCq, if_neg positive, registered .sq sqVirt isSq, registered .cq cqVirt isCq,
    holding.controller]
  by_cases cqFails : call.createCq.code < 0
  · simp only [if_pos cqFails, decide_eq_true cqFails, Bool.true_or]
    exact ⟨_, rfl, .inl ⟨trivial, cqFails⟩⟩
  simp only [if_neg cqFails, decide_eq_false cqFails, Bool.false_or, decide_eq_true_eq,
    decide_eq_false_iff_not, Int.not_lt]
  exact ⟨_, rfl, (lt_or_ge _ _).imp (fun less => ⟨less, less⟩) fun more => ⟨more, more⟩⟩

variable {memory : Finset Nat}

theorem oldController_eq_some (isSome : call.oldController side = some memory) : memory = ∅ :=
  (Option.some.inj (Option.ite_none_right_eq_some.mp isSome).2).symm

theorem deleted_eq_some (isSome : call.deleteQueue call.oldController side = some memory) :
    memory = ∅ := by
  cases side with
  | sq => exact oldController_eq_some (Option.ite_none_left_eq_some.mp isSome).2
  | cq => exact oldController_eq_some (Option.ite_none_left_eq_some.mp isSome).2

variable {objects : Side → Finset Nat}

def carriedOut (call : QueueCall) : Side → Bool
  | .cq => call.createCq.succeeded
  | .sq => decide (0 ≤ call.createCq.code) && call.createSq.succeeded

variable (reply : AdminReply)

theorem created_self (side : Side) (memory : Finset Nat) (controller : Controller) :
    created reply side memory controller side =
      if reply.succeeded then some memory else controller side := by
  unfold created
  split_ifs
  · exact update_self ..
  · rfl

theorem created_of_ne (ne : other ≠ side) (memory : Finset Nat) (controller : Controller) :
    created reply side memory controller other = controller other := by
  unfold created
  split_ifs
  · exact update_of_ne ne ..
  · rfl

theorem commanded_eq (call : QueueCall) (objects : Side → Finset Nat) (side : Side) :
    call.commanded objects side =
      if call.carriedOut side then some (objects side)
      else call.deleteQueue call.oldController side := by
  have differ : Side.cq ≠ Side.sq := fun impossible => nomatch impossible
  unfold commanded
  by_cases refused : call.createCq.code < 0
  · rw [if_pos refused]
    cases side with
    | cq => exact created_self ..
    | sq =>
      rw [created_of_ne _ differ.symm, carriedOut, decide_eq_false (Int.not_le.mpr refused),
        Bool.false_and]
      rfl
  · rw [if_neg refused]
    cases side with
    | cq => exact (created_of_ne _ differ ..).trans (created_self ..)
    | sq =>
      rw [created_self, created_of_ne _ differ.symm, carriedOut,
        decide_eq_true (Int.not_lt.mp refused), Bool.true_and]

theorem commanded_eq_some (none : call.leavesQueue = false)
    (isSome : call.commanded objects side = some memory) : memory = ∅ := by
  have notCarried : call.carriedOut side = false := by
    unfold leavesQueue at none
    rw [Bool.or_eq_false_iff] at none
    cases side with
    | cq => exact none.1
    | sq => exact none.2
  rw [commanded_eq, notCarried] at isSome
  exact deleted_eq_some isSome

theorem exists_commanded (objects : Side → Finset Nat) (left : call.leavesQueue = true) :
    ∃ side, call.commanded objects side = some (objects side) := by
  rcases Bool.or_eq_true_iff.mp left with cq | sq
  · exact ⟨.cq, by rw [commanded_eq]; exact if_pos cq⟩
  · exact ⟨.sq, by rw [commanded_eq]; exact if_pos sq⟩

theorem commanded_iff (passed : call.creationFails = false)
    (nonempty : ∀ side, (objects side).Nonempty) :
    (∀ side, call.commanded objects side = some (objects side)) ↔
      call.createCq.succeeded = true ∧ call.createSq.succeeded = true := by
  have isNew : ∀ side, call.commanded objects side = some (objects side) ↔
      call.carriedOut side = true := by
    intro side
    rw [commanded_eq]
    split_ifs with carried
    · exact iff_of_true rfl carried
    · refine iff_of_false (fun isSome => ?_) carried
      exact (nonempty side).ne_empty (deleted_eq_some isSome)
  have sent : decide (0 ≤ call.createCq.code) = true := by
    unfold creationFails at passed
    rw [Bool.or_eq_false_iff, decide_eq_false_iff_not, Int.not_lt] at passed
    exact decide_eq_true passed.1
  constructor
  · intro both
    refine ⟨(isNew .cq).mp (both .cq), ?_⟩
    have sq := (isNew .sq).mp (both .sq)
    rw [carriedOut, sent, Bool.true_and] at sq
    exact sq
  · rintro ⟨cq, sq⟩ side
    refine (isNew side).mpr ?_
    cases side with
    | cq => exact cq
    | sq => rw [carriedOut, sent, sq, Bool.and_self]

/-! ### The outcome -/

theorem freeQueue_of_none (empty : (frame.setups side).virt = none) :
    call.freeQueue side frame = frame := by
  unfold freeQueue
  rw [QueueSetup.freeQueueSetup_of_none empty]
  simp only [update_eq_self]

variable {kmodFd nvmeFd : Nat} {ledger : Ledger}

theorem close_owns (opened : Ledger.empty.Owns base {nvmeFd, kmodFd}) (differ : nvmeFd ≠ kmodFd)
    (owns : base.Owns ledger rest) :
    Ledger.empty.Owns ((ledger.release nvmeFd).release kmodFd) rest := by
  have all := opened.trans owns
  have apart := opened.disjoint owns
  rw [Finset.insert_union, Finset.singleton_union] at all
  rw [Finset.disjoint_insert_left, Finset.disjoint_singleton_left] at apart
  have nvmeClosed := all.giveBack (by
    rw [Finset.mem_insert, not_or]
    exact ⟨differ, apart.1⟩)
  exact nvmeClosed.giveBack apart.2

variable {ret : Int}

theorem finish_of_neg (negative : ret < 0) (opened : Ledger.empty.Owns base {nvmeFd, kmodFd})
    (differ : nvmeFd ≠ kmodFd) (dropped : Dropped call base frame) :
    ∃ after lost, call.finish kmodFd nvmeFd ret frame = ⟨ret, none, after, frame.controller⟩ ∧
      Ledger.empty.Owns after lost ∧ (lost.Nonempty ↔ call.losesMemory = true) := by
  obtain ⟨lost, owns, isLost⟩ := dropped.lost
  refine ⟨_, lost, ?_, close_owns opened differ owns, isLost⟩
  unfold finish freeQueues
  rw [if_pos negative, freeQueue_of_none (dropped.empty .sq),
    freeQueue_of_none (dropped.empty .cq)]

theorem atomic_of_neg {info : Option (Side → QueueSetup)} {controller : Controller}
    {lost : Finset Nat} (negative : ret < 0) (owns : Ledger.empty.Owns after lost)
    (isLost : lost.Nonempty ↔ call.losesMemory = true) :
    Atomic ⟨ret, info, after, controller⟩ ↔ call.losesMemory = false ∧
      ∀ side memory, controller side = some memory → ∀ object ∈ memory, after.Allocated object := by
  have kept : Ledger.Settled .empty after ↔ call.losesMemory = false := by
    rw [owns.settled_iff, ← Finset.not_nonempty_iff_eq_empty, isLost, Bool.not_eq_true]
  rw [← kept]
  constructor
  · exact fun atomic => atomic.released negative
  · exact fun released => ⟨fun positive => absurd negative (Int.not_lt.mpr positive),
      fun _ => released⟩

theorem finish_creation_failed (negative : ret < 0)
    (opened : Ledger.empty.Owns base {nvmeFd, kmodFd}) (differ : nvmeFd ≠ kmodFd)
    (nonempty : ∀ side, (objects side).Nonempty) (dropped : Dropped call base frame)
    (controller : frame.controller = call.commanded objects) :
    Atomic (call.finish kmodFd nvmeFd ret frame) ↔
      call.losesMemory = false ∧ call.leavesQueue = false := by
  obtain ⟨after, lost, finished, owns, isLost⟩ := finish_of_neg negative opened differ dropped
  rw [finished, atomic_of_neg negative owns isLost, controller]
  refine and_congr_right fun nothing => ?_
  have empty : lost = ∅ := by
    rw [← Finset.not_nonempty_iff_eq_empty, isLost, nothing]
    exact Bool.false_ne_true
  constructor
  · intro kept
    rw [← Bool.not_eq_true]
    intro left
    obtain ⟨side, isNew⟩ := exists_commanded objects left
    obtain ⟨object, member⟩ := nonempty side
    obtain ⟨inside, unreleased⟩ := kept side _ isNew object member
    have once := owns.settled object (Nat.zero_le _) inside (by
      rw [empty]
      exact Finset.notMem_empty _)
    rw [unreleased] at once
    exact Nat.zero_ne_one once
  · intro none side memory isSome object member
    rw [commanded_eq_some none isSome] at member
    exact absurd member (Finset.notMem_empty _)

theorem finish_created (isZero : 0 ≤ ret) (opened : Ledger.empty.Owns base {nvmeFd, kmodFd})
    (differ : nvmeFd ≠ kmodFd)
    (owns : base.Owns frame.ledger ((frame.setups .sq).objects ∪ (frame.setups .cq).objects)) :
    Atomic (call.finish kmodFd nvmeFd ret frame) ↔
      ∀ side, frame.controller side = some (frame.setups side).objects := by
  have closed := close_owns opened differ owns
  unfold finish
  rw [if_neg (Int.not_lt.mpr isZero)]
  constructor
  · intro atomic side
    obtain ⟨setups, isInfo, exist⟩ := atomic.established (le_refl _)
    obtain rfl := Option.some.inj isInfo
    exact (exist side).1
  · intro exist
    refine ⟨fun _ => ⟨frame.setups, rfl, fun side => ⟨exist side, fun object member => ?_⟩⟩,
      fun impossible => absurd impossible (Int.lt_irrefl _)⟩
    refine closed.isAllocated ?_
    cases side with
    | sq => exact Finset.mem_union_left _ member
    | cq => exact Finset.mem_union_right _ member

theorem createWith_atomic_iff (positive : call.queueSize ≠ 0) (differ : nvmeFd ≠ kmodFd)
    (opened : Ledger.empty.Owns ledger {nvmeFd, kmodFd}) :
    Atomic (call.createWith call.detect.emulated kmodFd nvmeFd ledger) ↔
      if call.preparationFails then call.losesMemory = false
      else if call.creationFails then call.losesMemory = false ∧ call.leavesQueue = false
      else call.createCq.succeeded = true ∧ call.createSq.succeeded = true := by
  obtain ⟨code, cqr, base, read, opened, isCqr⟩ := call.cap.readNvmeCapCqr_cases opened
  unfold createWith
  simp only [read, isCqr]
  have start : (fun frame : QueueFrame => frame.ledger = base ∧ (frame.setups .cq).virt = none ∧
      frame.controller = call.oldController)
      ⟨fun _ => .zero, base, fun _ => ∅, call.oldController⟩ := ⟨rfl, rfl, rfl⟩
  obtain ⟨onFail, onPass⟩ := prepare_meets opened.here positive _ start
  unfold Step.andThen
  cases prepared : call.preparationFails with
  | true =>
    obtain ⟨negative, dropped, controller⟩ := onFail prepared
    rw [if_pos negative, if_pos rfl]
    obtain ⟨after, lost, finished, owns, isLost⟩ := finish_of_neg negative opened differ dropped
    rw [finished, atomic_of_neg negative owns isLost, controller, and_iff_left_iff_imp]
    intro _ side memory isSome object member
    rw [oldController_eq_some isSome] at member
    exact absurd member (Finset.notMem_empty _)
  | false =>
    obtain ⟨passed, holding, registeredCq, registeredSq, -⟩ :=
      onPass (by rw [prepared]; exact Bool.false_ne_true)
    rw [if_neg (Int.not_lt.mpr passed), if_neg Bool.false_ne_true]
    obtain ⟨code, result, outcome⟩ := createQueues_cases positive holding fun side => by
      cases side with
      | sq => exact registeredSq
      | cq => exact registeredCq
    have nonempty := fun side => (holding.held side).objects_nonempty
    unfold Step.onFailure
    rw [result]
    rcases outcome with ⟨fails, negative⟩ | ⟨passes, isZero⟩
    · rw [if_pos negative, fails, if_pos rfl]
      exact finish_creation_failed negative opened differ nonempty
        ⟨holding.dropped.empty, holding.dropped.lost⟩ rfl
    · rw [if_neg (Int.not_lt.mpr isZero), passes, if_neg Bool.false_ne_true,
        ← commanded_iff passes nonempty]
      exact finish_created isZero opened differ holding.owns

theorem atomic_of_early (negative : ret < 0) (owns : Ledger.empty.Owns after ∅) :
    Atomic ⟨ret, none, after, call.oldController⟩ := by
  refine ⟨fun positive => absurd negative (Int.not_lt.mpr positive),
    fun _ => ⟨owns.settled_iff.mpr rfl, ?_⟩⟩
  intro side memory isSome object member
  rw [oldController_eq_some isSome] at member
  exact absurd member (Finset.notMem_empty _)

/-- With the kernel module open, the kind of the controller has to be detected, and the rest is up
to the controller. -/
theorem atomic_iff_of_kmod (isValid : call.valid = true) (kmodOpens : call.openKmod = none) :
    Atomic call.createQueue ↔ call.detect.fails = false ∧ (retries call.openNvme 4 0 = none →
      if call.preparationFails then call.losesMemory = false
      else if call.creationFails then call.losesMemory = false ∧ call.leavesQueue = false
      else call.createCq.succeeded = true ∧ call.createSq.succeeded = true) := by
  have kmodOpened : Ledger.empty.Owns Ledger.empty.acquire {0} := Ledger.Owns.empty.acquire
  obtain ⟨code, emulated, ledger, detected, opened, outcome⟩ :=
    call.detect.detectEmulatedNvme_cases kmodOpened
  simp only [createQueue, isValid, kmodOpens, openFile, detected, Bool.not_true,
    Bool.false_eq_true, if_false]
  rcases outcome with ⟨fails, negative⟩ | ⟨passes, rfl, rfl⟩
  · rw [if_pos (Int.ne_of_lt negative), fails]
    refine iff_of_false (fun atomic => ?_) fun recovers => nomatch recovers.1
    obtain ⟨setups, isInfo, -⟩ := atomic.established (Int.neg_nonneg_of_nonpos negative.le)
    exact nomatch isInfo
  · rw [if_neg (fun impossible => impossible rfl), and_iff_right passes, openDeviceWithRetry]
    cases retries call.openNvme 4 0 with
    | some errno =>
      have closed : Ledger.empty.Owns (ledger.release 0) ∅ :=
        opened.release (Finset.mem_singleton_self 0)
      exact iff_of_true (atomic_of_early errno.negated_neg closed)
        fun impossible => nomatch impossible
    | none =>
      have positive : call.queueSize ≠ 0 := by
        unfold valid at isValid
        simp only [Bool.and_eq_true, bne_iff_ne] at isValid
        exact isValid.1.2
      have nvmeOpened : Ledger.empty.Owns ledger.acquire {ledger.next, 0} := opened.acquire
      have differ : ledger.next ≠ 0 := fun isZero => opened.next_notMem (by simp [isZero])
      rw [forall_prop_of_true rfl]
      exact createWith_atomic_iff positive differ nvmeOpened

end

/-- `createQueue` is all or nothing exactly for the calls that recover. -/
theorem createQueue_atomic_iff (call : QueueCall) : Atomic call.createQueue ↔ call.Recovers := by
  unfold Recovers
  cases isValid : call.valid with
  | false =>
    have outcome : call.createQueue = ⟨EINVAL.negated, none, .empty, call.oldController⟩ := by
      rw [createQueue, isValid]
      rfl
    rw [outcome]
    exact iff_of_true (atomic_of_early EINVAL.negated_neg .empty)
      Bool.false_ne_true.elim
  | true =>
    cases kmodOpens : call.openKmod with
    | some errno =>
      have outcome : call.createQueue = ⟨errno.negated, none, .empty, call.oldController⟩ := by
        rw [createQueue, isValid, kmodOpens]
        rfl
      rw [outcome]
      exact iff_of_true (atomic_of_early errno.negated_neg .empty)
        fun _ impossible => nomatch impossible
    | none =>
      rw [forall_prop_of_true rfl, forall_prop_of_true rfl]
      exact atomic_iff_of_kmod isValid kmodOpens

/-- A call for queues of 16 entries in host memory, in which everything succeeds. -/
def sixteenEntries : QueueCall where
  nvmeDevice := true
  kernelModuleDevice := true
  info := true
  queueSize := 16
  memoryMode := 0
  existing := fun _ => false
  openKmod := none
  detect := ⟨none, true, true, ⟨none, some 0x144d⟩, ⟨none, some 0xa808⟩⟩
  openNvme := fun _ => none
  cap := ⟨none, none, 0⟩
  queues := fun _ =>
    { virtAddr := 0x7f0000000000, hipMalloc := true, mapped := ⟨true, true⟩,
      coherent := ⟨true, true⟩, hostRegister := true, devicePointer := true,
      vram := ⟨true, none, fun _ => .ok 0x100000⟩, pagemap := ⟨none, 0x100000⟩,
      contig := ⟨fun _ => none, .ok 0x100000, true, none, none, none, true, true, true, true, true⟩,
      pageSize := 4096, pagesOpened := none, pagesRead := none, memalign := true, mlock := none,
      listPagemap := ⟨none, 0x200000⟩, registerQueue := none }
  deleteSq := .completed 0 0
  deleteCq := .completed 0 0
  createCq := .completed 0 0
  createSq := .completed 0 0

def undetected : QueueCall :=
  { sixteenEntries with detect := { sixteenEntries.detect with link := false } }

/-- The coherent memory of the submission queue comes from `malloc`, and the first command
fails. -/
def fallenBack : QueueCall :=
  { sixteenEntries with
    queues := fun side => { sixteenEntries.queues side with coherent := ⟨side != .sq, true⟩ }
    createCq := .failed EIO }

/-- The completion queue is created, and the command for the submission queue fails. -/
def halfCreated : QueueCall :=
  { sixteenEntries with createSq := .failed EIO }

/-- The controller refuses both commands with the status `Invalid Queue Identifier`. -/
def refused : QueueCall :=
  { sixteenEntries with createCq := .completed 0x101 0, createSq := .completed 0x101 0 }

theorem createQueue_not_atomic : ¬ Atomic undetected.createQueue ∧ ¬ Atomic fallenBack.createQueue ∧
      ¬ Atomic halfCreated.createQueue ∧ ¬ Atomic refused.createQueue := by
  refine ⟨?_, ?_, ?_, ?_⟩ <;>
    rw [atomic_iff_of_kmod rfl rfl] <;>
    decide

end QueueCall

end RocmXio.Nvme
