/-
What `fio_rocm_xio_open_file` leaves behind when it fails.

`rxio_setup` and `rxio_start_persistent` acquire one resource after another, and return at the first
call that fails. After a failed setup `open_file` frees the context and nothing else; after a failed
start it calls `rxio_teardown`, which leaves the ring and the flag of a kernel that does not run.
The rings of the queue pair and their PRP lists, which `createQueue` hands over, are never freed.
-/

import Mathlib.Data.List.Perm.Basic
import Mathlib.Tactic

namespace RocmXio.Fio

inductive OpenCall where
  | calloc | ctxAlloc
  | setDevice | detectBdf | queryLbaSize | queryNamespaceCapacity | queryMaxQueueId | jobIndex
  | openKmod | bar0Get | createQueue | openController | allocateBuffer
  | mallocPool | mallocPageDmas | getPhysAddr | mallocState | stateDevicePointer
  | streamCreate | prefill
  | mallocRing | ringDevicePointer | mallocFlag | flagDevicePointer | launch
deriving DecidableEq, Repr

inductive OpenResource where
  | fileData | context | kmodFd | bar0 | queuePair | queueMemory | nvmeFd | hctx | dataBuffer
  | prpPool | pageDmas | queueState | stream | workRing | stopFlag
deriving DecidableEq, Repr

/-- Which call fails, whether the queue is chosen by the engine, whether quiescing succeeds, and
whether a transfer takes more than two pages. -/
structure OpenCalls where
  failing : Option OpenCall
  choosesQueue : Bool
  quiesces : Bool
  listed : Bool
deriving DecidableEq, Repr

structure OpenLog where
  acquired : List OpenResource := []
  released : List OpenResource := []
deriving DecidableEq, Repr

def OpenLog.append (first second : OpenLog) : OpenLog :=
  ⟨first.acquired ++ second.acquired, first.released ++ second.released⟩

instance : Append OpenLog := ⟨OpenLog.append⟩

/-- A call with what it acquires, and what the code releases right there when it fails. -/
structure OpenStep where
  call : OpenCall
  acquires : List OpenResource := []
  undoes : List OpenResource := []

namespace OpenCalls

variable (calls : OpenCalls)

/-- Whether all steps succeed, and what happens up to the first that does not. -/
def perform : List OpenStep → Bool × OpenLog
  | [] => (true, {})
  | step :: rest =>
    if calls.failing = some step.call then (false, ⟨[], step.undoes⟩)
    else
      let (succeeds, log) := perform rest
      (succeeds, ⟨step.acquires, []⟩ ++ log)

def rxioSetup : Bool × OpenLog :=
  calls.perform <|
    [⟨.setDevice, [], []⟩, ⟨.detectBdf, [], []⟩, ⟨.queryLbaSize, [], []⟩,
      ⟨.queryNamespaceCapacity, [], []⟩] ++
    (if calls.choosesQueue then [⟨.queryMaxQueueId, [], []⟩, ⟨.jobIndex, [], []⟩] else []) ++
    [⟨.openKmod, [.kmodFd], []⟩, ⟨.bar0Get, [.bar0], []⟩,
      -- the memory is handed over in `ctx->qi`
      ⟨.createQueue, [.queuePair, .queueMemory], []⟩,
      ⟨.openController, if calls.quiesces then [.nvmeFd, .hctx] else [.nvmeFd], []⟩,
      ⟨.allocateBuffer, [.dataBuffer], []⟩] ++
    (if calls.listed then [⟨.mallocPool, [.prpPool], []⟩,
      ⟨.mallocPageDmas, [.pageDmas], [.prpPool]⟩, ⟨.getPhysAddr, [], [.pageDmas, .prpPool]⟩]
      else []) ++
    [⟨.mallocState, [.queueState], []⟩, ⟨.stateDevicePointer, [], []⟩,
      ⟨.streamCreate, [.stream], []⟩] ++
    if calls.listed then [⟨.prefill, [], []⟩] else []

def rxioStartPersistent : Bool × OpenLog :=
  calls.perform [⟨.mallocRing, [.workRing], []⟩, ⟨.ringDevicePointer, [], []⟩,
    ⟨.mallocFlag, [.stopFlag], []⟩, ⟨.flagDevicePointer, [], []⟩, ⟨.launch, [], []⟩]

/-- `rxio_teardown` when the kernel was not launched. -/
def rxioTeardown : OpenLog where
  released := [.stream, .queueState, .bar0] ++ (if calls.quiesces then [.hctx] else []) ++
    [.queuePair, .nvmeFd, .dataBuffer] ++
    (if calls.listed then [.pageDmas, .prpPool] else []) ++ [.kmodFd]

/-- Whether `open_file` succeeds, and what it has acquired and released. -/
def openFile : Bool × OpenLog :=
  if calls.failing = some .calloc then (false, {})
  else if calls.failing = some .ctxAlloc then (false, ⟨[.fileData], [.fileData]⟩)
  else
    let held : OpenLog := ⟨[.fileData, .context], []⟩
    let freed : OpenLog := ⟨[], [.context, .fileData]⟩
    let (isSetUp, setUp) := calls.rxioSetup
    if !isSetUp then (false, held ++ setUp ++ freed)
    else
      let (isStarted, started) := calls.rxioStartPersistent
      if !isStarted then (false, held ++ setUp ++ started ++ calls.rxioTeardown ++ freed)
      else (true, held ++ setUp ++ started)

/-- An error leaves nothing behind: what was acquired is released once, and nothing else is. -/
def Clean : Prop :=
  calls.openFile.1 = false → calls.openFile.2.released.Perm calls.openFile.2.acquired ∧
    calls.openFile.2.released.Nodup

instance : Decidable calls.Clean :=
  inferInstanceAs (Decidable (_ → _))

/-- The call that fails comes before the first resource of the setup, or it is not made. -/
def Spared : Prop :=
  ∀ call ∈ calls.failing,
    call ∈ [OpenCall.calloc, .ctxAlloc, .setDevice, .detectBdf, .queryLbaSize,
      .queryNamespaceCapacity, .queryMaxQueueId, .jobIndex, .openKmod] ∨
    calls.listed = false ∧ call ∈ [OpenCall.mallocPool, .mallocPageDmas, .getPhysAddr, .prefill]

instance : Decidable calls.Spared :=
  inferInstanceAs (Decidable (∀ call ∈ calls.failing, _))

/-- `open_file` leaves nothing behind if and only if the call that fails is spared. -/
theorem clean_iff : calls.Clean ↔ calls.Spared := by
  obtain ⟨failing, choosesQueue, quiesces, listed⟩ := calls
  rcases failing with _ | call
  · revert choosesQueue quiesces listed
    decide
  · cases call <;> revert choosesQueue quiesces listed <;> decide

/-- When `createQueue` fails, the descriptor of the module and the mapping stay; when the work ring
cannot be allocated, the memory of the queue does. -/
theorem not_clean : ¬ Clean ⟨some .createQueue, true, true, true⟩ ∧
    ¬ Clean ⟨some .mallocRing, true, true, true⟩ := by
  decide

end OpenCalls

end RocmXio.Fio
