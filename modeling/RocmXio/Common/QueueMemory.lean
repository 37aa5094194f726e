/-
The memory of a queue that the device and the GPU share.

A queue lies in memory of the GPU, in pinned memory of the host or, when the controller accepts
nothing else, in a contiguous buffer of the kernel module. Each function takes the outcomes of its
calls and counts in a ledger what it acquires and releases. They clean up after themselves, except
that coherent memory may come from `malloc`, which `hipHostFree` does not free.
-/

import RocmXio.Lib.Ledger

namespace RocmXio.Common

open Lib

/-! ### Calls that fail -/

/-- `errno` after a call that has failed. -/
abbrev Errno := ℕ+

namespace Errno

def negated (errno : Errno) : Int :=
  -((errno : Nat) : Int)

theorem negated_neg (errno : Errno) : errno.negated < 0 :=
  Int.neg_neg_of_pos (Int.natCast_pos.mpr errno.pos)

def EIO : Errno := 5
def E2BIG : Errno := 7
def EAGAIN : Errno := 11
def ENOMEM : Errno := 12
def ENODEV : Errno := 19
def EINVAL : Errno := 22
def ENOTSUP : Errno := 95

end Errno

open Errno

def openFile (outcome : Option Errno) (ledger : Ledger) : Except Errno Nat × Ledger :=
  match outcome with
  | none => (.ok ledger.next, ledger.acquire)
  | some errno => (.error errno, ledger)

/-- The loop of `openDeviceWithRetry` with `left` more attempts after this one. -/
def retries (attempts : Nat → Option Errno) : (left retry : Nat) → Option Errno
  | 0, retry => attempts retry
  | left + 1, retry =>
    match attempts retry with
    | none => none
    | some errno => if errno = EAGAIN then retries attempts left (retry + 1) else some errno

/-- `openDeviceWithRetry` with five attempts. -/
def openDeviceWithRetry (attempts : Nat → Option Errno) (ledger : Ledger) :
    Except Errno Nat × Ledger :=
  openFile (retries attempts 4 0) ledger

/-! ### The controller -/

/-- A file with the id of a vendor or a device: opening it, and its content if it can be
read. -/
structure IdFile where
  opened : Option Errno
  content : Option Nat

namespace IdFile

def fails (file : IdFile) : Bool :=
  file.opened.isSome || file.content.isNone

def readId (file : IdFile) (ledger : Ledger) : Except Errno Nat × Ledger :=
  match openFile file.opened ledger with
  | (.error errno, ledger) => (.error errno, ledger)
  | (.ok fd, ledger) =>
    match file.content with
    | some id => (.ok id, ledger.release fd)
    | none => (.error EIO, ledger.release fd)

end IdFile

/-- The calls of `detectEmulatedNvme`: resolving the path, reading the link, whether there is
a PCI address in it, and the two files. -/
structure DetectCalls where
  resolve : Option Errno
  link : Bool
  address : Bool
  vendor : IdFile
  device : IdFile

namespace DetectCalls

def fails (calls : DetectCalls) : Bool :=
  calls.resolve.isSome || !calls.link || !calls.address || calls.vendor.fails ||
    calls.device.fails

def emulated (calls : DetectCalls) : Bool :=
  calls.vendor.content.any fun id => id % 2 ^ 16 == 0x1b36

/-- `detectEmulatedNvme`: its code and `*is_emulated_out`. -/
def detectEmulatedNvme (calls : DetectCalls) (ledger : Ledger) : Int × Bool × Ledger :=
  match calls.resolve with
  | some errno => (errno.negated, false, ledger)
  | none =>
    if !calls.link || !calls.address then (ENODEV.negated, false, ledger)
    else
      match calls.vendor.readId ledger with
      | (.error errno, ledger) => (errno.negated, false, ledger)
      | (.ok vendor, ledger) =>
        match calls.device.readId ledger with
        | (.error errno, ledger) => (errno.negated, false, ledger)
        | (.ok _, ledger) => (0, vendor % 2 ^ 16 == 0x1b36, ledger)

end DetectCalls

/-- The calls of `readNvmeCapCqr`, and the register. -/
structure CapCalls where
  opened : Option Errno
  mapped : Option Errno
  cap : Nat

namespace CapCalls

/-- `readNvmeCapCqr`: its code and `*cqr_out`. -/
def readNvmeCapCqr (calls : CapCalls) (ledger : Ledger) : Int × Bool × Ledger :=
  match openFile calls.opened ledger with
  | (.error errno, ledger) => (errno.negated, false, ledger)
  | (.ok fd, ledger) =>
    match calls.mapped with
    | some errno => (errno.negated, false, ledger.release fd)
    | none =>
      (0, calls.cap.testBit 16, (ledger.acquire.release ledger.next).release fd)

/-- Whether queues have to be contiguous: if that is not known, they are. -/
def cqr (calls : CapCalls) : Bool :=
  calls.opened.isSome || calls.mapped.isSome || calls.cap.testBit 16

end CapCalls

/-! ### Memory -/

/-- An entry of the kernel module for a contiguous buffer. The module's list and the mapping hold
one reference each; the file is released when neither the descriptor nor the mapping is left. -/
structure Contig where
  buffer : Nat
  listed : Bool
  mapped : Bool
  opened : Bool

namespace Contig

def delist (contig : Contig) (ledger : Ledger) : Contig × Ledger :=
  if contig.listed then
    ({ contig with listed := false },
      if contig.mapped then ledger else ledger.release contig.buffer)
  else (contig, ledger)

def close (contig : Contig) (fd : Nat) (ledger : Ledger) : Contig × Ledger :=
  if contig.mapped then ({ contig with opened := false }, ledger.release fd)
  else { contig with opened := false }.delist (ledger.release fd)

def munmap (contig : Contig) (mapping : Nat) (ledger : Ledger) : Contig × Ledger :=
  let ledger := ledger.release mapping
  let ledger := if contig.listed then ledger else ledger.release contig.buffer
  if contig.opened then ({ contig with mapped := false }, ledger)
  else { contig with mapped := false }.delist ledger

/-- `ROCM_XIO_FREE_CONTIG_QUEUE`, which may fail, and closing the descriptor. -/
def abandon (contig : Contig) (freed : Option Errno) (fd : Nat) (ledger : Ledger) : Ledger :=
  match freed with
  | none => ((contig.delist ledger).1.close fd (contig.delist ledger).2).2
  | some _ => (contig.close fd ledger).2

end Contig

/-- Where a block comes from, which the code cannot tell from the pointer. -/
inductive Allocator where
  | hip
  | malloc
  | device
  | mapping (contig : Contig)

structure Block where
  object : Nat
  allocator : Allocator

/-- The outcome of a request for host memory: HIP serves it, or else `malloc`. -/
structure HostAllocation where
  hipHostMalloc : Bool
  malloc : Bool

namespace HostAllocation

def fails (calls : HostAllocation) : Bool :=
  !calls.hipHostMalloc && !calls.malloc

def allocHostMemory (calls : HostAllocation) (ledger : Ledger) : Option Block × Ledger :=
  if calls.hipHostMalloc then (some ⟨ledger.next, .hip⟩, ledger.acquire)
  else if calls.malloc then (some ⟨ledger.next, .malloc⟩, ledger.acquire)
  else (none, ledger)

end HostAllocation

namespace Block

/-- `hipHostFree`, which succeeds for memory of HIP only. -/
def hipHostFree (block : Block) (ledger : Ledger) : Bool × Ledger :=
  match block.allocator with
  | .hip => (true, ledger.release block.object)
  | _ => (false, ledger)

def freeHostMemory (block : Block) (ledger : Ledger) : Ledger :=
  match block.hipHostFree ledger with
  | (true, ledger) => ledger
  | (false, ledger) => ledger.release block.object

def freeQueue (block : Block) (isDevice : Bool) (ledger : Ledger) : Ledger :=
  if isDevice then ledger.release block.object else block.freeHostMemory ledger

/-- How memory of the host or the device is freed after a failure: the result of
`hipHostFree` is not looked at. -/
def freeVirt (block : Block) (usesCoherent isDevice : Bool) (ledger : Ledger) : Ledger :=
  if usesCoherent then (block.hipHostFree ledger).2 else block.freeQueue isDevice ledger

def freeContigQueue (block : Block) (ledger : Ledger) : Ledger :=
  match block.allocator with
  | .mapping contig => (contig.munmap block.object ledger).2
  | _ => ledger.release block.object

end Block

/-! ### Setting a queue up -/

/-- The calls that give device memory a physical address. The kernel module's answer may depend on
whether the controller is emulated. -/
structure VramCalls where
  exportDmabuf : Bool
  openKmod : Option Errno
  registerBuffer : Bool → Except Errno Nat

def VramCalls.exportRegVramBuf (calls : VramCalls) (emulated : Bool) (ledger : Ledger) :
    Except Errno Nat × Ledger :=
  if !calls.exportDmabuf then (.error ENOTSUP, ledger)
  else
    let dmabufFd := ledger.next
    match openFile calls.openKmod ledger.acquire with
    | (.error errno, ledger) => (.error errno, ledger.release dmabufFd)
    | (.ok kmodFd, ledger) =>
      (calls.registerBuffer emulated, (ledger.release dmabufFd).release kmodFd)

/-- Opening the page map, and the address it has for a page: 0 if it has none. -/
structure PagemapCalls where
  opened : Option Errno
  physAddr : Nat

/-- `getPhysAddr` for a page of the process. -/
def PagemapCalls.getPhysAddr (calls : PagemapCalls) (ledger : Ledger) : Nat × Ledger :=
  match openFile calls.opened ledger with
  | (.error _, ledger) => (0, ledger)
  | (.ok fd, ledger) => (calls.physAddr, ledger.release fd)

/-- The calls of `setupContigQueueForGpu`. -/
structure ContigCalls where
  attempts : Nat → Option Errno
  allocate : Except Errno Nat
  pageSize : Bool
  sysconfErrno : Option Errno
  mmap : Option Errno
  free : Option Errno
  hostRegister : Bool
  devicePointer : Bool
  hsaInit : Bool
  gpuAgent : Bool
  memoryLock : Bool

structure QueueCalls where
  virtAddr : Nat
  hipMalloc : Bool
  mapped : HostAllocation
  coherent : HostAllocation
  hostRegister : Bool
  devicePointer : Bool
  vram : VramCalls
  pagemap : PagemapCalls
  contig : ContigCalls
  pageSize : Nat
  pagesOpened : Option Errno
  pagesRead : Option Errno
  memalign : Bool
  mlock : Option Errno
  listPagemap : PagemapCalls
  registerQueue : Option Errno

/-- `struct xioQueueSetup`: pointers are blocks or objects. -/
structure QueueSetup where
  virt : Option Block
  phys : Nat
  usesCoherent : Bool
  prpList : Option Nat
  prpListPhys : Nat
  usesContig : Bool

def QueueSetup.zero : QueueSetup :=
  ⟨none, 0, false, none, 0, false⟩

namespace QueueCalls

variable (calls : QueueCalls)

def allocateQueue (isDevice : Bool) (ledger : Ledger) : Option Block × Ledger :=
  if isDevice then
    if calls.hipMalloc then (some ⟨ledger.next, .device⟩, ledger.acquire) else (none, ledger)
  else calls.mapped.allocHostMemory ledger

/-- `reallocateQueue`: whether the memory is taken for coherent, and where the queue is. -/
def reallocateQueue (block : Block) (ledger : Ledger) : Bool × Block × Ledger :=
  match calls.coherent.allocHostMemory ledger with
  | (none, ledger) => (false, block, ledger)
  | (some coherent, ledger) => (true, coherent, block.freeHostMemory ledger)

/-- `getPhysAddr` for a queue. -/
def getPhysAddr (isDevice emulated : Bool) (ledger : Ledger) : Nat × Ledger :=
  if isDevice then
    match calls.vram.exportRegVramBuf emulated ledger with
    | (.error _, ledger) => (0, ledger)
    | (.ok physAddr, ledger) => (physAddr, ledger)
  else
    match calls.pagemap.getPhysAddr ledger with
    | (physAddr, ledger) => (if physAddr = 0 then calls.virtAddr else physAddr, ledger)

/-- `setupQueueForGpu` from the point where the memory is allocated. -/
def finishSetup (isDevice kernelModuleDevice emulated usesCoherent : Bool) (virt : Block)
    (ledger : Ledger) : Int × QueueSetup × Ledger :=
  let failed : QueueSetup := { QueueSetup.zero with usesCoherent := usesCoherent }
  if !usesCoherent && !isDevice && !calls.hostRegister then
    (negated EIO, failed, virt.freeVirt usesCoherent isDevice ledger)
  else if !isDevice && !calls.devicePointer then
    (negated EIO, failed, virt.freeVirt usesCoherent isDevice ledger)
  else if !kernelModuleDevice then
    (EINVAL.negated, failed, virt.freeVirt usesCoherent isDevice ledger)
  else
    match calls.getPhysAddr isDevice emulated ledger with
    | (phys, ledger) =>
      if phys = 0 ∧ isDevice = true then
        (ENOTSUP.negated, failed, virt.freeVirt usesCoherent isDevice ledger)
      else (0, { failed with virt := some virt, phys := phys }, ledger)

def setupQueueForGpu (size : Nat) (isDevice kernelModuleDevice emulated : Bool) (ledger : Ledger) :
    Int × QueueSetup × Ledger :=
  if size = 0 then (EINVAL.negated, .zero, ledger)
  else
    match calls.allocateQueue isDevice ledger with
    | (none, ledger) => (ENOMEM.negated, .zero, ledger)
    | (some virt, ledger) =>
      if isDevice then
        calls.finishSetup isDevice kernelModuleDevice emulated false virt ledger
      else
        match calls.reallocateQueue virt ledger with
        | (usesCoherent, virt, ledger) =>
          calls.finishSetup isDevice kernelModuleDevice emulated usesCoherent virt ledger

end QueueCalls

namespace ContigCalls

/-- The GPU gets a pointer to the mapping from HIP, or else from HSA. -/
def gpuPointer (calls : ContigCalls) : Except Errno Unit :=
  if calls.hostRegister && calls.devicePointer then .ok ()
  else if !calls.hsaInit then .error EIO
  else if !calls.gpuAgent then .error ENODEV
  else if !calls.memoryLock then .error EIO
  else .ok ()

/-- `setupContigQueueForGpu` once the buffer is allocated. Giving it back may change `errno` before
it is read. -/
def mapBuffer (calls : ContigCalls) (physAddr : Nat) (contig : Contig) (fd : Nat)
    (ledger : Ledger) : Int × QueueSetup × Ledger :=
  if !calls.pageSize then
    (match calls.free.or calls.sysconfErrno with
      | some errno => errno.negated
      | none => -1,
      .zero, contig.abandon calls.free fd ledger)
  else
    match calls.mmap with
    | some errno =>
      ((calls.free.getD errno).negated, .zero, contig.abandon calls.free fd ledger)
    | none =>
      let virt := ledger.next
      let mapped := { contig with mapped := true }
      let ledger := ledger.acquire
      match calls.gpuPointer with
      | .error errno =>
        (errno.negated, .zero,
          (mapped.munmap virt ledger).1.abandon calls.free fd (mapped.munmap virt ledger).2)
      | .ok () =>
        (0, { QueueSetup.zero with
            virt := some ⟨virt, .mapping (mapped.close fd ledger).1⟩, phys := physAddr,
            usesContig := true },
          (mapped.close fd ledger).2)

def setupContigQueueForGpu (calls : ContigCalls) (size : Nat) (ledger : Ledger) :
    Int × QueueSetup × Ledger :=
  if size = 0 then (EINVAL.negated, .zero, ledger)
  else
    match openDeviceWithRetry calls.attempts ledger with
    | (.error _, ledger) => (negated EIO, .zero, ledger)
    | (.ok fd, ledger) =>
      match calls.allocate with
      | .error errno => (errno.negated, .zero, ledger.release fd)
      | .ok physAddr =>
        calls.mapBuffer physAddr ⟨ledger.next, true, false, true⟩ fd ledger.acquire

end ContigCalls

namespace QueueCalls

variable (calls : QueueCalls)

def numPages (size : Nat) : Nat :=
  (size + calls.pageSize - 1) / calls.pageSize

/-- `getPagePhysAddrs` with room for 1024 pages. -/
def getPagePhysAddrs (size : Nat) (ledger : Ledger) : Option Errno × Ledger :=
  if calls.numPages size > 1024 then (some EINVAL, ledger)
  else
    match openFile calls.pagesOpened ledger with
    | (.error errno, ledger) => (some errno, ledger)
    | (.ok fd, ledger) => (calls.pagesRead, ledger.release fd)

/-- The part of `buildQueuePrpList` that allocates the list. -/
def allocateList (setup : QueueSetup) (ledger : Ledger) : Int × QueueSetup × Ledger :=
  if !calls.memalign then (ENOMEM.negated, setup, ledger)
  else
    let list := ledger.next
    let ledger := ledger.acquire
    match calls.mlock with
    | some errno => (errno.negated, setup, ledger.release list)
    | none =>
      match calls.listPagemap.getPhysAddr ledger with
      | (physAddr, ledger) =>
        if physAddr = 0 then (negated EIO, setup, ledger.release list)
        else (0, { setup with prpList := some list, prpListPhys := physAddr }, ledger)

def buildQueuePrpList (setup : QueueSetup) (size : Nat) (isDevice : Bool) (ledger : Ledger)
    : Int × QueueSetup × Ledger :=
  if setup.virt.isNone || size = 0 || calls.pageSize = 0 then (EINVAL.negated, setup, ledger)
  else
    let setup := { setup with prpList := none, prpListPhys := 0 }
    if calls.numPages size ≤ 1 then (0, setup, ledger)
    else if isDevice = false ∧ calls.virtAddr % calls.pageSize ≠ 0 then
      (EINVAL.negated, setup, ledger)
    else if isDevice then (ENOTSUP.negated, setup, ledger)
    else
      match calls.getPagePhysAddrs size ledger with
      | (some errno, ledger) => (errno.negated, setup, ledger)
      | (none, ledger) =>
        if calls.numPages size * 8 > calls.pageSize then (E2BIG.negated, setup, ledger)
        else calls.allocateList setup ledger

end QueueCalls

def QueueSetup.freeQueueSetup (setup : QueueSetup) (isDevice : Bool) (ledger : Ledger) :
    QueueSetup × Ledger :=
  match setup.virt with
  | none => (setup, ledger)
  | some virt =>
    let ledger := match setup.prpList with
      | some list => ledger.release list
      | none => ledger
    ({ setup with virt := none, prpList := none, prpListPhys := 0, usesContig := false },
      if setup.usesContig then virt.freeContigQueue ledger
      else virt.freeVirt setup.usesCoherent isDevice ledger)

end RocmXio.Common
