/-
Buffers in GPU memory that are registered with the kernel module.

For a controller that is passed through, `ROCM_XIO_REGISTER_BUFFER` attaches the dma-buf to the
controller, pins it and maps it, and keeps an entry of `vram_buffers` until the buffer is
unregistered or the descriptor closed, when mapping, pin, attachment, the references to the dma-buf
and to the device and the memory of the entry have to be released.

The call uses the entry after it put it on the list: it reads it for its log message, and when it
cannot copy the answer to the caller it unlinks it and releases everything. Unless another thread
has unregistered the buffer by then, everything is released once and not used after that.
-/

import RocmXio.Common.QueueMemory
import RocmXio.Lib.Custody
import RocmXio.Lib.Run

namespace RocmXio.Common.Errno

def EFAULT : Errno := 14
def EOPNOTSUPP : Errno := ENOTSUP

end RocmXio.Common.Errno

namespace RocmXio.Kmod

open Lib Common Errno

/-! ### Attachments -/

inductive VramResource where
  | mapping
  | pin
  | attachment
  | dmabuf
  | device
  | memory
deriving DecidableEq

/-- What belongs to an attachment, in the order in which it is released. -/
def attachmentResources : List VramResource :=
  [.mapping, .pin, .attachment, .dmabuf, .device]

/-- The outcomes of the calls that get the address of a dma-buf: whether the device is there, the
size, the addresses of the mapping's segments, and for an emulated controller the address in the BAR
of the GPU, if there is one. -/
structure DmabufCalls where
  device : Bool
  dmabuf : Except Errno Nat
  attach : Option Errno
  pin : Option Errno
  map : Option Errno
  segments : List Nat
  bar : Option Nat

/-- What such a function returns, the address and the size, and what it acquires and
releases. -/
structure DmabufOutcome where
  result : Except Errno (Nat × Nat)
  acquired : List VramResource
  released : List VramResource

namespace DmabufCalls

/-- Everything but the first `missing` of the resources is there and is released. -/
def undone (resources : List VramResource) (missing : Nat) (result : Except Errno (Nat × Nat)) :
    DmabufOutcome where
  result := result
  acquired := (resources.drop missing).reverse
  released := resources.drop missing

/-- The labels at the end of `get_dmabuf_phys_addr`. -/
def undo (missing : Nat) (errno : Errno) : DmabufOutcome :=
  undone attachmentResources missing (.error errno)

/-- `get_dmabuf_phys_addr`: an attachment that is kept has one segment. -/
def getDmabufPhysAddr (calls : DmabufCalls) : DmabufOutcome :=
  if !calls.device then undo 5 ENODEV
  else
    match calls.dmabuf, calls.attach, calls.pin, calls.map, calls.segments with
    | .error errno, _, _, _, _ => undo 4 errno
    | .ok _, some errno, _, _, _ => undo 3 errno
    | .ok _, none, some errno, _, _ => undo 2 errno
    | .ok _, none, none, some errno, _ => undo 1 errno
    | .ok _, none, none, none, [] => undo 0 EINVAL
    | .ok size, none, none, none, [address] =>
      ⟨.ok (address, size), attachmentResources.reverse, []⟩
    | .ok _, none, none, none, _ :: _ :: _ => undo 0 EOPNOTSUPP

/-- The resources of `get_dmabuf_bar_gpa` in the order in which they are released. -/
def barResources : List VramResource :=
  [.mapping, .pin, .attachment, .device, .dmabuf]

/-- The labels at the end of `get_dmabuf_bar_gpa`. Nothing is kept, whatever the result. -/
def cleanup (missing : Nat) (result : Except Errno (Nat × Nat)) : DmabufOutcome :=
  undone barResources missing result

def getDmabufBarGpa (calls : DmabufCalls) : DmabufOutcome :=
  match calls.dmabuf with
  | .error errno => cleanup 5 (.error errno)
  | .ok size =>
    if !calls.device then cleanup 4 (.error ENODEV)
    else
      match calls.attach, calls.pin, calls.map, calls.bar with
      | some errno, _, _, _ => cleanup 3 (.error errno)
      | none, some errno, _, _ => cleanup 2 (.error errno)
      | none, none, some errno, _ => cleanup 1 (.error errno)
      | none, none, none, none => cleanup 0 (.error EINVAL)
      | none, none, none, some address => cleanup 0 (.ok (address, size))

structure Balanced (outcome : DmabufOutcome) (kept : List VramResource) : Prop where
  nodup : outcome.acquired.Nodup
  noMemory : .memory ∉ outcome.acquired
  perm : outcome.acquired.Perm (outcome.released ++ kept)

theorem undone_balanced {resources : List VramResource} (nodup : resources.Nodup)
    (noMemory : .memory ∉ resources) (missing : Nat) (result : Except Errno (Nat × Nat)) :
    Balanced (undone resources missing result) [] := by
  have sublist : (resources.drop missing).Sublist resources := List.drop_sublist _ _
  refine ⟨List.nodup_reverse.mpr (sublist.nodup nodup), fun member => ?_, ?_⟩
  · exact noMemory (sublist.subset (List.mem_reverse.mp member))
  · rw [List.append_nil]
    exact List.reverse_perm _

theorem attachmentResources_nodup : attachmentResources.Nodup := by decide

theorem memory_notMem : .memory ∉ attachmentResources := by decide

variable (missing : Nat)

theorem undo_balanced (errno : Errno) : Balanced (undo missing errno) [] :=
  undone_balanced attachmentResources_nodup memory_notMem missing _

theorem cleanup_balanced (result : Except Errno (Nat × Nat)) :
    Balanced (cleanup missing result) [] :=
  undone_balanced (by decide) (by decide) missing result

variable (calls : DmabufCalls)

theorem getDmabufPhysAddr_cases : (∃ errno, calls.getDmabufPhysAddr.result = .error errno ∧
        Balanced calls.getDmabufPhysAddr []) ∨
      ∃ found, calls.getDmabufPhysAddr.result = .ok found ∧
        Balanced calls.getDmabufPhysAddr attachmentResources := by
  unfold getDmabufPhysAddr
  split
  · exact .inl ⟨_, rfl, undo_balanced _ _⟩
  · split
    case h_6 =>
      exact .inr ⟨_, rfl, List.nodup_reverse.mpr attachmentResources_nodup,
        fun member => memory_notMem (List.mem_reverse.mp member), List.reverse_perm _⟩
    all_goals exact .inl ⟨_, rfl, undo_balanced _ _⟩

theorem getDmabufBarGpa_balanced : Balanced calls.getDmabufBarGpa [] := by
  unfold getDmabufBarGpa
  split
  · exact cleanup_balanced _ _
  · split
    · exact cleanup_balanced _ _
    · split <;> exact cleanup_balanced _ _

end DmabufCalls

/-! ### Entries and calls -/

/-- `struct rocm_xio_register_buffer_req`, with the outcomes of the calls made for it and whether
there is memory for the entry. -/
structure RegisterBufferReq where
  virtAddr : Nat
  flags : Nat
  calls : DmabufCalls
  kmalloc : Bool

/-- `ROCM_XIO_FLAG_EMULATED` is set; without a flag the controller is taken for one that is
passed through. -/
def RegisterBufferReq.isEmulated (request : RegisterBufferReq) : Bool :=
  request.flags.testBit 0

def RegisterBufferReq.getAddress (request : RegisterBufferReq) : DmabufOutcome :=
  if request.isEmulated then request.calls.getDmabufBarGpa else request.calls.getDmabufPhysAddr

/-- `struct vram_buffer_entry`. The key, the number of the call that made it, stands for its address
and for the pointers to the attachment. -/
structure VramBufferEntry where
  key : Nat
  virtAddr : Nat
  physAddr : Nat
  size : Nat
  owner : Nat
  isPassthrough : Bool
deriving DecidableEq

/-- What the pointers of the entry stand for, in the order in which it is released. -/
def VramBufferEntry.attached (entry : VramBufferEntry) : List VramResource :=
  if entry.isPassthrough then attachmentResources else []

def VramBufferEntry.resources (entry : VramBufferEntry) : List VramResource :=
  entry.attached ++ [.memory]

/-- The calls that others may meet: a registration before its message, one before it copies the
answer, and a call (perhaps a failed registration) that still has to release some resources of an
entry and then other entries. -/
inductive VramCall where
  | registering (entry : VramBufferEntry)
  | answering (entry : VramBufferEntry)
  | disposing (left : List VramResource) (entry : VramBufferEntry) (rest : List VramBufferEntry)
      (failing : Bool)
deriving DecidableEq

def tagged (key : Nat) (resources : List VramResource) : Multiset (VramResource × Nat) :=
  (resources : Multiset VramResource).map fun resource => (resource, key)

def VramBufferEntry.holding (entry : VramBufferEntry) : Multiset (VramResource × Nat) :=
  tagged entry.key entry.resources

@[simp] def VramCall.holding : VramCall → Multiset (VramResource × Nat)
  | .disposing left entry rest _ =>
    tagged entry.key left + (rest : Multiset VramBufferEntry).bind VramBufferEntry.holding
  | .registering _ | .answering _ => 0

/-- The list `vram_buffers`, the calls in progress and the next number; and as history what was
acquired and released, the entries used after they were freed, and what the registrations returned.
-/
structure VramBuffers where
  buffers : List VramBufferEntry
  calls : Multiset VramCall
  next : Nat
  acquired : Multiset (VramResource × Nat)
  released : Multiset (VramResource × Nat)
  misused : Multiset VramBufferEntry
  returned : Multiset (Nat × Int)

inductive VramStep where
  | register (file : Nat) (request : RegisterBufferReq)
  | log (entry : VramBufferEntry)
  | copied (entry : VramBufferEntry)
  | copyFailed (entry : VramBufferEntry)
  | unregister (file virtAddr : Nat)
  | release (file : Nat)
  | dispose (call : VramCall)

namespace VramBuffers

def init : VramBuffers where
  buffers := []
  calls := 0
  next := 0
  acquired := 0
  released := 0
  misused := 0
  returned := 0

variable (state : VramBuffers)

def touch (entry : VramBufferEntry) : VramBuffers :=
  { state with
    misused :=
      if (.memory, entry.key) ∈ state.released then entry ::ₘ state.misused else state.misused }

def answer (key : Nat) (code : Int) : VramBuffers :=
  { state with returned := (key, code) ::ₘ state.returned }

/-- `get_dmabuf_bar_gpa` or `get_dmabuf_phys_addr`, for a new registration. -/
def attach (outcome : DmabufOutcome) : VramBuffers :=
  { state with
    next := state.next + 1
    acquired := state.acquired + tagged state.next outcome.acquired
    released := state.released + tagged state.next outcome.released }

def newEntry (file : Nat) (request : RegisterBufferReq) (physAddr size : Nat)
    : VramBufferEntry where
  key := state.next
  virtAddr := request.virtAddr
  physAddr := physAddr
  size := size
  owner := file
  isPassthrough := !request.isEmulated

/-- `ROCM_XIO_REGISTER_BUFFER` up to the point where the entry is on the list. -/
def register (file : Nat) (request : RegisterBufferReq) : VramBuffers :=
  match request.getAddress.result with
  | .error errno => (state.attach request.getAddress).answer state.next errno.negated
  | .ok (physAddr, size) =>
    let entry := state.newEntry file request physAddr size
    let state := state.attach request.getAddress
    if !request.kmalloc then
      { state with
        released := state.released + tagged entry.key entry.attached }.answer
          entry.key ENOMEM.negated
    else
      { state with
        acquired := state.acquired + {(.memory, entry.key)}
        buffers := entry :: state.buffers
        calls := .registering entry ::ₘ state.calls }

/-- The test under the lock of `ROCM_XIO_UNREGISTER_BUFFER`. -/
def matching (file virtAddr : Nat) (entry : VramBufferEntry) : Bool :=
  entry.virtAddr == virtAddr && entry.owner == file

/-- `ROCM_XIO_UNREGISTER_BUFFER` up to the point where the entry is unlinked. -/
def unregister (file virtAddr : Nat) : VramBuffers :=
  match state.buffers.find? (matching file virtAddr) with
  | none => state
  | some entry =>
    { state with
      buffers := state.buffers.erase entry
      calls := .disposing entry.resources entry [] false ::ₘ state.calls }

/-- The part of `rocm_xio_release` about buffers, up to the point where the entries are
unlinked. -/
def release (file : Nat) : VramBuffers :=
  match (state.buffers.filter fun entry => entry.owner == file).reverse with
  | [] => state
  | entry :: rest =>
    { state with
      buffers := state.buffers.filter fun entry => !(entry.owner == file)
      calls := .disposing entry.resources entry rest false ::ₘ state.calls }

def dispose (call : VramCall) : Option VramBuffers :=
  match call with
  | .disposing (resource :: left) entry rest failing =>
    some { state.touch entry with
      released := state.released + {(resource, entry.key)}
      calls := advance state.calls call (.disposing left entry rest failing) }
  | .disposing [] _ (entry :: rest) failing =>
    some { state with
      calls := advance state.calls call (.disposing entry.resources entry rest failing) }
  | .disposing [] entry [] failing =>
    let state := { state with calls := state.calls.erase call }
    some (if failing then state.answer entry.key EFAULT.negated else state)
  | .registering _ | .answering _ => none

/-- One step. Release may come at any time; the kernel calls it when nothing else uses the
descriptor. -/
def step : VramStep → Option VramBuffers
  | .register file request => some (state.register file request)
  | .log entry =>
    if .registering entry ∈ state.calls then
      some { state.touch entry with
        calls := advance state.calls (.registering entry) (.answering entry) }
    else none
  | .copied entry =>
    if .answering entry ∈ state.calls then
      some ({ state with calls := state.calls.erase (.answering entry) }.answer entry.key 0)
    else none
  | .copyFailed entry =>
    if .answering entry ∈ state.calls then
      some { state.touch entry with
        buffers := state.buffers.erase entry
        calls := advance state.calls (.answering entry)
          (.disposing entry.resources entry [] true) }
    else none
  | .unregister file virtAddr => some (state.unregister file virtAddr)
  | .release file => some (state.release file)
  | .dispose call => if call ∈ state.calls then state.dispose call else none

/-! ### The property and the condition -/

def held : Multiset (VramResource × Nat) :=
  (state.buffers : Multiset VramBufferEntry).bind VramBufferEntry.holding +
    state.calls.bind VramCall.holding

/-- What was acquired is held by somebody who will release it, or was released once; nothing was
used after it was freed; and a failed registration has left nothing. -/
structure Clean (state : VramBuffers) : Prop where
  once : ∀ resource, state.released.count resource ≤ 1
  acquired : ∀ resource ∈ state.released, resource ∈ state.acquired
  accounted : ∀ resource ∈ state.acquired, resource ∈ state.held ↔ resource ∉ state.released
  notMisused : state.misused = 0
  failed : ∀ key code, (key, code) ∈ state.returned → code < 0 →
    (∀ resource, (resource, key) ∈ state.acquired → (resource, key) ∈ state.released) ∧
      ∀ entry ∈ state.buffers, entry.key ≠ key

/-- A registration finds its entry not freed when it writes its message, and still listed when it
cannot copy the answer. -/
def Permits : VramStep → Prop
  | .log entry => (.memory, entry.key) ∉ state.released
  | .copyFailed entry => entry ∈ state.buffers
  | _ => True

/-! ### What is held -/

@[simp] theorem mem_tagged {key other : Nat} {resources : List VramResource}
    {resource : VramResource} :
    (resource, other) ∈ tagged key resources ↔ resource ∈ resources ∧ key = other := by
  simp [tagged]

variable (key : Nat)

theorem tagged_nodup {resources : List VramResource} (nodup : resources.Nodup) :
    (tagged key resources).Nodup :=
  (Multiset.coe_nodup.mpr nodup).map fun _ _ same => congrArg Prod.fst same

theorem tagged_append (first second : List VramResource) :
    tagged key (first ++ second) = tagged key first + tagged key second := by
  rw [tagged, ← Multiset.coe_add, Multiset.map_add]
  rfl

theorem tagged_cons (resource : VramResource) (rest : List VramResource) :
    tagged key (resource :: rest) = {(resource, key)} + tagged key rest :=
  tagged_append key [resource] rest

theorem tagged_of_balanced {outcome : DmabufOutcome} {kept : List VramResource}
    (balanced : DmabufCalls.Balanced outcome kept) :
    tagged key outcome.acquired = tagged key outcome.released + tagged key kept := by
  rw [← tagged_append, tagged, tagged, Multiset.coe_eq_coe.mpr balanced.perm]

/-- The address of the buffer is there with everything that the entry will hold, or nothing
is kept. -/
theorem getAddress_cases (file : Nat) (request : RegisterBufferReq) :
    (∃ errno, request.getAddress.result = .error errno ∧
        DmabufCalls.Balanced request.getAddress []) ∨
      ∃ physAddr size, request.getAddress.result = .ok (physAddr, size) ∧
        DmabufCalls.Balanced request.getAddress
          (state.newEntry file request physAddr size).attached := by
  unfold RegisterBufferReq.getAddress newEntry VramBufferEntry.attached
  cases request.isEmulated with
  | true =>
    have balanced := request.calls.getDmabufBarGpa_balanced
    cases isResult : request.calls.getDmabufBarGpa.result with
    | error errno => exact .inl ⟨errno, isResult, balanced⟩
    | ok found => exact .inr ⟨found.1, found.2, isResult, balanced⟩
  | false =>
    refine request.calls.getDmabufPhysAddr_cases.imp_right ?_
    rintro ⟨found, isResult, balanced⟩
    exact ⟨found.1, found.2, isResult, balanced⟩

/-! ### The invariant -/

/-- What was acquired is held or released, keys are those of earlier registrations, a call that
disposes of an entry has a final piece of its resources left, nothing was misused, and nobody holds
the memory of a failed registration. -/
structure Invariant (state : VramBuffers) : Prop where
  conserved : Conserved state.acquired state.released state.held
  earlier : ∀ resource key, (resource, key) ∈ state.acquired → key < state.next
  disposing : ∀ left entry rest failing, .disposing left entry rest failing ∈ state.calls →
    left <:+ entry.resources ∧ (left = [] → (.memory, entry.key) ∈ state.released)
  notMisused : state.misused = 0
  failed : ∀ key code, (key, code) ∈ state.returned → code < 0 →
    key < state.next ∧ (.memory, key) ∉ state.held

theorem memory_mem_of_suffix {entry : VramBufferEntry} {left : List VramResource}
    (final : left <:+ entry.resources) (nonempty : left ≠ []) : .memory ∈ left := by
  obtain ⟨first, split⟩ := final
  have isLast := congrArg List.getLast? split
  rw [VramBufferEntry.resources, List.getLast?_concat, List.getLast?_append_of_ne_nil _ nonempty]
    at isLast
  exact List.mem_of_getLast? isLast

theorem memory_mem_holding (entry : VramBufferEntry) : (.memory, entry.key) ∈ entry.holding :=
  mem_tagged.mpr ⟨List.mem_append.mpr (.inr (List.mem_singleton_self _)), rfl⟩

section

variable {state next : VramBuffers} {entry : VramBufferEntry}

theorem holding_le_held (member : entry ∈ state.buffers) : entry.holding ≤ state.held :=
  (Multiset.le_bind _ (Multiset.mem_coe.mpr member)).trans (Multiset.le_add_right _ _)

variable {resource : VramResource} {key}

theorem Invariant.memory_mem_held (invariant : state.Invariant)
    (member : (resource, key) ∈ state.held) : (.memory, key) ∈ state.held := by
  rcases Multiset.mem_add.mp member with inList | inCall
  · obtain ⟨entry, listed, holds⟩ := Multiset.mem_bind.mp inList
    obtain ⟨-, rfl⟩ := mem_tagged.mp holds
    exact Multiset.mem_of_le (holding_le_held (Multiset.mem_coe.mp listed))
      (memory_mem_holding entry)
  · obtain ⟨call, inProgress, holds⟩ := Multiset.mem_bind.mp inCall
    refine Multiset.mem_add.mpr (.inr (Multiset.mem_bind.mpr ⟨call, inProgress, ?_⟩))
    cases call with
    | registering entry => exact absurd holds (Multiset.notMem_zero _)
    | answering entry => exact absurd holds (Multiset.notMem_zero _)
    | disposing left entry rest failing =>
      rcases Multiset.mem_add.mp holds with first | later
      · obtain ⟨isLeft, rfl⟩ := mem_tagged.mp first
        have final := (invariant.disposing left entry rest failing inProgress).1
        exact Multiset.mem_add.mpr (.inl (mem_tagged.mpr
          ⟨memory_mem_of_suffix final (List.ne_nil_of_mem isLeft), rfl⟩))
      · obtain ⟨other, isRest, holds⟩ := Multiset.mem_bind.mp later
        obtain ⟨-, rfl⟩ := mem_tagged.mp holds
        exact Multiset.mem_add.mpr (.inr (Multiset.mem_bind.mpr
          ⟨other, isRest, memory_mem_holding other⟩))

theorem Invariant.clean (invariant : state.Invariant) : state.Clean := by
  have conserved := invariant.conserved
  have accounted : ∀ resource ∈ state.acquired,
      resource ∈ state.held ↔ resource ∉ state.released := by
    intro resource member
    rw [conserved.balance, Multiset.mem_add] at member
    exact ⟨conserved.notMem_released, member.resolve_left⟩
  refine ⟨fun resource => ?_, fun resource member => ?_, accounted, invariant.notMisused,
    fun key code returned negative => ?_⟩
  · exact Multiset.nodup_iff_count_le_one.mp conserved.released_nodup resource
  · rw [conserved.balance]
    exact Multiset.mem_add.mpr (.inl member)
  · have notHeld := (invariant.failed key code returned negative).2
    constructor
    · intro resource member
      by_contra kept
      exact notHeld (invariant.memory_mem_held ((accounted _ member).mpr kept))
    · rintro entry listed rfl
      exact notHeld (Multiset.mem_of_le (holding_le_held listed) (memory_mem_holding entry))

theorem Invariant.initial : Invariant init where
  conserved := by
    have isHeld : init.held = 0 := rfl
    exact .empty
  earlier := fun _ _ member => absurd member (Multiset.notMem_zero _)
  disposing := fun _ _ _ _ member => absurd member (Multiset.notMem_zero _)
  notMisused := rfl
  failed := fun _ _ member => absurd member (Multiset.notMem_zero _)

theorem touch_of_notMem (alive : (.memory, entry.key) ∉ state.released) :
    state.touch entry = state := by
  rw [touch, if_neg alive]

theorem Invariant.handOn (invariant : state.Invariant) (acquired : next.acquired = state.acquired)
    (released : next.released = state.released) (held : next.held = state.held)
    (number : next.next = state.next) (misused : next.misused = state.misused)
    (returned : ∀ key code, (key, code) ∈ next.returned → code < 0 →
      (key, code) ∈ state.returned ∨ (key < state.next ∧ (.memory, key) ∉ state.held))
    (calls : ∀ left entry rest failing, .disposing left entry rest failing ∈ next.calls →
      .disposing left entry rest failing ∈ state.calls ∨ left = entry.resources) :
    next.Invariant where
  conserved := by
    rw [acquired, released, held]
    exact invariant.conserved
  earlier := by
    rw [acquired, number]
    exact invariant.earlier
  disposing := by
    rw [released]
    intro left entry rest failing member
    rcases calls left entry rest failing member with before | rfl
    · exact invariant.disposing left entry rest failing before
    · exact ⟨List.suffix_refl _, fun empty => absurd empty (List.concat_ne_nil _ _)⟩
  notMisused := misused.trans invariant.notMisused
  failed := by
    rw [held, number]
    intro key code member negative
    exact (returned key code member negative).elim
      (fun before => invariant.failed key code before negative) id

theorem Invariant.disjoint (invariant : state.Invariant) (resources : List VramResource) :
    Disjoint state.acquired (tagged state.next resources) := by
  refine Multiset.disjoint_left.mpr ?_
  rintro ⟨resource, key⟩ before now
  obtain ⟨-, rfl⟩ := mem_tagged.mp now
  exact Nat.lt_irrefl _ (invariant.earlier resource _ before)

variable {outcome : DmabufOutcome} {kept : List VramResource}

section

variable (invariant : state.Invariant)
include invariant

theorem Invariant.attach (balanced : DmabufCalls.Balanced outcome kept) :
    Conserved (state.attach outcome).acquired (state.attach outcome).released
      (tagged state.next kept + state.held) := by
  have acquired := invariant.conserved.acquire (tagged_nodup state.next balanced.nodup)
    (invariant.disjoint outcome.acquired)
  rw [tagged_of_balanced state.next balanced] at acquired
  have rearranged : state.held + (tagged state.next outcome.released + tagged state.next kept) =
      tagged state.next outcome.released + (tagged state.next kept + state.held) := by abel
  rw [rearranged] at acquired
  have released := acquired.release
  rwa [← tagged_of_balanced state.next balanced] at released

theorem Invariant.attach_earlier (member : (resource, key) ∈ (state.attach outcome).acquired) :
    key < state.next + 1 := by
  rcases Multiset.mem_add.mp member with before | now
  · exact Nat.lt_succ_of_lt (invariant.earlier resource key before)
  · obtain ⟨-, rfl⟩ := mem_tagged.mp now
    exact Nat.lt_succ_self _

theorem Invariant.notMem_held (resource : VramResource) : (resource, state.next) ∉ state.held := by
  intro member
  have acquired : (resource, state.next) ∈ state.acquired := by
    rw [invariant.conserved.balance]
    exact Multiset.mem_add.mpr (.inr member)
  exact Nat.lt_irrefl _ (invariant.earlier resource state.next acquired)

theorem Invariant.refuse (balanced : DmabufCalls.Balanced outcome kept) (code : Int) :
    ({ state.attach outcome with
      released := (state.attach outcome).released + tagged state.next kept }.answer
        state.next code).Invariant where
  conserved := (invariant.attach balanced).release
  earlier := fun _ _ member => invariant.attach_earlier member
  disposing := by
    intro left entry rest failing member
    obtain ⟨final, last⟩ := invariant.disposing left entry rest failing member
    refine ⟨final, fun empty => Multiset.mem_add.mpr (.inl (Multiset.mem_add.mpr (.inl ?_)))⟩
    exact last empty
  notMisused := invariant.notMisused
  failed := by
    intro key code member negative
    rcases Multiset.mem_cons.mp member with same | before
    · cases same
      exact ⟨Nat.lt_succ_self _, invariant.notMem_held _⟩
    · obtain ⟨earlier, notHeld⟩ := invariant.failed key code before negative
      exact ⟨Nat.lt_succ_of_lt earlier, notHeld⟩

theorem Invariant.publish (isKey : entry.key = state.next)
    (balanced : DmabufCalls.Balanced outcome entry.attached) :
    VramBuffers.Invariant { state.attach outcome with
      acquired := (state.attach outcome).acquired + {(.memory, entry.key)}
      buffers := entry :: state.buffers
      calls := .registering entry ::ₘ state.calls } := by
  have isHeld : ((entry :: state.buffers : List VramBufferEntry) :
      Multiset VramBufferEntry).bind VramBufferEntry.holding +
        (.registering entry ::ₘ state.calls).bind VramCall.holding =
      tagged state.next entry.attached + state.held + {(.memory, entry.key)} := by
    rw [held, ← Multiset.cons_coe, Multiset.cons_bind, Multiset.cons_bind, VramCall.holding,
      VramBufferEntry.holding, VramBufferEntry.resources, tagged_append, isKey]
    have single : tagged state.next [.memory] = {(.memory, state.next)} := rfl
    rw [single]
    abel
  have new : (.memory, state.next) ∉ (state.attach outcome).acquired := by
    intro member
    rcases Multiset.mem_add.mp member with before | now
    · exact Nat.lt_irrefl _ (invariant.earlier _ _ before)
    · exact balanced.noMemory (mem_tagged.mp now).1
  refine ⟨?_, fun resource key member => ?_, fun left other rest failing member => ?_,
    invariant.notMisused, fun key code member negative => ?_⟩
  · rw [held, isHeld, isKey]
    exact (invariant.attach balanced).acquire (Multiset.nodup_singleton _)
      (Multiset.disjoint_singleton.mpr new)
  · rcases Multiset.mem_add.mp member with before | now
    · exact invariant.attach_earlier before
    · cases Multiset.mem_singleton.mp now
      exact isKey ▸ Nat.lt_succ_self _
  · obtain ⟨final, last⟩ := invariant.disposing left other rest failing
      ((Multiset.mem_cons.mp member).resolve_left (fun same => nomatch same))
    exact ⟨final, fun empty => Multiset.mem_add.mpr (.inl (last empty))⟩
  · obtain ⟨earlier, notHeld⟩ := invariant.failed key code member negative
    refine ⟨Nat.lt_succ_of_lt earlier, ?_⟩
    rw [held, isHeld, isKey]
    intro isMember
    rcases Multiset.mem_add.mp isMember with attachedOrHeld | now
    · rcases Multiset.mem_add.mp attachedOrHeld with now | before
      · exact Nat.ne_of_gt earlier (mem_tagged.mp now).2
      · exact notHeld before
    · cases Multiset.mem_singleton.mp now
      exact Nat.lt_irrefl _ earlier

theorem Invariant.register (file : Nat) (request : RegisterBufferReq) :
    (state.register file request).Invariant := by
  unfold VramBuffers.register
  rcases state.getAddress_cases file request with
    ⟨errno, isError, balanced⟩ | ⟨physAddr, size, isOk, balanced⟩
  · have refused := invariant.refuse balanced errno.negated
    simp only [isError]
    rwa [tagged, Multiset.coe_nil, Multiset.map_zero, add_zero] at refused
  · simp only [isOk]
    split
    · exact invariant.refuse balanced ENOMEM.negated
    · exact invariant.publish rfl balanced

theorem Invariant.log (member : .registering entry ∈ state.calls)
    (alive : (.memory, entry.key) ∉ state.released) :
    VramBuffers.Invariant { state.touch entry with
      calls := advance state.calls (.registering entry) (.answering entry) } := by
  have same : (advance state.calls (.registering entry) (.answering entry)).bind VramCall.holding =
      state.calls.bind VramCall.holding := bind_advance_of_eq member rfl
  rw [touch_of_notMem alive]
  refine invariant.handOn rfl rfl (congrArg (_ + ·) same) rfl rfl
    (fun _ _ before _ => .inl before) ?_
  · intro left other rest failing isCall
    refine .inl (Multiset.mem_of_mem_erase ((Multiset.mem_cons.mp isCall).resolve_left ?_))
    exact fun same => nomatch same

theorem Invariant.copied (member : .answering entry ∈ state.calls) : ({ state with
      calls := state.calls.erase (.answering entry) }.answer entry.key 0).Invariant := by
  have same : (state.calls.erase (.answering entry)).bind VramCall.holding =
      state.calls.bind VramCall.holding := bind_erase_of_eq_zero member rfl
  refine invariant.handOn rfl rfl (congrArg (_ + ·) same) rfl rfl
    (fun key code answered negative => ?_) ?_
  · refine .inl ((Multiset.mem_cons.mp answered).resolve_left fun same => ?_)
    cases same
    exact absurd negative (lt_irrefl 0)
  · exact fun _ _ _ _ isCall => .inl (Multiset.mem_of_mem_erase isCall)

end

variable {calls : Multiset VramCall}

theorem held_erase (listed : entry ∈ state.buffers) (failing : Bool) :
    ((state.buffers.erase entry : List VramBufferEntry) : Multiset VramBufferEntry).bind
        VramBufferEntry.holding +
      (.disposing entry.resources entry [] failing ::ₘ calls).bind VramCall.holding =
    (state.buffers : Multiset VramBufferEntry).bind VramBufferEntry.holding +
      calls.bind VramCall.holding := by
  rw [coe_eq_add_erase listed, Multiset.add_bind, Multiset.singleton_bind, Multiset.cons_bind,
    VramCall.holding, Multiset.coe_nil, Multiset.zero_bind, VramBufferEntry.holding]
  abel

variable {rest : List VramBufferEntry} {failing : Bool} {left : List VramResource}

theorem disposing_of_mem_cons {other : VramBufferEntry} {others : List VramBufferEntry}
    {otherFailing : Bool}
    (member : .disposing left other others otherFailing ∈
      .disposing entry.resources entry rest failing ::ₘ calls) :
    .disposing left other others otherFailing ∈ calls ∨ left = other.resources := by
  rcases Multiset.mem_cons.mp member with same | before
  · cases same
    exact .inr rfl
  · exact .inl before

section

variable (invariant : state.Invariant)
include invariant

theorem Invariant.copyFailed (member : .answering entry ∈ state.calls)
    (listed : entry ∈ state.buffers) :
    VramBuffers.Invariant { state.touch entry with
      buffers := state.buffers.erase entry
      calls := advance state.calls (.answering entry)
        (.disposing entry.resources entry [] true) } := by
  have isHeld := Multiset.mem_of_le (holding_le_held listed) (memory_mem_holding entry)
  rw [touch_of_notMem (invariant.conserved.notMem_released isHeld)]
  refine invariant.handOn rfl rfl ?_ rfl rfl (fun _ _ before _ => .inl before) ?_
  · refine (held_erase listed true).trans ?_
    rw [bind_erase_of_eq_zero member rfl, ← held]
  · exact fun _ _ _ _ isCall =>
      (disposing_of_mem_cons isCall).imp_left Multiset.mem_of_mem_erase

theorem Invariant.unregister (file virtAddr : Nat) :
    (state.unregister file virtAddr).Invariant := by
  unfold VramBuffers.unregister
  cases found : state.buffers.find? (matching file virtAddr) with
  | none => exact invariant
  | some entry =>
    refine invariant.handOn rfl rfl ?_ rfl rfl (fun _ _ before _ => .inl before) ?_
    · exact held_erase (List.mem_of_find?_eq_some found) false
    · exact fun _ _ _ _ isCall => disposing_of_mem_cons isCall

theorem Invariant.release (file : Nat) : (state.release file).Invariant := by
  have split := coe_filter_add_filter state.buffers fun entry => entry.owner == file
  unfold VramBuffers.release
  cases taken : (state.buffers.filter fun entry => entry.owner == file).reverse with
  | nil => exact invariant
  | cons entry rest =>
    rw [taken] at split
    refine invariant.handOn rfl rfl ?_ rfl rfl (fun _ _ before _ => .inl before) ?_
    · rw [held, held, ← split, ← Multiset.cons_coe, Multiset.add_bind, Multiset.cons_bind,
        Multiset.cons_bind, VramCall.holding, VramBufferEntry.holding]
      abel
    · exact fun _ _ _ _ isCall => disposing_of_mem_cons isCall

theorem Invariant.disposeNext
    (member : .disposing (resource :: left) entry rest failing ∈ state.calls) :
    VramBuffers.Invariant { state.touch entry with
      released := state.released + {(resource, entry.key)}
      calls := advance state.calls (.disposing (resource :: left) entry rest failing)
        (.disposing left entry rest failing) } := by
  obtain ⟨final, -⟩ := invariant.disposing _ _ _ _ member
  have isHeld : state.held = {(resource, entry.key)} +
      ((state.buffers : Multiset VramBufferEntry).bind VramBufferEntry.holding +
        (advance state.calls (.disposing (resource :: left) entry rest failing)
          (.disposing left entry rest failing)).bind VramCall.holding) := by
    rw [held, bind_eq_add_erase _ member, bind_advance, VramCall.holding, VramCall.holding,
      tagged_cons]
    abel
  have memoryHeld : (.memory, entry.key) ∈ state.held := by
    refine Multiset.mem_add.mpr (.inr (Multiset.mem_bind.mpr ⟨_, member, ?_⟩))
    exact Multiset.mem_add.mpr (.inl (mem_tagged.mpr
      ⟨memory_mem_of_suffix final (List.cons_ne_nil _ _), rfl⟩))
  rw [touch_of_notMem (invariant.conserved.notMem_released memoryHeld)]
  refine ⟨?_, invariant.earlier, fun others other more otherFailing isCall => ?_,
    invariant.notMisused, fun key code returned negative => ?_⟩
  · have conserved := invariant.conserved
    rw [isHeld] at conserved
    exact conserved.release
  · rcases Multiset.mem_cons.mp isCall with same | before
    · cases same
      refine ⟨(List.suffix_cons resource left).trans final, ?_⟩
      rintro rfl
      have isMemory := List.mem_singleton.mp (memory_mem_of_suffix final (List.cons_ne_nil _ _))
      exact Multiset.mem_add.mpr (.inr (Multiset.mem_singleton.mpr (by rw [isMemory])))
    · obtain ⟨final, last⟩ := invariant.disposing _ _ _ _ (Multiset.mem_of_mem_erase before)
      exact ⟨final, fun empty => Multiset.mem_add.mpr (.inl (last empty))⟩
  · obtain ⟨earlier, notHeld⟩ := invariant.failed key code returned negative
    refine ⟨earlier, fun stillHeld => notHeld ?_⟩
    rw [isHeld]
    exact Multiset.mem_add.mpr (.inr stillHeld)

theorem Invariant.disposeFollowing {done : VramBufferEntry}
    (member : .disposing [] done (entry :: rest) failing ∈ state.calls) :
    VramBuffers.Invariant { state with
      calls := advance state.calls (.disposing [] done (entry :: rest) failing)
        (.disposing entry.resources entry rest failing) } := by
  have same : (advance state.calls (.disposing [] done (entry :: rest) failing)
      (.disposing entry.resources entry rest failing)).bind VramCall.holding =
        state.calls.bind VramCall.holding := by
    refine bind_advance_of_eq member ?_
    rw [VramCall.holding, VramCall.holding, ← Multiset.cons_coe, Multiset.cons_bind, tagged,
      tagged, Multiset.coe_nil, Multiset.map_zero, zero_add]
    rfl
  refine invariant.handOn rfl rfl (congrArg (_ + ·) same) rfl rfl
    (fun _ _ before _ => .inl before) ?_
  exact fun _ _ _ _ isCall => (disposing_of_mem_cons isCall).imp_left Multiset.mem_of_mem_erase

theorem Invariant.disposeEnd (member : .disposing [] entry [] failing ∈ state.calls)
    (isDone : next = { state with
      calls := state.calls.erase (.disposing [] entry [] failing) } ∨ next = { state with
      calls := state.calls.erase (.disposing [] entry [] failing) }.answer entry.key
        EFAULT.negated) : next.Invariant := by
  have same : (state.calls.erase (.disposing [] entry [] failing)).bind VramCall.holding =
      state.calls.bind VramCall.holding := bind_erase_of_eq_zero member rfl
  have released := (invariant.disposing _ _ _ _ member).2 rfl
  have earlier : entry.key < state.next := by
    refine invariant.earlier .memory entry.key ?_
    rw [invariant.conserved.balance]
    exact Multiset.mem_add.mpr (.inl released)
  have notHeld : (.memory, entry.key) ∉ state.held :=
    fun held => invariant.conserved.notMem_released held released
  rcases isDone with rfl | rfl
  · exact invariant.handOn rfl rfl (congrArg (_ + ·) same) rfl rfl
      (fun _ _ before _ => .inl before)
      fun _ _ _ _ isCall => .inl (Multiset.mem_of_mem_erase isCall)
  · refine invariant.handOn rfl rfl (congrArg (_ + ·) same) rfl rfl (fun key code answered _ => ?_)
      fun _ _ _ _ isCall => .inl (Multiset.mem_of_mem_erase isCall)
    rcases Multiset.mem_cons.mp answered with isThis | before
    · cases isThis
      exact .inr ⟨earlier, notHeld⟩
    · exact .inl before

theorem Invariant.dispose {call : VramCall} (member : call ∈ state.calls)
    (move : state.dispose call = some next) : next.Invariant := by
  cases call with
  | registering entry => exact nomatch move
  | answering entry => exact nomatch move
  | disposing left entry rest failing =>
    cases left with
    | cons resource left =>
      cases move
      exact invariant.disposeNext member
    | nil =>
      cases rest with
      | cons following rest =>
        cases move
        exact invariant.disposeFollowing member
      | nil =>
        cases move
        refine invariant.disposeEnd member ?_
        cases failing with
        | true => exact .inr rfl
        | false => exact .inl rfl

theorem Invariant.step {label : VramStep} (permitted : state.Permits label)
    (move : state.step label = some next) :
    next.Invariant := by
  cases label with
  | register file request =>
    cases move
    exact invariant.register file request
  | log entry =>
    obtain ⟨member, ⟨⟩⟩ := Option.ite_none_right_eq_some.mp move
    exact invariant.log member permitted
  | copied entry =>
    obtain ⟨member, ⟨⟩⟩ := Option.ite_none_right_eq_some.mp move
    exact invariant.copied member
  | copyFailed entry =>
    obtain ⟨member, ⟨⟩⟩ := Option.ite_none_right_eq_some.mp move
    exact invariant.copyFailed member permitted
  | unregister file virtAddr =>
    cases move
    exact invariant.unregister file virtAddr
  | release file =>
    cases move
    exact invariant.release file
  | dispose call =>
    obtain ⟨member, move⟩ := Option.ite_none_right_eq_some.mp move
    exact invariant.dispose member move

end

end

/-- In every run whose steps are permitted nothing is released twice, lost or misused. -/
theorem vramBuffers_clean {steps : List VramStep} {final : VramBuffers}
    (permitted : EveryStep step Permits init steps) (reaches : run step init steps = some final) :
    final.Clean :=
  Invariant.clean <| run_invariant_of_everyStep
    (fun _ _ _ invariant permits move => Invariant.step invariant permits move)
    Invariant.initial permitted reaches

/-- A request for a controller that is passed through, in which everything succeeds. -/
def passthroughRequest : RegisterBufferReq where
  virtAddr := 0x7f0000000000
  flags := 2
  calls := ⟨true, .ok 4096, none, none, none, [0x100000], none⟩
  kmalloc := true

def firstEntry : VramBufferEntry :=
  init.newEntry 3 passthroughRequest 0x100000 4096

def disposal (entry : VramBufferEntry) (failing : Bool) : List VramStep :=
  entry.resources.tails.map fun left => .dispose (.disposing left entry [] failing)

def registerAndUnregister : List VramStep :=
  [.register 3 passthroughRequest, .log firstEntry, .copied firstEntry,
    .unregister 3 0x7f0000000000] ++ disposal firstEntry false

theorem registerAndUnregister_clean : ∃ final, run step init registerAndUnregister = some final ∧
      (.mapping, firstEntry.key) ∈ final.released ∧ final.Clean := by
  have permitted : EveryStep step Permits init registerAndUnregister :=
    ⟨trivial, Multiset.notMem_zero _, trivial, trivial, trivial, trivial, trivial, trivial, trivial,
      trivial, trivial, trivial⟩
  exact ⟨_, rfl, by decide, vramBuffers_clean permitted rfl⟩

/-- Another thread unregisters the buffer before the registration has written its message. -/
def unregisteredBeforeLog : List VramStep :=
  [.register 3 passthroughRequest, .unregister 3 0x7f0000000000] ++ disposal firstEntry false ++
    [.log firstEntry]

/-- Another thread unregisters the buffer before the answer turns out to go nowhere. -/
def unregisteredBeforeCopy : List VramStep :=
  [.register 3 passthroughRequest, .log firstEntry, .unregister 3 0x7f0000000000] ++
    disposal firstEntry false ++ [.copyFailed firstEntry] ++ disposal firstEntry true

/-- The entry is used after it was freed, and the attachment is released twice. -/
theorem vramBuffers_not_clean :
    (∃ final, run step init unregisteredBeforeLog = some final ∧ ¬ final.Clean) ∧
      ∃ final, run step init unregisteredBeforeCopy = some final ∧ ¬ final.Clean := by
  refine ⟨⟨_, rfl, fun clean => ?_⟩, ⟨_, rfl, fun clean => ?_⟩⟩
  · exact absurd clean.notMisused (by decide)
  · exact absurd (clean.once (.mapping, firstEntry.key)) (by decide)

end VramBuffers

end RocmXio.Kmod
