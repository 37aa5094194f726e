/-
Who owns the memory of a queue.

The descriptors on the way are all closed. A setup function that fails owns nothing; one that
succeeds owns the memory of the queue, which `freeQueueSetup` gives back unless it is a `malloc`
block taken for coherent memory. A predicate on the outcomes of the calls says which functions fail.
-/

import RocmXio.Common.QueueMemory

namespace RocmXio.Common

open Lib Errno

/-! ### What is owned -/

/-- The objects of a block: the mapping and the buffer, or the block alone. -/
def Block.objects (block : Block) : Finset Nat :=
  match block.allocator with
  | .mapping contig => {block.object, contig.buffer}
  | _ => {block.object}

inductive Block.Held (isDevice : Bool) : (usesCoherent usesContig : Bool) → Block → Prop
  | device (object : Nat) (onDevice : isDevice = true) : Held isDevice false false ⟨object, .device⟩
  | hip (object : Nat) (usesCoherent : Bool) (onHost : isDevice = false) :
      Held isDevice usesCoherent false ⟨object, .hip⟩
  | malloc (object : Nat) (usesCoherent : Bool) (onHost : isDevice = false) :
      Held isDevice usesCoherent false ⟨object, .malloc⟩
  | mapping (object buffer : Nat) (ne : buffer ≠ object) :
      Held isDevice false true ⟨object, .mapping ⟨buffer, true, true, false⟩⟩

/-- The part of a block that `freeQueueSetup` does not release. -/
def Block.lost (block : Block) (usesCoherent : Bool) : Finset Nat :=
  match block.allocator with
  | .malloc => if usesCoherent then {block.object} else ∅
  | _ => ∅

namespace QueueSetup

def objects (setup : QueueSetup) : Finset Nat :=
  setup.virt.elim ∅ Block.objects ∪ setup.prpList.elim ∅ singleton

def lost (setup : QueueSetup) : Finset Nat :=
  setup.virt.elim ∅ fun block => block.lost setup.usesCoherent

structure Held (isDevice : Bool) (setup : QueueSetup) : Prop where
  block : ∃ block, setup.virt = some block ∧
    block.Held isDevice setup.usesCoherent setup.usesContig ∧
    ∀ list, setup.prpList = some list → list ∉ block.objects
  listed : setup.prpListPhys = 0 ↔ setup.prpList = none

end QueueSetup

variable (block : Block)

theorem Block.object_mem : block.object ∈ block.objects := by
  obtain ⟨object, allocator⟩ := block
  cases allocator with
  | mapping contig => exact Finset.mem_insert_self _ _
  | _ => exact Finset.mem_singleton_self _

theorem Block.lost_subset (usesCoherent : Bool) : block.lost usesCoherent ⊆ block.objects := by
  obtain ⟨object, allocator⟩ := block
  cases allocator with
  | malloc =>
    cases usesCoherent with
    | true => exact Finset.Subset.refl _
    | false => exact Finset.empty_subset _
  | _ => exact Finset.empty_subset _

theorem QueueSetup.lost_subset (setup : QueueSetup) : setup.lost ⊆ setup.objects := by
  unfold QueueSetup.lost QueueSetup.objects
  cases setup.virt with
  | none => exact Finset.empty_subset _
  | some block => exact (block.lost_subset _).trans Finset.subset_union_left

/-! ### Descriptors -/

section

variable {before ledger : Ledger} {owned rest : Finset Nat}

theorem IdFile.readId_cases (file : IdFile) (owns : before.Owns ledger owned) :
    ∃ after, before.Owns after owned ∧
      ((file.fails = true ∧ ∃ errno, file.readId ledger = (.error errno, after)) ∨
        file.fails = false ∧ ∃ id, file.content = some id ∧
          file.readId ledger = (.ok id, after)) := by
  obtain ⟨opened, content⟩ := file
  cases opened with
  | some errno => exact ⟨ledger, owns, .inl ⟨rfl, errno, rfl⟩⟩
  | none =>
    cases content with
    | none => exact ⟨_, owns.borrow, .inl ⟨rfl, EIO, rfl⟩⟩
    | some id => exact ⟨_, owns.borrow, .inr ⟨rfl, id, rfl, rfl⟩⟩

theorem DetectCalls.detectEmulatedNvme_cases (calls : DetectCalls)
    (owns : before.Owns ledger owned) :
    ∃ code emulated after, calls.detectEmulatedNvme ledger = (code, emulated, after) ∧
      before.Owns after owned ∧
      ((calls.fails = true ∧ code < 0) ∨
        (calls.fails = false ∧ code = 0 ∧ emulated = calls.emulated)) := by
  unfold detectEmulatedNvme
  cases resolved : calls.resolve with
  | some errno =>
    exact ⟨_, _, _, rfl, owns, .inl ⟨by simp [fails, resolved], errno.negated_neg⟩⟩
  | none =>
    by_cases linked : (!calls.link || !calls.address) = true
    · simp only [if_pos linked]
      exact ⟨_, _, _, rfl, owns, .inl ⟨by simp [fails, resolved, linked], ENODEV.negated_neg⟩⟩
    simp only [if_neg linked]
    have rest : calls.fails = (calls.vendor.fails || calls.device.fails) := by
      rw [Bool.not_eq_true] at linked
      rw [fails, resolved, Option.isSome_none, Bool.false_or, linked, Bool.false_or]
    obtain ⟨middle, owns, ⟨vendor, errno, result⟩ | ⟨vendor, id, content, result⟩⟩ :=
      calls.vendor.readId_cases owns
    · rw [result]
      exact ⟨_, _, _, rfl, owns, .inl ⟨by rw [rest, vendor, Bool.true_or], errno.negated_neg⟩⟩
    rw [result, rest, vendor, Bool.false_or]
    obtain ⟨after, owns, ⟨device, errno, result⟩ | ⟨device, _, -, result⟩⟩ :=
      calls.device.readId_cases owns
    · simp only [result]
      exact ⟨_, _, _, rfl, owns, .inl ⟨device, errno.negated_neg⟩⟩
    · simp only [result]
      exact ⟨_, _, _, rfl, owns, .inr ⟨device, rfl, by rw [emulated, content]; rfl⟩⟩

theorem CapCalls.readNvmeCapCqr_cases (calls : CapCalls) (owns : before.Owns ledger owned) :
    ∃ code cqr after, calls.readNvmeCapCqr ledger = (code, cqr, after) ∧
      before.Owns after owned ∧ (if code < 0 then true else cqr) = calls.cqr := by
  obtain ⟨opened, mapped, cap⟩ := calls
  cases opened with
  | some errno => exact ⟨_, _, _, rfl, owns, if_pos errno.negated_neg⟩
  | none =>
    cases mapped with
    | some errno => exact ⟨_, _, _, rfl, owns.borrow, if_pos errno.negated_neg⟩
    | none =>
      exact ⟨_, _, _, rfl, owns.acquire.borrow.giveBack owns.next_notMem, rfl⟩

def PagemapCalls.fails (calls : PagemapCalls) : Bool :=
  calls.opened.isSome || calls.physAddr == 0

theorem PagemapCalls.getPhysAddr_cases (calls : PagemapCalls) (owns : before.Owns ledger owned) :
    ∃ physAddr after, calls.getPhysAddr ledger = (physAddr, after) ∧ before.Owns after owned ∧
      (physAddr == 0) = calls.fails := by
  unfold getPhysAddr fails
  cases calls.opened with
  | some errno => exact ⟨_, _, rfl, owns, rfl⟩
  | none => exact ⟨_, _, rfl, owns.borrow, rfl⟩

/-- The address that `exportRegVramBuf` finds, or 0. -/
def VramCalls.physAddr (calls : VramCalls) (emulated : Bool) : Nat :=
  if calls.exportDmabuf = true ∧ calls.openKmod = none then
    match calls.registerBuffer emulated with
    | .ok physAddr => physAddr
    | .error _ => 0
  else 0

theorem VramCalls.exportRegVramBuf_cases (calls : VramCalls) (emulated : Bool)
    (owns : before.Owns ledger owned) :
    ∃ result after, calls.exportRegVramBuf emulated ledger = (result, after) ∧
      before.Owns after owned ∧ (match result with
        | .ok physAddr => physAddr
        | .error _ => 0) = calls.physAddr emulated := by
  unfold exportRegVramBuf physAddr
  cases exported : calls.exportDmabuf with
  | false => exact ⟨_, _, rfl, owns, rfl⟩
  | true =>
    cases calls.openKmod with
    | some errno => exact ⟨_, _, rfl, owns.borrow, rfl⟩
    | none =>
      -- The descriptors are closed in the order in which they were opened.
      have both := owns.acquire.acquire
      rw [Finset.insert_comm] at both
      have first := both.giveBack (by
        rw [Finset.mem_insert, not_or]
        exact ⟨Nat.ne_of_lt (Nat.lt_succ_self _), owns.next_notMem⟩)
      refine ⟨_, _, rfl, first.giveBack fun member => ?_, rfl⟩
      exact absurd (owns.inside _ member).2 (Nat.not_lt.mpr (Nat.le_succ _))

/-! ### Freeing -/

theorem Block.freeHostMemory_eq (block : Block) (ledger : Ledger) :
    block.freeHostMemory ledger = ledger.release block.object := by
  obtain ⟨object, allocator⟩ := block
  cases allocator <;> rfl

variable {block} {isDevice usesCoherent : Bool}

theorem Block.freeVirt_owns (held : block.Held isDevice usesCoherent false)
    (owns : before.Owns ledger (block.objects ∪ rest)) (apart : Disjoint block.objects rest) :
    before.Owns (block.freeVirt usesCoherent isDevice ledger)
      (block.lost usesCoherent ∪ rest) := by
  cases held with
  | device object onDevice =>
    subst onDevice
    have freed := owns.giveBack (Finset.disjoint_singleton_left.mp apart)
    rwa [← Finset.empty_union rest] at freed
  | hip object usesCoherent onHost =>
    subst onHost
    have freed := owns.giveBack (Finset.disjoint_singleton_left.mp apart)
    rw [← Finset.empty_union rest] at freed
    cases usesCoherent <;> exact freed
  | malloc object usesCoherent onHost =>
    subst onHost
    cases usesCoherent with
    | true => exact owns
    | false =>
      have freed := owns.giveBack (Finset.disjoint_singleton_left.mp apart)
      rwa [← Finset.empty_union rest] at freed

theorem Block.freeContigQueue_owns (held : block.Held isDevice usesCoherent true)
    (owns : before.Owns ledger (block.objects ∪ rest)) (apart : Disjoint block.objects rest) :
    before.Owns (block.freeContigQueue ledger) (block.lost usesCoherent ∪ rest) := by
  cases held with
  | mapping object buffer ne =>
    rw [objects, Finset.insert_union, Finset.singleton_union] at owns
    rw [objects, Finset.disjoint_insert_left, Finset.disjoint_singleton_left] at apart
    have unmapped := owns.giveBack (by
      rw [Finset.mem_insert, not_or]
      exact ⟨ne.symm, apart.1⟩)
    have freed := unmapped.giveBack apart.2
    rwa [← Finset.empty_union rest] at freed

namespace QueueSetup

variable {setup : QueueSetup}

theorem Held.objects_nonempty (held : setup.Held isDevice) : setup.objects.Nonempty := by
  obtain ⟨block, isBlock, -⟩ := held.block
  refine ⟨block.object, ?_⟩
  rw [objects, isBlock]
  exact Finset.mem_union_left _ block.object_mem

theorem Held.freeQueueSetup_owns (held : setup.Held isDevice)
    (owns : before.Owns ledger (setup.objects ∪ rest)) (apart : Disjoint setup.objects rest) :
    (setup.freeQueueSetup isDevice ledger).1.virt = none ∧
      before.Owns (setup.freeQueueSetup isDevice ledger).2 (setup.lost ∪ rest) := by
  obtain ⟨block, isBlock, blockHeld, listApart⟩ := held.block
  have objects : setup.objects = block.objects ∪ setup.prpList.elim ∅ singleton := by
    rw [QueueSetup.objects, isBlock, Option.elim_some]
  have lost : setup.lost = block.lost setup.usesCoherent := by
    rw [QueueSetup.lost, isBlock, Option.elim_some]
  rw [objects, Finset.union_assoc] at owns
  rw [objects, Finset.disjoint_union_left] at apart
  unfold freeQueueSetup
  simp only [isBlock]
  refine ⟨trivial, ?_⟩
  have freed : ∀ after, before.Owns after (block.objects ∪ rest) → before.Owns
      (if setup.usesContig then block.freeContigQueue after
        else block.freeVirt setup.usesCoherent isDevice after)
      (block.lost setup.usesCoherent ∪ rest) := by
    intro after unlisted
    split_ifs with contiguous
    · rw [contiguous] at blockHeld
      exact Block.freeContigQueue_owns blockHeld unlisted apart.1
    · rw [Bool.not_eq_true] at contiguous
      rw [contiguous] at blockHeld
      exact Block.freeVirt_owns blockHeld unlisted apart.1
  rw [lost]
  cases isList : setup.prpList with
  | none =>
    rw [isList, Option.elim_none, Finset.empty_union] at owns
    exact freed ledger owns
  | some list =>
    rw [isList, Option.elim_some] at owns apart
    rw [Finset.singleton_union, Finset.union_insert] at owns
    refine freed (ledger.release list) (owns.giveBack ?_)
    rw [Finset.mem_union, not_or]
    exact ⟨listApart list isList, Finset.disjoint_singleton_left.mp apart.2⟩

theorem freeQueueSetup_of_none (empty : setup.virt = none) :
    setup.freeQueueSetup isDevice ledger = (setup, ledger) := by
  rw [freeQueueSetup, empty]

end QueueSetup

/-! ### Setting up -/

/-- The queue owns its memory, and `fallsBack` says whether some of it will be lost. -/
structure QueueSetup.Ready (before : Ledger) (isDevice fallsBack : Bool) (setup : QueueSetup)
    (ledger : Ledger) : Prop where
  owns : before.Owns ledger setup.objects
  held : setup.Held isDevice
  unlisted : setup.prpList = none
  lost : setup.lost.Nonempty ↔ fallsBack = true

/-- The queue has no memory, and `fallsBack` says whether some is lost. -/
structure QueueSetup.Abandoned (before : Ledger) (fallsBack : Bool) (setup : QueueSetup)
    (ledger : Ledger) : Prop where
  empty : setup.virt = none
  lost : ∃ lost, before.Owns ledger lost ∧ (lost.Nonempty ↔ fallsBack = true)

namespace HostAllocation

def allocator (calls : HostAllocation) : Allocator :=
  if calls.hipHostMalloc then .hip else .malloc

variable (calls : HostAllocation)

theorem allocHostMemory_eq (ledger : Ledger) : calls.allocHostMemory ledger =
      if calls.fails then (none, ledger)
      else (some ⟨ledger.next, calls.allocator⟩, ledger.acquire) := by
  obtain ⟨hipHostMalloc, malloc⟩ := calls
  cases hipHostMalloc <;> cases malloc <;> rfl

theorem held (object : Nat) (usesCoherent : Bool) :
    (⟨object, calls.allocator⟩ : Block).Held false usesCoherent false := by
  unfold allocator
  split_ifs
  · exact .hip object usesCoherent rfl
  · exact .malloc object usesCoherent rfl

theorem objects_eq (object : Nat) : (⟨object, calls.allocator⟩ : Block).objects = {object} := by
  unfold allocator
  split_ifs <;> rfl

theorem lost_eq (object : Nat) (usesCoherent : Bool) :
    (⟨object, calls.allocator⟩ : Block).lost usesCoherent =
      if usesCoherent = true ∧ calls.hipHostMalloc = false then {object} else ∅ := by
  unfold allocator
  cases calls.hipHostMalloc <;> cases usesCoherent <;> rfl

end HostAllocation

namespace QueueCalls

variable (calls : QueueCalls) {size : Nat} {kernelModuleDevice emulated : Bool}

/-- The failures of `setupQueueForGpu` when the memory is allocated. -/
def finishFails (isDevice kernelModuleDevice emulated usesCoherent : Bool) : Bool :=
  (!usesCoherent && !isDevice && !calls.hostRegister) || (!isDevice && !calls.devicePointer) ||
    !kernelModuleDevice || (isDevice && calls.vram.physAddr emulated == 0)

/-- The failures of `setupQueueForGpu`. -/
def setupFails (size : Nat) (isDevice kernelModuleDevice emulated : Bool) : Bool :=
  size == 0 || (if isDevice then !calls.hipMalloc else calls.mapped.fails) ||
    calls.finishFails isDevice kernelModuleDevice emulated (!isDevice && !calls.coherent.fails)

/-- The request for coherent memory is served by `malloc`. -/
def fallsBack (size : Nat) (isDevice : Bool) : Bool :=
  size != 0 && !isDevice && !calls.mapped.fails && !calls.coherent.fails &&
    !calls.coherent.hipHostMalloc

theorem getPhysAddr_cases (isDevice emulated : Bool) (owns : before.Owns ledger owned) :
    ∃ phys after, calls.getPhysAddr isDevice emulated ledger = (phys, after) ∧
      before.Owns after owned ∧ (isDevice = true → phys = calls.vram.physAddr emulated) := by
  unfold getPhysAddr
  cases isDevice with
  | true =>
    obtain ⟨result, after, found, owns, value⟩ := calls.vram.exportRegVramBuf_cases emulated owns
    simp only [if_true, found]
    cases result with
    | error errno => exact ⟨_, _, rfl, owns, fun _ => value⟩
    | ok physAddr => exact ⟨_, _, rfl, owns, fun _ => value⟩
  | false =>
    obtain ⟨physAddr, after, found, owns, -⟩ := calls.pagemap.getPhysAddr_cases owns
    simp only [Bool.false_eq_true, if_false, found]
    exact ⟨_, _, rfl, owns, False.elim⟩

theorem finishSetup_cases {virt : Block} {usesCoherent lost : Bool}
    (held : virt.Held isDevice usesCoherent false) (owns : before.Owns ledger virt.objects)
    (isLost : (virt.lost usesCoherent).Nonempty ↔ lost = true) :
    ∃ code setup after, calls.finishSetup isDevice kernelModuleDevice emulated usesCoherent virt
        ledger = (code, setup, after) ∧
      ((calls.finishFails isDevice kernelModuleDevice emulated usesCoherent = true ∧ code < 0 ∧
          setup.Abandoned before lost after) ∨
        (calls.finishFails isDevice kernelModuleDevice emulated usesCoherent = false ∧ code = 0 ∧
          setup.Ready before isDevice lost after)) := by
  have abandoned : ∀ ledger, before.Owns ledger virt.objects →
      ({ QueueSetup.zero with usesCoherent := usesCoherent }).Abandoned before lost
        (virt.freeVirt usesCoherent isDevice ledger) := by
    intro ledger owns
    rw [← Finset.union_empty virt.objects] at owns
    have freed := Block.freeVirt_owns held owns (Finset.disjoint_empty_right _)
    rw [Finset.union_empty] at freed
    exact ⟨rfl, _, freed, isLost⟩
  unfold finishSetup finishFails
  by_cases unregistered : (!usesCoherent && !isDevice && !calls.hostRegister) = true
  · simp only [unregistered, if_true, Bool.true_or]
    exact ⟨_, _, _, rfl, .inl ⟨trivial, EIO.negated_neg, abandoned ledger owns⟩⟩
  by_cases unreachable : (!isDevice && !calls.devicePointer) = true
  · simp only [unregistered, unreachable, if_true, Bool.true_or, Bool.or_true]
    exact ⟨_, _, _, rfl, .inl ⟨trivial, EIO.negated_neg, abandoned ledger owns⟩⟩
  by_cases noDevice : (!kernelModuleDevice) = true
  · simp only [unregistered, unreachable, noDevice, if_true, Bool.true_or, Bool.or_true]
    exact ⟨_, _, _, rfl, .inl ⟨trivial, EINVAL.negated_neg, abandoned ledger owns⟩⟩
  obtain ⟨phys, after, found, owns, value⟩ := calls.getPhysAddr_cases isDevice emulated owns
  simp only [unregistered, unreachable, noDevice, found, Bool.false_eq_true, if_false,
    Bool.false_or, Bool.and_eq_true, beq_iff_eq]
  by_cases noAddress : phys = 0 ∧ isDevice = true
  · rw [if_pos noAddress]
    refine ⟨_, _, _, rfl, .inl ⟨⟨noAddress.2, ?_⟩, ENOTSUP.negated_neg, abandoned after owns⟩⟩
    rw [← value noAddress.2]
    exact noAddress.1
  · rw [if_neg noAddress]
    refine ⟨_, _, _, rfl, .inr ⟨?_, rfl, ?_⟩⟩
    · cases isDevice with
      | false => rfl
      | true =>
        rw [Bool.true_and, beq_eq_false_iff_ne, ← value rfl]
        exact fun isZero => noAddress ⟨isZero, rfl⟩
    · have objects := Finset.union_empty virt.objects
      refine ⟨?_, ⟨⟨virt, rfl, held, fun _ impossible => nomatch impossible⟩, ?_⟩, rfl, isLost⟩
      · rwa [← objects] at owns
      · exact iff_of_true rfl rfl

theorem setupQueueForGpu_cases (size : Nat) (isDevice kernelModuleDevice emulated : Bool)
    (start : ledger.Owns ledger ∅) :
    ∃ code setup after, calls.setupQueueForGpu size isDevice kernelModuleDevice emulated ledger =
        (code, setup, after) ∧
      ((calls.setupFails size isDevice kernelModuleDevice emulated = true ∧ code < 0 ∧
          setup.Abandoned ledger (calls.fallsBack size isDevice) after) ∨
        (calls.setupFails size isDevice kernelModuleDevice emulated = false ∧ code = 0 ∧
          setup.Ready ledger isDevice (calls.fallsBack size isDevice) after)) := by
  have nothing : QueueSetup.zero.Abandoned ledger false ledger := ⟨rfl, ∅, start, by simp⟩
  unfold setupQueueForGpu setupFails fallsBack
  by_cases isEmpty : size = 0
  · simp only [isEmpty, if_true, beq_self_eq_true, Bool.true_or, bne_self_eq_false,
      Bool.false_and]
    exact ⟨_, _, _, rfl, .inl ⟨trivial, EINVAL.negated_neg, nothing⟩⟩
  rw [if_neg isEmpty, beq_eq_false_iff_ne.mpr isEmpty, bne_iff_ne.mpr isEmpty, Bool.false_or,
    Bool.true_and]
  cases isDevice with
  | true =>
    simp only [allocateQueue, if_true]
    cases calls.hipMalloc with
    | false => exact ⟨_, _, _, rfl, .inl ⟨rfl, ENOMEM.negated_neg, nothing⟩⟩
    | true =>
      exact calls.finishSetup_cases (.device _ rfl) start.acquire (by simp [Block.lost])
  | false =>
    simp only [allocateQueue, reallocateQueue, HostAllocation.allocHostMemory_eq,
      Bool.false_eq_true, if_false, Bool.not_false, Bool.true_and]
    cases calls.mapped.fails with
    | true => exact ⟨_, _, _, rfl, .inl ⟨rfl, ENOMEM.negated_neg, nothing⟩⟩
    | false =>
      cases calls.coherent.fails with
      | true =>
        have owns : ledger.Owns ledger.acquire
            (⟨ledger.next, calls.mapped.allocator⟩ : Block).objects := by
          rw [HostAllocation.objects_eq]
          exact start.acquire
        exact calls.finishSetup_cases (calls.mapped.held _ false) owns
          (by simp [HostAllocation.lost_eq])
      | false =>
        -- The coherent block is allocated before the first one is freed.
        have both := start.acquire.acquire
        rw [Finset.insert_comm] at both
        have moved := both.giveBack (by
          rw [Finset.mem_insert, not_or]
          exact ⟨Nat.ne_of_lt (Nat.lt_succ_self _), Finset.notMem_empty _⟩)
        have owns : ledger.Owns
            ((⟨ledger.next, calls.mapped.allocator⟩ : Block).freeHostMemory ledger.acquire.acquire)
            (⟨ledger.acquire.next, calls.coherent.allocator⟩ : Block).objects := by
          rw [HostAllocation.objects_eq, Block.freeHostMemory_eq]
          exact moved
        have isLost :
            ((⟨ledger.acquire.next, calls.coherent.allocator⟩ : Block).lost true).Nonempty ↔
              (!calls.coherent.hipHostMalloc) = true := by
          rw [HostAllocation.lost_eq]
          cases calls.coherent.hipHostMalloc <;> simp
        exact calls.finishSetup_cases (calls.coherent.held _ true) owns isLost

end QueueCalls

/-- A buffer without a mapping is released once, whether the kernel module is asked to or
only the descriptor is closed. -/
theorem Contig.abandon_owns (freed : Option Errno) {buffer fd : Nat}
    (owns : before.Owns ledger (insert buffer (insert fd rest))) (ne : buffer ≠ fd)
    (bufferApart : buffer ∉ rest) (fdApart : fd ∉ rest) :
    before.Owns (abandon ⟨buffer, true, false, true⟩ freed fd ledger) rest := by
  cases freed with
  | none =>
    have unlisted := owns.giveBack (by
      rw [Finset.mem_insert, not_or]
      exact ⟨ne, bufferApart⟩)
    exact unlisted.giveBack fdApart
  | some errno =>
    rw [Finset.insert_comm] at owns
    have closed := owns.giveBack (by
      rw [Finset.mem_insert, not_or]
      exact ⟨ne.symm, fdApart⟩)
    exact closed.giveBack bufferApart

namespace ContigCalls

variable (calls : ContigCalls) {size : Nat}

/-- The failures of `setupContigQueueForGpu` when the buffer is allocated. -/
def mapFails : Bool :=
  !calls.pageSize || calls.mmap.isSome || !calls.gpuPointer.isOk

/-- The failures of `setupContigQueueForGpu`. -/
def setupFails (size : Nat) : Bool :=
  size == 0 || (retries calls.attempts 4 0).isSome || !calls.allocate.isOk || calls.mapFails

theorem mapBuffer_cases (physAddr : Nat) {buffer fd : Nat}
    (owns : before.Owns ledger {buffer, fd}) (ne : buffer ≠ fd) :
    ∃ code setup after, calls.mapBuffer physAddr ⟨buffer, true, false, true⟩ fd ledger =
        (code, setup, after) ∧
      ((calls.mapFails = true ∧ code < 0 ∧ setup.Abandoned before false after) ∨
        (calls.mapFails = false ∧ code = 0 ∧ setup.Ready before isDevice false after)) := by
  have none : ∀ object : Nat, object ∉ (∅ : Finset Nat) := Finset.notMem_empty
  have abandoned : ∀ ledger, before.Owns ledger {buffer, fd} →
      QueueSetup.zero.Abandoned before false
        (Contig.abandon ⟨buffer, true, false, true⟩ calls.free fd ledger) := by
    intro ledger owns
    exact ⟨rfl, ∅, Contig.abandon_owns calls.free owns ne (none _) (none _), by simp⟩
  unfold mapBuffer mapFails
  cases calls.pageSize with
  | false =>
    refine ⟨_, _, _, rfl, .inl ⟨rfl, ?_, abandoned ledger owns⟩⟩
    cases calls.free.or calls.sysconfErrno with
    | none => exact Int.negSucc_lt_zero 0
    | some errno => exact errno.negated_neg
  | true =>
    cases calls.mmap with
    | some errno =>
      exact ⟨_, _, _, rfl, .inl ⟨rfl, Errno.negated_neg _, abandoned ledger owns⟩⟩
    | none =>
      cases calls.gpuPointer with
      | error errno =>
        refine ⟨_, _, _, rfl, .inl ⟨rfl, errno.negated_neg, ?_⟩⟩
        exact abandoned _ owns.borrow
      | ok _ =>
        have older : ∀ object ∈ ({buffer, fd} : Finset Nat), object ≠ ledger.next :=
          fun object member => Nat.ne_of_lt (owns.inside object member).2
        have bufferOlder := older buffer (Finset.mem_insert_self _ _)
        have fdOlder := older fd (Finset.mem_insert_of_mem (Finset.mem_singleton_self _))
        have all : (insert ledger.next {buffer, fd} : Finset Nat) =
            insert fd {ledger.next, buffer} := by
          ext object
          simp only [Finset.mem_insert, Finset.mem_singleton]
          tauto
        have mapped := owns.acquire
        rw [all] at mapped
        have closed := mapped.giveBack (by simp [fdOlder, ne.symm])
        rw [← Finset.union_empty {ledger.next, buffer}] at closed
        refine ⟨_, _, _, rfl, .inr ⟨rfl, rfl, ⟨closed, ⟨⟨_, rfl, ?_, ?_⟩, ?_⟩, rfl, ?_⟩⟩⟩
        · exact .mapping _ _ bufferOlder
        · exact fun _ impossible => nomatch impossible
        · exact iff_of_true rfl rfl
        · simp [QueueSetup.lost, Block.lost]

theorem setupContigQueueForGpu_cases (size : Nat) (isDevice : Bool)
    (start : ledger.Owns ledger ∅) :
    ∃ code setup after, calls.setupContigQueueForGpu size ledger = (code, setup, after) ∧
      ((calls.setupFails size = true ∧ code < 0 ∧ setup.Abandoned ledger false after) ∨
        (calls.setupFails size = false ∧ code = 0 ∧ setup.Ready ledger isDevice false after)) := by
  have abandoned : ∀ after, ledger.Owns after ∅ → QueueSetup.zero.Abandoned ledger false after :=
    fun after owns => ⟨rfl, ∅, owns, by simp⟩
  unfold setupContigQueueForGpu setupFails openDeviceWithRetry
  by_cases isEmpty : size = 0
  · rw [if_pos isEmpty, isEmpty]
    exact ⟨_, _, _, rfl, .inl ⟨rfl, EINVAL.negated_neg, abandoned _ start⟩⟩
  rw [if_neg isEmpty, beq_eq_false_iff_ne.mpr isEmpty, Bool.false_or]
  cases retries calls.attempts 4 0 with
  | some errno => exact ⟨_, _, _, rfl, .inl ⟨rfl, EIO.negated_neg, abandoned _ start⟩⟩
  | none =>
    cases calls.allocate with
    | error errno =>
      exact ⟨_, _, _, rfl, .inl ⟨rfl, errno.negated_neg, abandoned _ start.borrow⟩⟩
    | ok physAddr =>
      exact calls.mapBuffer_cases physAddr start.acquire.acquire
        (Nat.ne_of_gt (Nat.lt_succ_self _))

end ContigCalls

namespace QueueCalls

variable (calls : QueueCalls) {setup : QueueSetup} {size : Nat}

/-- The failures of `getPagePhysAddrs`. -/
def pagesFail (size : Nat) : Bool :=
  decide (calls.numPages size > 1024) || calls.pagesOpened.isSome || calls.pagesRead.isSome

def allocateFails : Bool :=
  !calls.memalign || calls.mlock.isSome || calls.listPagemap.fails

/-- The failures of `buildQueuePrpList` for a queue that has memory. -/
def listFails (size : Nat) (isDevice : Bool) : Bool :=
  size == 0 || calls.pageSize == 0 || (decide (1 < calls.numPages size) &&
    (isDevice || calls.virtAddr % calls.pageSize != 0 || calls.pagesFail size ||
      decide (calls.numPages size * 8 > calls.pageSize) || calls.allocateFails))

variable (size)

theorem getPagePhysAddrs_cases (start : ledger.Owns ledger ∅) :
    ∃ outcome after, calls.getPagePhysAddrs size ledger = (outcome, after) ∧
      ledger.Owns after ∅ ∧ outcome.isSome = calls.pagesFail size := by
  unfold getPagePhysAddrs pagesFail
  by_cases tooMany : calls.numPages size > 1024
  · rw [if_pos tooMany, decide_eq_true tooMany]
    exact ⟨_, _, rfl, start, rfl⟩
  rw [if_neg tooMany, decide_eq_false tooMany, Bool.false_or]
  cases calls.pagesOpened with
  | some errno => exact ⟨_, _, rfl, start, rfl⟩
  | none => exact ⟨_, _, rfl, start.borrow, rfl⟩

/-- A queue that may have got a list, which is `extra`. -/
structure Listed (before : Ledger) (isDevice : Bool) (setup listed : QueueSetup)
    (ledger : Ledger) (extra : Finset Nat) : Prop where
  owns : before.Owns ledger extra
  objects : listed.objects = setup.objects ∪ extra
  held : listed.Held isDevice
  lost : listed.lost = setup.lost
  virt : listed.virt = setup.virt

theorem Listed.same (held : setup.Held isDevice) {after : Ledger} (owns : ledger.Owns after ∅) :
    Listed ledger isDevice setup setup after ∅ :=
  ⟨owns, (Finset.union_empty _).symm, held, rfl, rfl⟩

theorem Listed.new (held : setup.Held isDevice) (unlisted : setup.prpList = none)
    {middle after : Ledger} {physAddr : Nat} (nonzero : physAddr ≠ 0)
    (owns : ledger.Owns after (insert middle.next ∅))
    (older : ∀ object ∈ setup.objects, object < middle.next) :
    Listed ledger isDevice setup
      { setup with prpList := some middle.next, prpListPhys := physAddr } after
      (insert middle.next ∅) where
  owns := owns
  objects := by
    rw [QueueSetup.objects, QueueSetup.objects, unlisted, Option.elim_none, Finset.union_empty]
    rfl
  held := by
    obtain ⟨block, isBlock, blockHeld, -⟩ := held.block
    refine ⟨⟨block, isBlock, blockHeld, ?_⟩, iff_of_false nonzero (Option.some_ne_none _)⟩
    intro list isList member
    obtain rfl : middle.next = list := Option.some.inj isList
    refine absurd (older middle.next ?_) (Nat.lt_irrefl _)
    rw [QueueSetup.objects, isBlock]
    exact Finset.mem_union_left _ member
  lost := rfl
  virt := rfl

theorem allocateList_cases (held : setup.Held isDevice) (unlisted : setup.prpList = none)
    {middle : Ledger} (owns : ledger.Owns middle ∅)
    (older : ∀ object ∈ setup.objects, object < middle.next) :
    ∃ code listed after extra, calls.allocateList setup middle = (code, listed, after) ∧
      Listed ledger isDevice setup listed after extra ∧
      ((calls.allocateFails = true ∧ code < 0) ∨ (calls.allocateFails = false ∧ code = 0)) := by
  unfold allocateList allocateFails
  cases calls.memalign with
  | false => exact ⟨_, _, _, ∅, rfl, .same held owns, .inl ⟨rfl, ENOMEM.negated_neg⟩⟩
  | true =>
    cases calls.mlock with
    | some errno => exact ⟨_, _, _, ∅, rfl, .same held owns.borrow, .inl ⟨rfl, errno.negated_neg⟩⟩
    | none =>
      obtain ⟨physAddr, after, found, acquired, fails⟩ :=
        calls.listPagemap.getPhysAddr_cases owns.acquire
      rw [← fails]
      simp only [found]
      by_cases noAddress : physAddr = 0
      · rw [if_pos noAddress, noAddress]
        exact ⟨_, _, _, ∅, rfl, .same held (acquired.giveBack (Finset.notMem_empty _)),
          .inl ⟨rfl, EIO.negated_neg⟩⟩
      · rw [if_neg noAddress, beq_eq_false_iff_ne.mpr noAddress]
        exact ⟨_, _, _, _, rfl, .new held unlisted noAddress acquired older, .inr ⟨rfl, rfl⟩⟩

theorem buildQueuePrpList_cases (held : setup.Held isDevice) (unlisted : setup.prpList = none)
    (start : ledger.Owns ledger ∅) (older : ∀ object ∈ setup.objects, object < ledger.next) :
    ∃ code listed after extra, calls.buildQueuePrpList setup size isDevice ledger =
        (code, listed, after) ∧
      Listed ledger isDevice setup listed after extra ∧
      ((calls.listFails size isDevice = true ∧ code < 0) ∨
        (calls.listFails size isDevice = false ∧ code = 0)) := by
  have hasMemory : setup.virt.isNone = false := by
    obtain ⟨block, isBlock, -⟩ := held.block
    rw [isBlock, Option.isNone_some]
  have same : { setup with prpList := none, prpListPhys := 0 } = setup := by
    rw [← unlisted, ← held.listed.mpr unlisted]
  have unchanged := Listed.same held start
  unfold buildQueuePrpList listFails
  simp only [hasMemory, same, Bool.false_or]
  by_cases isEmpty : size = 0
  · simp only [isEmpty, decide_true, beq_self_eq_true, Bool.true_or, if_true]
    exact ⟨_, _, _, _, rfl, unchanged, .inl ⟨trivial, EINVAL.negated_neg⟩⟩
  by_cases noPage : calls.pageSize = 0
  · simp only [noPage, decide_true, beq_self_eq_true, Bool.true_or, Bool.or_true, if_true]
    exact ⟨_, _, _, _, rfl, unchanged, .inl ⟨trivial, EINVAL.negated_neg⟩⟩
  simp only [isEmpty, noPage, decide_false, beq_eq_false_iff_ne.mpr isEmpty,
    beq_eq_false_iff_ne.mpr noPage, Bool.false_or, Bool.false_eq_true, if_false]
  by_cases onePage : calls.numPages size ≤ 1
  · simp only [if_pos onePage, decide_eq_false (Nat.not_lt.mpr onePage), Bool.false_and]
    exact ⟨_, _, _, _, rfl, unchanged, .inr ⟨trivial, rfl⟩⟩
  simp only [if_neg onePage, decide_eq_true (Nat.not_le.mp onePage), Bool.true_and]
  cases isDevice with
  | true =>
    exact ⟨_, _, _, _, rfl, unchanged, .inl ⟨rfl, ENOTSUP.negated_neg⟩⟩
  | false =>
    simp only [true_and, Bool.false_or, Bool.false_eq_true, if_false]
    by_cases unaligned : calls.virtAddr % calls.pageSize ≠ 0
    · simp only [if_pos unaligned, bne_iff_ne.mpr unaligned, Bool.true_or]
      exact ⟨_, _, _, _, rfl, unchanged, .inl ⟨trivial, EINVAL.negated_neg⟩⟩
    simp only [if_neg unaligned, bne_eq_false_iff_eq.mpr (not_not.mp unaligned), Bool.false_or]
    obtain ⟨outcome, middle, read, owns, fails⟩ := calls.getPagePhysAddrs_cases size start
    simp only [read, ← fails]
    cases outcome with
    | some errno =>
      exact ⟨_, _, _, _, rfl, .same held owns, .inl ⟨rfl, errno.negated_neg⟩⟩
    | none =>
      simp only [Option.isSome_none, Bool.false_or]
      by_cases tooLong : calls.numPages size * 8 > calls.pageSize
      · simp only [if_pos tooLong, decide_eq_true tooLong, Bool.true_or]
        exact ⟨_, _, _, _, rfl, .same held owns, .inl ⟨trivial, E2BIG.negated_neg⟩⟩
      simp only [if_neg tooLong, decide_eq_false tooLong, Bool.false_or]
      exact calls.allocateList_cases held unlisted owns
        fun object member => Nat.lt_of_lt_of_le (older object member) owns.grows

end QueueCalls

end

end RocmXio.Common
