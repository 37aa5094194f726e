/-
The probe on `nvme_submit_user_cmd` and the list of poisoned queues.

User space takes over a queue of a controller by deleting the kernel's queue and creating one with
the same id in its own memory. The probe puts the registered physical addresses into a CREATE and
notes the queue under the lower 16 bits of the controller's address and the queue id; on a DELETE_CQ
it flags the queue for a work item that gives it back. A DELETE without a registered address takes
the first such queue with that id.
-/

import RocmXio.Lib.FirstMatch
import RocmXio.Kmod.QueueAddrs

namespace RocmXio.Kmod

open Lib

/-! ### Poisoned queues -/

/-- `struct poisoned_qid_entry`. -/
structure PoisonedQid where
  bdf : Nat
  qid : Nat
  created : Bool
  needsResurrect : Bool
deriving DecidableEq, Repr

namespace PoisonedQid

def isFor (bdf qid : Nat) (entry : PoisonedQid) : Bool :=
  entry.bdf == bdf && entry.qid == qid

/-- `poisoned_qid_mark_created`: a new entry goes to the head, if there is `memory` for it. -/
def markCreated (poisoned : List PoisonedQid) (bdf qid : Nat) (memory : Bool) :
    List PoisonedQid :=
  if poisoned.any (isFor bdf qid) then
    updateFirst (isFor bdf qid) (fun entry => { entry with created := true }) poisoned
  else if memory then ⟨bdf, qid, true, false⟩ :: poisoned
  else poisoned

/-- `poisoned_qid_mark_deleted`, and whether it schedules the work item. -/
def markDeleted (poisoned : List PoisonedQid) (bdf qid : Nat) : List PoisonedQid × Bool :=
  match poisoned.find? (isFor bdf qid) with
  | none => (poisoned, false)
  | some entry =>
    if entry.created then
      (updateFirst (isFor bdf qid) (fun entry => { entry with needsResurrect := true }) poisoned,
        true)
    else (poisoned, false)

end PoisonedQid

/-! ### The probe -/

/-- What the probe reads of `struct vram_buffer_entry`. -/
structure VramBuffer where
  virtAddr : Nat
  physAddr : Nat
  size : Nat
deriving DecidableEq, Repr

/-- A command on its way to `nvme_submit_user_cmd`. It is an admin command when its request
queue has no disk. -/
structure UserCmd where
  isAdmin : Bool
  opcode : Nat
  cdw10 : Nat
  prp1 : Nat
  prp2 : Nat
  ubuffer : Nat
deriving DecidableEq, Repr

/-- What the probe looks at: the module parameter, the registrations, and the physical
address of kernel memory. -/
structure ProbeSystem where
  injectEnabled : Bool
  queueAddrs : List QueueAddrEntry
  vramBuffers : List VramBuffer
  virtToPhys : Nat → Option Nat

/-- What the probe leaves: the command, the list, and whether the work item was scheduled. -/
structure ProbeResult where
  cmd : UserCmd
  poisoned : List PoisonedQid
  scheduled : Bool
deriving DecidableEq, Repr

namespace ProbeSystem

def deleteSq : Nat := 0x00

def createSq : Nat := 0x01

def deleteCq : Nat := 0x04

def createCq : Nat := 0x05

def read : Nat := 0x02

/-- `queue_id`: the lower half of `cdw10`. -/
def queueId (cmd : UserCmd) : Nat := cmd.cdw10 % 2 ^ 16

def lookupBufferPhysAddr (system : ProbeSystem) (virtAddr : Nat) : Nat :=
  let found := system.vramBuffers.find? fun entry =>
    decide (entry.virtAddr ≤ virtAddr ∧ virtAddr < (entry.virtAddr + entry.size) % 2 ^ 64)
  let physAddr :=
    match found with
    | none => 0
    | some entry => (entry.physAddr + (virtAddr - entry.virtAddr)) % 2 ^ 64
  if physAddr ≠ 0 then physAddr else (system.virtToPhys virtAddr).getD 0

def deleteProbe (system : ProbeSystem) (poisoned : List PoisonedQid) (cmd : UserCmd) :
    ProbeResult :=
  let marked :=
    if cmd.opcode = deleteCq then
      let bdf := QueueAddrs.lookupQueueBdf system.queueAddrs cmd.ubuffer
      if bdf ≠ 0 then PoisonedQid.markDeleted poisoned (bdf % 2 ^ 16) (queueId cmd)
      else
        match poisoned.find? fun entry => entry.qid == queueId cmd && entry.created with
        | none => (poisoned, false)
        | some entry =>
          if entry.bdf ≠ 0 then PoisonedQid.markDeleted poisoned entry.bdf (queueId cmd)
          else (poisoned, false)
    else (poisoned, false)
  ⟨cmd, marked.1, marked.2⟩

/-- The CREATE branch: the registered addresses are put into the command. -/
def createProbe (system : ProbeSystem) (poisoned : List PoisonedQid) (memory : Bool)
    (cmd : UserCmd) : ProbeResult :=
  let physAddr := QueueAddrs.lookupQueuePhysAddr system.queueAddrs cmd.ubuffer
  if physAddr ≠ 0 then
    let prp2 := QueueAddrs.lookupQueuePrp2 system.queueAddrs cmd.ubuffer
    let hijackBdf := QueueAddrs.lookupQueueBdf system.queueAddrs cmd.ubuffer % 2 ^ 16
    { cmd := { cmd with prp1 := physAddr, prp2 := if prp2 ≠ 0 then prp2 else cmd.prp2 }
      poisoned :=
        if hijackBdf ≠ 0 then PoisonedQid.markCreated poisoned hijackBdf (queueId cmd) memory
        else poisoned
      scheduled := false }
  else ⟨{ cmd with prp1 := cmd.ubuffer }, poisoned, false⟩

/-- A data word of an I/O command that looks like a virtual address is translated. -/
def injectPrp (system : ProbeSystem) (prp : Nat) : Nat :=
  if prp ≠ 0 ∧ prp < 0x100000000 then
    if system.lookupBufferPhysAddr prp ≠ 0 then system.lookupBufferPhysAddr prp else prp
  else prp

def nvmeSubmitUserCmdPre (system : ProbeSystem) (poisoned : List PoisonedQid) (memory : Bool)
    (cmd : UserCmd) : ProbeResult :=
  if system.injectEnabled = false then ⟨cmd, poisoned, false⟩
  else if cmd.isAdmin then
    if cmd.opcode = deleteSq ∨ cmd.opcode = deleteCq then system.deleteProbe poisoned cmd
    else if (cmd.opcode = createCq ∨ cmd.opcode = createSq) ∧ cmd.ubuffer ≠ 0 then
      system.createProbe poisoned memory cmd
    else ⟨cmd, poisoned, false⟩
  else if cmd.opcode = createSq ∨ cmd.opcode = read then
    ⟨{ cmd with prp1 := system.injectPrp cmd.prp1, prp2 := system.injectPrp cmd.prp2 },
      poisoned, false⟩
  else ⟨cmd, poisoned, false⟩

end ProbeSystem

/-! ### One entry for each queue -/

namespace PoisonedQid

variable {poisoned : List PoisonedQid} {entry : PoisonedQid} {bdf qid otherBdf otherQid : Nat}

theorem isFor_iff : isFor bdf qid entry = true ↔ entry.bdf = bdf ∧ entry.qid = qid := by
  simp [isFor]

def entryOf (poisoned : List PoisonedQid) (bdf qid : Nat) : Option PoisonedQid :=
  poisoned.find? (isFor bdf qid)

def Keyed (poisoned : List PoisonedQid) : Prop :=
  (poisoned.map fun entry => (entry.bdf, entry.qid)).Nodup

theorem entryOf_some (found : entryOf poisoned bdf qid = some entry) :
    entry ∈ poisoned ∧ entry.bdf = bdf ∧ entry.qid = qid :=
  ⟨List.mem_of_find?_eq_some found, isFor_iff.mp (List.find?_some found)⟩

theorem Keyed.entryOf (keyed : Keyed poisoned) (member : entry ∈ poisoned) :
    entryOf poisoned entry.bdf entry.qid = some entry := by
  refine find?_of_nodup_key keyed member (isFor_iff.mpr ⟨rfl, rfl⟩) ?_
  intro other hit
  obtain ⟨address, same⟩ := isFor_iff.mp hit
  rw [address, same]

theorem isFor_disjoint (apart : ¬ (otherBdf = bdf ∧ otherQid = qid))
    (hit : isFor bdf qid entry = true) : isFor otherBdf otherQid entry = false := by
  obtain ⟨rfl, rfl⟩ := isFor_iff.mp hit
  rw [Bool.eq_false_iff]
  intro other
  obtain ⟨rfl, rfl⟩ := isFor_iff.mp other
  exact apart ⟨rfl, rfl⟩

/-! ### What a CREATE and a DELETE do to the entries -/

theorem markCreated_keyed (keyed : Keyed poisoned) (memory : Bool) :
    Keyed (markCreated poisoned bdf qid memory) := by
  unfold markCreated
  split_ifs with known
  · unfold Keyed
    rw [map_updateFirst]
    · exact keyed
    · exact fun _ => rfl
  · unfold Keyed
    rw [List.map_cons, List.nodup_cons]
    refine ⟨?_, keyed⟩
    intro present
    obtain ⟨old, member, same⟩ := List.mem_map.mp present
    obtain ⟨address, queue⟩ := Prod.mk.inj same
    exact known (List.any_eq_true.mpr ⟨old, member, isFor_iff.mpr ⟨address, queue⟩⟩)
  · exact keyed

theorem markDeleted_keyed (keyed : Keyed poisoned) : Keyed (markDeleted poisoned bdf qid).1 := by
  unfold markDeleted
  split
  · exact keyed
  · split_ifs
    · unfold Keyed
      rw [map_updateFirst]
      · exact keyed
      · exact fun _ => rfl
    · exact keyed

theorem any_isFor : poisoned.any (isFor bdf qid) = (entryOf poisoned bdf qid).isSome := by
  rw [Bool.eq_iff_iff, entryOf, List.find?_isSome, List.any_eq_true]

/-- After a CREATE with an entry or memory for one, the queue has an entry that says so. Only the
flag of a fresh entry is known to be down. -/
theorem entryOf_markCreated_self {memory : Bool}
    (room : (entryOf poisoned bdf qid).isSome = true ∨ memory = true) :
    entryOf (markCreated poisoned bdf qid memory) bdf qid =
      some ⟨bdf, qid, true, (entryOf poisoned bdf qid).any needsResurrect⟩ := by
  unfold markCreated
  rw [any_isFor]
  cases found : entryOf poisoned bdf qid with
  | some entry =>
    obtain ⟨-, address, queue⟩ := entryOf_some found
    rw [Option.isSome_some, if_pos rfl, entryOf, find?_updateFirst]
    · rw [← entryOf, found]
      simp [address, queue]
    · exact fun _ => rfl
  | none =>
    rw [found] at room
    have available : memory = true := by simpa using room
    simp [available, entryOf, isFor]

theorem entryOf_markCreated_of_ne {memory : Bool} (apart : ¬ (otherBdf = bdf ∧ otherQid = qid)) :
    entryOf (markCreated poisoned bdf qid memory) otherBdf otherQid =
      entryOf poisoned otherBdf otherQid := by
  unfold markCreated entryOf
  split_ifs
  · exact find?_updateFirst_of_disjoint (fun _ => rfl) fun _ hit => isFor_disjoint apart hit
  · refine List.find?_cons_of_neg ?_
    rw [isFor_disjoint apart (isFor_iff.mpr ⟨rfl, rfl⟩)]
    exact Bool.false_ne_true
  · rfl

theorem entryOf_markDeleted_self : entryOf (markDeleted poisoned bdf qid).1 bdf qid =
      (entryOf poisoned bdf qid).map fun entry =>
        { entry with needsResurrect := entry.needsResurrect || entry.created } := by
  unfold markDeleted
  rw [← entryOf]
  cases found : entryOf poisoned bdf qid with
  | none => simpa using found
  | some entry =>
    simp only
    split_ifs with created
    · rw [entryOf, find?_updateFirst]
      · rw [← entryOf, found]
        simp [created]
      · exact fun _ => rfl
    · obtain ⟨address, queue, taken, flagged⟩ := entry
      obtain rfl : taken = false := Bool.eq_false_iff.mpr created
      rw [found, Option.map_some, Bool.or_false]

theorem entryOf_markDeleted_of_ne (apart : ¬ (otherBdf = bdf ∧ otherQid = qid)) :
    entryOf (markDeleted poisoned bdf qid).1 otherBdf otherQid =
      entryOf poisoned otherBdf otherQid := by
  unfold markDeleted entryOf
  split
  · rfl
  · split_ifs
    · exact find?_updateFirst_of_disjoint (fun _ => rfl) fun _ hit => isFor_disjoint apart hit
    · rfl

theorem markDeleted_scheduled :
    (markDeleted poisoned bdf qid).2 = (entryOf poisoned bdf qid).any created := by
  unfold markDeleted
  rw [← entryOf]
  cases entryOf poisoned bdf qid with
  | none => rfl
  | some entry =>
    simp only [Option.any_some]
    split_ifs with created
    · exact created.symm
    · exact (Bool.eq_false_iff.mpr created).symm

def flagged (poisoned : List PoisonedQid) (bdf qid : Nat) : Bool :=
  (entryOf poisoned bdf qid).any needsResurrect

theorem Keyed.flagged_iff (keyed : Keyed poisoned) : flagged poisoned bdf qid = true ↔
    ∃ entry ∈ poisoned, entry.bdf = bdf ∧ entry.qid = qid ∧ entry.needsResurrect = true := by
  unfold flagged
  rw [Option.any_eq_true]
  constructor
  · rintro ⟨entry, found, waits⟩
    obtain ⟨member, address, queue⟩ := entryOf_some found
    exact ⟨entry, member, address, queue, waits⟩
  · rintro ⟨entry, member, rfl, rfl, waits⟩
    exact ⟨entry, keyed.entryOf member, waits⟩

end PoisonedQid

/-! ### What the probe does to the list -/

namespace ProbeSystem

variable {system : ProbeSystem} {poisoned : List PoisonedQid} {memory : Bool} {cmd : UserCmd}

/-- The probe puts a registered address into the command: a CREATE that takes a queue over. -/
def injects (system : ProbeSystem) (cmd : UserCmd) : Bool :=
  system.injectEnabled && cmd.isAdmin &&
    (cmd.opcode == createCq || cmd.opcode == createSq) && cmd.ubuffer != 0 &&
    QueueAddrs.lookupQueuePhysAddr system.queueAddrs cmd.ubuffer != 0

theorem poisoned_of_injects (injected : system.injects cmd = true) :
    (system.nvmeSubmitUserCmdPre poisoned memory cmd).poisoned =
      if QueueAddrs.lookupQueueBdf system.queueAddrs cmd.ubuffer % 2 ^ 16 ≠ 0 then
        PoisonedQid.markCreated poisoned
          (QueueAddrs.lookupQueueBdf system.queueAddrs cmd.ubuffer % 2 ^ 16) (queueId cmd) memory
      else poisoned := by
  simp only [injects, Bool.and_eq_true, Bool.or_eq_true, beq_iff_eq, bne_iff_ne] at injected
  obtain ⟨⟨⟨⟨enabled, admin⟩, opcode⟩, address⟩, found⟩ := injected
  have notDelete : ¬ (cmd.opcode = deleteSq ∨ cmd.opcode = deleteCq) := by
    rcases opcode with same | same <;> rw [same] <;> decide
  simp only [nvmeSubmitUserCmdPre, enabled, admin, if_true, if_neg notDelete,
    if_pos (And.intro opcode address), createProbe, if_pos found, Bool.true_eq_false, if_false]

theorem poisoned_of_deleteSq (enabled : system.injectEnabled = true) (admin : cmd.isAdmin = true)
    (opcode : cmd.opcode = deleteSq) :
    (system.nvmeSubmitUserCmdPre poisoned memory cmd).poisoned = poisoned := by
  have notCq : ¬ deleteSq = deleteCq := by decide
  simp only [nvmeSubmitUserCmdPre, enabled, admin, opcode, if_true, true_or, deleteProbe,
    if_neg notCq, Bool.true_eq_false, if_false]

theorem poisoned_of_deleteCq (enabled : system.injectEnabled = true) (admin : cmd.isAdmin = true)
    (opcode : cmd.opcode = deleteCq) :
    (system.nvmeSubmitUserCmdPre poisoned memory cmd).poisoned =
      (system.deleteProbe poisoned cmd).poisoned := by
  simp only [nvmeSubmitUserCmdPre, enabled, admin, opcode, if_true, or_true, Bool.true_eq_false,
    if_false]

theorem deleteProbe_of_registered (opcode : cmd.opcode = deleteCq)
    (registered : QueueAddrs.lookupQueueBdf system.queueAddrs cmd.ubuffer ≠ 0) :
    (system.deleteProbe poisoned cmd).poisoned = (PoisonedQid.markDeleted poisoned
        (QueueAddrs.lookupQueueBdf system.queueAddrs cmd.ubuffer % 2 ^ 16) (queueId cmd)).1 := by
  simp only [deleteProbe, opcode, if_true, if_pos registered]

theorem deleteProbe_of_unregistered (opcode : cmd.opcode = deleteCq)
    (unregistered : QueueAddrs.lookupQueueBdf system.queueAddrs cmd.ubuffer = 0) :
    (system.deleteProbe poisoned cmd).poisoned =
      match poisoned.find? fun entry => entry.qid == queueId cmd && entry.created with
      | none => poisoned
      | some entry =>
        if entry.bdf ≠ 0 then (PoisonedQid.markDeleted poisoned entry.bdf (queueId cmd)).1
        else poisoned := by
  simp only [deleteProbe, opcode, if_true, unregistered, ne_eq, not_true_eq_false, if_false]
  split
  · rfl
  · split_ifs <;> rfl

end ProbeSystem

end RocmXio.Kmod
