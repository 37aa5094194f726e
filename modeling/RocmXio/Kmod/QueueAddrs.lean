/-
Queue addresses registered with the kernel module.

A process registers where its queues lie, so that the probe on `nvme_submit_user_cmd` can put the
physical address into a command. A registration belongs to the descriptor that made it: only this
can take it back, and closing it takes back the rest.

The handler of `ROCM_XIO_REGISTER_QUEUE_ADDR` never writes the field `owner` that the other two
compare with, so the label of a registration carries what the allocator left there.
-/

import RocmXio.Lib.Run

namespace RocmXio.Kmod

open Lib

/-! ### Registrations -/

structure QueueAddrReq where
  virtAddr : Nat
  physAddr : Nat
  size : Nat
  queueType : Nat
  nvmeBdf : Nat
  prp2 : Nat
deriving DecidableEq, Repr

/-- `struct queue_addr_entry`: the request, the descriptor in the field `owner`, and as history the
descriptor that made the registration. -/
structure QueueAddrEntry extends QueueAddrReq where
  owner : Nat
  maker : Nat
deriving DecidableEq, Repr

inductive Outcome where
  | ok
  | fault
  | noMemory
  | noEntry
deriving DecidableEq, Repr

/-- The list `queue_addrs` and what the last call returned. -/
structure QueueAddrs where
  entries : List QueueAddrEntry
  outcome : Outcome
deriving DecidableEq

/-- The calls. A request that cannot be copied from the caller is `none`; `memory` is what the fresh
entry holds as `owner`, or `none` without memory. -/
inductive QueueAddrCall where
  | register (file : Nat) (request : Option QueueAddrReq) (memory : Option Nat)
  | unregister (file : Nat) (virtAddr : Option Nat)
  | release (file : Nat)
deriving DecidableEq, Repr

namespace QueueAddrs

def init : QueueAddrs where
  entries := []
  outcome := .ok

/-- `ROCM_XIO_REGISTER_QUEUE_ADDR`: the new entry goes to the head of the list. -/
def registerQueueAddr (addrs : QueueAddrs) (file : Nat) (request : Option QueueAddrReq)
    (memory : Option Nat) : QueueAddrs :=
  match request, memory with
  | none, _ => { addrs with outcome := .fault }
  | some _, none => { addrs with outcome := .noMemory }
  | some request, some owner =>
    { entries := ⟨request, owner, file⟩ :: addrs.entries, outcome := .ok }

/-- The test of `ROCM_XIO_UNREGISTER_QUEUE_ADDR`. -/
def matching (file virtAddr : Nat) (entry : QueueAddrEntry) : Bool :=
  entry.virtAddr == virtAddr && entry.owner == file

/-- `ROCM_XIO_UNREGISTER_QUEUE_ADDR`: the first entry that matches is unlinked. -/
def unregisterQueueAddr (addrs : QueueAddrs) (file : Nat) (virtAddr : Option Nat) :
    QueueAddrs :=
  match virtAddr with
  | none => { addrs with outcome := .fault }
  | some virtAddr =>
    if addrs.entries.any (matching file virtAddr) then
      { entries := addrs.entries.eraseP (matching file virtAddr), outcome := .ok }
    else { addrs with outcome := .noEntry }

/-- The part of `rocm_xio_release` about queue addresses. -/
def release (addrs : QueueAddrs) (file : Nat) : QueueAddrs where
  entries := addrs.entries.filter fun entry => entry.owner != file
  outcome := .ok

def step (addrs : QueueAddrs) : QueueAddrCall → Option QueueAddrs
  | .register file request memory => some (addrs.registerQueueAddr file request memory)
  | .unregister file virtAddr => some (addrs.unregisterQueueAddr file virtAddr)
  | .release file => some (addrs.release file)

/-! ### Lookups -/

/-- The range test of the lookups, with the end of the range in 64 bits. -/
def covers (virtAddr : Nat) (entry : QueueAddrEntry) : Bool :=
  decide (entry.virtAddr ≤ virtAddr ∧ virtAddr < (entry.virtAddr + entry.size) % 2 ^ 64)

def lookupQueueBdf (entries : List QueueAddrEntry) (virtAddr : Nat) : Nat :=
  match entries.find? (covers virtAddr) with
  | none => 0
  | some entry => entry.nvmeBdf

def lookupQueuePhysAddr (entries : List QueueAddrEntry) (virtAddr : Nat) : Nat :=
  match entries.find? (covers virtAddr) with
  | none => 0
  | some entry => (entry.physAddr + (virtAddr - entry.virtAddr)) % 2 ^ 64

def lookupQueuePrp2 (entries : List QueueAddrEntry) (virtAddr : Nat) : Nat :=
  match entries.find? (covers virtAddr) with
  | none => 0
  | some entry => entry.prp2

/-! ### Ownership -/

def Made (addrs : QueueAddrs) (file virtAddr : Nat) : Prop :=
  ∃ entry ∈ addrs.entries, entry.maker = file ∧ entry.virtAddr = virtAddr

/-- Who made a registration can take it back, one at a time, nobody else can, and a closed
descriptor leaves nothing of its own behind and touches nothing of the others. -/
structure Owned (addrs : QueueAddrs) : Prop where
  unregister : ∀ file virtAddr, addrs.Made file virtAddr →
    (addrs.unregisterQueueAddr file (some virtAddr)).outcome = .ok ∧
      ∃ before entry after, entry.maker = file ∧ entry.virtAddr = virtAddr ∧
        addrs.entries = before ++ entry :: after ∧
        (addrs.unregisterQueueAddr file (some virtAddr)).entries = before ++ after
  others : ∀ file virtAddr, ¬ addrs.Made file virtAddr →
    (addrs.unregisterQueueAddr file (some virtAddr)).entries = addrs.entries
  release : ∀ file,
    (addrs.release file).entries = addrs.entries.filter fun entry => entry.maker != file

/-- The word that the allocator left in the place of `owner` is the descriptor that makes
the registration. -/
def OwnerSet (_ : QueueAddrs) : QueueAddrCall → Prop
  | .register file _ (some owner) => owner = file
  | _ => True

instance OwnerSet.decidable (addrs : QueueAddrs) :
    ∀ call, Decidable (addrs.OwnerSet call)
  | .register file _ (some owner) => inferInstanceAs (Decidable (owner = file))
  | .register _ _ none | .unregister _ _ | .release _ => inferInstanceAs (Decidable True)

section

variable {addrs next : QueueAddrs}

/-- The field `owner` of every live entry tells who made it. -/
def Faithful (addrs : QueueAddrs) : Prop :=
  ∀ entry ∈ addrs.entries, entry.owner = entry.maker

section

variable (faithful : addrs.Faithful)
include faithful

theorem Faithful.register {file : Nat} {request : Option QueueAddrReq} {memory : Option Nat}
    (ownerSet : addrs.OwnerSet (.register file request memory)) :
    (addrs.registerQueueAddr file request memory).Faithful := by
  unfold registerQueueAddr
  split
  case h_1 => exact faithful
  case h_2 => exact faithful
  case h_3 owner =>
    intro entry member
    rcases List.mem_cons.mp member with rfl | old
    · exact ownerSet
    · exact faithful entry old

theorem Faithful.unregister (file : Nat) (virtAddr : Option Nat) :
    (addrs.unregisterQueueAddr file virtAddr).Faithful := by
  unfold unregisterQueueAddr
  split
  case h_1 => exact faithful
  case h_2 =>
    split_ifs
    · exact fun entry member => faithful entry (List.mem_of_mem_eraseP member)
    · exact faithful

theorem Faithful.release (file : Nat) : (addrs.release file).Faithful :=
  fun entry member => faithful entry (List.mem_of_mem_filter member)

theorem Faithful.step {call : QueueAddrCall} (ownerSet : addrs.OwnerSet call)
    (move : addrs.step call = some next) : next.Faithful := by
  cases call with
  | register file request memory =>
    cases move
    exact faithful.register ownerSet
  | unregister file virtAddr =>
    cases move
    exact faithful.unregister file virtAddr
  | release file =>
    cases move
    exact faithful.release file

theorem Faithful.made_iff (file virtAddr : Nat) :
    addrs.entries.any (matching file virtAddr) = true ↔ addrs.Made file virtAddr := by
  rw [List.any_eq_true]
  constructor
  · rintro ⟨entry, member, found⟩
    rw [matching, Bool.and_eq_true, beq_iff_eq, beq_iff_eq] at found
    exact ⟨entry, member, faithful entry member ▸ found.2, found.1⟩
  · rintro ⟨entry, member, maker, address⟩
    refine ⟨entry, member, ?_⟩
    rw [matching, Bool.and_eq_true, beq_iff_eq, beq_iff_eq]
    exact ⟨address, (faithful entry member).trans maker⟩

theorem Faithful.owned : addrs.Owned where
  unregister file virtAddr made := by
    have some_matches := (faithful.made_iff file virtAddr).mpr made
    obtain ⟨candidate, present, passes⟩ := List.any_eq_true.mp some_matches
    obtain ⟨entry, before, after, -, found, split, erased⟩ := List.exists_of_eraseP present passes
    have member : entry ∈ addrs.entries := by
      rw [split]
      exact List.mem_append_right before List.mem_cons_self
    rw [matching, Bool.and_eq_true, beq_iff_eq, beq_iff_eq] at found
    simp only [unregisterQueueAddr, some_matches, if_true]
    exact ⟨trivial, before, entry, after, faithful entry member ▸ found.2, found.1, split,
      erased⟩
  others file virtAddr notMade := by
    have none_matches := mt (faithful.made_iff file virtAddr).mp notMade
    simp only [unregisterQueueAddr, if_neg none_matches]
  release file := by
    refine List.filter_congr fun entry member => ?_
    rw [faithful entry member]

end

/-- If the unwritten field always happens to hold the descriptor of the caller, registrations belong
to who made them. -/
theorem queueAddrs_owned {calls : List QueueAddrCall}
    (ownerSet : EveryStep step OwnerSet init calls)
    (reaches : run step init calls = some addrs) : addrs.Owned := by
  have faithful : addrs.Faithful := run_invariant_of_everyStep (motive := Faithful)
      (fun _ _ _ kept guarded move => kept.step guarded move)
      (fun _ impossible => absurd impossible (by simp [init])) ownerSet reaches
  exact faithful.owned

end

/-! ### Runs -/

def onePage : QueueAddrReq where
  virtAddr := 4096
  physAddr := 8192
  size := 4096
  queueType := 0
  nvmeBdf := 256
  prp2 := 0

/-- Descriptors 1 and 2 register the same address and 1 takes its registration back. -/
def twoFiles : List QueueAddrCall :=
  [.register 1 (some onePage) (some 1), .register 2 (some onePage) (some 2),
    .unregister 1 (some 4096)]

theorem queueAddrs_owned_twoFiles : ∃ addrs, run step init twoFiles = some addrs ∧
      addrs.entries = [⟨onePage, 2, 2⟩] ∧ addrs.Owned :=
  ⟨_, rfl, rfl, queueAddrs_owned (show EveryStep step OwnerSet init twoFiles by decide) rfl⟩

/-- The allocator left descriptor 2 in `owner`: descriptor 1 cannot take its registration back,
closing it leaves the registration behind, and descriptor 2, which made none, can remove it. -/
theorem queueAddrs_owner_unset :
    ∃ addrs, run step init [.register 1 (some onePage) (some 2)] = some addrs ∧
      addrs.Made 1 4096 ∧ ¬ addrs.Made 2 4096 ∧
      (addrs.unregisterQueueAddr 1 (some 4096)).outcome = .noEntry ∧
      (addrs.release 1).entries = addrs.entries ∧
      (addrs.unregisterQueueAddr 2 (some 4096)).entries = [] ∧ ¬ addrs.Owned := by
  refine ⟨_, rfl, ⟨_, List.mem_cons_self, rfl, rfl⟩, ?_, rfl, rfl, rfl, fun owned => ?_⟩
  · rintro ⟨entry, member, maker, -⟩
    obtain rfl := List.mem_singleton.mp member
    exact absurd maker (by decide)
  · have taken := (owned.unregister 1 4096 ⟨_, List.mem_cons_self, rfl, rfl⟩).1
    exact absurd taken (by decide)

end QueueAddrs

end RocmXio.Kmod
