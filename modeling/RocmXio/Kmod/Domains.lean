/-
Resurrection across PCI domains.

A registration names its controller by 32 bits: domain, bus, device and function. The list of
poisoned queues keeps 16 of them, and the work function looks the device up in domain 0. Runs
consist of CREATEs that take queues over, DELETE_CQs whose address is registered, and passes of the
work function; the question is for which sets of controllers this is harmless.
-/

import RocmXio.Kmod.Resurrect

namespace RocmXio.Kmod

open Lib

/-! ### Names of controllers -/

def rocmXioBdf (domain bus dev func : Nat) : Nat :=
  domain <<< 16 ||| bus <<< 8 ||| dev <<< 3 ||| func

def bdfAddr (bdf : Nat) : PciAddr where
  domain := bdf / 2 ^ 16
  bus := bdf / 2 ^ 8 % 2 ^ 8
  devfn := bdf % 2 ^ 8

theorem rocmXioBdf_eq_add {domain bus dev func : Nat} (busBound : bus < 2 ^ 8)
    (devBound : dev < 2 ^ 5) (funcBound : func < 2 ^ 3) :
    rocmXioBdf domain bus dev func = domain * 2 ^ 16 + bus * 2 ^ 8 + dev * 2 ^ 3 + func := by
  have devfnBound : dev <<< 3 + func < 2 ^ 8 := by
    omega
  have busDevfnBound : bus <<< 8 + (dev <<< 3 + func) < 2 ^ 16 := by
    omega
  rw [rocmXioBdf, Nat.or_assoc, Nat.or_assoc, ← Nat.shiftLeft_add_eq_or_of_lt funcBound,
    ← Nat.shiftLeft_add_eq_or_of_lt devfnBound, ← Nat.shiftLeft_add_eq_or_of_lt busDevfnBound]
  omega

theorem bdfAddr_injective : Function.Injective bdfAddr := by
  intro first second same
  have domains : first / 2 ^ 16 = second / 2 ^ 16 := congrArg PciAddr.domain same
  have buses : first / 2 ^ 8 % 2 ^ 8 = second / 2 ^ 8 % 2 ^ 8 := congrArg PciAddr.bus same
  have devfns : first % 2 ^ 8 = second % 2 ^ 8 := congrArg PciAddr.devfn same
  omega

theorem pciAddr_eq_bdfAddr {entry : PoisonedQid} (small : entry.bdf < 2 ^ 16) :
    entry.pciAddr = bdfAddr entry.bdf := by
  unfold PoisonedQid.pciAddr bdfAddr
  rw [Nat.div_eq_of_lt small]

/-! ### The system -/

/-- The list, and queues by the full name of their controller: ever taken over, not yet given back,
and among these the deleted ones. -/
structure Domains where
  poisoned : List PoisonedQid
  hijacked : List (Nat × Nat)
  armed : List (Nat × Nat)
  due : List (Nat × Nat)
deriving DecidableEq

/-- Who moves: a user command, or a pass of the work function with memory for these copies. -/
inductive DomainsLabel where
  | command (system : ProbeSystem) (cmd : UserCmd)
  | work (memory : Nat → Nat → Bool)

namespace Domains

open PoisonedQid ProbeSystem

def init : Domains where
  poisoned := []
  hijacked := []
  armed := []
  due := []

def givenBack (clones : List PoisonedQid) (queue : Nat × Nat) : Bool :=
  clones.any fun clone => clone.pciAddr == bdfAddr queue.1 && clone.qid == queue.2

/-- One step, with registrations for the controllers in `registered` only. A command that takes a
queue over gets the memory for its entry: without it the probe makes no entry, and the queue is
hijacked but never given back. -/
def step (registered : List Nat) (state : Domains) : DomainsLabel → Option Domains
  | .command system cmd =>
    match system.queueAddrs.find? (QueueAddrs.covers cmd.ubuffer) with
    | none => none
    | some registration =>
      let queue := (registration.nvmeBdf, queueId cmd)
      let poisoned := (system.nvmeSubmitUserCmdPre state.poisoned true cmd).poisoned
      if registration.nvmeBdf ∈ registered then
        if system.injects cmd then
          some { state with
            poisoned := poisoned
            hijacked := queue :: state.hijacked
            armed := queue :: state.armed }
        else if system.injectEnabled = true ∧ cmd.isAdmin = true ∧ cmd.opcode = deleteCq then
          some { state with
            poisoned := poisoned
            due := (state.armed.filter fun other => other = queue) ++ state.due }
        else none
      else none
  | .work memory =>
    let clones := toResurrect memory state.poisoned
    some { state with
      poisoned := select memory state.poisoned
      armed := state.armed.filter fun queue => !givenBack clones queue
      due := state.due.filter fun queue => !givenBack clones queue }

/-- A pass creates queues on exactly the controllers that lost them, with their own snapshots, and
controllers do not share an entry. -/
structure Identified (state : Domains) : Prop where
  exact_device : ∀ address qid,
    (∃ clone ∈ toResurrect (fun _ _ => true) state.poisoned,
      clone.pciAddr = address ∧ clone.qid = qid) ↔
    ∃ bdf, (bdf, qid) ∈ state.due ∧ bdfAddr bdf = address
  exact_snapshot : ∀ (system : ResurrectSystem) (snapshot : QueueSnapshot),
    ∀ clone ∈ toResurrect (fun _ _ => true) state.poisoned,
      system.snapshotFor clone = some snapshot →
      ∃ bdf, (bdf, clone.qid) ∈ state.due ∧ snapshot.pdev = bdfAddr bdf ∧ snapshot.qid = clone.qid
  apart : ∀ first ∈ state.hijacked, ∀ second ∈ state.hijacked, ∀ entry,
    entryOf state.poisoned (first.1 % 2 ^ 16) first.2 = some entry →
    entryOf state.poisoned (second.1 % 2 ^ 16) second.2 = some entry → first.1 = second.1

/-! ### The invariant -/

/-- All names fit into the list, and the flags follow the history. -/
structure Invariant (state : Domains) : Prop where
  keyed : Keyed state.poisoned
  small : ∀ entry ∈ state.poisoned, entry.bdf < 2 ^ 16
  hijacked_small : ∀ queue ∈ state.hijacked, queue.1 < 2 ^ 16
  armed_hijacked : ∀ queue ∈ state.armed, queue ∈ state.hijacked
  created : ∀ bdf qid, (entryOf state.poisoned bdf qid).any PoisonedQid.created = true ↔
    (bdf, qid) ∈ state.armed
  flagged : ∀ bdf qid, flagged state.poisoned bdf qid = true ↔ (bdf, qid) ∈ state.due
  due_armed : ∀ queue ∈ state.due, queue ∈ state.armed

section

variable {state next : Domains} {memory : Nat → Nat → Bool} {bdf qid : Nat}

theorem init_invariant : init.Invariant where
  keyed := List.nodup_nil
  small := by simp [init]
  hijacked_small := by simp [init]
  armed_hijacked := by simp [init]
  created := fun _ _ => by simp [init, entryOf]
  flagged := fun _ _ => by simp [init, PoisonedQid.flagged, entryOf]
  due_armed := by simp [init]

variable {poisoned : List PoisonedQid}

theorem small_of_entryOf (keyed : Keyed poisoned)
    (known : ∀ bdf qid, (entryOf poisoned bdf qid).isSome = true → bdf < 2 ^ 16) :
    ∀ entry ∈ poisoned, entry.bdf < 2 ^ 16 := by
  intro entry member
  refine known entry.bdf entry.qid ?_
  rw [keyed.entryOf member]
  rfl

theorem Invariant.entryOf_small (invariant : state.Invariant)
    (present : (entryOf state.poisoned bdf qid).isSome = true) : bdf < 2 ^ 16 := by
  obtain ⟨entry, found⟩ := Option.isSome_iff_exists.mp present
  obtain ⟨member, rfl, -⟩ := entryOf_some found
  exact invariant.small entry member

theorem Invariant.hijack (invariant : state.Invariant) (small : bdf < 2 ^ 16) : ({ state with
      poisoned := markCreated state.poisoned bdf qid true
      hijacked := (bdf, qid) :: state.hijacked
      armed := (bdf, qid) :: state.armed } : Domains).Invariant := by
  have own : entryOf (markCreated state.poisoned bdf qid true) bdf qid =
      some ⟨bdf, qid, true, PoisonedQid.flagged state.poisoned bdf qid⟩ :=
    entryOf_markCreated_self (Or.inr rfl)
  have keyed : Keyed (markCreated state.poisoned bdf qid true) :=
    markCreated_keyed invariant.keyed true
  refine ⟨keyed, small_of_entryOf keyed ?_, ?_, ?_, ?_, ?_, ?_⟩
  · intro other otherQid present
    by_cases same : other = bdf ∧ otherQid = qid
    · rw [same.1]
      exact small
    · rw [entryOf_markCreated_of_ne same] at present
      exact invariant.entryOf_small present
  · intro queue member
    rcases List.mem_cons.mp member with rfl | old
    · exact small
    · exact invariant.hijacked_small queue old
  · intro queue member
    rcases List.mem_cons.mp member with rfl | old
    · exact List.mem_cons_self
    · exact List.mem_cons_of_mem _ (invariant.armed_hijacked queue old)
  · intro other otherQid
    rw [List.mem_cons, Prod.mk.injEq]
    by_cases same : other = bdf ∧ otherQid = qid
    · obtain ⟨rfl, rfl⟩ := same
      simp [own]
    · rw [entryOf_markCreated_of_ne same, invariant.created]
      exact (or_iff_right same).symm
  · intro other otherQid
    rw [← invariant.flagged]
    by_cases same : other = bdf ∧ otherQid = qid
    · obtain ⟨rfl, rfl⟩ := same
      rw [PoisonedQid.flagged, own, Option.any_some]
    · rw [PoisonedQid.flagged, entryOf_markCreated_of_ne same]
      rfl
  · exact fun queue member => List.mem_cons_of_mem _ (invariant.due_armed queue member)

theorem Invariant.delete (invariant : state.Invariant) : ({ state with
      poisoned := (markDeleted state.poisoned bdf qid).1
      due := (state.armed.filter fun other => other = (bdf, qid)) ++ state.due } :
      Domains).Invariant := by
  have keyed : Keyed (markDeleted state.poisoned bdf qid).1 := markDeleted_keyed invariant.keyed
  refine ⟨keyed, small_of_entryOf keyed ?_, invariant.hijacked_small, invariant.armed_hijacked,
    ?_, ?_, ?_⟩
  · intro other otherQid present
    by_cases same : other = bdf ∧ otherQid = qid
    · obtain ⟨rfl, rfl⟩ := same
      rw [entryOf_markDeleted_self, Option.isSome_map] at present
      exact invariant.entryOf_small present
    · rw [entryOf_markDeleted_of_ne same] at present
      exact invariant.entryOf_small present
  · intro other otherQid
    rw [← invariant.created]
    by_cases same : other = bdf ∧ otherQid = qid
    · obtain ⟨rfl, rfl⟩ := same
      rw [entryOf_markDeleted_self]
      cases entryOf state.poisoned other otherQid with
      | none => rfl
      | some entry => rfl
    · rw [entryOf_markDeleted_of_ne same]
  · intro other otherQid
    rw [List.mem_append, List.mem_filter, decide_eq_true_eq, Prod.mk.injEq, ← invariant.flagged,
      ← invariant.created]
    unfold PoisonedQid.flagged
    by_cases same : other = bdf ∧ otherQid = qid
    · obtain ⟨rfl, rfl⟩ := same
      rw [entryOf_markDeleted_self]
      cases entryOf state.poisoned other otherQid with
      | none => simp
      | some entry => simp [or_comm]
    · rw [entryOf_markDeleted_of_ne same]
      simp [same]
  · intro queue member
    rcases List.mem_append.mp member with now | before
    · exact List.mem_of_mem_filter now
    · exact invariant.due_armed queue before

variable {clone : PoisonedQid}

theorem mem_toResurrect (keyed : Keyed poisoned) : clone ∈ toResurrect memory poisoned ↔
      clone = ⟨clone.bdf, clone.qid, false, false⟩ ∧
        PoisonedQid.flagged poisoned clone.bdf clone.qid = true ∧
        memory clone.bdf clone.qid = true := by
  rw [keyed.flagged_iff]
  simp only [toResurrect, List.mem_map, List.mem_filter, Bool.and_eq_true]
  constructor
  · rintro ⟨entry, ⟨member, waits, available⟩, rfl⟩
    exact ⟨rfl, ⟨entry, member, rfl, rfl, waits⟩, available⟩
  · rintro ⟨shape, ⟨entry, member, address, queue, waits⟩, available⟩
    rw [← address, ← queue] at available
    refine ⟨entry, ⟨member, waits, available⟩, ?_⟩
    rw [shape, address, queue]

theorem Invariant.flagged_small (invariant : state.Invariant)
    (waits : PoisonedQid.flagged state.poisoned bdf qid = true) : bdf < 2 ^ 16 := by
  obtain ⟨entry, member, rfl, -, -⟩ := invariant.keyed.flagged_iff.mp waits
  exact invariant.small entry member

theorem Invariant.givenBack_iff (invariant : state.Invariant) (small : bdf < 2 ^ 16) :
    givenBack (toResurrect memory state.poisoned) (bdf, qid) = true ↔
      PoisonedQid.flagged state.poisoned bdf qid = true ∧ memory bdf qid = true := by
  simp only [givenBack, List.any_eq_true, Bool.and_eq_true, beq_iff_eq]
  constructor
  · rintro ⟨clone, member, address, rfl⟩
    obtain ⟨-, waits, available⟩ := (mem_toResurrect invariant.keyed).mp member
    rw [pciAddr_eq_bdfAddr (invariant.flagged_small waits)] at address
    rw [← bdfAddr_injective address]
    exact ⟨waits, available⟩
  · rintro ⟨waits, available⟩
    refine ⟨⟨bdf, qid, false, false⟩, (mem_toResurrect invariant.keyed).mpr ?_, ?_, rfl⟩
    · exact ⟨rfl, waits, available⟩
    · exact pciAddr_eq_bdfAddr small

theorem Invariant.work (invariant : state.Invariant) : ({ state with
      poisoned := select memory state.poisoned
      armed := state.armed.filter
        fun queue => !givenBack (toResurrect memory state.poisoned) queue
      due := state.due.filter
        fun queue => !givenBack (toResurrect memory state.poisoned) queue } :
      Domains).Invariant := by
  have keyed : Keyed (select memory state.poisoned) := Resurrection.select_keyed invariant.keyed
  have armed_small : ∀ queue ∈ state.armed, queue.1 < 2 ^ 16 := fun queue member =>
    invariant.hijacked_small queue (invariant.armed_hijacked queue member)
  refine ⟨keyed, small_of_entryOf keyed ?_, invariant.hijacked_small, ?_, ?_, ?_, ?_⟩
  · intro other otherQid present
    rw [Resurrection.entryOf_select, Option.isSome_map] at present
    exact invariant.entryOf_small present
  · exact fun queue member => invariant.armed_hijacked queue (List.mem_of_mem_filter member)
  · intro other otherQid
    rw [List.mem_filter, ← invariant.created, Resurrection.entryOf_select]
    by_cases known : (other, otherQid) ∈ state.armed
    · rw [Bool.not_eq_true', Bool.eq_false_iff, ne_eq,
        invariant.givenBack_iff (armed_small _ known)]
      rw [← invariant.created] at known
      unfold PoisonedQid.flagged
      cases found : entryOf state.poisoned other otherQid with
      | none => simp
      | some entry =>
        cases waits : entry.needsResurrect <;> cases memory other otherQid <;>
          simp [waits]
    · rw [← invariant.created] at known
      cases found : entryOf state.poisoned other otherQid with
      | none => simp
      | some entry =>
        rw [found, Option.any_some] at known
        rw [Option.map_some, Option.any_some, Option.any_some]
        split_ifs <;> simp [known]
  · intro other otherQid
    rw [List.mem_filter, ← invariant.flagged, Resurrection.flagged_select, Bool.and_eq_true]
    refine and_congr_right fun waits => ?_
    rw [Bool.not_eq_true', Bool.not_eq_true', Bool.eq_false_iff, Bool.eq_false_iff, ne_eq, ne_eq,
      invariant.givenBack_iff (invariant.flagged_small waits)]
    simp [waits]
  · intro queue member
    obtain ⟨old, back⟩ := List.mem_filter.mp member
    exact List.mem_filter.mpr ⟨invariant.due_armed queue old, back⟩

theorem lookupQueueBdf_eq {entries : List QueueAddrEntry} {virtAddr : Nat}
    {registration : QueueAddrEntry}
    (found : entries.find? (QueueAddrs.covers virtAddr) = some registration) :
    QueueAddrs.lookupQueueBdf entries virtAddr = registration.nvmeBdf := by
  rw [QueueAddrs.lookupQueueBdf, found]

variable {registered : List Nat}

theorem Invariant.step {label : DomainsLabel} (fits : ∀ bdf ∈ registered, 0 < bdf ∧ bdf < 2 ^ 16)
    (invariant : state.Invariant) (move : step registered state label = some next) :
    next.Invariant := by
  cases label with
  | work memory =>
    cases move
    exact invariant.work
  | command system cmd =>
    simp only [Domains.step] at move
    cases found : system.queueAddrs.find? (QueueAddrs.covers cmd.ubuffer) with
    | none => exact absurd move (by simp [found])
    | some registration =>
      simp only [found] at move
      have bdfEq := lookupQueueBdf_eq found
      split_ifs at move with known injected delete
      · cases move
        obtain ⟨positive, small⟩ := fits _ known
        rw [poisoned_of_injects injected, bdfEq, Nat.mod_eq_of_lt small, if_pos positive.ne']
        exact invariant.hijack small
      · cases move
        obtain ⟨positive, small⟩ := fits _ known
        rw [poisoned_of_deleteCq delete.1 delete.2.1 delete.2.2,
          deleteProbe_of_registered delete.2.2 (by rw [bdfEq]; exact positive.ne'), bdfEq,
          Nat.mod_eq_of_lt small]
        exact invariant.delete

theorem snapshotFor_pdev {system : ResurrectSystem} {snapshot : QueueSnapshot}
    (found : system.snapshotFor clone = some snapshot) :
    snapshot.pdev = clone.pciAddr ∧ snapshot.qid = clone.qid := by
  obtain ⟨-, found⟩ := Option.ite_none_right_eq_some.mp found
  have passes := List.find?_some found
  rwa [Bool.and_eq_true, beq_iff_eq, beq_iff_eq] at passes

theorem Invariant.due_of_clone (invariant : state.Invariant)
    (member : clone ∈ toResurrect (fun _ _ => true) state.poisoned) :
    (clone.bdf, clone.qid) ∈ state.due ∧ bdfAddr clone.bdf = clone.pciAddr := by
  obtain ⟨-, waits, -⟩ := (mem_toResurrect invariant.keyed).mp member
  exact ⟨(invariant.flagged _ _).mp waits,
    (pciAddr_eq_bdfAddr (invariant.flagged_small waits)).symm⟩

theorem Invariant.identified (invariant : state.Invariant) : state.Identified where
  exact_device address qid := by
    constructor
    · rintro ⟨clone, member, rfl, rfl⟩
      exact ⟨clone.bdf, invariant.due_of_clone member⟩
    · rintro ⟨bdf, due, rfl⟩
      have waits := (invariant.flagged bdf qid).mpr due
      refine ⟨⟨bdf, qid, false, false⟩, (mem_toResurrect invariant.keyed).mpr ?_, ?_, rfl⟩
      · exact ⟨rfl, waits, rfl⟩
      · exact pciAddr_eq_bdfAddr (invariant.flagged_small waits)
  exact_snapshot system snapshot clone member found := by
    obtain ⟨device, queue⟩ := snapshotFor_pdev found
    obtain ⟨due, address⟩ := invariant.due_of_clone member
    exact ⟨clone.bdf, due, device.trans address.symm, queue⟩
  apart first firstTaken second secondTaken entry firstEntry secondEntry := by
    have firstBdf := (entryOf_some firstEntry).2.1
    have secondBdf := (entryOf_some secondEntry).2.1
    rw [Nat.mod_eq_of_lt (invariant.hijacked_small first firstTaken)] at firstBdf
    rw [Nat.mod_eq_of_lt (invariant.hijacked_small second secondTaken)] at secondBdf
    exact firstBdf.symm.trans secondBdf

/-! ### Controllers that do not fit -/

def onePageFor (bdf : Nat) : ProbeSystem where
  injectEnabled := true
  queueAddrs := [⟨⟨0x1000, 0xa000, 0x1000, 0, bdf, 0⟩, 1, 1⟩]
  vramBuffers := []
  virtToPhys := fun _ => none

def pageCommand (opcode : Nat) : UserCmd := ⟨true, opcode, 5, 0, 0, 0x1000⟩

def takeAndDelete (bdf : Nat) : List DomainsLabel :=
  [.command (onePageFor bdf) (pageCommand createCq),
    .command (onePageFor bdf) (pageCommand deleteCq)]

theorem covers_onePageFor (opcode : Nat) :
    (onePageFor bdf).queueAddrs.find? (QueueAddrs.covers (pageCommand opcode).ubuffer) =
      some ⟨⟨0x1000, 0xa000, 0x1000, 0, bdf, 0⟩, 1, 1⟩ := by
  simp [onePageFor, pageCommand, QueueAddrs.covers]

theorem run_takeAndDelete (known : bdf ∈ registered) :
    ∃ state, run (step registered) init (takeAndDelete bdf) = some state ∧
      state.due = [(bdf, 5)] ∧ (bdf = 0 → state.poisoned = []) := by
  have injected : (onePageFor bdf).injects (pageCommand createCq) = true := by
    simp [injects, onePageFor, pageCommand, QueueAddrs.lookupQueuePhysAddr, QueueAddrs.covers]
  have created : step registered init (.command (onePageFor bdf) (pageCommand createCq)) =
      some ⟨((onePageFor bdf).nvmeSubmitUserCmdPre [] true (pageCommand createCq)).poisoned,
        [(bdf, 5)], [(bdf, 5)], []⟩ := by
    simp only [step, covers_onePageFor, if_pos known, injected, if_true]
    rfl
  have deleted : ∀ poisoned, step registered ⟨poisoned, [(bdf, 5)], [(bdf, 5)], []⟩
      (.command (onePageFor bdf) (pageCommand deleteCq)) =
      some ⟨((onePageFor bdf).nvmeSubmitUserCmdPre poisoned true (pageCommand deleteCq)).poisoned,
        [(bdf, 5)], [(bdf, 5)], [(bdf, 5)]⟩ := by
    intro poisoned
    have notCreate : (onePageFor bdf).injects (pageCommand deleteCq) = false := rfl
    have isDelete : (onePageFor bdf).injectEnabled = true ∧
        (pageCommand deleteCq).isAdmin = true ∧ (pageCommand deleteCq).opcode = deleteCq :=
      ⟨rfl, rfl, rfl⟩
    have own : queueId (pageCommand deleteCq) = 5 := rfl
    simp only [step, covers_onePageFor, if_pos known, notCreate, Bool.false_eq_true, if_false,
      if_pos isDelete, own]
    simp
  refine ⟨_, (run_cons_of_step created).trans ((run_cons_of_step (deleted _)).trans (run_nil _)),
    rfl, ?_⟩
  rintro rfl
  have untracked : QueueAddrs.lookupQueueBdf (onePageFor 0).queueAddrs
      (pageCommand createCq).ubuffer = 0 := lookupQueueBdf_eq (covers_onePageFor _)
  have undeleted : QueueAddrs.lookupQueueBdf (onePageFor 0).queueAddrs
      (pageCommand deleteCq).ubuffer = 0 := lookupQueueBdf_eq (covers_onePageFor _)
  rfl

/-- The work function deals with the right devices, in every run, exactly when all registered
controllers lie in domain 0 and none has the address 0. -/
theorem resurrect_identified_iff (registered : List Nat) :
    (∀ labels state, run (step registered) init labels = some state → state.Identified) ↔
      ∀ bdf ∈ registered, 0 < bdf ∧ bdf < 2 ^ 16 := by
  constructor
  · intro identified bdf known
    obtain ⟨state, reaches, due, untracked⟩ := run_takeAndDelete known
    have device := (identified _ state reaches).exact_device (bdfAddr bdf) 5
    obtain ⟨clone, member, address, -⟩ := device.mpr ⟨bdf, due ▸ List.mem_cons_self, rfl⟩
    constructor
    · refine Nat.pos_of_ne_zero fun zero => ?_
      rw [untracked zero] at member
      exact absurd member (by simp [toResurrect])
    · have domain : 0 = bdf / 2 ^ 16 := congrArg PciAddr.domain address
      exact Nat.lt_of_div_eq_zero (by decide) domain.symm
  · intro fits labels state reaches
    have invariant : state.Invariant :=
      run_invariant (motive := Invariant) (fun _ _ _ holds move => holds.step fits move)
        init_invariant reaches
    exact invariant.identified

end

/-- A controller of domain 1 and one of domain 0 at the same bus and device. -/
def twoDomains : List Nat := [rocmXioBdf 0 1 0 0, rocmXioBdf 1 1 0 0]

def takeBoth : List DomainsLabel :=
  .command (onePageFor (rocmXioBdf 0 1 0 0)) (pageCommand createCq) ::
    takeAndDelete (rocmXioBdf 1 1 0 0)

theorem resurrect_wrong_domain : ∃ state,
    run (step twoDomains) init takeBoth = some state ∧
    state.due = [(rocmXioBdf 1 1 0 0, 5)] ∧
    (toResurrect (fun _ _ => true) state.poisoned).map pciAddr = [bdfAddr (rocmXioBdf 0 1 0 0)] ∧
    state.poisoned.length = 1 ∧ ¬ state.Identified := by
  refine ⟨_, rfl, rfl, rfl, rfl, fun identified => ?_⟩
  have same := identified.apart (rocmXioBdf 0 1 0 0, 5) (by decide) (rocmXioBdf 1 1 0 0, 5)
    (by decide) ⟨256, 5, true, true⟩ rfl rfl
  exact absurd same (by decide)

end Domains

end RocmXio.Kmod
