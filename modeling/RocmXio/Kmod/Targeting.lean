/-
Which queue a DELETE without an address is about.

User space deletes a queue with commands that carry no address, and the probe takes the first queue
with the same id that was taken over, whatever its controller. A run is a sequence of CREATEs that
take queues over and of DELETEs, each for a controller; beside the list, the state keeps the queues
whose own DELETE_CQ came after they were taken over.
-/

import RocmXio.Kmod.Probe

namespace RocmXio.Kmod

open Lib

/-- The list of poisoned queues, the queues that were taken over, and those whose own DELETE_CQ was
issued later, by controller and queue id. -/
structure Targeting where
  poisoned : List PoisonedQid
  hijacked : List (Nat × Nat)
  due : List (Nat × Nat)
deriving DecidableEq

/-- A command for a controller: what the module looks at, and whether there is memory for an entry.
-/
structure Issued where
  controller : Nat
  system : ProbeSystem
  cmd : UserCmd
  memory : Bool

namespace Targeting

open PoisonedQid ProbeSystem

def init : Targeting where
  poisoned := []
  hijacked := []
  due := []

def noteDelete (state : Targeting) (queue : Nat × Nat) : List (Nat × Nat) :=
  if queue ∈ state.hijacked then queue :: state.due else state.due

/-- One command. A CREATE counts when the probe injects an address registered for the controller, a
DELETE when it carries none. Controllers are those of domain 0. -/
def step (state : Targeting) (issued : Issued) : Option Targeting :=
  let queue := (issued.controller, queueId issued.cmd)
  let poisoned :=
    (issued.system.nvmeSubmitUserCmdPre state.poisoned issued.memory issued.cmd).poisoned
  if issued.controller < 2 ^ 16 ∧ issued.system.injectEnabled = true ∧
      issued.cmd.isAdmin = true then
    if issued.system.injects issued.cmd then
      if QueueAddrs.lookupQueueBdf issued.system.queueAddrs issued.cmd.ubuffer =
          issued.controller then
        some { state with poisoned := poisoned, hijacked := queue :: state.hijacked }
      else none
    else if issued.cmd.opcode = deleteSq ∧ issued.cmd.ubuffer = 0 then
      some { state with poisoned := poisoned }
    else if issued.cmd.opcode = deleteCq ∧ issued.cmd.ubuffer = 0 then
      some { state with poisoned := poisoned, due := state.noteDelete queue }
    else none
  else none

/-- The queues that wait for the work item are those that were taken over and then deleted. -/
def Targeted (state : Targeting) : Prop :=
  ∀ controller qid,
    (∃ entry ∈ state.poisoned, entry.bdf = controller ∧ entry.qid = qid ∧
      entry.needsResurrect = true) ↔ (controller, qid) ∈ state.due

/-- The first queue with this id that was taken over is the controller's own, or waits already while
the controller's own waits as well or was never taken over. -/
def ownFirst (poisoned : List PoisonedQid) (controller qid : Nat) : Bool :=
  (poisoned.find? fun entry => entry.qid == qid && entry.created).all fun entry =>
    entry.bdf == controller ||
      (entry.needsResurrect && (entryOf poisoned controller qid).all needsResurrect)

/-- A CREATE finds room for its entry, on a controller other than that with address 0. For a
DELETE_CQ, address 0 is registered for the controller itself, or not at all and the controller's own
queue comes first. -/
def Unmistaken (state : Targeting) (issued : Issued) : Prop :=
  (issued.system.injects issued.cmd = true → issued.controller ≠ 0 ∧
    ((entryOf state.poisoned issued.controller (queueId issued.cmd)).isSome = true ∨
      issued.memory = true)) ∧
  (issued.cmd.opcode = deleteCq →
    (QueueAddrs.lookupQueueBdf issued.system.queueAddrs 0 = issued.controller ∧
      issued.controller ≠ 0) ∨
    (QueueAddrs.lookupQueueBdf issued.system.queueAddrs 0 = 0 ∧
      ownFirst state.poisoned issued.controller (queueId issued.cmd) = true))

instance Unmistaken.decidable (state : Targeting) (issued : Issued) :
    Decidable (state.Unmistaken issued) :=
  inferInstanceAs (Decidable (_ ∧ _))

/-! ### The invariant -/

/-- The list has an entry for each queue that was taken over, and the flags are right. -/
structure Invariant (state : Targeting) : Prop where
  keyed : Keyed state.poisoned
  created : ∀ controller qid entry, entryOf state.poisoned controller qid = some entry →
    entry.created = true ∧ controller ≠ 0
  tracked : ∀ controller qid, (controller, qid) ∈ state.hijacked ↔
    (entryOf state.poisoned controller qid).isSome = true
  marked : ∀ controller qid, flagged state.poisoned controller qid = true ↔
    (controller, qid) ∈ state.due

section

variable {state next : Targeting} {issued : Issued} {controller qid : Nat}

theorem init_invariant : init.Invariant where
  keyed := List.nodup_nil
  created := by simp [init, entryOf]
  tracked := fun _ _ => by simp [init, entryOf]
  marked := fun _ _ => by simp [init, flagged, entryOf]

theorem Invariant.markCreated {memory : Bool} (invariant : state.Invariant)
    (nonzero : controller ≠ 0)
    (room : (entryOf state.poisoned controller qid).isSome = true ∨ memory = true) :
    ({ state with
      poisoned := markCreated state.poisoned controller qid memory
      hijacked := (controller, qid) :: state.hijacked } : Targeting).Invariant := by
  have own := entryOf_markCreated_self room
  refine ⟨markCreated_keyed invariant.keyed memory, ?_, ?_, ?_⟩
  · intro other otherQid entry found
    by_cases same : other = controller ∧ otherQid = qid
    · obtain ⟨rfl, rfl⟩ := same
      rw [own] at found
      cases found
      exact ⟨rfl, nonzero⟩
    · rw [entryOf_markCreated_of_ne same] at found
      exact invariant.created other otherQid entry found
  · intro other otherQid
    rw [List.mem_cons, Prod.mk.injEq]
    by_cases same : other = controller ∧ otherQid = qid
    · obtain ⟨rfl, rfl⟩ := same
      simp [own]
    · rw [entryOf_markCreated_of_ne same, ← invariant.tracked other otherQid]
      exact or_iff_right same
  · intro other otherQid
    rw [← invariant.marked other otherQid]
    unfold flagged
    by_cases same : other = controller ∧ otherQid = qid
    · obtain ⟨rfl, rfl⟩ := same
      rw [own, Option.any_some]
    · rw [entryOf_markCreated_of_ne same]

theorem Invariant.flagged_markDeleted {target : Nat} (invariant : state.Invariant)
    (other otherQid : Nat) :
    flagged (markDeleted state.poisoned target qid).1 other otherQid = true ↔
      flagged state.poisoned other otherQid = true ∨
        ((other = target ∧ otherQid = qid) ∧ (other, otherQid) ∈ state.hijacked) := by
  by_cases same : other = target ∧ otherQid = qid
  · obtain ⟨rfl, rfl⟩ := same
    rw [invariant.tracked]
    unfold flagged
    rw [entryOf_markDeleted_self]
    cases found : entryOf state.poisoned other otherQid with
    | none => simp
    | some entry => simp [(invariant.created _ _ _ found).1]
  · unfold flagged
    rw [entryOf_markDeleted_of_ne same]
    simp [same]

theorem Invariant.markDeleted {target : Nat} {due : List (Nat × Nat)}
    (invariant : state.Invariant)
    (marks : ∀ other otherQid, (other, otherQid) ∈ due ↔ (other, otherQid) ∈ state.due ∨
      ((other = target ∧ otherQid = qid) ∧ (other, otherQid) ∈ state.hijacked)) :
    ({ state with poisoned := (markDeleted state.poisoned target qid).1, due := due } :
      Targeting).Invariant := by
  refine ⟨markDeleted_keyed invariant.keyed, ?_, ?_, ?_⟩
  · intro other otherQid entry found
    by_cases same : other = target ∧ otherQid = qid
    · obtain ⟨rfl, rfl⟩ := same
      rw [entryOf_markDeleted_self] at found
      obtain ⟨old, present, rfl⟩ := Option.map_eq_some_iff.mp found
      exact invariant.created other otherQid old present
    · rw [entryOf_markDeleted_of_ne same] at found
      exact invariant.created other otherQid entry found
  · intro other otherQid
    rw [invariant.tracked]
    by_cases same : other = target ∧ otherQid = qid
    · obtain ⟨rfl, rfl⟩ := same
      rw [entryOf_markDeleted_self, Option.isSome_map]
    · rw [entryOf_markDeleted_of_ne same]
  · intro other otherQid
    rw [invariant.flagged_markDeleted, invariant.marked, marks]

theorem mem_noteDelete (other otherQid : Nat) :
    (other, otherQid) ∈ state.noteDelete (controller, qid) ↔ (other, otherQid) ∈ state.due ∨
      ((other = controller ∧ otherQid = qid) ∧ (other, otherQid) ∈ state.hijacked) := by
  unfold noteDelete
  by_cases same : other = controller ∧ otherQid = qid
  · obtain ⟨rfl, rfl⟩ := same
    by_cases taken : (other, otherQid) ∈ state.hijacked
    · simp [taken]
    · simp [taken]
  · split_ifs
    · simp [same]
    · simp [same]

/-- Without an address, a DELETE_CQ is taken to be about the first queue with its id; for an
unmistaken command rightly so. -/
theorem Invariant.deleteFirst (invariant : state.Invariant)
    (own : ownFirst state.poisoned controller qid = true) :
    ({ state with
      poisoned :=
        match state.poisoned.find? fun entry => entry.qid == qid && entry.created with
        | none => state.poisoned
        | some entry =>
          if entry.bdf ≠ 0 then (PoisonedQid.markDeleted state.poisoned entry.bdf qid).1
          else state.poisoned
      due := state.noteDelete (controller, qid) } : Targeting).Invariant := by
  unfold ownFirst at own
  cases search : state.poisoned.find? fun entry => entry.qid == qid && entry.created with
  | none =>
    have untracked : (controller, qid) ∉ state.hijacked := by
      rw [invariant.tracked]
      intro present
      obtain ⟨entry, found⟩ := Option.isSome_iff_exists.mp present
      obtain ⟨member, -, queue⟩ := entryOf_some found
      have taken := (invariant.created _ _ _ found).1
      exact List.find?_eq_none.mp search entry member (by simp [queue, taken])
    rw [noteDelete, if_neg untracked]
    exact invariant
  | some entry =>
    rw [search, Option.all_some, Bool.or_eq_true, beq_iff_eq, Bool.and_eq_true] at own
    have member := List.mem_of_find?_eq_some search
    have queue : entry.qid = qid := by
      have passes := List.find?_some search
      rw [Bool.and_eq_true, beq_iff_eq] at passes
      exact passes.1
    have found : entryOf state.poisoned entry.bdf qid = some entry := by
      rw [← queue]
      exact invariant.keyed.entryOf member
    simp only [if_pos (invariant.created _ _ _ found).2]
    refine invariant.markDeleted fun other otherQid => ?_
    rw [mem_noteDelete]
    rcases own with rfl | ⟨waits, ownWaits⟩
    · rfl
    · -- both sides add nothing: each queue they might add waits already
      have already : ∀ bdf, (entryOf state.poisoned bdf qid).all needsResurrect = true →
          (bdf, qid) ∈ state.hijacked → (bdf, qid) ∈ state.due := by
        intro bdf allWait taken
        rw [invariant.tracked] at taken
        obtain ⟨known, present⟩ := Option.isSome_iff_exists.mp taken
        rw [← invariant.marked]
        unfold flagged
        rw [present] at allWait ⊢
        exact allWait
      have absorbed : ∀ bdf, (entryOf state.poisoned bdf qid).all needsResurrect = true →
          ((other, otherQid) ∈ state.due ∨
            ((other = bdf ∧ otherQid = qid) ∧ (other, otherQid) ∈ state.hijacked) ↔
            (other, otherQid) ∈ state.due) := by
        intro bdf allWait
        refine or_iff_left_of_imp ?_
        rintro ⟨⟨rfl, rfl⟩, taken⟩
        exact already other allWait taken
      rw [absorbed controller ownWaits, absorbed entry.bdf (by rw [found]; exact waits)]

theorem Invariant.step (invariant : state.Invariant) (unmistaken : state.Unmistaken issued)
    (move : state.step issued = some next) : next.Invariant := by
  unfold Targeting.step at move
  split_ifs at move with common injected registered sq cq
  · cases move
    obtain ⟨nonzero, room⟩ := unmistaken.1 injected
    have small : issued.controller % 2 ^ 16 = issued.controller := Nat.mod_eq_of_lt common.1
    rw [poisoned_of_injects injected, registered, small, if_pos nonzero]
    exact invariant.markCreated nonzero room
  · cases move
    rw [poisoned_of_deleteSq common.2.1 common.2.2 sq.1]
    exact invariant
  · cases move
    rw [poisoned_of_deleteCq common.2.1 common.2.2 cq.1]
    rcases unmistaken.2 cq.1 with ⟨own, nonzero⟩ | ⟨unregistered, own⟩
    · have small : issued.controller % 2 ^ 16 = issued.controller := Nat.mod_eq_of_lt common.1
      rw [deleteProbe_of_registered cq.1 (by rw [cq.2, own]; exact nonzero), cq.2, own, small]
      exact invariant.markDeleted mem_noteDelete
    · rw [deleteProbe_of_unregistered cq.1 (by rw [cq.2]; exact unregistered)]
      exact invariant.deleteFirst own

/-- After unmistaken commands, the queues that wait for the work item are exactly those whose own
DELETE_CQ came after they were taken over. -/
theorem delete_targeted {commands : List Issued}
    (unmistaken : EveryStep step Unmistaken init commands)
    (reaches : run step init commands = some state) : state.Targeted := by
  have invariant : state.Invariant := run_invariant_of_everyStep (motive := Invariant)
      (fun _ _ _ holds guarded move => holds.step guarded move) init_invariant unmistaken reaches
  intro controller qid
  rw [← invariant.keyed.flagged_iff]
  exact invariant.marked controller qid

end

/-! ### Two controllers -/

def twoControllers : ProbeSystem where
  injectEnabled := true
  queueAddrs := [⟨⟨0x1000, 0xa000, 0x1000, 0, 0x100, 0⟩, 1, 1⟩,
    ⟨⟨0x2000, 0xb000, 0x1000, 0, 0x200, 0⟩, 1, 1⟩]
  vramBuffers := []
  virtToPhys := fun _ => none

def createFor (controller ubuffer qid : Nat) : Issued where
  controller := controller
  system := twoControllers
  cmd := ⟨true, createCq, qid, 0, 0, ubuffer⟩
  memory := true

/-- The DELETE_CQ that `deleteQueue` sends. -/
def deleteFor (controller qid : Nat) : Issued where
  controller := controller
  system := twoControllers
  cmd := ⟨true, deleteCq, qid, 0, 0, 0⟩
  memory := true

def differentIds : List Issued :=
  [createFor 0x100 0x1000 5, createFor 0x200 0x2000 6, deleteFor 0x100 5]

theorem delete_targeted_differentIds : ∃ state, run step init differentIds = some state ∧
    state.due = [(0x100, 5)] ∧ state.Targeted :=
  ⟨_, rfl, rfl, delete_targeted (show EveryStep step Unmistaken init differentIds by decide) rfl⟩

/-- Two controllers use the same queue id, and the one that was taken over first is
deleted. -/
def sameId : List Issued :=
  [createFor 0x100 0x1000 5, createFor 0x200 0x2000 5, deleteFor 0x100 5]

theorem delete_marks_other : ∃ state, run step init sameId = some state ∧
    state.due = [(0x100, 5)] ∧ flagged state.poisoned 0x200 5 = true ∧
    flagged state.poisoned 0x100 5 = false ∧ ¬ state.Targeted := by
  refine ⟨_, rfl, rfl, rfl, rfl, fun targeted => ?_⟩
  obtain ⟨entry, member, address, -, waits⟩ := (targeted 0x100 5).mpr List.mem_cons_self
  rcases List.mem_cons.mp member with rfl | other
  · exact absurd address (by decide)
  · rcases List.mem_singleton.mp other with rfl
    exact absurd waits (by decide)

end Targeting

end RocmXio.Kmod
