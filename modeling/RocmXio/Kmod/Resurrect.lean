/-
Giving poisoned queues back to the kernel.

`rocm_xio_resurrect_work_fn` runs some time after a DELETE_CQ flagged a queue. Under the lock it
copies and clears every flagged entry; one for which there is no memory stays flagged, and the work
item is put back. It then creates the queue of each copy on the controller, from the snapshot of
what the kernel had set up. A step is one critical section of a handler, one call that schedules the
work item, or one part of the work function, which never runs twice at the same time. The history
keeps, newest first, what users did and which queues were selected.
-/

import RocmXio.Kmod.Probe

namespace RocmXio.Kmod

open Lib

/-! ### The work function -/

/-- A PCI function, as `pci_get_domain_bus_and_slot` names it. -/
structure PciAddr where
  domain : Nat
  bus : Nat
  devfn : Nat
deriving DecidableEq, Repr

/-- What the work function reads of `struct nvme_queue_snapshot`. -/
structure QueueSnapshot where
  pdev : PciAddr
  qid : Nat
  sqDmaAddr : Nat
  cqDmaAddr : Nat
  qDepth : Nat
  cqVector : Nat
  polled : Bool
  adminQ : Option Nat
deriving DecidableEq, Repr

inductive ResurrectCmd where
  | createCq (adminQ prp1 cqid qsize cqFlags irqVector : Nat)
  | createSq (adminQ prp1 sqid qsize sqFlags cqid : Nat)
deriving DecidableEq, Repr

inductive ResurrectOutcome where
  | noDevice
  | noSnapshot
  | noAdminQ
  | bogus
  | createCqFailed
  | createSqFailed
  | done
deriving DecidableEq, Repr

/-- What the work function looks at: the devices present, the snapshots, and whether a
command succeeds. -/
structure ResurrectSystem where
  present : PciAddr → Bool
  snapshots : List QueueSnapshot
  succeeds : ResurrectCmd → Bool

namespace PoisonedQid

def pciAddr (entry : PoisonedQid) : PciAddr where
  domain := 0
  bus := entry.bdf / 2 ^ 8 % 2 ^ 8
  devfn := entry.bdf % 2 ^ 8

/-- Selected entries are cleared; `memory` says for which queues there is memory for a copy. -/
def select (memory : Nat → Nat → Bool) (poisoned : List PoisonedQid) : List PoisonedQid :=
  poisoned.map fun entry =>
    if entry.needsResurrect && memory entry.bdf entry.qid then
      { entry with created := false, needsResurrect := false }
    else entry

/-- The copies: the list `to_resurrect`. -/
def toResurrect (memory : Nat → Nat → Bool) (poisoned : List PoisonedQid) : List PoisonedQid :=
  (poisoned.filter fun entry => entry.needsResurrect && memory entry.bdf entry.qid).map
    fun entry => ⟨entry.bdf, entry.qid, false, false⟩

def cloneOom (memory : Nat → Nat → Bool) (poisoned : List PoisonedQid) : Bool :=
  poisoned.any fun entry => entry.needsResurrect && !memory entry.bdf entry.qid

end PoisonedQid

namespace ResurrectSystem

/-- `pci_get_domain_bus_and_slot` followed by `nvme_queue_snapshot_lookup`. -/
def snapshotFor (system : ResurrectSystem) (entry : PoisonedQid) : Option QueueSnapshot :=
  if system.present entry.pciAddr then
    system.snapshots.find? fun snapshot => snapshot.pdev == entry.pciAddr &&
      snapshot.qid == entry.qid
  else none

/-- `cq_flags`: physically contiguous, with interrupts unless the queue is polled. -/
def cqFlags (snapshot : QueueSnapshot) : Nat := if snapshot.polled then 1 else 3

/-- One round of the loop over `to_resurrect`: where it ends and what it submits. -/
def resurrect (system : ResurrectSystem) (entry : PoisonedQid) :
    ResurrectOutcome × List ResurrectCmd :=
  if system.present entry.pciAddr = false then (.noDevice, [])
  else
    match system.snapshotFor entry with
    | none => (.noSnapshot, [])
    | some snapshot =>
      match snapshot.adminQ with
      | none => (.noAdminQ, [])
      | some adminQ =>
        if snapshot.qDepth = 0 ∨ snapshot.sqDmaAddr = 0 ∨ snapshot.cqDmaAddr = 0 then
          (.bogus, [])
        else
          let createCq := .createCq adminQ snapshot.cqDmaAddr entry.qid (snapshot.qDepth - 1)
            (cqFlags snapshot) snapshot.cqVector
          let createSq := .createSq adminQ snapshot.sqDmaAddr entry.qid (snapshot.qDepth - 1)
            1 entry.qid
          if system.succeeds createCq = false then (.createCqFailed, [createCq])
          else if system.succeeds createSq = false then (.createSqFailed, [createCq, createSq])
          else (.done, [createCq, createSq])

end ResurrectSystem

/-! ### Handlers and work item together -/

inductive QueueEvent where
  | created (queue : Nat × Nat)
  | deleted (queue : Nat × Nat)
  | selected (queue : Nat × Nat)
deriving DecidableEq, Repr

inductive WorkStage where
  | idle
  | selecting
  | retrying
  | processing
deriving DecidableEq, Repr

/-- The list, the handlers about to schedule the work item, whether it is pending, where it is, and
the history. -/
structure Resurrection where
  poisoned : List PoisonedQid
  scheduling : Nat
  pending : Bool
  worker : WorkStage
  history : List QueueEvent
deriving DecidableEq

inductive ResurrectionLabel where
  | created (bdf qid : Nat) (memory : Bool)
  | deleted (bdf qid : Nat)
  | schedule
  | workStart
  | workSelect (memory : Nat → Nat → Bool)
  | workRetry
  | workDone

namespace Resurrection

open PoisonedQid

def init : Resurrection where
  poisoned := []
  scheduling := 0
  pending := false
  worker := .idle
  history := []

def selections (memory : Nat → Nat → Bool) (poisoned : List PoisonedQid) : List QueueEvent :=
  (toResurrect memory poisoned).map fun entry => .selected (entry.bdf, entry.qid)

def step (state : Resurrection) : ResurrectionLabel → Option Resurrection
  | .created bdf qid memory =>
    some { state with
      poisoned := markCreated state.poisoned bdf qid memory
      history := .created (bdf, qid) :: state.history }
  | .deleted bdf qid =>
    some { state with
      poisoned := (markDeleted state.poisoned bdf qid).1
      scheduling :=
        if (markDeleted state.poisoned bdf qid).2 then state.scheduling + 1 else state.scheduling
      history := .deleted (bdf, qid) :: state.history }
  | .schedule =>
    if 0 < state.scheduling then
      some { state with scheduling := state.scheduling - 1, pending := true }
    else none
  | .workStart =>
    if state.worker = .idle ∧ state.pending = true then
      some { state with pending := false, worker := .selecting }
    else none
  | .workSelect memory =>
    if state.worker = .selecting then
      some { state with
        poisoned := select memory state.poisoned
        worker := if cloneOom memory state.poisoned then .retrying else .processing
        history := selections memory state.poisoned ++ state.history }
    else none
  | .workRetry =>
    if state.worker = .retrying then
      some { state with pending := true, worker := .processing }
    else none
  | .workDone =>
    if state.worker = .processing then some { state with worker := .idle } else none

/-! ### What users may rely on -/

def latest (queue : Nat × Nat) (history : List QueueEvent) : Option QueueEvent :=
  history.find? fun event => event == .created queue || event == .deleted queue

/-- Whenever a queue was selected, the latest thing a user did to it was to delete it. -/
def Justified : List QueueEvent → Prop
  | [] => True
  | .selected queue :: earlier => latest queue earlier = some (.deleted queue) ∧ Justified earlier
  | .created _ :: earlier | .deleted _ :: earlier => Justified earlier

def sinceCreated (queue : Nat × Nat) (history : List QueueEvent) : List QueueEvent :=
  history.takeWhile fun event => event != .created queue

/-- The work item will still select: it is pending or about to be, or has not yet passed its
critical section, or is about to put itself back. -/
def Scheduled (state : Resurrection) : Prop :=
  state.pending = true ∨ 0 < state.scheduling ∨ state.worker = .selecting ∨ state.worker = .retrying

/-- No DELETE_CQ of a queue that was taken over is lost: the queue is flagged with the work item
scheduled, or was selected since it was taken over, or was taken over later. -/
def Served (state : Resurrection) : Prop :=
  ∀ later queue earlier, state.history = later ++ .deleted queue :: earlier →
    .created queue ∈ earlier →
    (flagged state.poisoned queue.1 queue.2 = true ∧ state.Scheduled) ∨
      .selected queue ∈ sinceCreated queue state.history ∨ .created queue ∈ later

/-- A queue is taken over only when it does not wait for the work item, and there is room for
its entry. -/
def Unflagged (state : Resurrection) : ResurrectionLabel → Prop
  | .created bdf qid memory => flagged state.poisoned bdf qid = false ∧
    ((entryOf state.poisoned bdf qid).isSome = true ∨ memory = true)
  | _ => True

instance Unflagged.decidable (state : Resurrection) : ∀ label, Decidable (state.Unflagged label)
  | .created _ _ _ => inferInstanceAs (Decidable (_ ∧ _))
  | .deleted _ _ | .schedule | .workStart | .workSelect _ | .workRetry | .workDone =>
    inferInstanceAs (Decidable True)

/-! ### The invariant -/

/-- A flagged queue was deleted last and the work item is on its way; a queue that was taken over
has an entry that says so until it is selected, flagged once the queue is deleted. -/
structure Invariant (state : Resurrection) : Prop where
  keyed : Keyed state.poisoned
  justified : Justified state.history
  deletedLast : ∀ bdf qid, flagged state.poisoned bdf qid = true →
    latest (bdf, qid) state.history = some (.deleted (bdf, qid))
  scheduled : ∀ bdf qid, flagged state.poisoned bdf qid = true → state.Scheduled
  taken : ∀ bdf qid, .created (bdf, qid) ∈ state.history →
    .selected (bdf, qid) ∈ sinceCreated (bdf, qid) state.history ∨
      ∃ entry, entryOf state.poisoned bdf qid = some entry ∧ entry.created = true ∧
        (.deleted (bdf, qid) ∈ sinceCreated (bdf, qid) state.history → entry.needsResurrect = true)

section

variable {state next : Resurrection} {memory : Nat → Nat → Bool} {poisoned : List PoisonedQid}
  {bdf qid : Nat} {queue : Nat × Nat} {history : List QueueEvent}

/-! ### One pass of the work function -/

theorem select_keyed (keyed : Keyed poisoned) : Keyed (select memory poisoned) := by
  unfold Keyed select
  rw [List.map_map]
  refine (List.map_congr_left fun entry _ => ?_).symm ▸ keyed
  rw [Function.comp_apply]
  split_ifs <;> rfl

theorem entryOf_select : entryOf (select memory poisoned) bdf qid =
    (entryOf poisoned bdf qid).map fun entry =>
      if entry.needsResurrect && memory bdf qid then
        { entry with created := false, needsResurrect := false }
      else entry := by
  have sameTest : (isFor bdf qid ∘ fun entry : PoisonedQid =>
      if entry.needsResurrect && memory entry.bdf entry.qid then
        { entry with created := false, needsResurrect := false }
      else entry) = isFor bdf qid := by
    funext entry
    rw [Function.comp_apply]
    split_ifs <;> rfl
  unfold entryOf select
  rw [List.find?_map, sameTest]
  refine Option.map_congr fun entry found => ?_
  obtain ⟨rfl, rfl⟩ := isFor_iff.mp (List.find?_some (p := isFor bdf qid) found)
  rfl

theorem flagged_select : flagged (select memory poisoned) bdf qid =
    (flagged poisoned bdf qid && !memory bdf qid) := by
  unfold flagged
  rw [entryOf_select]
  cases entryOf poisoned bdf qid with
  | none => rfl
  | some entry =>
    cases waits : entry.needsResurrect <;> cases memory bdf qid <;> simp [waits]

theorem mem_selections (keyed : Keyed poisoned) :
    .selected (bdf, qid) ∈ selections memory poisoned ↔
      flagged poisoned bdf qid = true ∧ memory bdf qid = true := by
  rw [keyed.flagged_iff]
  simp only [selections, toResurrect, List.map_map, List.mem_map, List.mem_filter,
    Function.comp_apply, Bool.and_eq_true, QueueEvent.selected.injEq, Prod.mk.injEq]
  constructor
  · rintro ⟨entry, ⟨member, waits, available⟩, rfl, rfl⟩
    exact ⟨⟨entry, member, rfl, rfl, waits⟩, available⟩
  · rintro ⟨⟨entry, member, rfl, rfl, waits⟩, available⟩
    exact ⟨entry, ⟨member, waits, available⟩, rfl, rfl⟩

theorem exists_of_mem_selections {event : QueueEvent}
    (member : event ∈ selections memory poisoned) : ∃ queue, event = .selected queue := by
  obtain ⟨entry, -, rfl⟩ := List.mem_map.mp member
  exact ⟨_, rfl⟩

theorem cloneOom_of_flagged (keyed : Keyed poisoned)
    (waits : flagged (select memory poisoned) bdf qid = true) :
    cloneOom memory poisoned = true := by
  rw [flagged_select, Bool.and_eq_true] at waits
  obtain ⟨entry, member, rfl, rfl, flag⟩ := keyed.flagged_iff.mp waits.1
  exact List.any_eq_true.mpr ⟨entry, member, by rw [flag, waits.2]; rfl⟩

/-! ### Histories -/

theorem latest_append_of_selected {events : List QueueEvent}
    (selected : ∀ event ∈ events, ∃ queue, event = .selected queue) :
    latest queue (events ++ history) = latest queue history := by
  unfold latest
  rw [List.find?_append, List.find?_eq_none.mpr, Option.none_or]
  intro event member
  obtain ⟨other, rfl⟩ := selected event member
  simp

theorem sinceCreated_append_of_selected {events : List QueueEvent}
    (selected : ∀ event ∈ events, ∃ queue, event = .selected queue) :
    sinceCreated queue (events ++ history) = events ++ sinceCreated queue history := by
  refine List.takeWhile_append_of_pos fun event member => ?_
  obtain ⟨other, rfl⟩ := selected event member
  simp

theorem Justified.append {events : List QueueEvent}
    (selected : ∀ event ∈ events, ∃ queue, event = .selected queue)
    (deleted : ∀ queue, .selected queue ∈ events → latest queue history = some (.deleted queue))
    (justified : Justified history) : Justified (events ++ history) := by
  induction events with
  | nil => exact justified
  | cons event events inductionHypothesis =>
    have rest := inductionHypothesis
      (fun other member => selected other (List.mem_cons_of_mem event member))
      (fun other member => deleted other (List.mem_cons_of_mem event member))
    obtain ⟨queue, rfl⟩ := selected event List.mem_cons_self
    refine ⟨(latest_append_of_selected ?_).trans (deleted queue List.mem_cons_self), rest⟩
    exact fun other member => selected other (List.mem_cons_of_mem _ member)

theorem latest_created_of_ne (apart : (bdf, qid) ≠ queue) :
    latest queue (.created (bdf, qid) :: history) = latest queue history := by
  simp [latest, apart]

theorem latest_deleted_of_ne (apart : (bdf, qid) ≠ queue) :
    latest queue (.deleted (bdf, qid) :: history) = latest queue history := by
  simp [latest, apart]

theorem sinceCreated_cons {event : QueueEvent} (other : event ≠ .created queue) :
    sinceCreated queue (event :: history) = event :: sinceCreated queue history := by
  simp [sinceCreated, other]

/-! ### Every step keeps the invariant -/

theorem init_invariant : init.Invariant where
  keyed := List.nodup_nil
  justified := trivial
  deletedLast := by simp [init, flagged, entryOf]
  scheduled := by simp [init, flagged, entryOf]
  taken := by simp [init]

theorem pair_ne {other otherQid : Nat} (apart : ¬ (other = bdf ∧ otherQid = qid)) :
    (bdf, qid) ≠ (other, otherQid) := by
  rintro same
  obtain ⟨rfl, rfl⟩ := Prod.mk.inj same
  exact apart ⟨rfl, rfl⟩

section

variable (invariant : state.Invariant)
include invariant

theorem Invariant.created {available : Bool} (unflagged : flagged state.poisoned bdf qid = false)
    (room : (entryOf state.poisoned bdf qid).isSome = true ∨ available = true) :
    ({ state with
      poisoned := markCreated state.poisoned bdf qid available
      history := .created (bdf, qid) :: state.history } : Resurrection).Invariant := by
  have own := entryOf_markCreated_self room
  have flags : ∀ other otherQid,
      flagged (markCreated state.poisoned bdf qid available) other otherQid =
        flagged state.poisoned other otherQid := by
    intro other otherQid
    by_cases same : other = bdf ∧ otherQid = qid
    · obtain ⟨rfl, rfl⟩ := same
      unfold flagged
      rw [own, Option.any_some]
    · unfold flagged
      rw [entryOf_markCreated_of_ne same]
  refine ⟨markCreated_keyed invariant.keyed available, invariant.justified, ?_, ?_, ?_⟩
  · intro other otherQid waits
    rw [flags] at waits
    have apart : (bdf, qid) ≠ (other, otherQid) := by
      rintro same
      obtain ⟨rfl, rfl⟩ := Prod.mk.inj same
      exact absurd waits (by simp [unflagged])
    rw [latest_created_of_ne apart]
    exact invariant.deletedLast other otherQid waits
  · intro other otherQid waits
    rw [flags] at waits
    exact invariant.scheduled other otherQid waits
  · intro other otherQid seen
    by_cases same : other = bdf ∧ otherQid = qid
    · obtain ⟨rfl, rfl⟩ := same
      exact Or.inr ⟨_, own, rfl, by simp [sinceCreated]⟩
    · have apart := pair_ne same
      have other_event : QueueEvent.created (bdf, qid) ≠ .created (other, otherQid) := by
        simpa using apart
      have old : .created (other, otherQid) ∈ state.history := by
        rcases List.mem_cons.mp seen with now | before
        · exact absurd now.symm other_event
        · exact before
      simp only [entryOf_markCreated_of_ne same, sinceCreated_cons other_event, List.mem_cons,
        reduceCtorEq, false_or]
      exact invariant.taken other otherQid old

theorem Invariant.deleted : ({ state with
      poisoned := (markDeleted state.poisoned bdf qid).1
      scheduling :=
        if (markDeleted state.poisoned bdf qid).2 then state.scheduling + 1 else state.scheduling
      history := .deleted (bdf, qid) :: state.history } : Resurrection).Invariant := by
  refine ⟨markDeleted_keyed invariant.keyed, invariant.justified, ?_, ?_, ?_⟩
  · intro other otherQid waits
    by_cases same : other = bdf ∧ otherQid = qid
    · obtain ⟨rfl, rfl⟩ := same
      simp [latest]
    · unfold flagged at waits
      rw [entryOf_markDeleted_of_ne same] at waits
      rw [latest_deleted_of_ne (pair_ne same)]
      exact invariant.deletedLast other otherQid waits
  · intro other otherQid waits
    rw [markDeleted_scheduled]
    cases known : (entryOf state.poisoned bdf qid).any PoisonedQid.created with
    | true => exact Or.inr (Or.inl (by simp))
    | false =>
      -- the handler found nothing to flag, so the queue was flagged before
      have before : flagged state.poisoned other otherQid = true := by
        unfold flagged at waits ⊢
        by_cases same : other = bdf ∧ otherQid = qid
        · obtain ⟨rfl, rfl⟩ := same
          rw [entryOf_markDeleted_self] at waits
          cases found : entryOf state.poisoned other otherQid with
          | none => exact absurd waits (by simp [found])
          | some entry =>
            rw [found, Option.any_some] at known
            simpa [found, known] using waits
        · rwa [entryOf_markDeleted_of_ne same] at waits
      simpa [Scheduled] using invariant.scheduled other otherQid before
  · intro other otherQid seen
    have old : .created (other, otherQid) ∈ state.history := by simpa using seen
    rcases invariant.taken other otherQid old with selected | ⟨entry, found, taken, waits⟩
    · exact Or.inl (List.mem_cons_of_mem _ selected)
    · right
      by_cases same : other = bdf ∧ otherQid = qid
      · obtain ⟨rfl, rfl⟩ := same
        rw [entryOf_markDeleted_self, found]
        exact ⟨_, rfl, taken, fun _ => by simp [taken]⟩
      · rw [entryOf_markDeleted_of_ne same]
        refine ⟨entry, found, taken, fun deleted => waits ?_⟩
        rcases List.mem_cons.mp deleted with now | before
        · exact absurd now (by simpa using (pair_ne same).symm)
        · exact before

theorem Invariant.workSelect : ({ state with
      poisoned := select memory state.poisoned
      worker := if cloneOom memory state.poisoned then .retrying else .processing
      history := selections memory state.poisoned ++ state.history } :
      Resurrection).Invariant := by
  have selected : ∀ event ∈ selections memory state.poisoned, ∃ queue, event = .selected queue :=
    fun event member => exists_of_mem_selections member
  have kept : ∀ bdf qid, flagged (select memory state.poisoned) bdf qid = true →
      flagged state.poisoned bdf qid = true := by
    intro bdf qid waits
    rw [flagged_select, Bool.and_eq_true] at waits
    exact waits.1
  refine ⟨select_keyed invariant.keyed, ?_, ?_, ?_, ?_⟩
  · refine invariant.justified.append selected ?_
    intro queue member
    exact invariant.deletedLast queue.1 queue.2 ((mem_selections invariant.keyed).mp member).1
  · intro bdf qid waits
    rw [latest_append_of_selected selected]
    exact invariant.deletedLast bdf qid (kept bdf qid waits)
  · intro bdf qid waits
    rw [cloneOom_of_flagged invariant.keyed waits]
    exact Or.inr (Or.inr (Or.inr rfl))
  · intro bdf qid seen
    have old : .created (bdf, qid) ∈ state.history := by
      rcases List.mem_append.mp seen with now | before
      · obtain ⟨queue, impossible⟩ := selected _ now
        exact absurd impossible (by simp)
      · exact before
    rw [sinceCreated_append_of_selected selected]
    rcases invariant.taken bdf qid old with earlier | ⟨entry, found, taken, waits⟩
    · exact Or.inl (List.mem_append_right _ earlier)
    · by_cases now : flagged state.poisoned bdf qid = true ∧ memory bdf qid = true
      · exact Or.inl (List.mem_append_left _ ((mem_selections invariant.keyed).mpr now))
      · right
        have skipped : (entry.needsResurrect && memory bdf qid) = false := by
          simpa [flagged, found] using now
        rw [entryOf_select, found, Option.map_some, skipped]
        refine ⟨entry, rfl, taken, fun deleted => waits ?_⟩
        rcases List.mem_append.mp deleted with impossible | before
        · obtain ⟨queue, same⟩ := selected _ impossible
          exact absurd same (by simp)
        · exact before

theorem Invariant.reschedule {scheduling : Nat} {pending : Bool} {worker : WorkStage}
    (kept : state.Scheduled →
      ({ state with scheduling := scheduling, pending := pending, worker := worker } :
        Resurrection).Scheduled) :
    ({ state with scheduling := scheduling, pending := pending, worker := worker } :
      Resurrection).Invariant where
  __ := invariant
  scheduled := fun bdf qid waits => kept (invariant.scheduled bdf qid waits)

theorem Invariant.step {label : ResurrectionLabel} (unflagged : state.Unflagged label)
    (move : state.step label = some next) :
    next.Invariant := by
  cases label with
  | created bdf qid available =>
    cases move
    exact invariant.created unflagged.1 unflagged.2
  | deleted bdf qid =>
    cases move
    exact invariant.deleted
  | schedule =>
    obtain ⟨-, ⟨⟩⟩ := Option.ite_none_right_eq_some.mp move
    exact invariant.reschedule fun _ => Or.inl rfl
  | workStart =>
    obtain ⟨-, ⟨⟩⟩ := Option.ite_none_right_eq_some.mp move
    exact invariant.reschedule fun _ => Or.inr (Or.inr (Or.inl rfl))
  | workSelect memory =>
    obtain ⟨-, ⟨⟩⟩ := Option.ite_none_right_eq_some.mp move
    exact invariant.workSelect
  | workRetry =>
    obtain ⟨-, ⟨⟩⟩ := Option.ite_none_right_eq_some.mp move
    exact invariant.reschedule fun _ => Or.inl rfl
  | workDone =>
    obtain ⟨done, ⟨⟩⟩ := Option.ite_none_right_eq_some.mp move
    refine invariant.reschedule fun scheduled => ?_
    rcases scheduled with pending | scheduling | selecting | retrying
    · exact Or.inl pending
    · exact Or.inr (Or.inl scheduling)
    · exact absurd (done.symm.trans selecting) (by simp)
    · exact absurd (done.symm.trans retrying) (by simp)

theorem Invariant.served : state.Served := by
  rintro later ⟨bdf, qid⟩ earlier split taken
  by_cases superseded : .created (bdf, qid) ∈ later
  · exact Or.inr (Or.inr superseded)
  · have since : .deleted (bdf, qid) ∈ sinceCreated (bdf, qid) state.history := by
      unfold sinceCreated
      rw [split, List.takeWhile_append_of_pos]
      · exact List.mem_append_right _ (by simp)
      · intro event member
        rw [bne_iff_ne]
        rintro rfl
        exact superseded member
    have seen : .created (bdf, qid) ∈ state.history := by
      rw [split]
      exact List.mem_append_right _ (List.mem_cons_of_mem _ taken)
    rcases invariant.taken bdf qid seen with selected | ⟨entry, found, -, waits⟩
    · exact Or.inr (Or.inl selected)
    · have flag : flagged state.poisoned bdf qid = true := by
        unfold flagged
        rw [found]
        exact waits since
      exact Or.inl ⟨flag, invariant.scheduled bdf qid flag⟩

end

/-- If no queue is taken over while it waits for the work item, every selection follows a DELETE_CQ
that was not superseded, and no DELETE_CQ is lost. -/
theorem resurrect_justified_served {labels : List ResurrectionLabel}
    (unflagged : EveryStep step Unflagged init labels)
    (reaches : run step init labels = some state) :
    Justified state.history ∧ state.Served := by
  have invariant : state.Invariant := run_invariant_of_everyStep (motive := Invariant)
      (fun _ _ _ holds guarded move => holds.step guarded move) init_invariant unflagged reaches
  exact ⟨invariant.justified, invariant.served⟩

end

/-! ### Runs -/

/-- A queue is taken over, deleted, given back after a failed attempt, and taken over again. -/
def retriedThenCreated : List ResurrectionLabel :=
  [.created 256 5 true, .deleted 256 5, .schedule, .workStart, .workSelect (fun _ _ => false),
    .workRetry, .workDone, .workStart, .workSelect (fun _ _ => true), .workDone,
    .created 256 5 true]

theorem resurrect_justified_served_retried : ∃ state,
    run step init retriedThenCreated = some state ∧
    state.history = [.created (256, 5), .selected (256, 5), .deleted (256, 5),
      .created (256, 5)] ∧
    Justified state.history ∧ state.Served := by
  refine ⟨_, rfl, rfl, ?_⟩
  exact resurrect_justified_served
    (show EveryStep step Unflagged init retriedThenCreated by decide) rfl

def createdWhileFlagged : List ResurrectionLabel :=
  [.created 256 5 true, .deleted 256 5, .schedule, .created 256 5 true, .workStart,
    .workSelect fun _ _ => true]

theorem resurrect_selects_created : ∃ state,
    run step init createdWhileFlagged = some state ∧
    state.history = [.selected (256, 5), .created (256, 5), .deleted (256, 5),
      .created (256, 5)] ∧
    ¬ Justified state.history := by
  refine ⟨_, rfl, rfl, ?_⟩
  rintro ⟨impossible, -⟩
  exact absurd impossible (by decide)

end Resurrection

end RocmXio.Kmod
