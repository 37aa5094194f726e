/-
Snapshots of the kernel's NVMe queues.

Two return probes read a queue that the kernel driver has just set up. They run in atomic context,
so each puts what it read at the head of a list and schedules a work item. The work function takes
the list over and, from the head on, stores the snapshot of each entry whose PCI device it finds
over the one already there. Of several captures of one queue that wait together, the oldest is
therefore stored last and stays.
-/

import RocmXio.Kmod.Resurrect

namespace RocmXio.Kmod

open Lib

/-! ### Captures -/

/-- What the handlers read of `struct nvme_queue`. -/
structure NvmeqLayout where
  dev : Nat
  sqDmaAddr : Nat
  cqDmaAddr : Nat
  qDepth : Nat
  cqVector : Nat
  polled : Bool
deriving DecidableEq, Repr

/-- `struct pending_snapshot_entry`. -/
structure PendingSnapshot where
  nvmeDev : Nat
  qid : Nat
  sqDmaAddr : Nat
  cqDmaAddr : Nat
  qDepth : Nat
  cqVector : Nat
  polled : Bool
  adminQ : Option Nat
deriving DecidableEq, Repr

/-- A return of `nvme_alloc_queue`: its result, what the entry handler noted, the array
`dev->queues`, the admin queue if its offset is known, and whether there is memory. -/
structure AllocQueueReturn where
  retval : Int
  nvmeDev : Option Nat
  qid : Int
  queues : Option (Nat → NvmeqLayout)
  adminQ : Option Nat
  memory : Bool

/-- A return of `nvme_create_queue`. -/
structure CreateQueueReturn where
  retval : Int
  nvmeq : Option NvmeqLayout
  qid : Int
  adminQ : Option Nat
  memory : Bool

/-- The fields of a queue as both handlers copy them; `qid` is cut to 16 bits. -/
def NvmeqLayout.pend (nvmeq : NvmeqLayout) (nvmeDev : Nat) (qid : Int) (adminQ : Option Nat) :
    PendingSnapshot where
  nvmeDev := nvmeDev
  qid := qid.toNat % 2 ^ 16
  sqDmaAddr := nvmeq.sqDmaAddr
  cqDmaAddr := nvmeq.cqDmaAddr
  qDepth := nvmeq.qDepth
  cqVector := nvmeq.cqVector
  polled := nvmeq.polled
  adminQ := adminQ

/-- `nvme_alloc_queue_ret_handler`: the entry that it adds, if it adds one. -/
def nvmeAllocQueueRetHandler (ret : AllocQueueReturn) : Option PendingSnapshot :=
  if ret.retval ≠ 0 then none
  else
    match ret.nvmeDev with
    | none => none
    | some nvmeDev =>
      if ret.qid < 0 then none
      else
        match ret.queues with
        | none => none
        | some queues =>
          if ret.memory then
            some ((queues ret.qid.toNat).pend nvmeDev ret.qid ret.adminQ)
          else none

/-- `nvme_create_queue_ret_handler`: the entry that it adds, if it adds one. -/
def nvmeCreateQueueRetHandler (ret : CreateQueueReturn) : Option PendingSnapshot :=
  if ret.retval ≠ 0 then none
  else
    match ret.nvmeq with
    | none => none
    | some nvmeq =>
      if ret.qid < 0 then none
      else if ret.memory then some (nvmeq.pend nvmeq.dev ret.qid ret.adminQ)
      else none

/-! ### The store -/

/-- `struct nvme_queue_snapshot`. -/
structure StoredSnapshot extends QueueSnapshot where
  dev : Nat
deriving DecidableEq, Repr

namespace StoredSnapshot

def isFor (pdev : PciAddr) (qid : Nat) (snapshot : StoredSnapshot) : Bool :=
  snapshot.pdev == pdev && snapshot.qid == qid

def ofPending (pdev : PciAddr) (entry : PendingSnapshot) : StoredSnapshot where
  pdev := pdev
  qid := entry.qid
  sqDmaAddr := entry.sqDmaAddr
  cqDmaAddr := entry.cqDmaAddr
  qDepth := entry.qDepth
  cqVector := entry.cqVector
  polled := entry.polled
  adminQ := entry.adminQ
  dev := entry.nvmeDev

def overwrite (entry : PendingSnapshot) (existing : StoredSnapshot) : StoredSnapshot :=
  { existing with
    sqDmaAddr := entry.sqDmaAddr
    cqDmaAddr := entry.cqDmaAddr
    qDepth := entry.qDepth
    cqVector := entry.cqVector
    polled := entry.polled
    adminQ := entry.adminQ
    dev := entry.nvmeDev }

/-- `nvme_queue_snapshot_store`: the first snapshot for the device and queue id gets the new values,
or else a new one goes to the head. -/
def store (snapshots : List StoredSnapshot) (pdev : PciAddr) (entry : PendingSnapshot)
    (memory : Bool) : List StoredSnapshot :=
  if memory then
    if snapshots.any (isFor pdev entry.qid) then
      updateFirst (isFor pdev entry.qid) (overwrite entry) snapshots
    else ofPending pdev entry :: snapshots
  else snapshots

def lookup (snapshots : List StoredSnapshot) (pdev : PciAddr) (qid : Nat) :
    Option StoredSnapshot :=
  snapshots.find? (isFor pdev qid)

end StoredSnapshot

/-! ### Handlers and work item together -/

/-- What the bus walk looks at: a PCI function, whether it has a driver, and its driver data. -/
structure PciFunction where
  pdev : PciAddr
  driver : Bool
  drvdata : Nat
deriving DecidableEq, Repr

def resolve (bus : List PciFunction) (nvmeDev : Nat) : Option PciAddr :=
  (bus.find? fun function => function.driver && function.drvdata == nvmeDev).map PciFunction.pdev

/-- The lists `pending_snapshots`, `nvme_queue_snapshots` and `local` of the work function, and all
captures, newest first. -/
structure Snapshots where
  pending : List PendingSnapshot
  draining : Option (List PendingSnapshot)
  snapshots : List StoredSnapshot
  captured : List PendingSnapshot

/-- A return probe runs, or the work function takes the list over, stores its next entry or
returns. -/
inductive SnapshotLabel where
  | allocReturn (ret : AllocQueueReturn)
  | createReturn (ret : CreateQueueReturn)
  | splice
  | store (memory : Bool)
  | finish

namespace Snapshots

def init : Snapshots where
  pending := []
  draining := none
  snapshots := []
  captured := []

/-- `list_add` of what a handler adds. -/
def capture (state : Snapshots) : Option PendingSnapshot → Snapshots
  | none => state
  | some entry =>
    { state with pending := entry :: state.pending, captured := entry :: state.captured }

variable (bus : List PciFunction)

/-- One step. The workqueue does not run the work function twice at the same time. -/
def step (state : Snapshots) : SnapshotLabel → Option Snapshots
  | .allocReturn ret => some (state.capture (nvmeAllocQueueRetHandler ret))
  | .createReturn ret => some (state.capture (nvmeCreateQueueRetHandler ret))
  | .splice =>
    match state.draining with
    | none => some { state with pending := [], draining := some state.pending }
    | some _ => none
  | .store memory =>
    match state.draining with
    | some (entry :: rest) =>
      some { state with
        draining := some rest
        snapshots :=
          match resolve bus entry.nvmeDev with
          | none => state.snapshots
          | some pdev => StoredSnapshot.store state.snapshots pdev entry memory }
    | some [] | none => none
  | .finish =>
    match state.draining with
    | some [] => some { state with draining := none }
    | some (_ :: _) | none => none

/-! ### What ought to be looked up -/

def captures (pdev : PciAddr) (qid : Nat) (entry : PendingSnapshot) : Bool :=
  resolve bus entry.nvmeDev == some pdev && entry.qid == qid

def newest (pdev : PciAddr) (qid : Nat) (entries : List PendingSnapshot) : Option StoredSnapshot :=
  (entries.find? (captures bus pdev qid)).map (StoredSnapshot.ofPending pdev)

def oldest (pdev : PciAddr) (qid : Nat) (entries : List PendingSnapshot) : Option StoredSnapshot :=
  newest bus pdev qid entries.reverse

def Current (state : Snapshots) : Prop :=
  ∀ pdev qid, StoredSnapshot.lookup state.snapshots pdev qid = newest bus pdev qid state.captured

def Succeeds (state : Snapshots) : SnapshotLabel → Prop
  | .store memory => memory = true ∧ ∀ entry rest, state.draining = some (entry :: rest) →
      resolve bus entry.nvmeDev ≠ none
  | .allocReturn _ | .createReturn _ | .splice | .finish => True

/-- When the work function takes the list over, the oldest and the newest waiting capture of a queue
agree. -/
def Agreeing (state : Snapshots) : SnapshotLabel → Prop
  | .splice => ∀ pdev qid, newest bus pdev qid state.pending = oldest bus pdev qid state.pending
  | .allocReturn _ | .createReturn _ | .store _ | .finish => True

section

variable {bus : List PciFunction} {state next : Snapshots} {pdev other : PciAddr} {qid : Nat}
  {entry : PendingSnapshot} {entries : List PendingSnapshot} {snapshots : List StoredSnapshot}

theorem captures_iff : captures bus pdev qid entry = true ↔
    resolve bus entry.nvmeDev = some pdev ∧ entry.qid = qid := by
  rw [captures, Bool.and_eq_true, beq_iff_eq, beq_iff_eq]

theorem isFor_iff {snapshot : StoredSnapshot} :
    StoredSnapshot.isFor pdev qid snapshot = true ↔ snapshot.pdev = pdev ∧ snapshot.qid = qid := by
  rw [StoredSnapshot.isFor, Bool.and_eq_true, beq_iff_eq, beq_iff_eq]

theorem isFor_overwrite (snapshot : StoredSnapshot) :
    StoredSnapshot.isFor pdev qid (StoredSnapshot.overwrite entry snapshot) =
      StoredSnapshot.isFor pdev qid snapshot := rfl

theorem lookup_store_self :
    StoredSnapshot.lookup (StoredSnapshot.store snapshots pdev entry true) pdev entry.qid =
      some (.ofPending pdev entry) := by
  unfold StoredSnapshot.lookup StoredSnapshot.store
  rw [if_pos rfl]
  split_ifs with known
  · rw [find?_updateFirst isFor_overwrite]
    obtain ⟨existing, found⟩ := Option.isSome_iff_exists.mp
      ((List.find?_isSome).mpr (List.any_eq_true.mp known))
    obtain ⟨samePdev, sameQid⟩ := isFor_iff.mp (List.find?_some found)
    rw [found, Option.map_some]
    subst samePdev
    rw [StoredSnapshot.overwrite, StoredSnapshot.ofPending, sameQid]
  · exact List.find?_cons_of_pos (isFor_iff.mpr ⟨rfl, rfl⟩)

theorem lookup_store_of_ne (apart : ¬ (pdev = other ∧ entry.qid = qid)) :
    StoredSnapshot.lookup (StoredSnapshot.store snapshots pdev entry true) other qid =
      StoredSnapshot.lookup snapshots other qid := by
  have misses : ∀ snapshot, StoredSnapshot.isFor pdev entry.qid snapshot = true →
      StoredSnapshot.isFor other qid snapshot = false := by
    intro snapshot hit
    obtain ⟨samePdev, sameQid⟩ := isFor_iff.mp hit
    refine Bool.eq_false_iff.mpr fun both => apart ?_
    obtain ⟨otherPdev, otherQid⟩ := isFor_iff.mp both
    exact ⟨samePdev.symm.trans otherPdev, sameQid.symm.trans otherQid⟩
  unfold StoredSnapshot.lookup StoredSnapshot.store
  rw [if_pos rfl]
  split_ifs
  · exact find?_updateFirst_of_disjoint isFor_overwrite misses
  · refine List.find?_cons_of_neg ?_
    rw [misses _ (isFor_iff.mpr ⟨rfl, rfl⟩)]
    exact Bool.false_ne_true

theorem oldest_cons : oldest bus pdev qid (entry :: entries) =
    (oldest bus pdev qid entries).or (newest bus pdev qid [entry]) := by
  rw [oldest, oldest, newest, newest, newest, List.reverse_cons, List.find?_append]
  cases entries.reverse.find? (captures bus pdev qid) <;> rfl

theorem newest_singleton_of_captures (hit : captures bus pdev qid entry = true) :
    newest bus pdev qid [entry] = some (.ofPending pdev entry) := by
  rw [newest, List.find?_cons_of_pos hit, Option.map_some]

theorem newest_singleton_of_not (miss : captures bus pdev qid entry ≠ true) :
    newest bus pdev qid [entry] = none := by
  rw [newest, List.find?_cons_of_neg miss, List.find?_nil, Option.map_none]

theorem newest_cons (bus : List PciFunction) (pdev : PciAddr) (qid : Nat)
    (entry : PendingSnapshot) (entries : List PendingSnapshot) :
    newest bus pdev qid (entry :: entries) =
      (newest bus pdev qid [entry]).or (newest bus pdev qid entries) := by
  by_cases hit : captures bus pdev qid entry = true
  · rw [newest_singleton_of_captures hit, newest, List.find?_cons_of_pos hit]
    rfl
  · rw [newest_singleton_of_not hit, newest, List.find?_cons_of_neg hit]
    rfl

/-! ### Runs -/

/-- The most recent capture of a queue waits, or is the last one to be stored by the work
function, or is stored. -/
def Tracked (bus : List PciFunction) (state : Snapshots) : Prop :=
  ∀ pdev qid, newest bus pdev qid state.captured = (newest bus pdev qid state.pending).or
      ((oldest bus pdev qid (state.draining.getD [])).or
        (StoredSnapshot.lookup state.snapshots pdev qid))

theorem Tracked.capture (tracked : state.Tracked bus) (added : Option PendingSnapshot) :
    (state.capture added).Tracked bus := by
  cases added with
  | none => exact tracked
  | some entry =>
    intro pdev qid
    show newest bus pdev qid (entry :: state.captured) =
      (newest bus pdev qid (entry :: state.pending)).or _
    rw [newest_cons bus pdev qid entry state.captured,
      newest_cons bus pdev qid entry state.pending, tracked pdev qid, Option.or_assoc]
    rfl

theorem Tracked.store {rest : List PendingSnapshot} (tracked : state.Tracked bus)
    (draining : state.draining = some (entry :: rest))
    (resolved : resolve bus entry.nvmeDev = some pdev) :
    Tracked bus { state with
      draining := some rest
      snapshots := StoredSnapshot.store state.snapshots pdev entry true } := by
  intro other qid
  have before := tracked other qid
  rw [draining, Option.getD_some, oldest_cons, Option.or_assoc] at before
  rw [before]
  congr 2
  by_cases hit : captures bus other qid entry = true
  · obtain ⟨same, rfl⟩ := captures_iff.mp hit
    obtain rfl := Option.some.inj (resolved.symm.trans same)
    rw [newest_singleton_of_captures hit, Option.some_or]
    exact lookup_store_self.symm
  · have apart : ¬ (pdev = other ∧ entry.qid = qid) :=
      fun both => hit (captures_iff.mpr ⟨both.1 ▸ resolved, both.2⟩)
    rw [newest_singleton_of_not hit, Option.none_or]
    exact (lookup_store_of_ne apart).symm

theorem Tracked.step {label : SnapshotLabel} (tracked : state.Tracked bus)
    (succeeds : state.Succeeds bus label) (agreeing : state.Agreeing bus label)
    (move : state.step bus label = some next) : next.Tracked bus := by
  cases label with
  | allocReturn ret =>
    cases move
    exact tracked.capture _
  | createReturn ret =>
    cases move
    exact tracked.capture _
  | splice =>
    simp only [Snapshots.step] at move
    split at move
    case h_1 idle =>
      cases move
      intro pdev qid
      have before := tracked pdev qid
      rw [idle, Option.getD_none, agreeing pdev qid] at before
      exact before
    case h_2 => cases move
  | store memory =>
    obtain ⟨rfl, resolves⟩ := succeeds
    simp only [Snapshots.step] at move
    split at move
    case h_1 entry rest draining =>
      obtain ⟨pdev, resolved⟩ := Option.ne_none_iff_exists'.mp (resolves entry rest draining)
      rw [resolved] at move
      cases move
      exact tracked.store draining resolved
    all_goals cases move
  | finish =>
    simp only [Snapshots.step] at move
    split at move
    case h_1 drained =>
      cases move
      intro pdev qid
      have before := tracked pdev qid
      rw [drained] at before
      exact before
    all_goals cases move

/-- If the work function finds memory and devices, and the oldest and the newest capture of a queue
agree whenever it takes the list over, every drain that leaves no capture waiting leaves the most
recent capture of every queue to be looked up. -/
theorem snapshots_current {labels : List SnapshotLabel}
    (guarded : EveryStep (step bus)
      (fun state label => state.Succeeds bus label ∧ state.Agreeing bus label) init labels)
    (reaches : run (step bus) init labels = some state)
    (drained : state.draining = none) (empty : state.pending = []) : state.Current bus := by
  have tracked : state.Tracked bus := run_invariant_of_everyStep (motive := Tracked bus)
      (fun _ _ _ tracked guard move => tracked.step guard.1 guard.2 move) (fun _ _ => rfl)
      guarded reaches
  intro pdev qid
  rw [tracked pdev qid, drained, empty]
  rfl

end

/-! ### One queue, captured twice -/

def oneController : List PciFunction := [⟨⟨0, 1, 0⟩, true, 77⟩]

def allocated : AllocQueueReturn where
  retval := 0
  nvmeDev := some 77
  qid := 1
  queues := some fun _ => ⟨77, 4096, 8192, 64, 0, false⟩
  adminQ := some 5
  memory := true

def created : CreateQueueReturn where
  retval := 0
  nvmeq := some ⟨77, 4096, 8192, 64, 3, false⟩
  qid := 1
  adminQ := some 5
  memory := true

def withVector (cqVector : Nat) : StoredSnapshot :=
  ⟨⟨⟨0, 1, 0⟩, 1, 4096, 8192, 64, cqVector, false, some 5⟩, 77⟩

def drainedBetween : List SnapshotLabel :=
  [.allocReturn allocated, .splice, .store true, .finish, .createReturn created, .splice,
    .store true, .finish]

theorem snapshots_current_drainedBetween :
    ∃ state, run (step oneController) init drainedBetween = some state ∧
      StoredSnapshot.lookup state.snapshots ⟨0, 1, 0⟩ 1 = some (withVector 3) ∧
      state.Current oneController := by
  have guarded : EveryStep (step oneController)
      (fun state label => state.Succeeds oneController label ∧ state.Agreeing oneController label)
      init drainedBetween := by
    have resolves : resolve oneController 77 ≠ none := by decide
    refine ⟨⟨trivial, trivial⟩, ⟨trivial, fun _ _ => rfl⟩, ⟨⟨rfl, ?_⟩, trivial⟩,
      ⟨trivial, trivial⟩, ⟨trivial, trivial⟩, ⟨trivial, fun _ _ => rfl⟩, ⟨⟨rfl, ?_⟩, trivial⟩,
      ⟨trivial, trivial⟩, trivial⟩
    · rintro entry rest ⟨⟩
      exact resolves
    · rintro entry rest ⟨⟩
      exact resolves
  exact ⟨_, rfl, rfl, snapshots_current guarded rfl rfl rfl⟩

/-- When the queue is allocated and created before the work function runs, the snapshot without
the vector stays. -/
theorem snapshots_stale :
    ∃ state, run (step oneController) init [.allocReturn allocated, .createReturn created,
        .splice, .store true, .store true, .finish] = some state ∧
      state.draining = none ∧ state.pending = [] ∧
      newest oneController ⟨0, 1, 0⟩ 1 state.captured = some (withVector 3) ∧
      StoredSnapshot.lookup state.snapshots ⟨0, 1, 0⟩ 1 = some (withVector 0) ∧
      ¬ state.Current oneController := by
  refine ⟨_, rfl, rfl, rfl, by decide, by decide, fun current => ?_⟩
  exact absurd (current ⟨0, 1, 0⟩ 1) (by decide)

end Snapshots

end RocmXio.Kmod
