/-
The buffer slots of the fio engine.

The slot of a work item is the head of the `io_u` ring, which runs through all 63 places whatever
the iodepth is, while `rxio_setup` allocates `min(iodepth, 63)` slots. Outstanding operations have
different slots. All slots are inside the allocation as long as no more operations were accepted
than it has slots, and beyond that only if it has 63.
-/

import RocmXio.Fio.Invariant

namespace RocmXio.Fio

open Lib Nvme

namespace Engine

/-- Every posted work item names a slot with a PRP list and buffer space, and outstanding ones
differ. -/
def SlotsSound (engine : Engine) : Prop :=
  (∀ entry ∈ engine.queued, entry.2.slot < engine.job.batchCap ∧
    entry.2.slot * singleBufSize engine.job.singleSize + singleBufSize engine.job.singleSize ≤
      engine.job.bufSize) ∧
  ((engine.queued.drop engine.reaped.length).map fun entry => entry.2.slot).Nodup

/-! ### Slots of outstanding operations -/

section

variable {engine : Engine} (invariant : engine.Invariant)

include invariant

theorem Invariant.slot_eq {operation : Nat} (inQueue : operation < engine.queued.length) :
    engine.queued[operation].2.slot = operation % rxioRing :=
  (invariant.items operation _ (List.getElem?_eq_getElem inQueue)).1

/-- Outstanding operations are fewer than the places of the `io_u` ring, so their slots
differ. -/
theorem Invariant.slots_nodup :
    ((engine.queued.drop engine.reaped.length).map fun entry => entry.2.slot).Nodup := by
  have window := invariant.window
  rw [List.Nodup, List.pairwise_map, List.pairwise_iff_getElem]
  intro first second firstInside secondInside ordered sameSlot
  rw [List.length_drop] at firstInside secondInside
  rw [List.getElem_drop, List.getElem_drop, invariant.slot_eq (by omega),
    invariant.slot_eq (by omega)] at sameSlot
  have same := eq_of_mod_eq_of_window sameSlot (by omega) (by rw [rxioRing_eq]; omega)
  omega

/-! ### Slots and the allocation -/

/-- The slots run through the places of the `io_u` ring, so all of them are allocated exactly when
there are 63 or the operations do not reach the end of the allocation. -/
theorem Invariant.slots_lt_iff :
    (∀ entry ∈ engine.queued, entry.2.slot < engine.job.batchCap) ↔
      engine.job.batchCap = 63 ∨ engine.queued.length ≤ engine.job.batchCap := by
  have capped : engine.job.batchCap ≤ 63 := engine.job.cappedIodepth_le
  constructor
  · intro inside
    by_contra neither
    have more : engine.job.batchCap < engine.queued.length := by omega
    have slot := inside _ (List.getElem_mem more)
    rw [invariant.slot_eq more, rxioRing_eq] at slot
    omega
  · intro enough entry member
    obtain ⟨operation, inQueue, rfl⟩ := List.getElem_of_mem member
    rw [invariant.slot_eq inQueue, rxioRing_eq]
    omega

theorem Invariant.slotsSound_iff
    (representable : engine.job.singleSize * engine.job.cappedIodepth < 2 ^ 64) :
    engine.SlotsSound ↔
      engine.job.batchCap = 63 ∨ engine.queued.length ≤ engine.job.batchCap := by
  rw [← invariant.slots_lt_iff]
  refine ⟨fun sound entry member => (sound.1 entry member).1, fun inside =>
    ⟨fun entry member => ⟨inside entry member, ?_⟩, invariant.slots_nodup⟩⟩
  have same : singleBufSize engine.job.singleSize = engine.job.singleSize :=
    pageRound_pageRound _
  rw [same, Job.bufSize, Nat.mod_eq_of_lt representable, ← Nat.succ_mul, Nat.mul_comm]
  exact Nat.mul_le_mul_left _ (inside entry member)

end

theorem run_job {job : Job} {labels : List Label} {engine : Engine}
    (reaches : run step (openFile job) labels = some engine) : engine.job = job := by
  refine run_invariant (motive := fun engine => engine.job = job)
    (fun engine label next same move => ?_) rfl reaches
  cases step_transition move with
  | _ => exact same

/-- In every run the slots have buffer space and a PRP list, and outstanding slots differ, exactly
if there are 63 slots or no more operations were accepted than there are slots. -/
theorem fio_slotsSound_iff (job : Job) (representable : job.singleSize * job.cappedIodepth < 2 ^ 64)
    (labels : List Label) (engine : Engine)
    (reaches : run step (openFile job) labels = some engine) :
    engine.SlotsSound ↔ job.batchCap = 63 ∨ engine.queued.length ≤ job.batchCap := by
  have invariant := run_engine_invariant reaches
  obtain rfl : engine.job = job := run_job reaches
  exact invariant.slotsSound_iff representable

def shallowJob : Job where
  iodepth := 1
  maxBsRead := 4096
  maxBsWrite := 4096
  lbaSize := 512
  queueDepth := 64

/-- Queue one read, let the kernel and the controller finish it, and reap it. -/
def oneRound (tag : Nat) : List Label :=
  [.queue ⟨tag, .read, 0, 4096⟩, .gpu, .gpu, .controller .fetch, .controller (.post 0 0), .gpu,
    .getevents 1 1, .cpu false, .cpu false, .cpu false]

theorem fio_slotsSound_oneRound :
    ∃ engine, run step (openFile shallowJob) (oneRound 0) = some engine ∧
      engine.returned.length = 1 ∧ engine.SlotsSound :=
  ⟨_, rfl, rfl, (fio_slotsSound_iff shallowJob (by decide) (oneRound 0) _ rfl).mpr (by decide)⟩

/-- With an iodepth of one the second operation is posted with slot one, outside the one
slot that was allocated. -/
theorem fio_slot_outside : ∃ labels engine, run step (openFile shallowJob) labels = some engine ∧
    ¬ engine.SlotsSound := by
  refine ⟨oneRound 0 ++ [.queue ⟨1, .read, 0, 4096⟩], _, rfl, fun sound => ?_⟩
  have second := (sound.1 _ (List.mem_cons_of_mem _ List.mem_cons_self)).1
  exact absurd second (by decide)

end Engine

end RocmXio.Fio
