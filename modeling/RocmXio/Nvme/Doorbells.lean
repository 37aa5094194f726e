/-
Where the doorbells of a lane are.

The doorbells of queue `qid` are at `0x1000 + 8 * qid` in BAR0 and four bytes above; the mapping
that `run` and the fio engine make has 8192 bytes. Different lanes have different doorbells, but
only those of the queues up to 511 are inside the mapping, and nothing bounds the queue id by it.
-/

import RocmXio.Nvme.Lanes

namespace RocmXio.Nvme

/-! ### The source -/

def doorbellBase : UInt32 := 0x1000

def doorBellStride : UInt32 := 4

/-- The size that both callers of `mapPciBar` ask for. -/
def bar0MapSize : Nat := 8192

/-- `qDoorbell` of `run`. -/
def runDoorbell (queueId : UInt16) : UInt32 :=
  doorbellBase + 2 * queueId.toUInt32 * doorBellStride

/-- `doorbellOffset` of `rxio_setup`. -/
def engineDoorbell (queueId : UInt16) : UInt32 :=
  doorbellBase + queueId.toUInt32 * 2 * doorBellStride

/-- The queue id of `rxio_setup`: that of the job file, or one counted down from the maximum by the
index of the job; none is an error. -/
def engineQueueId (host : Host) (controller : String) (queueId : UInt16) (jobIndex : Int) :
    Option UInt16 :=
  if queueId ≠ 0 then some queueId
  else
    match host.queryMaxQueueId controller with
    | none => none
    | some maxQueueId =>
      let index := UInt16.ofInt (max 0 jobIndex)
      if maxQueueId ≤ index then none else some (maxQueueId - index)

/-! ### Lanes with their mapping -/

structure DoorbellLane where
  controller : String
  queueId : UInt16
  nvmeBar0Gpu : Nat
  doorbellOffset : UInt32

namespace DoorbellLane

/-- The lanes that are set up with a mapping of BAR0, wherever it lies. -/
inductive SetUp (host : Host) : DoorbellLane → Prop
  | byRun (config : NvmeEpConfig) (lanes : List QueueLane) (lane : QueueLane) (bar0 : Nat)
      (accepted : config.lanes host = some lanes) (member : lane ∈ lanes)
      (direct : config.usePciMmioBridge = false) :
      SetUp host ⟨lane.target.controller, lane.queueId, bar0, runDoorbell lane.queueId⟩
  | byEngine (controller : String) (option queueId : UInt16) (jobIndex : Int) (bar0 : Nat)
      (accepted : engineQueueId host controller option jobIndex = some queueId) :
      SetUp host ⟨controller, queueId, bar0, engineDoorbell queueId⟩

def sqDoorbell (lane : DoorbellLane) : Nat := lane.nvmeBar0Gpu + lane.doorbellOffset.toNat

def cqDoorbell (lane : DoorbellLane) : Nat := lane.sqDoorbell + doorBellStride.toNat

def Owns (lane : DoorbellLane) (address : Nat) : Prop :=
  (lane.sqDoorbell ≤ address ∧ address < lane.sqDoorbell + doorBellStride.toNat) ∨
    (lane.cqDoorbell ≤ address ∧ address < lane.cqDoorbell + doorBellStride.toNat)

def Mapped (lane : DoorbellLane) (address : Nat) : Prop :=
  lane.nvmeBar0Gpu ≤ address ∧ address < lane.nvmeBar0Gpu + bar0MapSize

end DoorbellLane

/-- Lanes share a mapping or have disjoint ones, and share one on one controller only. -/
def DisjointMappings (lanes : List DoorbellLane) : Prop :=
  ∀ first ∈ lanes, ∀ second ∈ lanes,
    (first.controller = second.controller ∧ first.nvmeBar0Gpu = second.nvmeBar0Gpu) ∨
      ∀ address, first.Mapped address → ¬second.Mapped address

/-- The doorbells of every lane are mapped, and lanes of different queues have different
doorbells. -/
structure SoundDoorbells (lanes : List DoorbellLane) : Prop where
  mapped : ∀ lane ∈ lanes, ∀ address, lane.Owns address → lane.Mapped address
  distinct : ∀ first ∈ lanes, ∀ second ∈ lanes,
    (first.controller, first.queueId) ≠ (second.controller, second.queueId) →
      ∀ address, first.Owns address → ¬second.Owns address

/-! ### Where they lie -/

variable (queueId : UInt16)

theorem runDoorbell_toNat : (runDoorbell queueId).toNat = 0x1000 + 8 * queueId.toNat := by
  have small := queueId.toNat_lt
  simp only [runDoorbell, doorbellBase, doorBellStride, UInt32.toNat_add, UInt32.toNat_mul,
    UInt16.toNat_toUInt32, UInt32.reduceToNat]
  omega

theorem engineDoorbell_eq : engineDoorbell queueId = runDoorbell queueId := by
  rw [engineDoorbell, runDoorbell, UInt32.mul_comm 2]

namespace DoorbellLane

variable {host : Host} {lane : DoorbellLane}

theorem SetUp.offset (setUp : lane.SetUp host) :
    lane.doorbellOffset.toNat = 0x1000 + 8 * lane.queueId.toNat := by
  cases setUp with
  | byRun => exact runDoorbell_toNat _
  | byEngine => exact (congrArg UInt32.toNat (engineDoorbell_eq _)).trans (runDoorbell_toNat _)

theorem SetUp.owns_iff (setUp : lane.SetUp host) (address : Nat) :
    lane.Owns address ↔ lane.nvmeBar0Gpu + 0x1000 + 8 * lane.queueId.toNat ≤ address ∧
      address < lane.nvmeBar0Gpu + 0x1000 + 8 * (lane.queueId.toNat + 1) := by
  have stride : doorBellStride.toNat = 4 := rfl
  rw [Owns, cqDoorbell, sqDoorbell, setUp.offset, stride]
  omega

theorem SetUp.mapped_iff (setUp : lane.SetUp host) :
    (∀ address, lane.Owns address → lane.Mapped address) ↔ lane.queueId.toNat ≤ 511 := by
  simp only [setUp.owns_iff, Mapped, bar0MapSize]
  constructor
  · intro mapped
    have first := mapped (lane.nvmeBar0Gpu + 0x1000 + 8 * lane.queueId.toNat) (by omega)
    omega
  · intro low address
    omega

end DoorbellLane

/-- The doorbells of all lanes that are set up are inside their mapping and not shared exactly when
no queue id is above 511. -/
theorem doorbells_sound_iff (host : Host) (lanes : List DoorbellLane)
    (setUp : ∀ lane ∈ lanes, lane.SetUp host) (mappings : DisjointMappings lanes) :
    SoundDoorbells lanes ↔ ∀ lane ∈ lanes, lane.queueId.toNat ≤ 511 := by
  constructor
  · intro sound lane member
    exact (setUp lane member).mapped_iff.mp (sound.mapped lane member)
  · intro low
    have mapped : ∀ lane ∈ lanes, ∀ address, lane.Owns address → lane.Mapped address :=
      fun lane member => (setUp lane member).mapped_iff.mpr (low lane member)
    refine ⟨mapped, ?_⟩
    intro first inFirst second inSecond other address ownsFirst ownsSecond
    rcases mappings first inFirst second inSecond with ⟨sameController, sameMapping⟩ | apart
    · -- On one mapping the registers of different queues are at different offsets.
      have queues : first.queueId.toNat ≠ second.queueId.toNat := fun equal =>
        other (Prod.ext sameController (UInt16.toNat_inj.mp equal))
      rw [(setUp first inFirst).owns_iff] at ownsFirst
      rw [(setUp second inSecond).owns_iff] at ownsSecond
      omega
    · exact apart address (mapped first inFirst address ownsFirst)
        (mapped second inSecond address ownsSecond)

/-- A lane of `run` on the only controller, whose BAR is mapped at `0x10000`. -/
def runLane (queueId : UInt16) : DoorbellLane :=
  ⟨"/dev/nvme0", queueId, 0x10000, runDoorbell queueId⟩

/-- Two lanes chosen automatically on a controller with 511 I/O queues share its mapping, and the
second one has the last doorbells inside. -/
theorem doorbells_sound_lastInside :
    (configWith 0 2).lanes (singleController 512) = some [laneOf 511 510, laneOf 511 511] ∧
      SoundDoorbells [runLane 510, runLane 511] := by
  have accepted : (configWith 0 2).lanes (singleController 512) =
      some [laneOf 511 510, laneOf 511 511] := by decide +kernel
  refine ⟨accepted, (doorbells_sound_iff (singleController 512) _ ?_ ?_).mpr ?_⟩
  · rw [List.forall_mem_cons, List.forall_mem_singleton]
    exact ⟨.byRun _ _ (laneOf 511 510) 0x10000 accepted (by simp) rfl,
      .byRun _ _ (laneOf 511 511) 0x10000 accepted (by simp) rfl⟩
  · simp [DisjointMappings, runLane]
  · decide

/-- Queue 512 of a controller with 1023 I/O queues is accepted, and its tail doorbell is the
first byte behind the mapping. -/
theorem doorbell_outside_mapping : (runLane 512).SetUp (singleController 1024) ∧
      (runLane 512).Owns (0x10000 + bar0MapSize) ∧
      ¬(runLane 512).Mapped (0x10000 + bar0MapSize) := by
  have accepted : (configWith 512 1).lanes (singleController 1024) = some [laneOf 512 512] := by
    decide +kernel
  exact ⟨.byRun _ _ (laneOf 512 512) 0x10000 accepted (List.mem_singleton_self _) rfl,
    .inl (by decide), fun mapped => absurd mapped.2 (by decide)⟩

end RocmXio.Nvme
