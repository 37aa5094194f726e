/-
The distribution of work in the SDMA bandwidth benchmark.

A region of the source is copied to every destination, cut into one piece for each warp. In one mode
the host writes the packets of all warps, with nested loops over destinations, queues, workgroups
and warps; in the other a kernel does, with one block for each destination, queue and workgroup. A
block takes its destination and its number within it as remainders of one index. The kernel does the
work of the loops, up to the numbering of the signals, exactly if the two moduli are coprime.
Otherwise some copies are made several times and others not at all.
-/

import RocmXio.Lib.Grid

namespace RocmXio.Sdma

open Lib

/-! ### The kernel and the loops of the host -/

/-- `ExperimentParams`, as far as the layout depends on it, with the size of one copy. -/
structure ExperimentParams where
  numDestinations : Nat
  numOfQueues : Nat
  numOfWGPerQueue : Nat
  numOfWarpsPerWG : Nat
  copySize : Nat
  numCopyCommands : Nat
  numCopyCommands_lt : numCopyCommands < 2 ^ 64

structure BufferCopy where
  dst : Nat
  dstOffset : Nat
  srcOffset : Nat
  size : Nat
deriving DecidableEq

def BufferCopy.covers (dst byte : Nat) (copy : BufferCopy) : Bool :=
  copy.dst = dst ∧ copy.dstOffset ≤ byte ∧ byte < copy.dstOffset + copy.size

/-- What one warp contributes: its copies, the queue they go to and the signal that follows
them. -/
structure WarpWork where
  queue : Nat
  copies : List BufferCopy
  signal : Nat
deriving DecidableEq

def WarpWork.relabel (move : Nat → Nat) (work : WarpWork) : WarpWork :=
  { work with signal := move work.signal }

theorem WarpWork.copies_relabel (move : Nat → Nat) (work : WarpWork) :
    (work.relabel move).copies = work.copies := rfl

/-- The copies of a warp: `left` times `put`, and `putSignal`. -/
def warpCopies (dst size : Nat) : (left srcPtr dstPtr : Nat) → List BufferCopy
  | 0, srcPtr, dstPtr => [⟨dst, dstPtr, srcPtr, size⟩]
  | left + 1, srcPtr, dstPtr =>
    ⟨dst, dstPtr, srcPtr, size⟩ :: warpCopies dst size left (srcPtr + size) (dstPtr + size)

namespace ExperimentParams

variable (params : ExperimentParams)

def numWgs : Nat := params.numDestinations * params.numOfQueues * params.numOfWGPerQueue

def totalNumWarps : Nat :=
  params.numDestinations * params.numOfQueues * params.numOfWGPerQueue * params.numOfWarpsPerWG

def totalTransferSize : Nat :=
  params.copySize * params.numCopyCommands * params.numOfWarpsPerWG * params.numOfWGPerQueue *
    params.numOfQueues

def blockIdWithInDst (blockIdx : Nat) : Nat :=
  blockIdx % (params.numOfWGPerQueue * params.numOfQueues)

def dstIdx (blockIdx : Nat) : Nat := blockIdx % params.numDestinations

def queueIdx (blockIdx : Nat) : Nat :=
  let queueSelector := params.blockIdWithInDst blockIdx / params.numOfWGPerQueue
  params.dstIdx blockIdx * params.numOfQueues + queueSelector

/-- `numCopyCommands - 1`, a `size_t`. -/
def copiesBeforeLast : Nat := (params.numCopyCommands + 2 ^ 64 - 1) % 2 ^ 64

/-- A warp of `multiQueueSDMATransferQueueMapWG`. -/
def multiQueueSDMATransferQueueMapWG (blockIdx warpId : Nat) : WarpWork :=
  let nWarps := params.numOfWarpsPerWG
  let totalSize := params.copySize * params.numCopyCommands
  let offset := (params.blockIdWithInDst blockIdx * nWarps + warpId) * totalSize
  { queue := params.queueIdx blockIdx
    copies := warpCopies (params.dstIdx blockIdx) params.copySize params.copiesBeforeLast
      offset offset
    signal := blockIdx * nWarps + warpId }

def launch : List WarpWork :=
  (List.range params.numWgs).flatMap fun blockIdx =>
    (List.range params.numOfWarpsPerWG).map (params.multiQueueSDMATransferQueueMapWG blockIdx)

/-- The body of the loops of `preprogramTransfers`. -/
def preprogramWarp (d q wg warp : Nat) : WarpWork :=
  let totalSize := params.copySize * params.numCopyCommands
  let warpsPerBlock := params.numOfWarpsPerWG
  let blockInDestination := q * params.numOfWGPerQueue + wg
  let offset := (blockInDestination * warpsPerBlock + warp) * totalSize
  { queue := d * params.numOfQueues + q
    copies := (List.range params.numCopyCommands).map fun c =>
      ⟨d, offset + c * params.copySize, offset + c * params.copySize, params.copySize⟩
    signal := (d * params.numOfQueues * params.numOfWGPerQueue + blockInDestination) *
      warpsPerBlock + warp }

def preprogramTransfers : List WarpWork :=
  (List.range params.numDestinations).flatMap fun d =>
    (List.range params.numOfQueues).flatMap fun q =>
      (List.range params.numOfWGPerQueue).flatMap fun wg =>
        (List.range params.numOfWarpsPerWG).map (params.preprogramWarp d q wg)

/-- Blocks and pairs of a destination and a block within it correspond. -/
def Corresponding : Prop :=
  Set.BijOn (fun blockIdx => (params.dstIdx blockIdx, params.blockIdWithInDst blockIdx))
    (Set.Iio params.numWgs)
    (Set.Iio params.numDestinations ×ˢ Set.Iio (params.numOfQueues * params.numOfWGPerQueue))

/-- Blocks and pairs of a destination and a block within it correspond, every byte of every region
is copied once and from its own offset, every queue has its share, and the warps do what the host
would have programmed, with the signals in other slots. -/
structure Distributed : Prop where
  oneToOne : params.Corresponding
  copiedOnce : ∀ dst < params.numDestinations, ∀ byte < params.totalTransferSize,
    (params.launch.flatMap WarpWork.copies).countP (BufferCopy.covers dst byte) = 1
  sameOffset : ∀ work ∈ params.launch, ∀ copy ∈ work.copies, copy.srcOffset = copy.dstOffset
  queueShare : ∀ queue < params.numDestinations * params.numOfQueues,
    ((Finset.range params.numWgs).filter fun blockIdx => params.queueIdx blockIdx = queue).card =
      params.numOfWGPerQueue
  layout : ∃ move, Set.BijOn move (Set.Iio params.totalNumWarps) (Set.Iio params.totalNumWarps) ∧
    (params.launch.map (WarpWork.relabel move)).Perm params.preprogramTransfers

/-! ### One numbering for both -/

theorem totalNumWarps_eq : params.totalNumWarps = params.numDestinations *
    (params.numOfQueues * params.numOfWGPerQueue) * params.numOfWarpsPerWG := by
  rw [totalNumWarps, Nat.mul_assoc params.numDestinations]

/-- The work of a warp by its destination, its block there and its number in the block. -/
def pieceWork (d block warp : Nat) : WarpWork :=
  params.preprogramWarp d (block / params.numOfWGPerQueue) (block % params.numOfWGPerQueue) warp

def pieceAt (slot : Nat) : WarpWork :=
  params.pieceWork
    (slot / params.numOfWarpsPerWG / (params.numOfQueues * params.numOfWGPerQueue))
    (slot / params.numOfWarpsPerWG % (params.numOfQueues * params.numOfWGPerQueue))
    (slot % params.numOfWarpsPerWG)

theorem preprogramTransfers_eq : params.preprogramTransfers =
    (List.range (params.numDestinations * (params.numOfQueues * params.numOfWGPerQueue) *
      params.numOfWarpsPerWG)).map params.pieceAt := by
  have blocks (d : Nat) : ((List.range params.numOfQueues).flatMap fun q =>
      (List.range params.numOfWGPerQueue).flatMap fun wg =>
        (List.range params.numOfWarpsPerWG).map (params.preprogramWarp d q wg)) =
      (List.range (params.numOfQueues * params.numOfWGPerQueue)).flatMap fun block =>
        (List.range params.numOfWarpsPerWG).map (params.pieceWork d block) :=
    flatMap_range_flatMap _ _ _
  rw [preprogramTransfers]
  simp only [blocks]
  rw [flatMap_range_flatMap, flatMap_range_map]
  rfl

theorem launch_eq : params.launch = (List.range params.totalNumWarps).map fun slot =>
    params.multiQueueSDMATransferQueueMapWG (slot / params.numOfWarpsPerWG)
      (slot % params.numOfWarpsPerWG) := by
  rw [launch, flatMap_range_map, numWgs, totalNumWarps]

theorem signals_launch : params.launch.map WarpWork.signal = List.range params.totalNumWarps := by
  rw [launch_eq, List.map_map]
  refine (List.map_congr_left fun slot _ => ?_).trans (List.map_id _)
  exact Nat.div_add_mod' slot params.numOfWarpsPerWG

theorem signals_preprogramTransfers :
    params.preprogramTransfers.map WarpWork.signal = List.range params.totalNumWarps := by
  rw [preprogramTransfers_eq, ← totalNumWarps_eq, List.map_map]
  refine (List.map_congr_left fun slot _ => ?_).trans (List.map_id _)
  simp only [Function.comp_apply, pieceAt, pieceWork, preprogramWarp, Nat.div_add_mod',
    Nat.mul_assoc, id_eq]

/-- The slot in which the host would have put the signal of a warp. -/
def hostSlot (slot : Nat) : Nat :=
  (params.dstIdx (slot / params.numOfWarpsPerWG) *
      (params.numOfQueues * params.numOfWGPerQueue) +
    params.blockIdWithInDst (slot / params.numOfWarpsPerWG)) * params.numOfWarpsPerWG +
      slot % params.numOfWarpsPerWG

theorem warpCopies_ne_nil (dst size left srcPtr dstPtr : Nat) :
    warpCopies dst size left srcPtr dstPtr ≠ [] := by
  cases left <;> exact List.cons_ne_nil _ _

theorem warpCopies_eq (dst size left srcPtr dstPtr : Nat) : warpCopies dst size left srcPtr dstPtr =
    (List.range (left + 1)).map fun c => ⟨dst, dstPtr + c * size, srcPtr + c * size, size⟩ := by
  induction left generalizing srcPtr dstPtr with
  | zero => simp [warpCopies]
  | succ left inductionHypothesis =>
    rw [warpCopies, inductionHypothesis, @List.range_succ_eq_map (left + 1), List.map_cons,
      List.map_map, Nat.zero_mul, Nat.add_zero, Nat.add_zero]
    congr 2
    funext c
    simp only [Function.comp_apply, Nat.succ_mul]
    congr 1 <;> omega

theorem relabel_warp (some : 0 < params.numCopyCommands) (blockIdx warp : Nat)
    (move : Nat → Nat) (slot : move (blockIdx * params.numOfWarpsPerWG + warp) =
      (params.dstIdx blockIdx * (params.numOfQueues * params.numOfWGPerQueue) +
        params.blockIdWithInDst blockIdx) * params.numOfWarpsPerWG + warp) :
    (params.multiQueueSDMATransferQueueMapWG blockIdx warp).relabel move =
      params.pieceWork (params.dstIdx blockIdx) (params.blockIdWithInDst blockIdx) warp := by
  have left : params.copiesBeforeLast + 1 = params.numCopyCommands := by
    have bound := params.numCopyCommands_lt
    rw [copiesBeforeLast]
    omega
  have block : params.blockIdWithInDst blockIdx / params.numOfWGPerQueue *
      params.numOfWGPerQueue + params.blockIdWithInDst blockIdx % params.numOfWGPerQueue =
        params.blockIdWithInDst blockIdx := Nat.div_add_mod' _ _
  rw [multiQueueSDMATransferQueueMapWG, WarpWork.relabel, pieceWork, preprogramWarp]
  simp only [warpCopies_eq, left, slot, block, queueIdx, Nat.mul_assoc]

/-! ### What follows from the correspondence of blocks -/

theorem numWgs_eq : params.numWgs =
    params.numDestinations * (params.numOfQueues * params.numOfWGPerQueue) :=
  Nat.mul_assoc ..

theorem corresponding_iff : params.Corresponding ↔ params.numWgs = 0 ∨
    params.numDestinations.Coprime (params.numOfQueues * params.numOfWGPerQueue) := by
  have remainders := bijOn_mod_mod_iff params.numDestinations
    (params.numOfQueues * params.numOfWGPerQueue)
  rw [← numWgs_eq] at remainders
  unfold Corresponding dstIdx blockIdWithInDst
  rwa [Nat.mul_comm params.numOfWGPerQueue]

theorem slot_parts {slot : Nat} (small : slot < params.totalNumWarps) :
    slot / params.numOfWarpsPerWG < params.numWgs ∧
      slot % params.numOfWarpsPerWG < params.numOfWarpsPerWG := by
  have some : 0 < params.numOfWarpsPerWG := by
    refine Nat.pos_of_ne_zero fun none => ?_
    rw [totalNumWarps, none, Nat.mul_zero] at small
    exact absurd small (Nat.not_lt_zero slot)
  exact ⟨(Nat.div_lt_iff_lt_mul some).mpr small, Nat.mod_lt _ some⟩

section

variable {params} (corresponding : params.Corresponding)

include corresponding

theorem hostSlot_bijOn :
    Set.BijOn params.hostSlot (Set.Iio params.totalNumWarps) (Set.Iio params.totalNumWarps) := by
  refine bijOn_Iio_of_injOn (fun slot small => ?_) fun slot small other otherSmall same => ?_
  · obtain ⟨blockSmall, warpSmall⟩ := params.slot_parts small
    obtain ⟨dstSmall, withinSmall⟩ := corresponding.mapsTo blockSmall
    rw [totalNumWarps_eq]
    exact cell_lt (cell_lt dstSmall withinSmall) warpSmall
  · obtain ⟨blockSmall, warpSmall⟩ := params.slot_parts small
    obtain ⟨otherBlockSmall, otherWarpSmall⟩ := params.slot_parts otherSmall
    have within := (corresponding.mapsTo blockSmall).2
    have otherWithin := (corresponding.mapsTo otherBlockSmall).2
    have warps := congrArg (· % params.numOfWarpsPerWG) same
    have cells := congrArg (· / params.numOfWarpsPerWG) same
    simp only [hostSlot, cell_mod warpSmall, cell_mod otherWarpSmall] at warps
    simp only [hostSlot, cell_div warpSmall, cell_div otherWarpSmall] at cells
    have dsts := congrArg (· / (params.numOfQueues * params.numOfWGPerQueue)) cells
    have blocks := congrArg (· % (params.numOfQueues * params.numOfWGPerQueue)) cells
    simp only [cell_div within, cell_div otherWithin] at dsts
    simp only [cell_mod within, cell_mod otherWithin] at blocks
    have block := corresponding.injOn blockSmall otherBlockSmall (Prod.ext dsts blocks)
    rw [← Nat.div_add_mod slot params.numOfWarpsPerWG, block, warps, Nat.div_add_mod]

theorem relabel_slot (some : 0 < params.numCopyCommands) {slot : Nat}
    (small : slot < params.totalNumWarps) :
    (params.multiQueueSDMATransferQueueMapWG (slot / params.numOfWarpsPerWG)
      (slot % params.numOfWarpsPerWG)).relabel params.hostSlot =
        params.pieceAt (params.hostSlot slot) := by
  obtain ⟨blockSmall, warpSmall⟩ := params.slot_parts small
  have within := (corresponding.mapsTo blockSmall).2
  have here : params.hostSlot (slot / params.numOfWarpsPerWG * params.numOfWarpsPerWG +
      slot % params.numOfWarpsPerWG) = params.hostSlot slot := by
    rw [Nat.div_add_mod']
  rw [params.relabel_warp some _ _ params.hostSlot here, pieceAt, hostSlot, cell_div warpSmall,
    cell_mod warpSmall, cell_div within, cell_mod within]

theorem launch_perm (some : 0 < params.numCopyCommands) :
    (params.launch.map (WarpWork.relabel params.hostSlot)).Perm params.preprogramTransfers := by
  have relabelled : params.launch.map (WarpWork.relabel params.hostSlot) =
      ((List.range params.totalNumWarps).map params.hostSlot).map params.pieceAt := by
    rw [launch_eq, List.map_map, List.map_map]
    exact List.map_congr_left fun slot member =>
      relabel_slot corresponding some (List.mem_range.mp member)
  rw [relabelled, preprogramTransfers_eq, ← totalNumWarps_eq]
  exact (perm_map_range (hostSlot_bijOn corresponding)).map _

theorem card_queue {queue : Nat} (small : queue < params.numDestinations * params.numOfQueues) :
    ((Finset.range params.numWgs).filter fun blockIdx => params.queueIdx blockIdx = queue).card =
      params.numOfWGPerQueue := by
  have queues : 0 < params.numOfQueues := by
    refine Nat.pos_of_ne_zero fun none => ?_
    rw [none, Nat.mul_zero] at small
    exact absurd small (Nat.not_lt_zero queue)
  have selector {blockIdx : Nat} (below : blockIdx < params.numWgs) :
      params.blockIdWithInDst blockIdx / params.numOfWGPerQueue < params.numOfQueues :=
    Nat.div_lt_of_lt_mul ((corresponding.mapsTo below).2.trans_eq (Nat.mul_comm _ _))
  refine (Finset.card_nbij (fun blockIdx => params.blockIdWithInDst blockIdx %
    params.numOfWGPerQueue) ?_ ?_ ?_).trans (Finset.card_range _)
  · intro blockIdx member
    obtain ⟨below, -⟩ := Finset.mem_filter.mp member
    have within := (corresponding.mapsTo (Finset.mem_range.mp below)).2
    exact Finset.mem_coe.mpr (Finset.mem_range.mpr
      (Nat.mod_lt _ (Nat.pos_of_mul_pos_left (Nat.zero_lt_of_lt within))))
  · intro first firstMember second secondMember same
    obtain ⟨firstBelow, firstQueue⟩ := Finset.mem_filter.mp firstMember
    obtain ⟨secondBelow, secondQueue⟩ := Finset.mem_filter.mp secondMember
    rw [Finset.mem_range] at firstBelow secondBelow
    have queueSame := firstQueue.trans secondQueue.symm
    have dsts := congrArg (· / params.numOfQueues) queueSame
    have selectors := congrArg (· % params.numOfQueues) queueSame
    simp only [queueIdx, cell_div (selector firstBelow), cell_div (selector secondBelow)] at dsts
    simp only [queueIdx, cell_mod (selector firstBelow), cell_mod (selector secondBelow)]
      at selectors
    have places : params.blockIdWithInDst first % params.numOfWGPerQueue =
        params.blockIdWithInDst second % params.numOfWGPerQueue := same
    have blocks : params.blockIdWithInDst first = params.blockIdWithInDst second := by
      rw [← Nat.div_add_mod (params.blockIdWithInDst first) params.numOfWGPerQueue, selectors,
        places, Nat.div_add_mod]
    exact corresponding.injOn firstBelow secondBelow (Prod.ext dsts blocks)
  · intro place member
    have placeSmall := Finset.mem_range.mp (Finset.mem_coe.mp member)
    have target : (queue / params.numOfQueues,
        queue % params.numOfQueues * params.numOfWGPerQueue + place) ∈
        Set.Iio params.numDestinations ×ˢ
          Set.Iio (params.numOfQueues * params.numOfWGPerQueue) :=
      ⟨(Nat.div_lt_iff_lt_mul queues).mpr small, cell_lt (Nat.mod_lt _ queues) placeSmall⟩
    obtain ⟨blockIdx, below, hit⟩ := corresponding.surjOn target
    obtain ⟨dst, within⟩ := Prod.mk.inj hit
    refine ⟨blockIdx, Finset.mem_coe.mpr (Finset.mem_filter.mpr
      ⟨Finset.mem_range.mpr below, ?_⟩), ?_⟩
    · rw [queueIdx, dst, within, cell_div placeSmall, Nat.div_add_mod']
    · simp only [within, cell_mod placeSmall]

end

/-! ### The bytes -/

def copiesPerDst : Nat :=
  params.numCopyCommands * (params.numOfWarpsPerWG * (params.numOfQueues * params.numOfWGPerQueue))

/-- The copies of the host in the order of their destinations and offsets. -/
def copyAt (index : Nat) : BufferCopy where
  dst := index / params.copiesPerDst
  dstOffset := index % params.copiesPerDst * params.copySize
  srcOffset := index % params.copiesPerDst * params.copySize
  size := params.copySize

theorem copies_preprogramTransfers : params.preprogramTransfers.flatMap WarpWork.copies =
    (List.range (params.numDestinations * params.copiesPerDst)).map params.copyAt := by
  have count : params.numDestinations * (params.numOfQueues * params.numOfWGPerQueue) *
      params.numOfWarpsPerWG * params.numCopyCommands =
        params.numDestinations * params.copiesPerDst := by
    rw [copiesPerDst]
    ring
  have dst (index : Nat) : index / params.numCopyCommands / params.numOfWarpsPerWG /
      (params.numOfQueues * params.numOfWGPerQueue) = index / params.copiesPerDst := by
    rw [Nat.div_div_eq_div_mul, Nat.div_div_eq_div_mul, copiesPerDst]
  have offset (index : Nat) : (index / params.numCopyCommands / params.numOfWarpsPerWG %
      (params.numOfQueues * params.numOfWGPerQueue) * params.numOfWarpsPerWG +
        index / params.numCopyCommands % params.numOfWarpsPerWG) *
          (params.copySize * params.numCopyCommands) +
            index % params.numCopyCommands * params.copySize =
      index % params.copiesPerDst * params.copySize := by
    rw [copiesPerDst, @Nat.mod_mul params.numCopyCommands, @Nat.mod_mul params.numOfWarpsPerWG]
    ring
  rw [preprogramTransfers_eq, List.flatMap_map]
  simp only [pieceAt, pieceWork, preprogramWarp, Nat.div_add_mod']
  rw [flatMap_range_map, count]
  simp only [dst, offset]
  rfl

theorem copy_of_byte {byte : Nat} (inside : byte < params.totalTransferSize) :
    0 < params.copySize ∧ byte / params.copySize < params.copiesPerDst := by
  have region : params.totalTransferSize = params.copiesPerDst * params.copySize := by
    rw [totalTransferSize, copiesPerDst]
    ring
  rw [region] at inside
  have copySize : 0 < params.copySize := Nat.pos_of_mul_pos_left (Nat.zero_lt_of_lt inside)
  exact ⟨copySize, (Nat.div_lt_iff_lt_mul copySize).mpr inside⟩

theorem covers_copyAt {dst byte : Nat} (inside : byte < params.totalTransferSize)
    (index : Nat) : BufferCopy.covers dst byte (params.copyAt index) =
      (index == dst * params.copiesPerDst + byte / params.copySize) := by
  obtain ⟨copySize, place⟩ := params.copy_of_byte inside
  rw [BufferCopy.covers, Bool.eq_iff_iff, decide_eq_true_iff, beq_iff_eq, copyAt]
  constructor
  · rintro ⟨rfl, lower, upper⟩
    have quotient : byte / params.copySize = index % params.copiesPerDst := by
      refine Nat.div_eq_of_lt_le lower ?_
      rwa [Nat.succ_mul]
    rw [quotient, Nat.div_add_mod']
  · rintro rfl
    simp only [cell_div place, cell_mod place]
    refine ⟨trivial, Nat.div_mul_le_self byte params.copySize, ?_⟩
    rw [← Nat.succ_mul, Nat.mul_comm]
    exact Nat.lt_mul_div_succ byte copySize

theorem countP_launch (corresponding : params.Corresponding) (some : 0 < params.numCopyCommands)
    {dst byte : Nat} (dstSmall : dst < params.numDestinations)
    (inside : byte < params.totalTransferSize) :
    (params.launch.flatMap WarpWork.copies).countP (BufferCopy.covers dst byte) = 1 := by
  have relabelled : params.launch.flatMap WarpWork.copies =
      (params.launch.map (WarpWork.relabel params.hostSlot)).flatMap WarpWork.copies := by
    rw [List.flatMap_map]
    rfl
  obtain ⟨-, place⟩ := params.copy_of_byte inside
  rw [relabelled, ((launch_perm corresponding some).flatMap_right _).countP_eq,
    copies_preprogramTransfers, List.countP_map]
  have hits : BufferCopy.covers dst byte ∘ params.copyAt =
      (· == dst * params.copiesPerDst + byte / params.copySize) :=
    funext (params.covers_copyAt inside)
  rw [hits]
  exact List.count_eq_one_of_mem List.nodup_range (List.mem_range.mpr (cell_lt dstSmall place))

theorem sameOffset_launch : ∀ work ∈ params.launch, ∀ copy ∈ work.copies,
    copy.srcOffset = copy.dstOffset := by
  intro work member copy copied
  rw [launch_eq, List.mem_map] at member
  obtain ⟨slot, -, rfl⟩ := member
  simp only [multiQueueSDMATransferQueueMapWG, warpCopies_eq, List.mem_map] at copied
  obtain ⟨c, -, rfl⟩ := copied
  rfl

/-! ### When the work is distributed as intended -/

/-- Without copies the count before the last one wraps around, and the kernel does not do what
the host would. -/
theorem copies_of_perm {move : Nat → Nat}
    (permutation : (params.launch.map (WarpWork.relabel move)).Perm params.preprogramTransfers)
    (warps : params.totalNumWarps ≠ 0) : params.numCopyCommands ≠ 0 := by
  intro none
  have member : ((params.multiQueueSDMATransferQueueMapWG (0 / params.numOfWarpsPerWG)
      (0 % params.numOfWarpsPerWG)).relabel move) ∈ params.preprogramTransfers := by
    refine permutation.subset (List.mem_map_of_mem ?_)
    rw [launch_eq]
    exact List.mem_map_of_mem (List.mem_range.mpr (Nat.pos_of_ne_zero warps))
  rw [preprogramTransfers_eq, List.mem_map] at member
  obtain ⟨slot, -, same⟩ := member
  have empty : (params.pieceAt slot).copies = [] := by
    simp only [pieceAt, pieceWork, preprogramWarp, none, List.range_zero, List.map_nil]
  rw [same, WarpWork.copies_relabel] at empty
  simp only [multiQueueSDMATransferQueueMapWG, warpCopies_ne_nil] at empty

/-- The work is distributed as intended exactly if the number of destinations and the number
of blocks for each are coprime and there is something to copy, or there is no work. -/
theorem distributed_iff : params.Distributed ↔ (params.numWgs = 0 ∨
      params.numDestinations.Coprime (params.numOfQueues * params.numOfWGPerQueue)) ∧
      (params.totalNumWarps = 0 ∨ params.numCopyCommands ≠ 0) := by
  constructor
  · intro distributed
    obtain ⟨move, -, permutation⟩ := distributed.layout
    exact ⟨params.corresponding_iff.mp distributed.oneToOne,
      or_iff_not_imp_left.mpr (params.copies_of_perm permutation)⟩
  · rintro ⟨blocks, work⟩
    have corresponding := params.corresponding_iff.mpr blocks
    refine ⟨corresponding, fun dst dstSmall byte inside => ?_, params.sameOffset_launch,
      fun queue => card_queue corresponding, params.hostSlot, hostSlot_bijOn corresponding, ?_⟩
    · have some : 0 < params.numCopyCommands := by
        refine Nat.pos_of_ne_zero fun none => ?_
        rw [totalTransferSize, none, Nat.mul_zero, Nat.zero_mul, Nat.zero_mul, Nat.zero_mul]
          at inside
        exact absurd inside (Nat.not_lt_zero byte)
      exact params.countP_launch corresponding some dstSmall inside
    · rcases work with none | some
      · rw [launch_eq, preprogramTransfers_eq, ← totalNumWarps_eq, none]
        exact .nil
      · exact launch_perm corresponding (Nat.pos_of_ne_zero some)

/-- Two destinations with two queues each, and one warp for each queue. -/
def twoByTwo : ExperimentParams where
  numDestinations := 2
  numOfQueues := 2
  numOfWGPerQueue := 1
  numOfWarpsPerWG := 1
  copySize := 4
  numCopyCommands := 1
  numCopyCommands_lt := Nat.one_lt_two_pow (by decide)

/-- The first half of the first region is copied twice and the second half never, and one
queue of the destination has no work. -/
theorem twoByTwo_uneven :
    (twoByTwo.launch.flatMap WarpWork.copies).countP (BufferCopy.covers 0 0) = 2 ∧
      (twoByTwo.launch.flatMap WarpWork.copies).countP (BufferCopy.covers 0 4) = 0 ∧
      ((Finset.range twoByTwo.numWgs).filter fun block => twoByTwo.queueIdx block = 1).card = 0 ∧
      ¬twoByTwo.Distributed := by
  refine ⟨by decide +kernel, by decide +kernel, by decide +kernel, fun distributed => ?_⟩
  have copied := distributed.copiedOnce 0 (by decide) 4 (by decide)
  exact absurd copied (by decide +kernel)

end ExperimentParams

end RocmXio.Sdma
