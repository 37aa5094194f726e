/-
The pool of PRP lists that `run` sets up for a lane.

Each batch index has one list, or two when reads and writes run together. A kernel writes a list
through the pool's virtual address, at a word offset, and puts the list's DMA address into the
command, found by a slot index in a table that `run` filled from the page map. Word offset and slot
index are computed independently, but name the same page, wherever the pages of the pool are, and no
two lists overlap.
-/

import RocmXio.Nvme.Prp

namespace RocmXio.Nvme

/-! ### What a kernel is told of the pool -/

/-- The fields of `nvmeBufferParams` that are about lists. -/
structure PoolParams where
  prpListPageDmas : Option (List Nat)
  prpListPoolDma : Nat
  prpEntriesPerCmd : Nat
  prpSlotsPerBatch : Nat
  deriving DecidableEq

namespace PoolParams

/-- `prpListDmaForSlot`: from the table if there is one, otherwise from the base of the pool, with
lists of at least a page. -/
def prpListDmaForSlot (params : PoolParams) (slot : Nat) : Nat :=
  match params.prpListPageDmas with
  | some dmas => dmas.getD slot 0
  | none =>
    if params.prpListPoolDma ≠ 0 ∧ params.prpEntriesPerCmd ≠ 0 then
      let stride := if params.prpEntriesPerCmd < prpListEntriesPerPage then prpListEntriesPerPage
        else params.prpEntriesPerCmd
      (params.prpListPoolDma + slot * stride * 8) % 2 ^ 64
    else 0

def nvmePrpSlotsPerBatchVal (params : PoolParams) : Nat :=
  if params.prpSlotsPerBatch = 2 then 2 else 1

/-- `nvmePrpListWordOffset`, in 32 bits. -/
def nvmePrpListWordOffset (params : PoolParams) (batchIdx : Nat) (isWrite : Bool) : Nat :=
  let mul := params.nvmePrpSlotsPerBatchVal
  let offset := batchIdx * mul * params.prpEntriesPerCmd % 2 ^ 32
  if mul > 1 ∧ isWrite then (offset + params.prpEntriesPerCmd) % 2 ^ 32 else offset

/-- `nvmePrpListDmaSlotIndex`, in 32 bits. -/
def nvmePrpListDmaSlotIndex (params : PoolParams) (batchIdx : Nat) (isWrite : Bool) : Nat :=
  let mul := params.nvmePrpSlotsPerBatchVal
  if mul > 1 then (batchIdx * mul + if isWrite then 1 else 0) % 2 ^ 32 else batchIdx

end PoolParams

/-! ### What `run` sets up -/

/-- The address of the pool and the page map of the process, with the frame behind each page that is
present. No frame is behind two pages. -/
structure PoolMemory where
  pageBits : Nat
  pool : Nat
  frame : Nat → Option Nat
  frame_injective : ∀ first second number,
    frame first = some number → frame second = some number → first = second

namespace PoolMemory

/-- The size of a system page: an NVMe page or a larger power of two. -/
def hostPage (memory : PoolMemory) : Nat := pageSize * 2 ^ memory.pageBits

def physical (memory : PoolMemory) (address : Nat) : Option Nat :=
  (memory.frame (address / memory.hostPage)).map
    fun number => number * memory.hostPage + address % memory.hostPage

/-- `getPhysAddr`; zero when the page is not present or the page map cannot be read. -/
def getPhysAddr (memory : PoolMemory) (address : Nat) : Nat :=
  (memory.physical address).getD 0

/-- `prpPoolBytes`, rounded up to system pages. -/
def prpPoolBytes (memory : PoolMemory) (params : IoParams) : Nat :=
  let entries := params.prpEntriesPerCmd * params.effBatch * params.prpSlotsPerBatch % 2 ^ 32
  if entries * 8 > 0 then
    (entries * 8 + memory.hostPage - 1) / memory.hostPage * memory.hostPage
  else 0

def pageDmas (memory : PoolMemory) (stride : Nat) : Nat → Option (List Nat)
  | 0 => some []
  | s + 1 =>
    match memory.pageDmas stride s with
    | none => none
    | some dmas =>
      let dma := memory.getPhysAddr (memory.pool + s * stride * 8)
      if dma = 0 ∨ dma % pageSize ≠ 0 then none else some (dmas ++ [dma])

/-- The pool of a lane; none is an error of `run`. -/
def setUpPool (memory : PoolMemory) (params : IoParams) : Option PoolParams :=
  if memory.prpPoolBytes params = 0 then
    some ⟨none, 0, params.prpEntriesPerCmd, params.prpSlotsPerBatch⟩
  else if memory.pool % pageSize ≠ 0 then none
  else if memory.getPhysAddr memory.pool = 0 then none
  else
    (memory.pageDmas params.prpEntriesPerCmd (params.prpDmaSlots % 2 ^ 32)).map fun dmas =>
      ⟨some dmas, dmas.getD 0 0, params.prpEntriesPerCmd, params.prpSlotsPerBatch⟩

end PoolMemory

/-- The two addresses of a list denote the same page, every list is inside the pool, and no two
lists of a run in both directions overlap, for the kernel or for the controller. -/
structure PoolLayout (params : IoParams) (memory : PoolMemory) (pool : PoolParams) : Prop where
  sameList : ∀ b < params.effBatch, ∀ isWrite, ∀ offset < pageSize,
    memory.physical (memory.pool + 8 * pool.nvmePrpListWordOffset b isWrite + offset) =
      some (pool.prpListDmaForSlot (pool.nvmePrpListDmaSlotIndex b isWrite) + offset)
  inside : ∀ b < params.effBatch, ∀ isWrite,
    8 * pool.nvmePrpListWordOffset b isWrite + pageSize ≤ memory.prpPoolBytes params
  disjoint : params.readIo ≠ 0 → params.writeIo ≠ 0 →
    ∀ b < params.effBatch, ∀ isWrite, ∀ b' < params.effBatch, ∀ isWrite',
      (b, isWrite) ≠ (b', isWrite') → ∀ offset < pageSize, ∀ offset' < pageSize,
        8 * pool.nvmePrpListWordOffset b isWrite + offset ≠
            8 * pool.nvmePrpListWordOffset b' isWrite' + offset' ∧
          pool.prpListDmaForSlot (pool.nvmePrpListDmaSlotIndex b isWrite) + offset ≠
            pool.prpListDmaForSlot (pool.nvmePrpListDmaSlotIndex b' isWrite') + offset'

/-! ### Physical addresses -/

namespace PoolMemory

variable (memory : PoolMemory)

theorem hostPage_pos : 0 < memory.hostPage := Nat.mul_pos (by decide) (Nat.two_pow_pos _)

theorem physical_add {address offset physical : Nat} (aligned : address % pageSize = 0)
    (below : offset < pageSize) (found : memory.physical address = some physical) :
    memory.physical (address + offset) = some (physical + offset) := by
  obtain ⟨number, present, rfl⟩ := Option.map_eq_some_iff.mp found
  have room : address % memory.hostPage + offset < memory.hostPage := by
    obtain ⟨pages, whole⟩ := Nat.dvd_of_mod_eq_zero aligned
    rw [whole, hostPage, Nat.mul_mod_mul_left]
    have less := Nat.mod_lt pages (Nat.two_pow_pos memory.pageBits)
    calc pageSize * (pages % 2 ^ memory.pageBits) + offset
        < pageSize * (pages % 2 ^ memory.pageBits) + pageSize := Nat.add_lt_add_left below _
      _ = pageSize * (pages % 2 ^ memory.pageBits + 1) := (Nat.mul_succ _ _).symm
      _ ≤ pageSize * 2 ^ memory.pageBits := Nat.mul_le_mul_left _ less
  have split := Nat.div_add_mod address memory.hostPage
  have whole : address + offset =
      memory.hostPage * (address / memory.hostPage) + (address % memory.hostPage + offset) := by
    omega
  have page : (address + offset) / memory.hostPage = address / memory.hostPage := by
    rw [whole, Nat.mul_add_div memory.hostPage_pos, Nat.div_eq_of_lt room, Nat.add_zero]
  have within : (address + offset) % memory.hostPage = address % memory.hostPage + offset := by
    rw [whole, Nat.mul_add_mod, Nat.mod_eq_of_lt room]
  rw [physical, page, within, present, Option.map_some, Nat.add_assoc]

theorem physical_injective {first second physical : Nat}
    (atFirst : memory.physical first = some physical)
    (atSecond : memory.physical second = some physical) : first = second := by
  obtain ⟨number, present, rfl⟩ := Option.map_eq_some_iff.mp atFirst
  obtain ⟨other, presentToo, equal⟩ := Option.map_eq_some_iff.mp atSecond
  have positive := memory.hostPage_pos
  have offsets : second % memory.hostPage = first % memory.hostPage := by
    have both := congrArg (· % memory.hostPage) equal
    simpa [Nat.mul_comm _ memory.hostPage, Nat.mul_add_mod] using both
  have numbers : other = number := by
    rw [offsets] at equal
    exact Nat.eq_of_mul_eq_mul_right positive (Nat.add_right_cancel equal)
  subst numbers
  have pages := memory.frame_injective _ _ _ present presentToo
  rw [← Nat.div_add_mod first memory.hostPage, ← Nat.div_add_mod second memory.hostPage, pages,
    offsets]

theorem physical_of_pageDmas {stride count : Nat} {dmas : List Nat}
    (filled : memory.pageDmas stride count = some dmas) :
    dmas.length = count ∧ ∀ slot < count,
      memory.physical (memory.pool + slot * stride * 8) = some (dmas.getD slot 0) := by
  induction count generalizing dmas with
  | zero =>
    obtain ⟨⟩ := filled
    exact ⟨rfl, nofun⟩
  | succ count inductionHypothesis =>
    rw [pageDmas] at filled
    split at filled
    case h_1 => exact nomatch filled
    case h_2 before earlier =>
      obtain ⟨checked, ⟨⟩⟩ := Option.ite_none_left_eq_some.mp filled
      obtain ⟨length, entries⟩ := inductionHypothesis earlier
      refine ⟨by rw [List.length_append, List.length_singleton, length], ?_⟩
      intro slot below
      rcases Nat.lt_succ_iff_lt_or_eq.mp below with old | rfl
      · rw [List.getD_eq_getElem?_getD, List.getElem?_append_left (by omega),
          ← List.getD_eq_getElem?_getD]
        exact entries slot old
      · rw [List.getD_eq_getElem?_getD, List.getElem?_append_right (by omega), length,
          Nat.sub_self]
        have present : memory.getPhysAddr (memory.pool + slot * stride * 8) ≠ 0 :=
          fun zero => checked (.inl zero)
        rw [getPhysAddr] at present ⊢
        cases found : memory.physical (memory.pool + slot * stride * 8) with
        | none => exact absurd (by rw [found]; rfl) present
        | some address => rfl

end PoolMemory

/-! ### The two ways to name a list -/

section

variable {params : IoParams} (large : pageSize < params.transferSize)

include large

theorem IoParams.prpEntriesPerCmd_of_large : params.prpEntriesPerCmd = 512 := by
  rw [IoParams.prpEntriesPerCmd, if_pos large, prpListEntriesPerPage_eq]

theorem IoParams.prpSlotsPerBatch_of_large :
    params.prpSlotsPerBatch = if params.readIo ≠ 0 ∧ params.writeIo ≠ 0 then 2 else 1 := by
  rw [IoParams.prpSlotsPerBatch, params.prpEntriesPerCmd_of_large large,
    if_neg (by decide : ¬(512 : Nat) = 0)]

/-- What `setUpPool` gives a kernel of a lane with lists. -/
structure PoolOf (params : IoParams) (memory : PoolMemory) (pool : PoolParams)
    (dmas : List Nat) : Prop where
  pageDmas : pool.prpListPageDmas = some dmas
  entries : pool.prpEntriesPerCmd = 512
  slots : pool.prpSlotsPerBatch = params.prpSlotsPerBatch
  aligned : memory.pool % pageSize = 0
  physical : ∀ slot < params.prpDmaSlots,
    memory.physical (memory.pool + slot * pageSize) = some (dmas.getD slot 0)

omit large in
theorem IoParams.prpSlotsPerBatch_cases (params : IoParams) :
    params.prpSlotsPerBatch = 1 ∨ params.prpSlotsPerBatch = 2 := by
  rw [IoParams.prpSlotsPerBatch]
  split_ifs <;> simp

omit large in
theorem IoParams.prpDmaSlots_lt (params : IoParams) : params.prpDmaSlots < 2 ^ 17 := by
  have batch := params.effBatch_le.trans_lt params.cappedBatch_lt
  rw [IoParams.prpDmaSlots]
  rcases params.prpSlotsPerBatch_cases with one | two
  · rw [one]
    omega
  · rw [two]
    omega

theorem PoolMemory.le_prpPoolBytes (memory : PoolMemory) :
    params.prpDmaSlots * pageSize ≤ memory.prpPoolBytes params := by
  have count := params.prpDmaSlots_lt
  have entries : params.prpEntriesPerCmd * params.effBatch * params.prpSlotsPerBatch % 2 ^ 32 =
      params.prpDmaSlots * 512 := by
    rw [params.prpEntriesPerCmd_of_large large, Nat.mul_assoc, ← IoParams.prpDmaSlots,
      Nat.mul_comm, Nat.mod_eq_of_lt (by omega)]
  have bytes : params.prpDmaSlots * 512 * 8 = params.prpDmaSlots * pageSize := by
    rw [pageSize_eq]
    omega
  have positive := memory.hostPage_pos
  rw [PoolMemory.prpPoolBytes, entries, bytes]
  split
  case isTrue =>
    have rounded := Nat.lt_div_mul_add positive
      (a := params.prpDmaSlots * pageSize + memory.hostPage - 1)
    omega
  case isFalse none => omega

theorem PoolMemory.poolOf {memory : PoolMemory} {pool : PoolParams}
    (some : 0 < params.effBatch) (setUp : memory.setUpPool params = .some pool) :
    ∃ dmas, PoolOf params memory pool dmas := by
  have lists : 0 < params.prpDmaSlots :=
    Nat.mul_pos some (by rcases params.prpSlotsPerBatch_cases with one | two <;> omega)
  have room := memory.le_prpPoolBytes large
  have bytes : memory.prpPoolBytes params ≠ 0 := by
    rw [pageSize_eq] at room
    omega
  rw [PoolMemory.setUpPool, if_neg bytes] at setUp
  obtain ⟨aligned, setUp⟩ := Option.ite_none_left_eq_some.mp setUp
  obtain ⟨-, setUp⟩ := Option.ite_none_left_eq_some.mp setUp
  obtain ⟨dmas, filled, rfl⟩ := Option.map_eq_some_iff.mp setUp
  have count := params.prpDmaSlots_lt
  rw [Nat.mod_eq_of_lt (by omega), params.prpEntriesPerCmd_of_large large] at filled
  refine ⟨dmas, rfl, params.prpEntriesPerCmd_of_large large, rfl, not_not.mp aligned, ?_⟩
  intro slot below
  have found := (memory.physical_of_pageDmas filled).2 slot below
  rwa [Nat.mul_assoc] at found

end

namespace PoolOf

variable {params : IoParams} {memory : PoolMemory} {pool : PoolParams} {dmas : List Nat}
  (known : PoolOf params memory pool dmas) {b : Nat} (inBatch : b < params.effBatch)
  (isWrite : Bool)

include known

theorem slotsVal : pool.nvmePrpSlotsPerBatchVal = params.prpSlotsPerBatch := by
  rw [PoolParams.nvmePrpSlotsPerBatchVal, known.slots]
  rcases params.prpSlotsPerBatch_cases with one | two
  · rw [one]
    rfl
  · rw [two]
    rfl

include inBatch

theorem slotIndex : pool.nvmePrpListDmaSlotIndex b isWrite = b * params.prpSlotsPerBatch +
        if params.prpSlotsPerBatch = 2 ∧ isWrite then 1 else 0 := by
  have batch := inBatch.trans (params.effBatch_le.trans_lt params.cappedBatch_lt)
  rw [PoolParams.nvmePrpListDmaSlotIndex, known.slotsVal]
  rcases params.prpSlotsPerBatch_cases with one | two
  · simp [one]
  · rw [two]
    cases isWrite
    · simp
      omega
    · simp
      omega

theorem slotIndex_lt : pool.nvmePrpListDmaSlotIndex b isWrite < params.prpDmaSlots := by
  rw [known.slotIndex inBatch, IoParams.prpDmaSlots]
  rcases params.prpSlotsPerBatch_cases with one | two
  · rw [one, if_neg (by simp)]
    omega
  · rw [two]
    split <;> omega

theorem wordOffset :
    pool.nvmePrpListWordOffset b isWrite = pool.nvmePrpListDmaSlotIndex b isWrite * 512 := by
  have batch := inBatch.trans (params.effBatch_le.trans_lt params.cappedBatch_lt)
  rw [known.slotIndex inBatch, PoolParams.nvmePrpListWordOffset, known.slotsVal, known.entries]
  rcases params.prpSlotsPerBatch_cases with one | two
  · simp [one]
    omega
  · rw [two]
    cases isWrite
    · simp
      omega
    · simp
      omega

theorem byteOffset : 8 * pool.nvmePrpListWordOffset b isWrite =
      pool.nvmePrpListDmaSlotIndex b isWrite * pageSize := by
  rw [known.wordOffset inBatch, pageSize_eq]
  omega

theorem physical_list {offset : Nat} (below : offset < pageSize) :
    memory.physical (memory.pool + 8 * pool.nvmePrpListWordOffset b isWrite + offset) =
      some (pool.prpListDmaForSlot (pool.nvmePrpListDmaSlotIndex b isWrite) + offset) := by
  have found := known.physical _ (known.slotIndex_lt inBatch isWrite)
  have dma : pool.prpListDmaForSlot (pool.nvmePrpListDmaSlotIndex b isWrite) =
      dmas.getD (pool.nvmePrpListDmaSlotIndex b isWrite) 0 := by
    rw [PoolParams.prpListDmaForSlot, known.pageDmas]
  rw [known.byteOffset inBatch, dma]
  refine memory.physical_add ?_ below found
  rw [Nat.add_mod, known.aligned, Nat.mul_mod_left, Nat.zero_mod]

end PoolOf

/-- The pool of every lane with transfers longer than a page has the layout that the kernels rely
on, wherever its pages are. -/
theorem prpPool_layout (params : IoParams) (memory : PoolMemory) (pool : PoolParams)
    (large : pageSize < params.transferSize) (setUp : memory.setUpPool params = some pool) :
    PoolLayout params memory pool where
  sameList := by
    intro b inBatch isWrite offset below
    obtain ⟨dmas, known⟩ := PoolMemory.poolOf large (Nat.zero_lt_of_lt inBatch) setUp
    exact known.physical_list inBatch isWrite below
  inside := by
    intro b inBatch isWrite
    obtain ⟨dmas, known⟩ := PoolMemory.poolOf large (Nat.zero_lt_of_lt inBatch) setUp
    calc 8 * pool.nvmePrpListWordOffset b isWrite + pageSize
        = (pool.nvmePrpListDmaSlotIndex b isWrite + 1) * pageSize := by
          rw [known.byteOffset inBatch, Nat.succ_mul]
      _ ≤ params.prpDmaSlots * pageSize :=
          Nat.mul_le_mul_right _ (known.slotIndex_lt inBatch isWrite)
      _ ≤ memory.prpPoolBytes params := memory.le_prpPoolBytes large
  disjoint := by
    intro reads writes b inBatch isWrite b' inBatch' isWrite' other offset below offset' below'
    obtain ⟨dmas, known⟩ := PoolMemory.poolOf large (Nat.zero_lt_of_lt inBatch) setUp
    have two : params.prpSlotsPerBatch = 2 := by
      rw [params.prpSlotsPerBatch_of_large large, if_pos ⟨reads, writes⟩]
    have apart : 8 * pool.nvmePrpListWordOffset b isWrite + offset ≠
        8 * pool.nvmePrpListWordOffset b' isWrite' + offset' := by
      intro equal
      rw [known.byteOffset inBatch, known.byteOffset inBatch'] at equal
      have slots : pool.nvmePrpListDmaSlotIndex b isWrite =
          pool.nvmePrpListDmaSlotIndex b' isWrite' := by
        rw [pageSize_eq] at below below' equal
        omega
      rw [known.slotIndex inBatch, known.slotIndex inBatch', two] at slots
      apply other
      cases isWrite <;> cases isWrite' <;> simp at slots ⊢ <;> omega
    refine ⟨apart, fun equal => apart ?_⟩
    -- One byte of the memory is behind one byte of the pool.
    have first := known.physical_list inBatch isWrite below
    have second := known.physical_list inBatch' isWrite' below'
    rw [equal] at first
    have same := memory.physical_injective first second
    omega

theorem sixtyFour_pos : 0 < 64 := by decide

theorem sixtyFour_lt : 64 < 2 ^ 16 := by decide

/-- Two commands of eight blocks of 1024 bytes in each direction. -/
def bothDirections : IoParams where
  lbaSize := 1024
  lbasPerIo := 8
  queueSize := 64
  batchSize := 2
  readIo := 2
  writeIo := 2
  infiniteMode := false
  lbaSize_lt := by decide
  lbasPerIo_lt := by decide
  queueSize_pos := sixtyFour_pos
  queueSize_lt := sixtyFour_lt

def descendingFrames : PoolMemory where
  pageBits := 4
  pool := 0x100000
  frame page := if page < 100 then some (100 - page) else none
  frame_injective := by
    intro first second number atFirst atSecond
    obtain ⟨low, ⟨⟩⟩ := Option.ite_none_right_eq_some.mp atFirst
    obtain ⟨lowToo, equal⟩ := Option.ite_none_right_eq_some.mp atSecond
    have numbers := Option.some.inj equal
    omega

theorem prpPool_layout_bothDirections :
    ∃ pool, descendingFrames.setUpPool bothDirections = some pool ∧
      PoolLayout bothDirections descendingFrames pool := by
  have setUp : descendingFrames.setUpPool bothDirections =
      some ⟨some [0x540000, 0x541000, 0x542000, 0x543000], 0x540000, 512, 2⟩ := by decide
  exact ⟨_, setUp, prpPool_layout _ _ _ (by decide) setUp⟩

end RocmXio.Nvme
