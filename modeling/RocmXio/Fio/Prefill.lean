/-
The PRP lists that the engine writes in advance.

`rxio_prp_prefill` writes for every slot the list of a transfer of the whole slot, and
`gpuKernelPersistent` points every command on more than two pages to it, also for shorter transfers.
A list describes up to 513 pages. The kernel finds its slot at a multiple of the blocks in it, which
is its beginning if they fill the slot.
-/

import RocmXio.Fio.SlotAddress
import RocmXio.Fio.Engine

namespace RocmXio.Fio

open Nvme Lib

/-! ### One operation of the persistent kernel -/

/-- The threads of the one block that `rxio_prp_prefill` is launched with. -/
def prefillThreads : Nat := 64

/-- A work item, no larger than a slot, on a buffer with room for the job's slots, and the addresses
of the list pages. A slot has less than `2 ^ 32` pages (sixteen tebibytes), a number that
`rxio_prp_prefill` is told in 32 bits. -/
structure PrefillOp (size : Nat) where
  job : Job
  slot : Nat
  lbas : Nat
  pageDmas : Nat → Nat
  pages_lt : singleBufSize job.singleSize / pageSize < 2 ^ 32
  lbaSize_pos : 0 < job.lbaSize
  lbas_le : lbas * job.lbaSize ≤ singleBufSize job.singleSize
  slot_lt : slot < job.batchCap
  buffer_le : job.batchCap * singleBufSize job.singleSize ≤ size
  pageDmas_aligned : pageDmas slot % pageSize = 0
  pageDmas_some : pageDmas slot ≠ 0

namespace PrefillOp

variable {size : Nat} (op : PrefillOp size) (buffer : EngineBuffer size)

/-- `single_buf_size`. -/
def singleBuf : Nat := singleBufSize op.job.singleSize

/-- `lbasPerIo` of the kernel: the blocks in a slot. -/
def blocks : Nat := op.singleBuf / op.job.lbaSize % 2 ^ 32

def lbasOp : Nat := if op.lbas ≠ 0 then op.lbas else op.blocks

def length : Nat := op.lbasOp * op.job.lbaSize

/-- Whether there is a pool of lists: `xfer_pages > 2`. -/
def pooled : Bool := (op.singleBuf + pageSize - 1) / pageSize > 2

/-- `prpDma` of the kernel. -/
def prpDma : Nat := if op.pooled then op.pageDmas op.slot else 0

def kernel : Kernel :=
  .persistent op.job.singleSize op.slot op.job.lbaSize op.length op.prpDma

def prps : Prps := op.kernel.prps buffer.toMapping

/-- A word of the slot's list when the kernel runs: what its thread wrote, and zero where no
thread wrote. -/
def listWord (index : Nat) : Nat :=
  if op.slot < op.job.batchCap ∧ op.slot < prefillThreads then
    (op.kernel.list buffer.toMapping).getD index 0
  else 0

/-- The controller reads the words of the list at its DMA address. -/
def Visible (memory : Nat → Nat) : Prop :=
  op.pooled → ∀ index < prpListEntriesPerPage,
    memory (op.pageDmas op.slot + 8 * index) = op.listWord buffer index

/-- `cdw12` as `sqeSetup` leaves it in a command that was all zero. -/
def cdw12 : Nat := if op.lbasOp ≠ 0 then op.lbasOp - 1 else 0

/-- The number of blocks of the command: its field has 16 bits and counts from zero. -/
def blockCount : Nat := op.cdw12 % 2 ^ 16 + 1

/-- The command transfers the first bytes of its slot, with the blocks of the operation. -/
structure Correct : Prop where
  describes : Describes buffer (op.Visible buffer) (op.prps buffer)
    (copyOffset op.job.singleSize op.slot 0) op.length
  counted : op.blockCount = op.lbasOp

/-- The conditions: the kernel finds the slot, a list has room for the pages, and the field
has room for the blocks. -/
structure Sound : Prop where
  slot : op.slot = 0 ∨ xferSize op.job.singleSize op.job.lbaSize = op.singleBuf
  pages : op.length ≤ 513 * pageSize
  blocks : 1 ≤ op.lbasOp ∧ op.lbasOp ≤ 2 ^ 16

end PrefillOp

/-! ### Sizes -/

namespace PrefillOp

variable {size : Nat} {op : PrefillOp size} {buffer : EngineBuffer size}

theorem slot_le : op.slot * op.singleBuf + op.singleBuf ≤ size := by
  have slot := (Nat.mul_le_mul_right op.singleBuf op.slot_lt).trans op.buffer_le
  rwa [Nat.succ_mul] at slot

theorem listWord_eq (index : Nat) :
    op.listWord buffer index = (op.kernel.list buffer.toMapping).getD index 0 := by
  have depth := op.job.cappedIodepth_le
  have slot : op.slot < op.job.cappedIodepth := op.slot_lt
  exact if_pos ⟨op.slot_lt, by unfold prefillThreads; omega⟩

theorem xferSize_le : xferSize op.job.singleSize op.job.lbaSize ≤ op.singleBuf :=
  (Nat.mul_le_mul_right _ (Nat.mod_le _ _)).trans (Nat.div_mul_le_self _ _)

theorem length_le : op.length ≤ op.singleBuf := by
  rw [length, lbasOp]
  split
  · exact op.lbas_le
  · exact (Nat.mul_le_mul_right _ (Nat.mod_le _ _)).trans (Nat.div_mul_le_self _ _)

theorem start_eq : copyOffset op.job.singleSize op.slot 0 = op.slot * op.singleBuf := rfl

theorem start_add_le : op.slot * op.singleBuf + op.length ≤ size :=
  (Nat.add_le_add_left length_le _).trans slot_le

theorem start_lt : op.slot * op.singleBuf < size :=
  (Nat.lt_add_of_pos_right (pageRound_pos _)).trans_le slot_le

theorem start_mod : op.slot * op.singleBuf % pageSize = 0 :=
  copyOffset_mod op.job.singleSize op.slot 0

theorem pages_mul : op.singleBuf / pageSize * pageSize = op.singleBuf :=
  Nat.div_mul_cancel (Nat.dvd_of_mod_eq_zero (pageRound_mod _))

theorem singleBufPages_eq : singleBufPages op.job.singleSize = op.singleBuf / pageSize :=
  Nat.mod_eq_of_lt op.pages_lt

theorem start_div :
    op.slot * op.singleBuf / pageSize = op.slot * singleBufPages op.job.singleSize := by
  rw [singleBufPages_eq, ← start_eq, copyOffset_div, Nat.zero_div, Nat.add_zero]
  rfl

theorem bufOff_eq (buffer : EngineBuffer size) :
    op.kernel.bufOff = op.slot * xferSize op.job.singleSize op.job.lbaSize := by
  have bound := buffer.size_le (Nat.zero_lt_of_lt op.start_lt)
  have inside := op.start_lt
  have less := Nat.mul_le_mul_left op.slot op.xferSize_le
  exact Nat.mod_eq_of_lt (by omega)

theorem bufOff_lt (buffer : EngineBuffer size) : op.kernel.bufOff < size := by
  rw [bufOff_eq buffer]
  exact (Nat.mul_le_mul_left op.slot op.xferSize_le).trans_lt op.start_lt

theorem prp1_of_tabled {table : Nat → Nat} (tabled : buffer.pagePhysAddrs = some table) :
    (op.prps buffer).prp1 = buffer.page (op.kernel.bufOff / pageSize) := by
  rw [prps, Kernel.prps, calculatePrps_prp1]
  simp only [kernel, Kernel.address, Kernel.pageAddress, Mapping.page, tabled]

theorem prp1_of_untabled (untabled : buffer.pagePhysAddrs = none) :
    (op.prps buffer).prp1 = buffer.bufferDma + op.kernel.bufOff := by
  have bound := buffer.untabled_lt untabled (op.bufOff_lt buffer)
  rw [prps, Kernel.prps, calculatePrps_prp1]
  simp only [kernel, Kernel.address, Kernel.pageAddress, untabled, Mapping.base,
    if_pos (buffer.untabled_based untabled)]
  exact Nat.mod_eq_of_lt bound

theorem prp1_eq_iff :
    (op.prps buffer).prp1 = Lib.translate pageSize buffer.page (op.slot * op.singleBuf) ↔
      op.slot = 0 ∨ xferSize op.job.singleSize op.job.lbaSize = op.singleBuf := by
  have offset := op.bufOff_eq buffer
  have less := Nat.mul_le_mul_left op.slot op.xferSize_le
  have aligned := op.start_mod
  have same : op.slot * xferSize op.job.singleSize op.job.lbaSize = op.slot * op.singleBuf ↔
      op.slot = 0 ∨ xferSize op.job.singleSize op.job.lbaSize = op.singleBuf := by
    rw [mul_eq_mul_left_iff, or_comm]
  rw [← same, ← offset]
  cases tabled : buffer.pagePhysAddrs with
  | none =>
    rw [prp1_of_untabled tabled, buffer.translate_of_untabled tabled]
    exact Nat.add_left_cancel_iff
  | some table =>
    rw [prp1_of_tabled tabled, Lib.translate, aligned, Nat.add_zero]
    constructor
    · intro equal
      have pages := buffer.page_injective (op.bufOff_lt buffer) op.start_lt equal
      rw [pageSize_eq] at pages aligned
      omega
    · intro equal
      rw [equal]

theorem prefillWord_eq {index : Nat}
    (inside : (op.slot * op.singleBuf / pageSize + 1 + index) * pageSize < size) :
    Kernel.prefillWord buffer.toMapping op.job.singleSize op.slot index =
      buffer.page (op.slot * op.singleBuf / pageSize + 1 + index) := by
  rw [start_div] at inside ⊢
  cases tabled : buffer.pagePhysAddrs with
  | some table =>
    have small := buffer.small_of_tabled tabled
    simp only [Kernel.prefillWord, Mapping.page, tabled]
    rw [Nat.mod_eq_of_lt]
    rw [pageSize_eq] at inside
    omega
  | none =>
    have space := buffer.untabled_lt tabled inside
    rw [buffer.page_of_untabled tabled]
    simp only [Kernel.prefillWord, tabled]
    rw [pageSize_eq] at space ⊢
    omega

theorem listWord_of_lt {index : Nat} (large : 2 * pageSize < op.singleBuf)
    (listed : index < prpListEntriesPerPage) (inSlot : (index + 1) * pageSize < op.singleBuf) :
    op.listWord buffer index = buffer.page (op.slot * op.singleBuf / pageSize + 1 + index) := by
  have entries : index < Kernel.prefillEntries op.job.singleSize := by
    have launched : singleBufSize op.job.singleSize > 2 * pageSize := large
    have counted : index + 1 < op.singleBuf / pageSize := by
      rw [← op.pages_mul] at inSlot
      exact Nat.lt_of_mul_lt_mul_right inSlot
    rw [Kernel.prefillEntries, if_pos launched, singleBufPages_eq, lt_min_iff]
    exact ⟨Nat.lt_sub_of_add_lt counted, listed⟩
  have inside : (op.slot * op.singleBuf / pageSize + 1 + index) * pageSize < size :=
    (next_page_lt inSlot).trans_le op.slot_le
  rw [listWord_eq, kernel, Kernel.list, List.getD_eq_getElem?_getD, List.getElem?_map,
    List.getElem?_range entries, Option.map_some, Option.getD_some, prefillWord_eq inside]

end PrefillOp

/-! ### Sound operations -/

theorem calculatePrps_words (bufferAddr length prpListDma : Nat)
    (pagePhysAddrs : Option (Nat → Nat)) (bufPageOffset : Nat) :
    let written := calculatePrps bufferAddr length true prpListDma pagePhysAddrs bufPageOffset
    let pointed := calculatePrps bufferAddr length false prpListDma pagePhysAddrs bufPageOffset
    pointed.prp1 = written.prp1 ∧ pointed.prp2 = written.prp2 := by
  simp only [calculatePrps]
  split_ifs <;> exact ⟨rfl, rfl⟩

theorem EngineBuffer.list_word {size : Nat} (buffer : EngineBuffer size)
    {start length prpListDma index word : Nat} (aligned : start % pageSize = 0)
    (inside : start + length ≤ size) (fits : length ≤ 513 * pageSize)
    (found : (calculatePrps (Lib.translate pageSize buffer.page start) length true prpListDma
      buffer.pagePhysAddrs (start / pageSize)).list[index]? = some word) :
    2 * pageSize < length ∧ (index + 1) * pageSize < length ∧ index < prpListEntriesPerPage ∧
      word = buffer.page (start / pageSize + 1 + index) := by
  by_cases short : length ≤ pageSize
  · rcases Nat.eq_zero_or_pos length with rfl | some
    · cases found
    · have first := buffer.translate_mod (show start < size by omega)
      rw [aligned] at first
      rw [calculatePrps, first, Nat.sub_zero, if_pos short, List.getElem?_nil] at found
      cases found
  · have first := buffer.translate_mod (show start < size by omega)
    rw [aligned] at first
    rw [calculatePrps_beyond _ _ _ _ _ _ (by rw [first, Nat.sub_zero]) rfl (Nat.lt_of_not_le short)
      (by omega)] at found
    obtain ⟨-, most, single⟩ := remaining_pages length pageSize (Nat.lt_of_not_le short) (by omega)
    split at found
    case isTrue =>
      cases found
    case isFalse several =>
      rw [if_pos rfl, List.getElem?_map, Option.map_eq_some_iff] at found
      obtain ⟨position, inRange, rfl⟩ := found
      obtain ⟨below, rfl⟩ := List.getElem?_eq_some_iff.mp inRange
      rw [List.length_range] at below
      rw [List.getElem_range]
      have reached : (index + 1) * pageSize < length := by
        rw [pageSize_eq] at below ⊢
        omega
      have page := (next_page_lt reached).trans_le inside
      have value := buffer.followingPage_eq start index page fun tabled =>
        Nat.lt_of_mul_lt_mul_right (page.trans_le (buffer.tabled_small tabled))
      rw [aligned, Nat.sub_zero] at value
      refine ⟨?_, reached, below.trans_le most, value⟩
      omega

namespace PrefillOp

variable {size : Nat} {op : PrefillOp size} {buffer : EngineBuffer size}

theorem pooled_of_large (large : 2 * pageSize < op.singleBuf) : op.pooled = true := by
  rw [pooled, decide_eq_true_eq]
  rw [pageSize_eq] at large ⊢
  omega

theorem prps_of_sound (sound : op.Sound) :
    op.prps buffer = calculatePrps (Lib.translate pageSize buffer.page (op.slot * op.singleBuf))
      op.length false op.prpDma buffer.pagePhysAddrs (op.slot * op.singleBuf / pageSize) := by
  have found : op.kernel.bufOff = op.slot * op.singleBuf := by
    rw [bufOff_eq buffer]
    rcases sound.slot with first | whole
    · rw [first, Nat.zero_mul, Nat.zero_mul]
    · rw [whole]
  have short : op.length % 2 ^ 32 = op.length := by
    have pages := sound.pages
    rw [pageSize_eq] at pages
    omega
  have address : op.kernel.address buffer.toMapping =
      Lib.translate pageSize buffer.page (op.slot * op.singleBuf) := by
    have word : (op.prps buffer).prp1 = _ := prp1_eq_iff.mpr sound.slot
    rwa [prps, Kernel.prps, calculatePrps_prp1] at word
  rw [prps, Kernel.prps, address, found]
  show calculatePrps _ (op.length % 2 ^ 32) false op.prpDma _ _ = _
  rw [short]
  cases tabled : buffer.pagePhysAddrs with
  | none => rfl
  | some table =>
    have small := buffer.small_of_tabled tabled
    have inside := op.start_lt
    rw [Nat.mod_eq_of_lt]
    rw [pageSize_eq]
    omega

theorem describes_of_sound (sound : op.Sound) :
    Describes buffer (op.Visible buffer) (op.prps buffer) (op.slot * op.singleBuf) op.length := by
  intro memory visible offset below
  obtain ⟨first, second⟩ := calculatePrps_words
    (Lib.translate pageSize buffer.page (op.slot * op.singleBuf)) op.length op.prpDma
    buffer.pagePhysAddrs (op.slot * op.singleBuf / pageSize)
  rw [← prps_of_sound sound] at first second
  rw [first, second]
  have aligned := op.start_mod
  refine buffer.calculatePrps_denotes memory true op.prpDma op.start_add_le
    (fun tabled => op.start_add_le.trans (buffer.tabled_small tabled))
    (by rw [aligned, Nat.zero_add]; exact sound.pages) (fun _ => rfl) _ rfl ?_ offset below
  intro index word found
  obtain ⟨long, reached, listed, rfl⟩ := buffer.list_word aligned op.start_add_le sound.pages found
  have large := long.trans_le op.length_le
  have pool := pooled_of_large large
  rw [prpDma, if_pos pool, visible pool index listed,
    listWord_of_lt large listed (reached.trans_le op.length_le)]

theorem blockCount_eq_iff : op.blockCount = op.lbasOp ↔ 1 ≤ op.lbasOp ∧ op.lbasOp ≤ 2 ^ 16 := by
  rw [blockCount, cdw12]
  split
  · omega
  · omega

/-! ### Correct operations -/

/-- The list of the slot and one value everywhere else. -/
theorem memoryWith_visible (value : Nat) :
    op.Visible buffer (memoryWith (op.pageDmas op.slot) (op.listWord buffer) value) :=
  fun _ _ listed => memoryWith_list value listed

section

variable (some : 0 < op.length)
  (describes : Describes buffer (op.Visible buffer) (op.prps buffer) (op.slot * op.singleBuf)
    op.length)

include some describes

theorem prp1_of_describes :
    (op.prps buffer).prp1 = Lib.translate pageSize buffer.page (op.slot * op.singleBuf) := by
  have looked := describes _ (memoryWith_visible 0) 0 some
  rwa [prpAddress_zero, Nat.add_zero] at looked

theorem prp1_mod_of_describes : (op.prps buffer).prp1 % pageSize = 0 := by
  rw [prp1_of_describes some describes, buffer.translate_mod op.start_lt, op.start_mod]

/-- Whatever the second word is, it is the address of a page. -/
theorem prp2_aligned (large : 2 * pageSize < op.singleBuf)
    (beyond : (0 + 1) * pageSize < op.length) :
    (op.prps buffer).prp2 % pageSize = 0 := by
  have address : op.kernel.address buffer.toMapping =
      Lib.translate pageSize buffer.page (op.slot * op.singleBuf) := by
    have first := prp1_of_describes some describes
    rwa [prps, Kernel.prps, calculatePrps_prp1] at first
  have before : op.kernel.bufOff ≤ op.slot * op.singleBuf := by
    rw [bufOff_eq buffer]
    exact Nat.mul_le_mul_left op.slot op.xferSize_le
  have listed : op.kernel.prpListDma = op.pageDmas op.slot := if_pos (pooled_of_large large)
  obtain zero | next | list := calculatePrps_prp2 (op.kernel.address buffer.toMapping)
    (op.kernel.length % 2 ^ 32) op.kernel.prpList op.kernel.prpListDma buffer.pagePhysAddrs
    (op.kernel.bufOff / pageSize % 2 ^ 32)
  · rw [prps, Kernel.prps, zero, Nat.zero_mod]
  · obtain ⟨page, inside, same⟩ := buffer.followingPage_inside before
      ((next_page_lt beyond).trans_le op.start_add_le)
    rw [prps, Kernel.prps, next, address, buffer.translate_mod op.start_lt, same]
    exact buffer.aligned page inside
  · rw [prps, Kernel.prps, list, listed, op.pageDmas_aligned]

theorem pages_of_describes : op.length ≤ 513 * pageSize := by
  by_contra long
  rw [Nat.not_le] at long
  have slotSize := op.length_le
  have large : 2 * pageSize < op.singleBuf := by
    omega
  have first := prp1_mod_of_describes some describes
  have reachedFirst : (0 + 1) * pageSize < op.length :=
    (Nat.mul_lt_mul_of_pos_right (by decide) (by decide)).trans long
  have reached : (511 + 1) * pageSize < op.length :=
    (Nat.mul_lt_mul_of_pos_right (by decide) (by decide)).trans long
  have firstPage := (next_page_lt reachedFirst).trans_le op.start_add_le
  have lastPage := (next_page_lt reached).trans_le op.start_add_le
  have lastWord : op.listWord buffer 511 =
      buffer.page (op.slot * op.singleBuf / pageSize + 1 + 511) :=
    listWord_of_lt large (by decide) (reached.trans_le slotSize)
  refine lastPage_lost ?_ op.pageDmas_aligned (prp2_aligned some describes large reachedFirst) ?_
    ?_ fun value => describes _ (memoryWith_visible value)
  · rw [first, Nat.sub_zero]
    omega
  · rw [lastWord]
    exact buffer.aligned _ lastPage
  · -- the first word of the list is another page than the one behind its last word
    intro _ equal
    have after : pageSize + 511 * pageSize = 512 * pageSize := by omega
    rw [listWord_of_lt large (by decide) (reachedFirst.trans_le slotSize), first, Nat.sub_zero,
      after, Lib.translate, Nat.add_mul_mod_self_right, op.start_mod, Nat.add_zero,
      Nat.add_mul_div_right _ _ (by decide)] at equal
    have same := buffer.distinct _ (op.slot * op.singleBuf / pageSize + 512) firstPage
      (by rwa [Nat.add_assoc] at lastPage) equal
    omega

end

end PrefillOp

/-- An operation is correct exactly when its slot is the first or the blocks of a slot fill it, it
has at most 513 pages, and its blocks fit the field of the command. -/
theorem prefill_correct_iff {size : Nat} (buffer : EngineBuffer size) (op : PrefillOp size) :
    op.Correct buffer ↔ op.Sound := by
  constructor
  · rintro ⟨describes, counted⟩
    have blocks := PrefillOp.blockCount_eq_iff.mp counted
    have some : 0 < op.length := Nat.mul_pos blocks.1 op.lbaSize_pos
    exact ⟨PrefillOp.prp1_eq_iff.mp (PrefillOp.prp1_of_describes some describes),
      PrefillOp.pages_of_describes some describes, blocks⟩
  · intro sound
    exact ⟨PrefillOp.describes_of_sound sound, PrefillOp.blockCount_eq_iff.mpr sound.blocks⟩

def wideJob : Job where
  iodepth := 1
  maxBsRead := 514 * 4096
  maxBsWrite := 0
  lbaSize := 512
  queueDepth := 64

def wideEngineBuffer : EngineBuffer 2105344 where
  buffer := 2 ^ 40
  bufferDma := 2 ^ 32
  pagePhysAddrs := none
  aligned := fun index _ => contiguous_aligned index
  inSpace := fun _ inside => contiguous_inSpace (by decide) inside
  isDeviceMemory := false
  device_untabled := fun _ => rfl
  untabled_based := contiguous_based
  tabled_small := fun tabled => absurd rfl tabled
  distinct := fun _ _ _ _ equal => contiguous_distinct equal

def wideOp : PrefillOp 2105344 where
  job := wideJob
  slot := 0
  lbas := 4112
  pageDmas := fun _ => 2 ^ 20
  pages_lt := by decide
  lbaSize_pos := by decide
  lbas_le := by decide
  slot_lt := by decide
  buffer_le := by decide
  pageDmas_aligned := by decide
  pageDmas_some := by decide

theorem prefill_list_overrun : ¬wideOp.Correct wideEngineBuffer := by
  intro correct
  exact absurd (PrefillOp.pages_of_describes (by decide) correct.describes) (by decide)

end RocmXio.Fio
