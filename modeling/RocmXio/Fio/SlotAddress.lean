/-
The slots of the engine's data buffer and the commands of `rxio_submit`.

`rxio_copy_to_gpu` and `rxio_copy_from_gpu` find the slot of an operation by its GPU address;
`rxio_submit` moves the parameters of `gpuKernelStateful` to it. It moves the DMA address of host
memory, but not that of device memory, and never the table of page addresses, so the PRPs mean the
slot in one of three kinds of buffers only. With a table, operations that begin inside a page lose
their place in it, and those on more than two pages have no list.
-/

import RocmXio.Nvme.DataAddress

namespace RocmXio.Fio

open Nvme Lib

/-! ### The data buffer -/

/-- `data_buf`: its pages are different ones. Device memory has no table, and a table is made for at
most 1024 system pages. -/
structure EngineBuffer (size : Nat) extends DataBuffer size where
  isDeviceMemory : Bool
  device_untabled : isDeviceMemory = true → pagePhysAddrs = none
  untabled_based : pagePhysAddrs = none → bufferDma ≠ 0
  tabled_small : pagePhysAddrs ≠ none → size ≤ 2 ^ 44
  distinct : ∀ first second, first * pageSize < size → second * pageSize < size →
    toMapping.page first = toMapping.page second → first = second

/-- Where the copies find byte `k` of a slot, as an offset in the data buffer. -/
def copyOffset (singleSize slot k : Nat) : Nat := slot * singleBufSize singleSize + k

/-- The words of a command describe `length` bytes of the buffer from `start` on, for a
controller that reads any memory with the given property. -/
def Describes {size : Nat} (buffer : EngineBuffer size) (visible : (Nat → Nat) → Prop)
    (prps : Prps) (start length : Nat) : Prop :=
  ∀ memory, visible memory → ∀ offset < length,
    prpAddress memory prps.prp1 prps.prp2 length offset =
      Lib.translate pageSize buffer.page (start + offset)

namespace EngineBuffer

variable {size : Nat} (buffer : EngineBuffer size)

/-- The buffer parameters of `rxio_submit` for a slot at offset `off`. -/
def submitMapping (off : Nat) : Mapping :=
  if buffer.isDeviceMemory then
    { Kernel.slotMapping buffer.toMapping off with bufferDma := buffer.bufferDma }
  else Kernel.slotMapping buffer.toMapping off

end EngineBuffer

/-! ### One call -/

/-- Operation `b` of a call of `rxio_submit`, for a slot of a data buffer of `size` bytes. -/
structure SubmitOp (size : Nat) where
  singleSize : Nat
  batchCap : Nat
  slot : Nat
  lbas : Nat
  lbaSize : Nat
  nOps : Nat
  b : Nat
  slot_lt : slot < batchCap
  buffer_le : batchCap * singleBufSize singleSize ≤ size
  ops_le : nOps * (lbas * lbaSize) ≤ singleBufSize singleSize
  b_lt : b < nOps

namespace SubmitOp

variable {size : Nat} (op : SubmitOp size) (buffer : EngineBuffer size)

def transferSize : Nat := op.lbas * op.lbaSize

/-- `buf_off` of `gpuKernelStateful`. -/
def bufOff : Nat := op.b * op.transferSize % 2 ^ 64

/-- The words of the command. The parameters have no pool of lists. -/
def prps : Prps :=
  calculatePrps
    (Kernel.pageAddress
      (buffer.submitMapping (op.slot * singleBufSize op.singleSize % 2 ^ 64)) op.bufOff)
    (op.transferSize % 2 ^ 32) false 0 buffer.pagePhysAddrs (op.bufOff / pageSize % 2 ^ 32)

def start : Nat := copyOffset op.singleSize op.slot (op.b * op.transferSize)

/-- There is nothing to transfer, or it is on at most two pages, in the first slot unless the buffer
is host memory without a table, and with a table it begins a page. -/
def Sound : Prop :=
  op.transferSize = 0 ∨ (op.b * op.transferSize % pageSize + op.transferSize ≤ 2 * pageSize ∧
      (op.slot = 0 ∨ (buffer.isDeviceMemory = false ∧ buffer.pagePhysAddrs = none)) ∧
      (buffer.pagePhysAddrs ≠ none → op.b * op.transferSize % pageSize = 0))

end SubmitOp

/-! ### Addresses -/

theorem copyOffset_mod (singleSize slot k : Nat) :
    copyOffset singleSize slot k % pageSize = k % pageSize := by
  rw [copyOffset, singleBufSize, Nat.add_mod, Nat.mul_mod, pageRound_mod, Nat.mul_zero,
    Nat.zero_mod, Nat.zero_add, Nat.mod_mod]

theorem copyOffset_div (singleSize slot k : Nat) : copyOffset singleSize slot k / pageSize =
      slot * (singleBufSize singleSize / pageSize) + k / pageSize := by
  have whole : slot * singleBufSize singleSize =
      pageSize * (slot * (singleBufSize singleSize / pageSize)) := by
    rw [singleBufSize, Nat.mul_left_comm,
      Nat.mul_div_cancel' (Nat.dvd_of_mod_eq_zero (pageRound_mod _))]
  rw [copyOffset, whole, Nat.mul_add_div (by decide)]

theorem singleBufSize_div_pos (singleSize : Nat) : 0 < singleBufSize singleSize / pageSize :=
  Nat.div_pos (Nat.le_of_dvd (pageRound_pos singleSize)
    (Nat.dvd_of_mod_eq_zero (pageRound_mod singleSize))) (by decide)

namespace EngineBuffer

variable {size : Nat} (buffer : EngineBuffer size)

theorem page_of_untabled (untabled : buffer.pagePhysAddrs = none) (index : Nat) :
    buffer.page index = buffer.bufferDma + index * pageSize := by
  rw [Mapping.page, untabled, Mapping.base, if_pos (buffer.untabled_based untabled)]

theorem translate_of_untabled (untabled : buffer.pagePhysAddrs = none) (offset : Nat) :
    Lib.translate pageSize buffer.page offset = buffer.bufferDma + offset := by
  rw [Lib.translate, buffer.page_of_untabled untabled, Nat.add_assoc, Nat.mul_comm,
    Nat.div_add_mod]

theorem untabled_lt (untabled : buffer.pagePhysAddrs = none) {offset : Nat}
    (inside : offset < size) : buffer.bufferDma + offset < 2 ^ 64 := by
  have space := buffer.inSpace (offset / pageSize)
    (Nat.lt_of_le_of_lt (Nat.div_mul_le_self _ _) inside)
  rw [buffer.page_of_untabled untabled, pageSize_eq] at space
  omega

theorem small_of_tabled {table : Nat → Nat} (tabled : buffer.pagePhysAddrs = some table) :
    size ≤ 2 ^ 44 :=
  buffer.tabled_small (Option.ne_none_iff_exists'.mpr ⟨table, tabled⟩)

include buffer in
theorem size_le (some : 0 < size) : size ≤ 2 ^ 64 := by
  cases tabled : buffer.pagePhysAddrs with
  | some table =>
    have small := buffer.small_of_tabled tabled
    omega
  | none =>
    have last := buffer.untabled_lt tabled (Nat.sub_lt some Nat.one_pos)
    omega

theorem page_aligned {offset : Nat} (inside : offset < size) :
    buffer.page (offset / pageSize) % pageSize = 0 :=
  buffer.aligned _ (Nat.lt_of_le_of_lt (Nat.div_mul_le_self _ _) inside)

theorem page_injective {first second : Nat} (inFirst : first < size) (inSecond : second < size)
    (equal : buffer.page (first / pageSize) = buffer.page (second / pageSize)) :
    first / pageSize = second / pageSize :=
  buffer.distinct _ _ (Nat.lt_of_le_of_lt (Nat.div_mul_le_self _ _) inFirst)
    (Nat.lt_of_le_of_lt (Nat.div_mul_le_self _ _) inSecond) equal

end EngineBuffer

theorem next_page_lt {start length index : Nat} (reached : (index + 1) * pageSize < length) :
    (start / pageSize + 1 + index) * pageSize < start + length :=
  calc (start / pageSize + 1 + index) * pageSize
      = start / pageSize * pageSize + (index + 1) * pageSize := by ring
    _ ≤ start + (index + 1) * pageSize := Nat.add_le_add_right (Nat.div_mul_le_self _ _) _
    _ < start + length := Nat.add_lt_add_left reached _

namespace SubmitOp

variable {size : Nat} {op : SubmitOp size} {buffer : EngineBuffer size}

theorem start_add_le : op.start + op.transferSize ≤ size := by
  have operation : (op.b + 1) * op.transferSize ≤ singleBufSize op.singleSize :=
    (Nat.mul_le_mul_right _ op.b_lt).trans op.ops_le
  have slot : (op.slot + 1) * singleBufSize op.singleSize ≤ size :=
    (Nat.mul_le_mul_right _ op.slot_lt).trans op.buffer_le
  rw [Nat.succ_mul] at operation slot
  rw [start, copyOffset]
  omega

section

variable (some : 0 < op.transferSize)

include some

theorem start_lt : op.start < size := (Nat.lt_add_of_pos_right some).trans_le start_add_le

theorem bufOff_eq (buffer : EngineBuffer size) : op.bufOff = op.b * op.transferSize := by
  have bound := (start_lt some).trans_le (buffer.size_le (Nat.zero_lt_of_lt (start_lt some)))
  rw [start, copyOffset] at bound
  exact Nat.mod_eq_of_lt (by omega)

/-- With a table the first word is the address of the page at the operation's offset in the
slot. -/
theorem prp1_of_tabled {table : Nat → Nat} (tabled : buffer.pagePhysAddrs = .some table) :
    (op.prps buffer).prp1 = buffer.page (op.b * op.transferSize / pageSize) := by
  rw [prps, calculatePrps_prp1, bufOff_eq some buffer, Mapping.page, tabled]
  cases device : buffer.isDeviceMemory <;>
    simp [Kernel.pageAddress, EngineBuffer.submitMapping, Kernel.slotMapping, device, tabled]

theorem prp1_of_untabled (untabled : buffer.pagePhysAddrs = none) :
    (op.prps buffer).prp1 = buffer.bufferDma +
      ((if buffer.isDeviceMemory then 0 else op.slot * singleBufSize op.singleSize) +
        op.b * op.transferSize) := by
  have based := buffer.untabled_based untabled
  have bound := buffer.untabled_lt untabled (start_lt some)
  rw [start, copyOffset] at bound
  rw [prps, calculatePrps_prp1, bufOff_eq some buffer]
  cases device : buffer.isDeviceMemory with
  | true =>
    simp only [Kernel.pageAddress, EngineBuffer.submitMapping, device, untabled, if_true,
      Mapping.base, Kernel.slotMapping, if_pos based]
    omega
  | false =>
    have moved : (buffer.bufferDma + op.slot * singleBufSize op.singleSize % 2 ^ 64) % 2 ^ 64 =
        buffer.bufferDma + op.slot * singleBufSize op.singleSize := by omega
    have someDma : buffer.bufferDma + op.slot * singleBufSize op.singleSize ≠ 0 := by omega
    simp only [Kernel.pageAddress, EngineBuffer.submitMapping, device, untabled, if_false,
      Bool.false_eq_true, Mapping.base, Kernel.slotMapping, moved, if_pos someDma]
    omega

theorem prps_of_sound (sound : op.Sound buffer) :
    op.prps buffer = calculatePrps (Lib.translate pageSize buffer.page op.start) op.transferSize
      false 0 buffer.pagePhysAddrs (op.start / pageSize) := by
  obtain ⟨fewPages, slot, onPage⟩ := sound.resolve_left (Nat.pos_iff_ne_zero.mp some)
  have short : op.transferSize % 2 ^ 32 = op.transferSize := by
    rw [pageSize_eq] at fewPages
    omega
  have address := calculatePrps_prp1
    (Kernel.pageAddress (buffer.submitMapping
      (op.slot * singleBufSize op.singleSize % 2 ^ 64)) op.bufOff)
    (op.transferSize % 2 ^ 32) false 0 buffer.pagePhysAddrs (op.bufOff / pageSize % 2 ^ 32)
  rw [← prps] at address
  cases tabled : buffer.pagePhysAddrs with
  | some table =>
    have first : op.slot = 0 := by
      rcases slot with zero | ⟨-, untabled⟩
      · exact zero
      · rw [tabled] at untabled
        exact nomatch untabled
    have start : op.start = op.b * op.transferSize := by
      rw [SubmitOp.start, copyOffset, first, Nat.zero_mul, Nat.zero_add]
    have aligned := onPage (Option.ne_none_iff_exists'.mpr ⟨_, tabled⟩)
    have small := buffer.small_of_tabled tabled
    have inside := start_lt some
    rw [prp1_of_tabled some tabled] at address
    rw [prps, ← address, short, bufOff_eq some buffer, tabled, Lib.translate, start,
      aligned, Nat.add_zero, Nat.mod_eq_of_lt]
    rw [pageSize_eq]
    omega
  | none =>
    rw [prp1_of_untabled some tabled] at address
    rw [prps, ← address, short, tabled, buffer.translate_of_untabled tabled]
    rcases slot with first | ⟨host, -⟩
    · rw [start, copyOffset, first, Nat.zero_mul, ite_self]
      rfl
    · rw [start, copyOffset, host]
      rfl

theorem describes_of_sound (sound : op.Sound buffer) :
    Describes buffer (fun _ => True) (op.prps buffer) op.start op.transferSize := by
  intro memory _ offset below
  obtain ⟨fewPages, -, -⟩ := sound.resolve_left (Nat.pos_iff_ne_zero.mp some)
  rw [← copyOffset_mod op.singleSize op.slot, ← start] at fewPages
  refine buffer.calculatePrps_denotes memory false 0 start_add_le
    (fun tabled => start_add_le.trans (buffer.tabled_small tabled)) (by omega)
    (fun long => absurd long (by omega)) _ (prps_of_sound some sound).symm ?_ offset below
  intro index word found
  have length := calculatePrps_list_length (Lib.translate pageSize buffer.page op.start)
    op.transferSize false 0 buffer.pagePhysAddrs (op.start / pageSize)
  rw [← prps_of_sound some sound, if_neg Bool.false_ne_true, Nat.le_zero,
    List.length_eq_zero_iff] at length
  rw [length] at found
  exact nomatch found

theorem sound_of_describes
    (describes : Describes buffer (fun _ => True) (op.prps buffer) op.start op.transferSize) :
    op.Sound buffer := by
  have first : (op.prps buffer).prp1 = Lib.translate pageSize buffer.page op.start := by
    have looked := describes (fun _ => 0) trivial 0 some
    rwa [prpAddress_zero, Nat.add_zero] at looked
  have place : (op.prps buffer).prp1 % pageSize = op.b * op.transferSize % pageSize := by
    rw [first, buffer.translate_mod (start_lt some), start, copyOffset_mod]
  have inPage := Nat.mod_lt (op.b * op.transferSize) (show 0 < pageSize by decide)
  have inside := start_lt some
  have inSlot : op.b * op.transferSize ≤ op.start := Nat.le_add_left _ _
  have aligned : buffer.pagePhysAddrs ≠ none → op.b * op.transferSize % pageSize = 0 := by
    intro tabled
    obtain ⟨table, known⟩ := Option.ne_none_iff_exists'.mp tabled
    rw [← place, prp1_of_tabled some known]
    exact buffer.page_aligned (inSlot.trans_lt inside)
  refine .inr ⟨?_, ?_, aligned⟩
  · -- A list would be read from wherever the second word points, whatever is there.
    by_contra long
    have beyond : pageSize - (op.prps buffer).prp1 % pageSize + pageSize < op.transferSize := by
      omega
    have looked (word : Nat) := describes (fun _ => word) trivial
      (pageSize - (op.prps buffer).prp1 % pageSize) (by omega)
    simp only [prpAddress_second _ _ _ _ beyond] at looked
    exact absurd ((looked 0).trans (looked 1).symm) (by decide)
  · cases tabled : buffer.pagePhysAddrs with
    | some table =>
      left
      have onPage := aligned (Option.ne_none_iff_exists'.mpr ⟨_, tabled⟩)
      have pages : op.start % pageSize = 0 := by rw [start, copyOffset_mod, onPage]
      rw [prp1_of_tabled some tabled, Lib.translate, pages, Nat.add_zero] at first
      have same := buffer.page_injective (inSlot.trans_lt inside) inside first
      rw [start, copyOffset_div] at same
      have none : op.slot * (singleBufSize op.singleSize / pageSize) = 0 := by omega
      exact (Nat.mul_eq_zero.mp none).resolve_right (singleBufSize_div_pos op.singleSize).ne'
    | none =>
      rw [prp1_of_untabled some tabled, buffer.translate_of_untabled tabled, start,
        copyOffset] at first
      cases device : buffer.isDeviceMemory with
      | false => exact .inr ⟨rfl, rfl⟩
      | true =>
        left
        rw [device, if_pos rfl] at first
        have none : op.slot * singleBufSize op.singleSize = 0 := by omega
        exact (Nat.mul_eq_zero.mp none).resolve_right (pageRound_pos _).ne'

end

end SubmitOp

/-- The PRPs of an operation describe the bytes that the copies move for it exactly when it is on at
most two pages, begins a page if there is a table, and is in the first slot unless the buffer is
host memory without a table. -/
theorem submit_describes_iff {size : Nat} (buffer : EngineBuffer size) (op : SubmitOp size) :
    Describes buffer (fun _ => True) (op.prps buffer)
        (copyOffset op.singleSize op.slot (op.b * op.transferSize)) op.transferSize ↔
      op.Sound buffer := by
  rcases Nat.eq_zero_or_pos op.transferSize with none | some
  · refine ⟨fun _ => .inl none, fun _ memory _ offset below => ?_⟩
    rw [none] at below
    exact absurd below (Nat.not_lt_zero _)
  · exact ⟨SubmitOp.sound_of_describes some, SubmitOp.describes_of_sound some⟩

/-- Contiguous memory at `2 ^ 32`. -/
def contiguous : Mapping where
  buffer := 2 ^ 40
  bufferDma := 2 ^ 32
  pagePhysAddrs := none

theorem contiguous_based : contiguous.pagePhysAddrs = none → contiguous.bufferDma ≠ 0 :=
  fun _ => Nat.two_pow_pos 32 |>.ne'

theorem contiguous_page (index : Nat) : contiguous.page index = 2 ^ 32 + index * pageSize := by
  rfl

theorem contiguous_aligned (index : Nat) : contiguous.page index % pageSize = 0 := by
  rw [contiguous_page, Nat.add_mul_mod_self_right]
  rfl

theorem contiguous_inSpace {size index : Nat} (small : size ≤ 2 ^ 40)
    (inside : index * pageSize < size) : contiguous.page index + pageSize ≤ 2 ^ 64 := by
  rw [contiguous_page, pageSize_eq] at *
  omega

theorem contiguous_distinct {first second : Nat}
    (equal : contiguous.page first = contiguous.page second) : first = second := by
  rw [contiguous_page, contiguous_page, pageSize_eq] at equal
  omega

def deviceBuffer : EngineBuffer 8192 where
  buffer := 2 ^ 40
  bufferDma := 2 ^ 32
  pagePhysAddrs := none
  aligned := fun index _ => contiguous_aligned index
  inSpace := fun _ inside => contiguous_inSpace (by decide) inside
  isDeviceMemory := true
  device_untabled := fun _ => rfl
  untabled_based := contiguous_based
  tabled_small := fun tabled => absurd rfl tabled
  distinct := fun _ _ _ _ equal => contiguous_distinct equal

def secondSlot : SubmitOp 8192 where
  singleSize := 4096
  batchCap := 2
  slot := 1
  lbas := 1
  lbaSize := 4096
  nOps := 1
  b := 0
  slot_lt := by decide
  buffer_le := by decide
  ops_le := by decide
  b_lt := by decide

/-- The command of the second slot transfers the first slot of device memory. -/
theorem submit_first_slot :
    (secondSlot.prps deviceBuffer).prp1 = Lib.translate pageSize deviceBuffer.page 0 ∧
      ¬Describes deviceBuffer (fun _ => True) (secondSlot.prps deviceBuffer)
        (copyOffset 4096 1 0) 4096 := by
  refine ⟨by decide, fun describes => ?_⟩
  have first := describes (fun _ => 0) trivial 0 (by decide)
  exact absurd first (by decide)

end RocmXio.Fio
