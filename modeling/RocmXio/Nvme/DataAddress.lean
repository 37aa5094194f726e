/-
The addresses that commands give for their data.

The kernels turn an offset in a host data buffer into an address in three ways. The drives of `run`
add the offset within the page to the table's address. The other two kernels do not, and
`rxio_submit` moves the base address to its slot but not the table. The addresses are right for all
frames if there is a table and the command begins on a page that its kernel looks up rightly, or if
there is no table and all is in the first system page.
-/

import RocmXio.Nvme.HostBuffer

namespace RocmXio.Nvme

open Lib

/-! ### The kernels -/

/-- The pages of a slot, as `rxio_prp_prefill` is told. -/
def singleBufPages (singleSize : Nat) : Nat :=
  singleBufSize singleSize / pageSize % 2 ^ 32

/-- `xfer_size` of `gpuKernelPersistent`, with the blocks that `rxio_start_persistent` gives
it. -/
def xferSize (singleSize lbaSize : Nat) : Nat :=
  singleBufSize singleSize / lbaSize % 2 ^ 32 * lbaSize

/-- A command of the drives of `run`, with the slot of the batch; of `gpuKernelStateful` as
`rxio_submit` launches it, with the slot of the data buffer and the number of the operation; or of
`gpuKernelPersistent`, with the slot of the data buffer. -/
inductive Kernel where
  | drive (transferSize b : Nat) (prpList : Bool) (prpListDma : Nat)
  | stateful (singleSize slot transferSize b : Nat)
  | persistent (singleSize slot lbaSize length prpListDma : Nat)
deriving DecidableEq, Repr

namespace Kernel

def start : Kernel → Nat
  | .drive transferSize b _ _ => b * transferSize
  | .stateful singleSize slot transferSize b =>
    slot * singleBufSize singleSize + b * transferSize
  | .persistent singleSize slot lbaSize _ _ => slot * xferSize singleSize lbaSize

def length : Kernel → Nat
  | .drive transferSize _ _ _ | .stateful _ _ transferSize _ => transferSize
  | .persistent _ _ _ length _ => length

/-- The end of the slot of the data buffer that the command uses. -/
def slotEnd : Kernel → Nat
  | .drive transferSize b _ _ => b * transferSize + transferSize
  | .stateful singleSize slot _ _ | .persistent singleSize slot _ _ _ =>
    (slot + 1) * singleBufSize singleSize

def Inside (size : Nat) (kernel : Kernel) : Prop :=
  kernel.start + kernel.length ≤ size ∧ kernel.slotEnd ≤ size

variable (mapping : Mapping)

/-- The address a drive of `run` passes to `calculatePrps`. -/
def driveAddress (bufOff : Nat) : Nat :=
  match mapping.pagePhysAddrs with
  | some table => (table (bufOff / pageSize % 2 ^ 32) + bufOff % pageSize) % 2 ^ 64
  | none => (mapping.base + bufOff) % 2 ^ 64

/-- The address the other kernels pass: the table's address is not moved to the offset within
the page. -/
def pageAddress (bufOff : Nat) : Nat :=
  match mapping.pagePhysAddrs with
  | some table => table (bufOff / pageSize)
  | none => (mapping.base + bufOff) % 2 ^ 64

/-- `rxio_submit` moves the buffer and its DMA address to the slot. -/
def slotMapping (offset : Nat) : Mapping :=
  { mapping with
    buffer := (mapping.buffer + offset) % 2 ^ 64
    bufferDma := (mapping.bufferDma + offset) % 2 ^ 64 }

/-- `buf_off` of the kernel. -/
def bufOff : Kernel → Nat
  | .drive transferSize b _ _ | .stateful _ _ transferSize b => b * transferSize % 2 ^ 64
  | .persistent singleSize slot lbaSize _ _ => slot * xferSize singleSize lbaSize % 2 ^ 64

/-- The address that the kernel passes to `calculatePrps`. -/
def address (kernel : Kernel) : Nat :=
  match kernel with
  | .drive _ _ _ _ => driveAddress mapping kernel.bufOff
  | .stateful singleSize slot _ _ =>
    pageAddress (slotMapping mapping (slot * singleBufSize singleSize % 2 ^ 64)) kernel.bufOff
  | .persistent _ _ _ _ _ => pageAddress mapping kernel.bufOff

/-- Whether the kernel has a list to write to: `rxio_setup` leaves the pool out of the
parameters of its kernels. -/
def prpList : Kernel → Bool
  | .drive _ _ prpList _ => prpList
  | .stateful _ _ _ _ | .persistent _ _ _ _ _ => false

def prpListDma : Kernel → Nat
  | .drive _ _ _ prpListDma | .persistent _ _ _ _ prpListDma => prpListDma
  | .stateful _ _ _ _ => 0

def prps (kernel : Kernel) : Prps :=
  calculatePrps (kernel.address mapping) (kernel.length % 2 ^ 32) kernel.prpList
    kernel.prpListDma mapping.pagePhysAddrs (kernel.bufOff / pageSize % 2 ^ 32)

/-- The words that `rxio_prp_prefill` writes to a list, launched for slots of more than two pages.
-/
def prefillEntries (singleSize : Nat) : Nat :=
  if singleBufSize singleSize > 2 * pageSize then
    min (singleBufPages singleSize - 1) prpListEntriesPerPage
  else 0

/-- A word that `rxio_prp_prefill` writes to the list of a slot. -/
def prefillWord (singleSize slot i : Nat) : Nat :=
  match mapping.pagePhysAddrs with
  | some table => table ((slot * singleBufPages singleSize + 1 + i) % 2 ^ 32)
  | none =>
    (mapping.bufferDma + slot * singleBufPages singleSize * 4096 + (i + 1) * 4096) % 2 ^ 64

/-- The list of the command: written by the kernel itself, or filled before. -/
def list (kernel : Kernel) : List Nat :=
  match kernel with
  | .drive _ _ _ _ | .stateful _ _ _ _ => (kernel.prps mapping).list
  | .persistent singleSize slot _ _ _ =>
    (List.range (prefillEntries singleSize)).map (prefillWord mapping singleSize slot)

/-- The pages that `calculatePrps` counts after the first, for a transfer that begins at the given
place in its page. -/
def remainingPages (length place : Nat) : Nat :=
  min ((length % 2 ^ 32 - (pageSize - place) + pageSize - 1) % 2 ^ 32 / pageSize)
    prpListEntriesPerPage

/-- The addresses of the command's pages, in order: the first word, and the second one if only one
page is left, otherwise the words of the list. -/
def entries (kernel : Kernel) : List Nat :=
  let prps := kernel.prps mapping
  let pages := remainingPages kernel.length (prps.prp1 % pageSize)
  prps.prp1 :: if pages = 1 then [prps.prp2] else (kernel.list mapping).take pages

/-- The offset in the data buffer that an entry is for: the beginning of the transfer, or
that of a page after it. -/
def entryOffset (kernel : Kernel) : Nat → Nat
  | 0 => kernel.start
  | index + 1 => (kernel.start / pageSize + 1 + index) * pageSize

def Placed {buffer : HostBuffer} (frames : buffer.Frames) (mapping : Mapping)
    (kernel : Kernel) : Prop :=
  ∀ index word, (kernel.entries mapping)[index]? = some word →
    word = frames.physical (kernel.entryOffset index)

end Kernel

/-! ### The entries of a command -/

namespace Kernel

variable (kernel : Kernel)

/-- The number of entries after the first, for a transfer whose first byte has the given place
in its page. -/
def following (place : Nat) : Nat :=
  let pages := remainingPages kernel.length place
  if pages = 1 then 1
  else
    match kernel with
    | .drive _ _ prpList _ => if prpList then pages else 0
    | .stateful _ _ _ _ => 0
    | .persistent singleSize _ _ _ _ => min pages (prefillEntries singleSize)

/-- The entry after the first by `index` entries more. -/
def nextEntry (mapping : Mapping) (kernel : Kernel) (index : Nat) : Nat :=
  let place := kernel.address mapping % pageSize
  let own := followingPage (kernel.address mapping) (pageSize - place) mapping.pagePhysAddrs
    (kernel.bufOff / pageSize % 2 ^ 32) index
  match kernel with
  | .drive _ _ _ _ | .stateful _ _ _ _ => own
  | .persistent singleSize slot _ length _ =>
    if remainingPages length place = 1 then own else prefillWord mapping singleSize slot index

theorem calculatePrps_remaining (bufferAddr length : Nat) (prpList : Bool) (prpListDma : Nat)
    (pagePhysAddrs : Option (Nat → Nat)) (bufPageOffset : Nat) {pages : Nat}
    (remaining : remainingPages length (bufferAddr % pageSize) = pages) :
    let prps := calculatePrps bufferAddr (length % 2 ^ 32) prpList prpListDma pagePhysAddrs
      bufPageOffset
    let next := followingPage bufferAddr (pageSize - bufferAddr % pageSize) pagePhysAddrs
      bufPageOffset
    (pages = 1 → prps.prp2 = next 0) ∧
      (pages ≠ 1 → prps.list = if prpList then (List.range pages).map next else []) := by
  have capped (wanted : Nat) :
      (if wanted > prpListEntriesPerPage then prpListEntriesPerPage else wanted) =
        min wanted prpListEntriesPerPage := by
    split_ifs <;> omega
  rw [remainingPages] at remaining
  simp only [calculatePrps, capped, remaining]
  by_cases short : length % 2 ^ 32 ≤ pageSize - bufferAddr % pageSize
  · have none : pages = 0 := by
      rw [← remaining, Nat.sub_eq_zero_of_le short]
      rfl
    rw [if_pos short]
    simp [none]
  · rw [if_neg short]
    by_cases one : pages = 1 <;> simp [one]

theorem entries_eq (mapping : Mapping) (kernel : Kernel) :
    kernel.entries mapping = kernel.address mapping ::
      (List.range (kernel.following (kernel.address mapping % pageSize))).map
        (kernel.nextEntry mapping) := by
  obtain ⟨single, several⟩ := calculatePrps_remaining (kernel.address mapping) kernel.length
    kernel.prpList kernel.prpListDma mapping.pagePhysAddrs (kernel.bufOff / pageSize % 2 ^ 32) rfl
  have first : (kernel.prps mapping).prp1 = kernel.address mapping :=
    calculatePrps_prp1 _ _ _ _ _ _
  simp only [entries, first, following]
  by_cases one : remainingPages kernel.length (kernel.address mapping % pageSize) = 1
  · have second : (kernel.prps mapping).prp2 = kernel.nextEntry mapping 0 := by
      refine (single one).trans ?_
      cases kernel with
      | drive | stateful => rfl
      | persistent => exact (if_pos one).symm
    rw [if_pos one, if_pos one, second]
    rfl
  · have words := several one
    rw [if_neg one, if_neg one]
    congr 1
    cases kernel with
    | drive transferSize b prpList prpListDma =>
      simp only [list, prps, words]
      cases prpList with
      | false => exact List.take_nil
      | true => exact List.take_of_length_le (by simp [Kernel.prpList])
    | stateful =>
      simp only [list, prps, words]
      exact List.take_nil
    | persistent singleSize slot lbaSize length prpListDma =>
      have given : nextEntry mapping (.persistent singleSize slot lbaSize length prpListDma) =
          prefillWord mapping singleSize slot := funext fun index => if_neg one
      rw [given, list, ← List.map_take, List.take_range]

theorem following_le (place : Nat) :
    kernel.following place ≤ remainingPages kernel.length place := by
  simp only [following]
  split_ifs with one
  · exact one.ge
  · cases kernel with
    | drive transferSize b prpList prpListDma => cases prpList <;> simp
    | stateful => exact Nat.zero_le _
    | persistent => exact Nat.min_le_left _ _

theorem next_lt {index : Nat} (placed : index < kernel.following (kernel.start % pageSize)) :
    (kernel.start / pageSize + 1 + index) * pageSize < kernel.start + kernel.length := by
  have counted := Nat.lt_of_lt_of_le placed (kernel.following_le _)
  simp only [remainingPages, lt_min_iff, pageSize_eq] at counted ⊢
  omega

section

variable {buffer : HostBuffer} {frames : buffer.Frames} {mapping : Mapping} {kernel : Kernel}

theorem placed_iff : kernel.Placed frames mapping ↔
    kernel.address mapping = frames.physical kernel.start ∧
      ∀ index < kernel.following (kernel.start % pageSize), kernel.nextEntry mapping index =
        frames.physical ((kernel.start / pageSize + 1 + index) * pageSize) := by
  have place (first : kernel.address mapping = frames.physical kernel.start) :
      kernel.address mapping % pageSize = kernel.start % pageSize := by
    rw [first, frames.physical_mod]
  simp only [Placed, entries_eq]
  constructor
  · intro placed
    have first := placed 0 _ rfl
    refine ⟨first, fun index below => placed (index + 1) _ ?_⟩
    rw [place first, List.getElem?_cons_succ, List.getElem?_map, List.getElem?_range below,
      Option.map_some]
  · rintro ⟨first, next⟩ index word found
    rw [place first] at found
    cases index with
    | zero => exact (Option.some.inj found).symm.trans first
    | succ index =>
      rw [List.getElem?_cons_succ, List.getElem?_map, Option.map_eq_some_iff] at found
      obtain ⟨position, inRange, rfl⟩ := found
      obtain ⟨below, rfl⟩ := List.getElem?_eq_some_iff.mp inRange
      rw [List.length_range] at below
      rw [List.getElem_range]
      exact next index below

end

def OnPage : Kernel → Prop
  | .drive _ _ _ _ => True
  | .stateful _ slot transferSize b => slot = 0 ∧ b * transferSize % pageSize = 0
  | .persistent singleSize slot lbaSize _ _ => slot * xferSize singleSize lbaSize % pageSize = 0

/-- The page after which the entries after the first are taken: that of the transfer, or of the slot
for which the list was filled. -/
def basePage : Nat :=
  match kernel with
  | .drive _ _ _ _ | .stateful _ _ _ _ => kernel.start / pageSize
  | .persistent singleSize slot _ length _ =>
    if remainingPages length (kernel.start % pageSize) = 1 then kernel.start / pageSize
    else slot * singleBufPages singleSize

/-- The entries after the first, if there are any, are about the pages of the transfer. -/
def Listed : Prop :=
  0 < kernel.following (kernel.start % pageSize) → kernel.basePage = kernel.start / pageSize

/-- With a table, the kernel begins on the page that it looks up; without one, all pages of the
transfer are on the first system page. -/
def Sound (buffer : HostBuffer) (kernel : Kernel) : Prop :=
  (if buffer.Resolved then kernel.OnPage
    else kernel.start / pageSize + kernel.following (kernel.start % pageSize) < buffer.ratio) ∧
    kernel.Listed

/-! ### With a table -/

theorem slot_mul_xferSize_le (singleSize slot lbaSize : Nat) :
    slot * xferSize singleSize lbaSize ≤ slot * singleBufSize singleSize :=
  Nat.mul_le_mul_left slot
    ((Nat.mul_le_mul_right lbaSize (Nat.mod_le _ _)).trans (Nat.div_mul_le_self _ _))

theorem Inside.start_lt {buffer : HostBuffer} {kernel : Kernel}
    (inside : kernel.Inside buffer.size) : kernel.start < buffer.size := by
  obtain ⟨transfer, slotEnd⟩ := inside
  have positive := buffer.size_pos
  cases kernel with
  | drive transferSize b =>
    rcases Nat.eq_zero_or_pos transferSize with rfl | some
    · exact positive
    · exact Nat.lt_of_lt_of_le (Nat.lt_add_of_pos_right some) transfer
  | stateful singleSize slot transferSize b =>
    rcases Nat.eq_zero_or_pos transferSize with rfl | some
    · refine Nat.lt_of_lt_of_le ?_ slotEnd
      exact Nat.mul_lt_mul_of_pos_right (Nat.lt_succ_self slot) (pageRound_pos singleSize)
    · exact Nat.lt_of_lt_of_le (Nat.lt_add_of_pos_right some) transfer
  | persistent singleSize slot lbaSize =>
    refine Nat.lt_of_lt_of_le (Nat.lt_of_le_of_lt (slot_mul_xferSize_le _ _ _) ?_) slotEnd
    exact Nat.mul_lt_mul_of_pos_right (Nat.lt_succ_self slot) (pageRound_pos singleSize)

theorem Inside.basePage_lt {size : Nat} {kernel : Kernel} (inside : kernel.Inside size)
    {index : Nat} (placed : index < kernel.following (kernel.start % pageSize)) :
    (kernel.basePage + 1 + index) * pageSize < size := by
  have transfer := Nat.lt_of_lt_of_le (kernel.next_lt placed) inside.1
  cases kernel with
  | drive | stateful => exact transfer
  | persistent singleSize slot lbaSize length prpListDma =>
    simp only [basePage]
    split_ifs with one
    · exact transfer
    · have filled : index < prefillEntries singleSize := by
        have several : following (.persistent singleSize slot lbaSize length prpListDma)
            (start (.persistent singleSize slot lbaSize length prpListDma) % pageSize) =
              min _ (prefillEntries singleSize) := if_neg one
        rw [several] at placed
        exact Nat.lt_of_lt_of_le placed (Nat.min_le_right _ _)
      have counted : index + 1 < singleBufPages singleSize := by
        simp only [prefillEntries] at filled
        split_ifs at filled
        · omega
        · exact absurd filled (Nat.not_lt_zero index)
      have pages : singleBufPages singleSize * pageSize ≤ singleBufSize singleSize :=
        (Nat.mul_le_mul_right pageSize (Nat.mod_le _ _)).trans (Nat.div_mul_le_self _ _)
      calc (slot * singleBufPages singleSize + 1 + index) * pageSize
          < (slot + 1) * singleBufPages singleSize * pageSize := by
            refine Nat.mul_lt_mul_of_pos_right ?_ (by decide)
            rw [Nat.add_mul, Nat.one_mul]
            omega
        _ ≤ (slot + 1) * singleBufSize singleSize := by
            rw [Nat.mul_assoc]
            exact Nat.mul_le_mul_left (slot + 1) pages
        _ ≤ size := inside.2

section

variable {buffer : HostBuffer} {frames : buffer.Frames} {mapping : Mapping} {kernel : Kernel}
  {lookup : Nat → Nat} (tabled : mapping.pagePhysAddrs = some lookup)
  (right : ∀ index, index * pageSize < buffer.size →
    lookup index = frames.physical (index * pageSize))
  (small : buffer.size ≤ 2 ^ 42) (inside : kernel.Inside buffer.size)

include inside in
theorem bufOff_le : kernel.bufOff ≤ kernel.start := by
  cases kernel with
  | drive => exact Nat.mod_le _ _
  | stateful => exact (Nat.mod_le _ _).trans (Nat.le_add_left _ _)
  | persistent => exact Nat.mod_le _ _

include inside in
theorem bufOff_of_onPage (onPage : kernel.OnPage) : kernel.bufOff = kernel.start := by
  have below := inside.start_lt
  have size := buffer.size_lt
  have whole : kernel.start % 2 ^ 64 = kernel.start := Nat.mod_eq_of_lt (by omega)
  cases kernel with
  | drive => exact whole
  | stateful singleSize slot transferSize b =>
    obtain ⟨rfl, -⟩ := onPage
    have origin : start (.stateful singleSize 0 transferSize b) = b * transferSize := by
      rw [start, Nat.zero_mul, Nat.zero_add]
    rw [origin] at whole ⊢
    exact whole
  | persistent => exact whole

include tabled right inside in
theorem pageAddress_of_table : pageAddress mapping kernel.bufOff =
      frames.physical (kernel.bufOff / pageSize * pageSize) := by
  have below := Nat.lt_of_le_of_lt (bufOff_le inside) inside.start_lt
  simp only [pageAddress, tabled]
  exact right _ (Nat.lt_of_le_of_lt (Nat.div_mul_le_self _ _) below)

include tabled right small inside in
theorem address_of_table (onPage : kernel.OnPage) :
    kernel.address mapping = frames.physical kernel.start := by
  have below := inside.start_lt
  have offset := bufOff_of_onPage inside onPage
  have split : frames.physical kernel.start =
      frames.physical (kernel.start / pageSize * pageSize) + kernel.start % pageSize :=
    frames.physical_eq_translate kernel.start
  have aligned (zero : kernel.start % pageSize = 0) :
      pageAddress mapping kernel.bufOff = frames.physical kernel.start := by
    rw [pageAddress_of_table tabled right inside, offset, split, zero, Nat.add_zero]
  cases kernel with
  | drive transferSize b prpList prpListDma =>
    have page := right _ (Nat.lt_of_le_of_lt (Nat.div_mul_le_self _ pageSize) below)
    generalize start (.drive transferSize b prpList prpListDma) = start at *
    have short : start / pageSize % 2 ^ 32 = start / pageSize :=
      Nat.mod_eq_of_lt (by rw [pageSize_eq]; omega)
    simp only [address, driveAddress, tabled, offset, short]
    rw [page, ← split, Nat.mod_eq_of_lt (frames.physical_lt below)]
  | stateful singleSize slot transferSize b =>
    refine Eq.trans ?_ (aligned ?_)
    · simp only [address, pageAddress, slotMapping, tabled]
    · rw [start, onPage.1, Nat.zero_mul, Nat.zero_add]
      exact onPage.2
  | persistent => exact aligned onPage

include tabled right small inside in
theorem nextEntry_of_table (onPage : kernel.OnPage) {index : Nat}
    (placed : index < kernel.following (kernel.start % pageSize)) :
    kernel.nextEntry mapping index =
      frames.physical ((kernel.basePage + 1 + index) * pageSize) := by
  have below := inside.basePage_lt placed
  have first := inside.start_lt
  have offset := bufOff_of_onPage inside onPage
  have page : kernel.start / pageSize % 2 ^ 32 = kernel.start / pageSize :=
    Nat.mod_eq_of_lt (by rw [pageSize_eq]; omega)
  have next : (kernel.basePage + 1 + index) % 2 ^ 32 = kernel.basePage + 1 + index :=
    Nat.mod_eq_of_lt (by rw [pageSize_eq] at below; omega)
  have place : kernel.address mapping % pageSize = kernel.start % pageSize := by
    rw [address_of_table tabled right small inside onPage, frames.physical_mod]
  rw [← right _ below]
  have own (based : kernel.basePage = kernel.start / pageSize) (bufferAddr firstPageSize : Nat) :
      followingPage bufferAddr firstPageSize mapping.pagePhysAddrs
        (kernel.bufOff / pageSize % 2 ^ 32) index = lookup (kernel.basePage + 1 + index) := by
    rw [offset, page, tabled, followingPage, ← based, next]
  cases kernel with
  | drive | stateful => exact own rfl _ _
  | persistent singleSize slot lbaSize length prpListDma =>
    simp only [nextEntry, place]
    split_ifs with one
    · exact own (if_pos one) _ _
    · have based : basePage (.persistent singleSize slot lbaSize length prpListDma) =
          slot * singleBufPages singleSize := if_neg one
      rw [based] at next ⊢
      simp only [prefillWord, tabled, next]

end

/-! ### Without a table -/

section

variable {mapping : Mapping} {kernel : Kernel} (untabled : mapping.pagePhysAddrs = none)
  (nonzero : mapping.bufferDma ≠ 0) (fits : mapping.bufferDma + kernel.start < 2 ^ 64)

include untabled nonzero fits in
theorem address_of_none : kernel.address mapping = mapping.bufferDma + kernel.start := by
  cases kernel with
  | drive transferSize b =>
    simp only [start] at fits
    simp only [address, driveAddress, untabled, Mapping.base, if_pos nonzero, bufOff, start]
    omega
  | stateful singleSize slot transferSize b =>
    simp only [start] at fits
    simp only [address, pageAddress, slotMapping, untabled, Mapping.base, bufOff, start]
    rw [if_pos (by omega)]
    omega
  | persistent singleSize slot lbaSize length prpListDma =>
    simp only [start] at fits
    simp only [address, pageAddress, untabled, Mapping.base, if_pos nonzero, bufOff, start]
    omega

include untabled nonzero fits in
theorem nextEntry_of_none (aligned : mapping.bufferDma % pageSize = 0) {index : Nat}
    (ends : mapping.bufferDma + (kernel.basePage + 1 + index) * pageSize < 2 ^ 64) :
    kernel.nextEntry mapping index =
      mapping.bufferDma + (kernel.basePage + 1 + index) * pageSize := by
  have first := address_of_none untabled nonzero fits
  have place : kernel.address mapping % pageSize = kernel.start % pageSize := by
    rw [first, Nat.add_mod, aligned, Nat.zero_add, Nat.mod_mod]
  have own (based : kernel.basePage = kernel.start / pageSize) :
      followingPage (kernel.address mapping) (pageSize - kernel.address mapping % pageSize)
        mapping.pagePhysAddrs (kernel.bufOff / pageSize % 2 ^ 32) index =
          mapping.bufferDma + (kernel.basePage + 1 + index) * pageSize := by
    rw [place, first, untabled, followingPage]
    rw [pageSize_eq] at *
    omega
  cases kernel with
  | drive | stateful => exact own rfl
  | persistent singleSize slot lbaSize length prpListDma =>
    by_cases one : remainingPages length
        (start (.persistent singleSize slot lbaSize length prpListDma) % pageSize) = 1
    · simp only [nextEntry]
      rw [if_pos (place ▸ one)]
      exact own (if_pos one)
    · have based : basePage (.persistent singleSize slot lbaSize length prpListDma) =
          slot * singleBufPages singleSize := if_neg one
      simp only [nextEntry]
      rw [if_neg (place ▸ one)]
      simp only [prefillWord, untabled]
      rw [pageSize_eq] at *
      omega

end

end Kernel

/-! ### Right for all frames -/

namespace Kernel

open HostBuffer

variable {buffer : HostBuffer} {kernel : Kernel}

theorem placed_of_table {frames : buffer.Frames} {info : BufferInfo}
    (allocated : allocateGpuAccessibleBuffer buffer frames = some info)
    (resolved : buffer.Resolved) (inside : kernel.Inside buffer.size) (onPage : kernel.OnPage)
    (listed : kernel.Listed) : kernel.Placed frames (info.mapping buffer) := by
  obtain ⟨lookup, tabled, right⟩ := mapping_of_resolved allocated resolved
  have small := size_le_of_few resolved.2.1
  refine placed_iff.mpr ⟨address_of_table tabled right small inside onPage, ?_⟩
  intro index placed
  rw [nextEntry_of_table tabled right small inside onPage placed,
    listed (Nat.zero_lt_of_lt placed)]

theorem placed_of_near {frames : buffer.Frames} {info : BufferInfo}
    (allocated : allocateGpuAccessibleBuffer buffer frames = some info)
    (unresolved : ¬ buffer.Resolved)
    (near : kernel.start / pageSize + kernel.following (kernel.start % pageSize) < buffer.ratio)
    (listed : kernel.Listed) : kernel.Placed frames (info.mapping buffer) := by
  obtain ⟨untabled, dma, nonzero⟩ := mapping_of_not_resolved allocated unresolved
  have space : frames.pageAddress 0 + buffer.sysPage ≤ 2 ^ 64 := by
    have first := frames.inSpace 0 (Nat.zero_div buffer.sysPage ▸ div_sysPage_lt buffer.size_pos)
    rwa [Nat.add_mul, Nat.one_mul] at first
  have onFirst {page : Nat} (below : page < buffer.ratio) : page * pageSize < buffer.sysPage :=
    Nat.mul_lt_mul_of_pos_right below (by decide)
  have start : kernel.start < buffer.sysPage := by
    rw [sysPage, ← Nat.div_lt_iff_lt_mul (by decide)]
    omega
  rw [← dma] at nonzero
  have fits : (info.mapping buffer).bufferDma + kernel.start < 2 ^ 64 := by
    omega
  refine placed_iff.mpr ⟨?_, ?_⟩
  · rw [address_of_none untabled nonzero fits, dma, frames.physical_first start]
  · intro index placed
    have based := listed (Nat.zero_lt_of_lt placed)
    have page : (kernel.basePage + 1 + index) * pageSize < buffer.sysPage := onFirst (by omega)
    rw [nextEntry_of_none untabled nonzero fits (dma ▸ pageAddress_mod frames 0)
      (by rw [dma]; omega), dma, ← based, frames.physical_first page]

/-- With consecutive frames, only a transfer at the beginning of a page has the address that
the table gives for it. -/
theorem onPage_of_ascending (few : buffer.sysPages ≤ 1024) {mapping : Mapping}
    {lookup : Nat → Nat} (tabled : mapping.pagePhysAddrs = some lookup)
    (right : ∀ index, index * pageSize < buffer.size →
      lookup index = (ascending few).physical (index * pageSize))
    (inside : kernel.Inside buffer.size)
    (first : kernel.address mapping = (ascending few).physical kernel.start) :
    kernel.OnPage := by
  have begins := pageAddress_of_table tabled right inside
  have split := Nat.div_add_mod' kernel.bufOff pageSize
  have below := inside.start_lt
  have size := buffer.size_lt
  rw [ascending_physical] at first begins
  cases kernel with
  | drive => trivial
  | stateful singleSize slot transferSize b =>
    have same : address mapping (.stateful singleSize slot transferSize b) =
        pageAddress mapping (bufOff (.stateful singleSize slot transferSize b)) := by
      simp only [address, pageAddress, slotMapping, tabled]
    have offset : bufOff (.stateful singleSize slot transferSize b) = b * transferSize :=
      Nat.mod_eq_of_lt (by simp only [start] at below; omega)
    rw [same, begins, offset] at first
    rw [offset] at split
    simp only [start] at first
    have none : slot * singleBufSize singleSize = 0 := by omega
    have single := Nat.ne_of_gt (pageRound_pos singleSize)
    exact ⟨(Nat.mul_eq_zero.mp none).resolve_right single, by omega⟩
  | persistent singleSize slot lbaSize length prpListDma =>
    have offset : bufOff (.persistent singleSize slot lbaSize length prpListDma) =
        start (.persistent singleSize slot lbaSize length prpListDma) :=
      Nat.mod_eq_of_lt (by simp only [start] at below; omega)
    have same := begins.symm.trans first
    rw [offset] at same split
    have zero : start (.persistent singleSize slot lbaSize length prpListDma) % pageSize = 0 := by
      omega
    exact zero

theorem sound_of_ascending (resolved : buffer.Resolved) (backed : buffer.Backed)
    (inside : kernel.Inside buffer.size)
    (placed : ∀ frames info, allocateGpuAccessibleBuffer buffer frames = some info →
      kernel.Placed frames (info.mapping buffer)) : kernel.OnPage ∧ kernel.Listed := by
  have few := resolved.2.1
  have positive := buffer.sysPage_pos
  have nonzero : (ascending few).pageAddress 0 ≠ 0 := by
    rw [← Nat.add_zero (Frames.pageAddress _ 0), ← Frames.physical_first _ positive,
      ascending_physical]
    omega
  obtain ⟨info, allocated⟩ := exists_allocated _ backed nonzero
  obtain ⟨lookup, tabled, right⟩ := mapping_of_resolved allocated resolved
  obtain ⟨first, next⟩ := placed_iff.mp (placed _ _ allocated)
  have onPage := onPage_of_ascending few tabled right inside first
  refine ⟨onPage, fun some => ?_⟩
  have listed := next 0 some
  rw [nextEntry_of_table tabled right (size_le_of_few few) inside onPage some,
    ascending_physical, ascending_physical] at listed
  have same := Nat.eq_of_mul_eq_mul_right (by decide) (Nat.add_left_cancel listed)
  omega

theorem sound_of_scattered (unresolved : ¬ buffer.Resolved) (backed : buffer.Backed)
    (inside : kernel.Inside buffer.size)
    (placed : ∀ frames info, allocateGpuAccessibleBuffer buffer frames = some info →
      kernel.Placed frames (info.mapping buffer)) :
    kernel.start / pageSize + kernel.following (kernel.start % pageSize) < buffer.ratio ∧
      kernel.Listed := by
  have positive := buffer.sysPage_pos
  have most := buffer.sysPage_le
  have size := buffer.size_lt
  have first := scattered_first buffer
  obtain ⟨info, allocated⟩ := exists_allocated buffer.scattered backed (by omega)
  obtain ⟨untabled, dma, nonzero⟩ := mapping_of_not_resolved allocated unresolved
  obtain ⟨begins, next⟩ := placed_iff.mp (placed _ _ allocated)
  have below := inside.start_lt
  rw [← dma] at nonzero
  have fits : (info.mapping buffer).bufferDma + kernel.start < 2 ^ 64 := by omega
  rw [address_of_none untabled nonzero fits, dma, first] at begins
  have later {index : Nat} (placed : index < kernel.following (kernel.start % pageSize)) :
      kernel.start / pageSize + 1 + index < buffer.ratio ∧
        kernel.basePage = kernel.start / pageSize := by
    have ends := inside.basePage_lt placed
    have entry := next index placed
    rw [nextEntry_of_none untabled nonzero fits (dma ▸ pageAddress_mod _ 0) (by omega), dma,
      first] at entry
    obtain ⟨near, same⟩ := scattered_eq entry
    have page := Nat.eq_of_mul_eq_mul_right (by decide) same
    exact ⟨Nat.lt_of_mul_lt_mul_right near, by omega⟩
  refine ⟨?_, fun some => (later some).2⟩
  rcases Nat.eq_zero_or_pos (kernel.following (kernel.start % pageSize)) with none | some
  · rw [none, Nat.add_zero, Nat.div_lt_iff_lt_mul (by decide)]
    exact (scattered_eq begins).1
  · have last := (later (Nat.sub_lt some Nat.one_pos)).1
    omega

/-- The addresses of a command are those of its bytes, whatever the frames of the buffer are,
exactly when the command is sound. -/
theorem data_address_iff (buffer : HostBuffer) (kernel : Kernel)
    (inside : kernel.Inside buffer.size) :
    (∀ frames info, allocateGpuAccessibleBuffer buffer frames = some info →
      kernel.Placed frames (info.mapping buffer)) ↔ (buffer.Backed → kernel.Sound buffer) := by
  constructor
  · intro placed backed
    by_cases resolved : buffer.Resolved
    · rw [Sound, if_pos resolved]
      exact sound_of_ascending resolved backed inside placed
    · rw [Sound, if_neg resolved]
      exact sound_of_scattered resolved backed inside placed
  · intro sound frames info allocated
    have backed := ((allocateGpuAccessibleBuffer_eq_some frames info).mp allocated).1
    obtain ⟨condition, listed⟩ := sound backed
    by_cases resolved : buffer.Resolved
    · rw [if_pos resolved] at condition
      exact placed_of_table allocated resolved inside condition listed
    · rw [if_neg resolved] at condition
      exact placed_of_near allocated resolved condition listed

/-- A buffer of the given number of small pages, for which no call fails. -/
def pagesOf (pages : Nat) (some : 0 < pages * 4096) (bounded : pages * 4096 < 2 ^ 63) :
    HostBuffer where
  ratio := 1
  ratio_pos := Nat.one_pos
  ratio_le := Nat.one_le_two_pow
  firstPage := 16
  size := pages * 4096
  size_pos := some
  size_lt := bounded
  hostMemory := true
  firstOpen := true
  firstRead := true
  tableMemory := true
  secondOpen := true
  reads _ := true
  present _ := true

def twoPages : HostBuffer :=
  pagesOf 2 (by decide) (by decide)

/-- One page more than the array of `allocateGpuAccessibleBuffer` has room for. -/
def longBuffer : HostBuffer :=
  pagesOf 1025 (by decide) (by decide)

theorem data_address_twoPages : (drive 4096 1 false 0).Inside twoPages.size ∧
      ∀ frames info, allocateGpuAccessibleBuffer twoPages frames = some info →
        (drive 4096 1 false 0).Placed frames (info.mapping twoPages) := by
  have inside : (drive 4096 1 false 0).Inside twoPages.size := ⟨by decide, by decide⟩
  refine ⟨inside, (data_address_iff twoPages _ inside).mpr fun _ => ⟨?_, fun _ => rfl⟩⟩
  trivial

/-- The second page of a long buffer is taken to follow the first; and `rxio_submit` gives
its second slot the address of the first. -/
theorem data_address_wrong :
    (∃ frames info, allocateGpuAccessibleBuffer longBuffer frames = some info ∧
      (drive 4096 1 false 0).Inside longBuffer.size ∧
        ¬ (drive 4096 1 false 0).Placed frames (info.mapping longBuffer)) ∧
      ∃ frames info, allocateGpuAccessibleBuffer twoPages frames = some info ∧
        (stateful 4096 1 4096 0).Inside twoPages.size ∧
          ¬ (stateful 4096 1 4096 0).Placed frames (info.mapping twoPages) := by
  constructor
  · have unresolved : ¬ longBuffer.Resolved := fun resolved => absurd resolved.2.1 (by decide)
    obtain ⟨info, allocated⟩ := exists_allocated longBuffer.scattered
      (show longBuffer.Backed by decide) (by decide)
    obtain ⟨-, -, rfl⟩ := (allocateGpuAccessibleBuffer_eq_some _ info).mp allocated
    refine ⟨_, _, allocated, ⟨by decide, by decide⟩, fun placed => ?_⟩
    exact absurd (placed 0 12288 (by decide)) (by decide)
  · refine ⟨ascending (show twoPages.sysPages ≤ 1024 by decide), ⟨4096, some [4096, 8192], 2⟩,
      by decide +kernel, ⟨by decide, by decide⟩, fun placed => ?_⟩
    exact absurd (placed 0 4096 (by decide)) (by decide)

end Kernel

end RocmXio.Nvme
