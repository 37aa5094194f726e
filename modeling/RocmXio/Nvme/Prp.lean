/-
Physical region pages: how a command says where its data lies.

The first of two words is the address of the first byte; the transfer runs from there to the end of
its page. If at most one page is left the second word is its address, otherwise it points to a list
of page addresses. A list is a page of 512 words, and when more pages are left than words, the last
word points to the next list page.

The kernels cut the data buffer into equal slots, which may start anywhere inside a page.
`calculatePrps` fills at most 512 list words, and `run` rejects a transfer of more than 513 pages,
counted from a page boundary. A slot that starts inside a page may touch one page more, and then the
last list word, which the controller takes for a pointer, is a data page. What it finds there is not
what was meant in every memory.
-/

import RocmXio.Lib.Paging

namespace RocmXio.Nvme

open Lib

def pageSize : Nat := 4096

/-- `prpListEntriesPerPage`, and `kMaxPrpListEntries` where lists are filled and checked. -/
def prpListEntriesPerPage : Nat := pageSize / 8

theorem pageSize_eq : pageSize = 4096 := rfl

theorem prpListEntriesPerPage_eq : prpListEntriesPerPage = 512 := rfl

/-- Rounds a size up to whole pages as `(size + 4095) & ~4095` does on 64 bits, and takes one
page for zero. -/
def pageRound (size : Nat) : Nat :=
  let rounded := (size + 4095) % 2 ^ 64 / pageSize * pageSize
  if rounded = 0 then pageSize else rounded

theorem pageRound_pos (size : Nat) : 0 < pageRound size := by
  simp only [pageRound]
  split_ifs with zero
  · decide
  · exact Nat.pos_of_ne_zero zero

theorem pageRound_mod (size : Nat) : pageRound size % pageSize = 0 := by
  rw [pageRound]
  split
  · exact Nat.mod_self _
  · exact Nat.mul_mod_left _ _

theorem pageRound_lt (size : Nat) : pageRound size < 2 ^ 64 := by
  rw [pageRound]
  split
  · decide
  · exact (Nat.div_mul_le_self _ _).trans_lt (Nat.mod_lt _ (by decide))

theorem pageRound_pageRound (size : Nat) : pageRound (pageRound size) = pageRound size := by
  have positive := pageRound_pos size
  have multiple := pageRound_mod size
  have small := pageRound_lt size
  generalize pageRound size = rounded at *
  have kept : (rounded + 4095) % 2 ^ 64 / pageSize * pageSize = rounded := by
    rw [pageSize_eq] at *
    omega
  rw [pageRound, kept, if_neg positive.ne']

/-- `single_buf_size` of `rxio_setup`: the size of a slot of its data buffer. -/
def singleBufSize (singleSize : Nat) : Nat := pageRound singleSize

/-! ### The meaning of the two words -/

/-- The address of page `index` among the `pages` of a list. The last word of a full list page
points on when further pages follow. -/
def listPage (memory : Nat → Nat) (list pages index : Nat) : Nat :=
  if pages ≤ 512 ∨ index < 511 then memory (list + 8 * index)
  else listPage memory (memory (list + 8 * 511)) (pages - 511) (index - 511)
termination_by index
decreasing_by omega

/-- The address of byte `offset` of a transfer of `length` bytes, as a controller that reads
`memory` finds it. -/
def prpAddress (memory : Nat → Nat) (prp1 prp2 length offset : Nat) : Nat :=
  let firstPageSize := pageSize - prp1 % pageSize
  if offset < firstPageSize then prp1 + offset
  else
    let rest := length - firstPageSize
    let beyond := offset - firstPageSize
    if rest ≤ pageSize then prp2 + beyond
    else
      listPage memory prp2 ((rest + pageSize - 1) / pageSize) (beyond / pageSize) +
        beyond % pageSize

/-! ### A memory with one list page -/

theorem prpAddress_zero (memory : Nat → Nat) (prp1 prp2 length : Nat) :
    prpAddress memory prp1 prp2 length 0 = prp1 := by
  have room : 0 < pageSize - prp1 % pageSize := Nat.sub_pos_of_lt (Nat.mod_lt _ (by decide))
  rw [prpAddress, if_pos room, Nat.add_zero]

theorem prpAddress_second (memory : Nat → Nat) (prp1 prp2 length : Nat)
    (long : pageSize - prp1 % pageSize + pageSize < length) :
    prpAddress memory prp1 prp2 length (pageSize - prp1 % pageSize) = memory prp2 := by
  have several : ¬length - (pageSize - prp1 % pageSize) ≤ pageSize := by omega
  simp only [prpAddress, Nat.lt_irrefl, if_false, Nat.sub_self, if_neg several, Nat.zero_div,
    Nat.zero_mod, Nat.add_zero]
  rw [listPage, if_pos (.inr (by decide)), Nat.mul_zero, Nat.add_zero]

theorem listPage_chained (memory : Nat → Nat) {list pages : Nat} (full : 512 < pages) :
    listPage memory list pages 511 = memory (memory (list + 8 * 511)) := by
  rw [listPage, if_neg (by omega), Nat.sub_self, listPage, if_pos (.inr (by decide)),
    Nat.mul_zero, Nat.add_zero]

/-- With more than 512 pages after the first the controller takes the last word of the list page for
the address of the next one. -/
theorem prpAddress_lastWord (memory : Nat → Nat) (prp1 prp2 length : Nat)
    (long : pageSize - prp1 % pageSize + 512 * pageSize < length) :
    prpAddress memory prp1 prp2 length (pageSize - prp1 % pageSize + 511 * pageSize) =
      memory (memory (prp2 + 8 * 511)) := by
  have later : ¬pageSize - prp1 % pageSize + 511 * pageSize < pageSize - prp1 % pageSize :=
    Nat.not_lt.mpr (Nat.le_add_right _ _)
  have several : ¬length - (pageSize - prp1 % pageSize) ≤ pageSize := by omega
  have pages : 512 < (length - (pageSize - prp1 % pageSize) + pageSize - 1) / pageSize := by
    rw [pageSize_eq] at long ⊢
    omega
  simp only [prpAddress, if_neg later, if_neg several, Nat.add_sub_cancel_left]
  rw [Nat.mul_div_cancel _ (by decide), Nat.mul_mod_left, Nat.add_zero,
    listPage_chained memory pages]

/-- The words of a list page at its address, and one value everywhere else. -/
def memoryWith (list : Nat) (words : Nat → Nat) (value address : Nat) : Nat :=
  if list ≤ address ∧ address < list + pageSize then words ((address - list) / 8) else value

section

variable {list : Nat} {words : Nat → Nat}

theorem memoryWith_list (value : Nat) {index : Nat} (listed : index < prpListEntriesPerPage) :
    memoryWith list words value (list + 8 * index) = words index := by
  have within : list ≤ list + 8 * index ∧ list + 8 * index < list + pageSize := by
    rw [prpListEntriesPerPage_eq] at listed
    rw [pageSize_eq]
    omega
  rw [memoryWith, if_pos within, Nat.add_sub_cancel_left, Nat.mul_div_cancel_left _ (by decide)]

theorem memoryWith_of_ne (value : Nat) {address : Nat} (listAligned : list % pageSize = 0)
    (aligned : address % pageSize = 0) (other : address ≠ list) :
    memoryWith list words value address = value := by
  refine if_neg fun within => other ?_
  rw [pageSize_eq] at aligned listAligned within
  omega

/-- More than 512 pages after the first are not denoted in every memory with the list page: what the
second word or the last word of the list points to may be anything. -/
theorem lastPage_lost {prp1 prp2 length : Nat} {target : Nat → Nat}
    (long : pageSize - prp1 % pageSize + 512 * pageSize < length)
    (listAligned : list % pageSize = 0) (aligned : prp2 % pageSize = 0)
    (last : words 511 % pageSize = 0)
    (back : words 511 = list → words 0 ≠ target (pageSize - prp1 % pageSize + 511 * pageSize)) :
    ¬∀ value, ∀ offset < length,
      prpAddress (memoryWith list words value) prp1 prp2 length offset = target offset := by
  intro denotes
  by_cases listed : prp2 = list
  · have looked (value : Nat) := denotes value (pageSize - prp1 % pageSize + 511 * pageSize)
      (by omega)
    simp only [prpAddress_lastWord _ _ _ _ long, listed,
      memoryWith_list _ (show 511 < prpListEntriesPerPage by decide)] at looked
    by_cases same : words 511 = list
    · have first : memoryWith list words 0 (list + 8 * 0) = words 0 :=
        memoryWith_list 0 (by decide)
      refine back same (first.symm.trans ?_)
      rw [Nat.mul_zero, Nat.add_zero, ← looked 0, same]
    · simp only [memoryWith_of_ne _ listAligned last same] at looked
      exact absurd ((looked 0).trans (looked 1).symm) (by decide)
  · have beyond : pageSize - prp1 % pageSize + pageSize < length := by omega
    have looked (value : Nat) := denotes value (pageSize - prp1 % pageSize) (by omega)
    simp only [prpAddress_second _ _ _ _ beyond,
      memoryWith_of_ne _ listAligned aligned listed] at looked
    exact absurd ((looked 0).trans (looked 1).symm) (by decide)

end

/-! ### Data buffers and parameters -/

/-- A data buffer as the kernel knows it: its address, its DMA address and the table of its pages,
if there is one. -/
structure Mapping where
  buffer : Nat
  bufferDma : Nat
  pagePhysAddrs : Option (Nat → Nat)

def Mapping.base (mapping : Mapping) : Nat :=
  if mapping.bufferDma ≠ 0 then mapping.bufferDma else mapping.buffer

def Mapping.page (mapping : Mapping) (index : Nat) : Nat :=
  match mapping.pagePhysAddrs with
  | some table => table index
  | none => mapping.base + index * pageSize

/-- A page-aligned data buffer of the given size in a 64-bit address space. -/
structure DataBuffer (size : Nat) extends Mapping where
  aligned : ∀ index, index * pageSize < size → toMapping.page index % pageSize = 0
  inSpace : ∀ index, index * pageSize < size → toMapping.page index + pageSize ≤ 2 ^ 64

theorem twoPages_le : pageSize + pageSize ≤ 2 ^ 64 := by decide

def repeatedPage (size : Nat) : DataBuffer size where
  buffer := pageSize
  bufferDma := 0
  pagePhysAddrs := some fun _ => pageSize
  aligned := fun _ _ => Nat.mod_self pageSize
  inSpace := fun _ _ => twoPages_le

/-- `nvmeIoParams`, as far as the drives and the set-up in `run` read them. The queue length
is a power of two. -/
structure IoParams where
  lbaSize : Nat
  lbasPerIo : Nat
  queueSize : Nat
  batchSize : Nat
  readIo : Nat
  writeIo : Nat
  infiniteMode : Bool
  lbaSize_lt : lbaSize < 2 ^ 32
  lbasPerIo_lt : lbasPerIo < 2 ^ 32
  queueSize_pos : 0 < queueSize
  queueSize_lt : queueSize < 2 ^ 16

namespace IoParams

variable (params : IoParams)

/-- `transfer_size`, a 64-bit product of two 32-bit values. -/
def transferSize : Nat :=
  params.lbasPerIo * params.lbaSize

def totalOps : Nat :=
  (params.readIo + params.writeIo) % 2 ^ 32

/-- The batch size, with zero standing for everything at once, capped by the queue. -/
def cappedBatch : Nat :=
  let batchSize :=
    if params.batchSize = 0 then
      if params.infiniteMode then params.queueSize - 1 else params.totalOps
    else params.batchSize
  if batchSize > params.queueSize - 1 then params.queueSize - 1 else batchSize

/-- `effBatch` of `run`: the number of slots a batch uses. -/
def effBatch : Nat :=
  if params.infiniteMode = false ∧ params.cappedBatch > params.totalOps then params.totalOps
  else params.cappedBatch

theorem cappedBatch_lt : params.cappedBatch < 2 ^ 16 := by
  have size := params.queueSize_lt
  simp only [cappedBatch]
  split_ifs <;> omega

theorem effBatch_le : params.effBatch ≤ params.cappedBatch := by
  unfold effBatch
  split_ifs
  case pos clamped => exact Nat.le_of_lt clamped.2
  case neg => exact le_refl _

/-- The slots of a batch fit the data buffer, and a transfer has at most 513 pages. -/
def accepts (bufferSize : Nat) : Bool :=
  params.cappedBatch * params.transferSize % 2 ^ 64 ≤ bufferSize &&
    (params.transferSize + pageSize - 1) / pageSize % 2 ^ 32 ≤ prpListEntriesPerPage + 1

/-- The list words `run` reserves for a command. -/
def prpEntriesPerCmd : Nat :=
  if params.transferSize > pageSize then prpListEntriesPerPage else 0

/-- The lists `run` reserves for a slot: two when both directions use lists. -/
def prpSlotsPerBatch : Nat :=
  if params.prpEntriesPerCmd = 0 then 1
  else if params.readIo ≠ 0 ∧ params.writeIo ≠ 0 then 2 else 1

def prpDmaSlots : Nat :=
  params.effBatch * params.prpSlotsPerBatch

/-- Whether `run` allocates a pool of list pages. -/
def hasPool : Bool :=
  params.prpEntriesPerCmd * params.prpDmaSlots ≠ 0

end IoParams

/-- `nvmeBufferParams` of `run`: two data buffers of one size and a pool of list pages, whose DMA
addresses are page aligned. -/
structure BufferParams (params : IoParams) where
  bufferSize : Nat
  read : DataBuffer bufferSize
  write : DataBuffer bufferSize
  prpListPageDmas : Nat → Nat
  pageDmas_aligned : ∀ slot, slot < params.prpDmaSlots → prpListPageDmas slot % pageSize = 0

/-! ### The code -/

/-- The result of `calculatePrps`: the two words of the command, and the words written to the list,
from its beginning. -/
structure Prps where
  prp1 : Nat
  prp2 : Nat
  list : List Nat
deriving DecidableEq, Repr

/-- The address of the page after the first by `index` pages more. -/
def followingPage (bufferAddr firstPageSize : Nat) (pagePhysAddrs : Option (Nat → Nat))
    (bufPageOffset index : Nat) : Nat :=
  match pagePhysAddrs with
  | some table => table ((bufPageOffset + 1 + index) % 2 ^ 32)
  | none =>
    ((bufferAddr + firstPageSize) % 2 ^ 64 / pageSize * pageSize + index * pageSize) % 2 ^ 64

/-- `calculatePrps`. `bufferSize` is a 32-bit number, and the flag says whether there is a
list to write to. -/
def calculatePrps (bufferAddr bufferSize : Nat) (prpList : Bool) (prpListDma : Nat)
    (pagePhysAddrs : Option (Nat → Nat)) (bufPageOffset : Nat) : Prps :=
  let firstPageSize := pageSize - bufferAddr % pageSize
  let following := followingPage bufferAddr firstPageSize pagePhysAddrs bufPageOffset
  if bufferSize ≤ firstPageSize then ⟨bufferAddr, 0, []⟩
  else
    let remaining := bufferSize - firstPageSize
    let wanted := (remaining + pageSize - 1) % 2 ^ 32 / pageSize
    let numRemainingPages :=
      if wanted > prpListEntriesPerPage then prpListEntriesPerPage else wanted
    if numRemainingPages = 1 then ⟨bufferAddr, following 0, []⟩
    else ⟨bufferAddr, prpListDma, if prpList then (List.range numRemainingPages).map following
      else []⟩

section

variable {size : Nat} (buffer : DataBuffer size) {start length : Nat}

theorem DataBuffer.translate_mod (inside : start < size) :
    Lib.translate pageSize buffer.page start % pageSize = start % pageSize := by
  have page := Nat.div_mul_le_self start pageSize
  have aligned := buffer.aligned (start / pageSize) (Nat.lt_of_le_of_lt page inside)
  rw [Lib.translate, Nat.add_mod, aligned, Nat.zero_add, Nat.mod_mod, Nat.mod_mod]

theorem DataBuffer.followingPage_eq (start index : Nat)
    (inside : (start / pageSize + 1 + index) * pageSize < size)
    (small : buffer.pagePhysAddrs ≠ none → start / pageSize + 1 + index < 2 ^ 32) :
    followingPage (Lib.translate pageSize buffer.page start) (pageSize - start % pageSize)
      buffer.pagePhysAddrs (start / pageSize) index =
        buffer.page (start / pageSize + 1 + index) := by
  have space := buffer.inSpace _ inside
  have aligned := buffer.aligned 0 (by
    exact Nat.lt_of_le_of_lt (Nat.zero_le _) inside)
  simp only [followingPage, Lib.translate]
  simp only [Mapping.page, pageSize_eq] at *
  cases table : buffer.pagePhysAddrs with
  | some pages =>
    have tabled : buffer.pagePhysAddrs ≠ none := by
      rw [table]
      exact Option.some_ne_none pages
    rw [Nat.mod_eq_of_lt (small tabled)]
  | none =>
    simp only [table] at space aligned
    simp only
    omega

/-- Also when the number of a page wraps, the page is one of the buffer. -/
theorem DataBuffer.followingPage_inside {start offset index : Nat} (before : offset ≤ start)
    (inside : (start / pageSize + 1 + index) * pageSize < size) :
    ∃ page, page * pageSize < size ∧
      followingPage (Lib.translate pageSize buffer.page start) (pageSize - start % pageSize)
        buffer.pagePhysAddrs (offset / pageSize % 2 ^ 32) index = buffer.page page := by
  cases table : buffer.pagePhysAddrs with
  | some pages =>
    refine ⟨(offset / pageSize % 2 ^ 32 + 1 + index) % 2 ^ 32, ?_, ?_⟩
    · have less := Nat.div_le_div_right (c := pageSize) before
      have wrapped := Nat.mod_le (offset / pageSize) (2 ^ 32)
      refine (Nat.mul_le_mul_right _ ((Nat.mod_le _ _).trans ?_)).trans_lt inside
      exact Nat.add_le_add_right (Nat.add_le_add_right (wrapped.trans less) 1) index
    · simp only [followingPage, Mapping.page, table]
  | none =>
    have page := buffer.followingPage_eq start index inside fun tabled => absurd table tabled
    rw [table] at page
    exact ⟨_, inside, page⟩

theorem remaining_pages (length firstPageSize : Nat) (more : firstPageSize < length)
    (fits : length ≤ firstPageSize + 512 * pageSize) :
    (length - firstPageSize + pageSize - 1) % 2 ^ 32 / pageSize =
        (length - firstPageSize + pageSize - 1) / pageSize ∧
      (length - firstPageSize + pageSize - 1) / pageSize ≤ 512 ∧
      ((length - firstPageSize + pageSize - 1) / pageSize = 1 ↔
        length - firstPageSize ≤ pageSize) := by
  rw [pageSize_eq] at *
  omega

section

variable (bufferAddr length : Nat) (prpList : Bool) (prpListDma : Nat)
  (pagePhysAddrs : Option (Nat → Nat)) (bufPageOffset : Nat)

theorem calculatePrps_beyond {firstPageSize pages : Nat}
    (first : pageSize - bufferAddr % pageSize = firstPageSize)
    (remaining : (length - firstPageSize + pageSize - 1) / pageSize = pages)
    (more : firstPageSize < length) (fits : length ≤ firstPageSize + 512 * pageSize) :
    calculatePrps bufferAddr length prpList prpListDma pagePhysAddrs bufPageOffset =
      if pages = 1 then
        ⟨bufferAddr, followingPage bufferAddr firstPageSize pagePhysAddrs bufPageOffset 0, []⟩
      else ⟨bufferAddr, prpListDma, if prpList then
        (List.range pages).map (followingPage bufferAddr firstPageSize pagePhysAddrs bufPageOffset)
        else []⟩ := by
  obtain ⟨unwrapped, most, -⟩ := remaining_pages length firstPageSize more fits
  rw [remaining] at unwrapped most
  have capped : ¬ pages > prpListEntriesPerPage := by
    exact Nat.not_lt.mpr most
  simp only [calculatePrps, first, unwrapped, Nat.not_le_of_lt more, capped, if_false]

theorem calculatePrps_prp1 :
    (calculatePrps bufferAddr length prpList prpListDma pagePhysAddrs bufPageOffset).prp1 =
      bufferAddr := by
  simp only [calculatePrps]
  split_ifs <;> rfl

theorem calculatePrps_prp2 :
    let prps := calculatePrps bufferAddr length prpList prpListDma pagePhysAddrs bufPageOffset
    prps.prp2 = 0 ∨ prps.prp2 = followingPage bufferAddr (pageSize - bufferAddr % pageSize)
      pagePhysAddrs bufPageOffset 0 ∨ prps.prp2 = prpListDma := by
  simp only [calculatePrps]
  by_cases short : length ≤ pageSize - bufferAddr % pageSize
  · rw [if_pos short]
    exact .inl rfl
  · rw [if_neg short]
    generalize (length - (pageSize - bufferAddr % pageSize) + pageSize - 1) % 2 ^ 32 / pageSize =
      wanted
    generalize (if wanted > prpListEntriesPerPage then prpListEntriesPerPage else wanted) = pages
    by_cases one : pages = 1
    · rw [if_pos one]
      exact .inr (.inl rfl)
    · rw [if_neg one]
      exact .inr (.inr rfl)

theorem calculatePrps_list_length :
    (calculatePrps bufferAddr length prpList prpListDma pagePhysAddrs bufPageOffset).list.length ≤
      if prpList then prpListEntriesPerPage else 0 := by
  simp only [calculatePrps]
  generalize (length - (pageSize - bufferAddr % pageSize) + pageSize - 1) % 2 ^ 32 / pageSize =
    wanted
  cases prpList <;> split_ifs <;> simp <;> omega

end

theorem calculatePrps_word {bufferAddr length : Nat} {prpList : Bool} {prpListDma : Nat}
    {pagePhysAddrs : Option (Nat → Nat)} {bufPageOffset index word : Nat}
    (found : (calculatePrps bufferAddr length prpList prpListDma pagePhysAddrs
      bufPageOffset).list[index]? = some word) :
    word = followingPage bufferAddr (pageSize - bufferAddr % pageSize) pagePhysAddrs bufPageOffset
      index := by
  simp only [calculatePrps] at found
  generalize (length - (pageSize - bufferAddr % pageSize) + pageSize - 1) % 2 ^ 32 / pageSize =
    wanted at found
  generalize (if wanted > prpListEntriesPerPage then prpListEntriesPerPage else wanted) = pages
    at found
  have empty : ¬([] : List Nat)[index]? = some word := by
    rw [List.getElem?_nil]
    exact Option.some_ne_none word ∘ Eq.symm
  split_ifs at found
  · exact absurd found empty
  · exact absurd found empty
  · rw [List.getElem?_map, Option.map_eq_some_iff] at found
    obtain ⟨position, inRange, rfl⟩ := found
    obtain ⟨below, rfl⟩ := List.getElem?_eq_some_iff.mp inRange
    rw [List.getElem_range]
  · exact absurd found empty

/-- The words denote the transfer, if it touches at most 513 pages and the controller reads from the
list what was written. -/
theorem DataBuffer.calculatePrps_denotes (memory : Nat → Nat) (prpList : Bool)
    (prpListDma : Nat) (inside : start + length ≤ size)
    (small : buffer.pagePhysAddrs ≠ none → start + length ≤ 2 ^ 44)
    (fits : start % pageSize + length ≤ 513 * pageSize)
    (listed : pageSize < length - (pageSize - start % pageSize) → prpList = true)
    (prps : Prps) (computed : calculatePrps (Lib.translate pageSize buffer.page start) length
      prpList prpListDma buffer.pagePhysAddrs (start / pageSize) = prps)
    (visible : ∀ index word, prps.list[index]? = some word → memory (prpListDma + 8 * index) = word)
    (offset : Nat) (below : offset < length) :
    prpAddress memory prps.prp1 prps.prp2 length offset =
      Lib.translate pageSize buffer.page (start + offset) := by
  have startMod := buffer.translate_mod (show start < size by omega)
  have positive : 0 < pageSize := by decide
  have following := buffer.followingPage_eq start
  generalize firstEq : pageSize - start % pageSize = firstPageSize at following
  have prp1 : prps.prp1 = Lib.translate pageSize buffer.page start := by
    rw [← computed, calculatePrps_prp1]
  simp only [prpAddress, prp1, startMod, firstEq]
  by_cases within : offset < firstPageSize
  · rw [if_pos within]
    exact (translate_within positive _ _ (firstEq ▸ within)).symm
  rw [if_neg within, translate_beyond positive _ _ (firstEq ▸ Nat.le_of_not_lt within), firstEq]
  obtain ⟨-, most, single⟩ := remaining_pages length firstPageSize (by omega) (by omega)
  generalize pagesEq : (length - firstPageSize + pageSize - 1) / pageSize = pages at most single
  rw [calculatePrps_beyond _ _ _ _ _ _ (startMod ▸ firstEq) pagesEq (by omega) (by omega)]
    at computed
  generalize beyondEq : offset - firstPageSize = beyond
  have page : beyond / pageSize < pages := by
    rw [pageSize_eq] at *
    omega
  have reached : (start / pageSize + 1 + beyond / pageSize) * pageSize < start + length := by
    rw [pageSize_eq] at *
    omega
  have value := following _ (Nat.lt_of_lt_of_le reached inside) (by
    intro tabled
    have bound := small tabled
    rw [pageSize_eq] at reached ⊢
    omega)
  by_cases one : pages = 1
  · rw [if_pos (single.mp one)]
    rw [if_pos one] at computed
    have zero : beyond / pageSize = 0 := Nat.lt_one_iff.mp (one ▸ page)
    have whole : beyond % pageSize = beyond := by
      rw [pageSize_eq] at *
      omega
    rw [zero] at value ⊢
    rw [← computed, value, whole]
  · have several := mt single.mpr one
    rw [if_neg several]
    rw [if_neg one, listed (by rw [firstEq]; exact Nat.lt_of_not_le several), if_pos rfl]
      at computed
    have entry := visible (beyond / pageSize) _ (by
      rw [← computed, List.getElem?_map, List.getElem?_range page, Option.map_some])
    rw [listPage, if_pos (Or.inl most), ← computed, entry, value]

end

namespace BufferParams

variable {params : IoParams}

def direction (buffers : BufferParams params) (isWrite : Bool) : DataBuffer buffers.bufferSize :=
  if isWrite then buffers.write else buffers.read

/-- `prpListDmaForSlot`; the address is zero when `run` needs no pool. -/
def prpListDmaForSlot (buffers : BufferParams params) (slot : Nat) : Nat :=
  if params.hasPool then buffers.prpListPageDmas slot else 0

def nvmePrpListWordOffset (params : IoParams) (batchIdx : Nat) (isWrite : Bool) : Nat :=
  let offset := batchIdx * params.prpSlotsPerBatch * params.prpEntriesPerCmd
  if params.prpSlotsPerBatch > 1 ∧ isWrite = true then offset + params.prpEntriesPerCmd
  else offset

def nvmePrpListDmaSlotIndex (params : IoParams) (batchIdx : Nat) (isWrite : Bool) : Nat :=
  if params.prpSlotsPerBatch > 1 then
    batchIdx * params.prpSlotsPerBatch + if isWrite then 1 else 0
  else batchIdx

/-- Where slot `b` begins in the data buffer. -/
def bufOff (params : IoParams) (b : Nat) : Nat :=
  b * params.transferSize % 2 ^ 64

/-- The address the drives pass to `calculatePrps` for a slot. -/
def slotAddress (params : IoParams) (mapping : Mapping) (b : Nat) : Nat :=
  match mapping.pagePhysAddrs with
  | some table =>
    (table (bufOff params b / pageSize % 2 ^ 32) + bufOff params b % pageSize) % 2 ^ 64
  | none => (mapping.base + bufOff params b) % 2 ^ 64

/-- The words of the command in slot `b`. -/
def slotPrps (buffers : BufferParams params) (b : Nat) (isWrite : Bool) : Prps :=
  calculatePrps (slotAddress params (buffers.direction isWrite).toMapping b)
    (params.transferSize % 2 ^ 32) params.hasPool
    (buffers.prpListDmaForSlot (nvmePrpListDmaSlotIndex params b isWrite))
    (buffers.direction isWrite).pagePhysAddrs (bufOff params b / pageSize % 2 ^ 32)

/-! ### Slots -/

theorem slot_inside {bufferSize b : Nat} (accepted : params.accepts bufferSize = true)
    (inBatch : b < params.effBatch) (small : params.transferSize ≤ 513 * pageSize) :
    b * params.transferSize + params.transferSize ≤ bufferSize ∧
      b * params.transferSize + params.transferSize < 2 ^ 44 := by
  have slots := Nat.lt_of_lt_of_le inBatch params.effBatch_le
  have capped := params.cappedBatch_lt
  simp only [IoParams.accepts, Bool.and_eq_true, decide_eq_true_eq] at accepted
  have slotEnd : (b + 1) * params.transferSize ≤ params.cappedBatch * params.transferSize :=
    Nat.mul_le_mul_right _ slots
  have bound : params.cappedBatch * params.transferSize ≤ 2 ^ 16 * (513 * 4096) :=
    Nat.mul_le_mul (Nat.le_of_lt capped) small
  rw [Nat.add_mul, Nat.one_mul] at slotEnd
  omega

theorem slotAddress_eq {size b : Nat} (buffer : DataBuffer size)
    (inside : b * params.transferSize < size) (small : b * params.transferSize < 2 ^ 44) :
    slotAddress params buffer.toMapping b =
      Lib.translate pageSize buffer.page (b * params.transferSize) := by
  have offset : bufOff params b = b * params.transferSize := Nat.mod_eq_of_lt (by omega)
  have space := buffer.inSpace (b * params.transferSize / pageSize)
    (Nat.lt_of_le_of_lt (Nat.div_mul_le_self _ _) inside)
  simp only [slotAddress, offset, Lib.translate, Mapping.page, pageSize_eq] at *
  cases table : buffer.pagePhysAddrs with
  | some pages =>
    simp only [table] at space ⊢
    rw [Nat.mod_eq_of_lt (show b * params.transferSize / 4096 < 2 ^ 32 by omega)]
    omega
  | none =>
    simp only [table] at space ⊢
    omega

theorem nvmePrpListWordOffset_eq (params : IoParams) (b : Nat) (isWrite : Bool) :
    nvmePrpListWordOffset params b isWrite =
      nvmePrpListDmaSlotIndex params b isWrite * params.prpEntriesPerCmd := by
  simp only [nvmePrpListWordOffset, nvmePrpListDmaSlotIndex]
  have one : ¬ params.prpSlotsPerBatch > 1 → params.prpSlotsPerBatch = 1 := by
    simp only [IoParams.prpSlotsPerBatch]
    split_ifs <;> simp
  by_cases two : params.prpSlotsPerBatch > 1
  · cases isWrite
    · simp [two]
    · simp only [two, true_and, if_true]
      ring
  · simp [one two]

theorem hasPool_iff {b : Nat} (inBatch : b < params.effBatch) :
    params.hasPool = true ↔ params.transferSize > pageSize := by
  have slots : params.prpSlotsPerBatch ≠ 0 := by
    simp only [IoParams.prpSlotsPerBatch]
    split_ifs <;> simp
  have some : params.effBatch ≠ 0 := Nat.ne_of_gt (Nat.lt_of_le_of_lt (Nat.zero_le b) inBatch)
  simp [IoParams.hasPool, IoParams.prpDmaSlots, slots, some, IoParams.prpEntriesPerCmd,
    prpListEntriesPerPage_eq]

/-- The pool after `words` have been written to it from `offset` on. -/
def writeList (pool : Nat → Nat) (offset : Nat) (words : List Nat) (word : Nat) : Nat :=
  if offset ≤ word then words[word - offset]?.getD (pool word) else pool word

section

variable (buffers : BufferParams params) (b : Nat) (isWrite : Bool)

/-- The DMA address of the list page of a command. -/
def list : Nat := buffers.prpListDmaForSlot (nvmePrpListDmaSlotIndex params b isWrite)

/-- A word of the list page after the command was prepared. -/
def listWord (pool : Nat → Nat) (index : Nat) : Nat :=
  writeList pool (nvmePrpListWordOffset params b isWrite) (buffers.slotPrps b isWrite).list
    (nvmePrpListDmaSlotIndex params b isWrite * prpListEntriesPerPage + index)

/-- The words denote exactly the bytes of the slot, in order, whatever the pool held before and for
every memory in which the controller reads the list page. -/
def Denotes : Prop :=
  ∀ pool memory, (params.hasPool = true → ∀ index < prpListEntriesPerPage,
      memory (buffers.list b isWrite + 8 * index) = buffers.listWord b isWrite pool index) →
    ∀ offset < params.transferSize,
      prpAddress memory (buffers.slotPrps b isWrite).prp1 (buffers.slotPrps b isWrite).prp2
          params.transferSize offset =
        Lib.translate pageSize (buffers.direction isWrite).page (b * params.transferSize + offset)

/-- The list words that are written stay in the list page of the command. -/
def ListInside : Prop :=
  ∀ index < (buffers.slotPrps b isWrite).list.length,
    nvmePrpListDmaSlotIndex params b isWrite * prpListEntriesPerPage ≤
        nvmePrpListWordOffset params b isWrite + index ∧
      nvmePrpListWordOffset params b isWrite + index <
        (nvmePrpListDmaSlotIndex params b isWrite + 1) * prpListEntriesPerPage

/-- The slot is in the data buffer, and the list page is not. -/
structure Apart : Prop where
  inside : b * params.transferSize + params.transferSize ≤ buffers.bufferSize
  list : ∀ index, index * pageSize < buffers.bufferSize →
    (buffers.direction isWrite).page index ≠ buffers.list b isWrite

end

section

variable {buffers : BufferParams params} {b : Nat} {isWrite : Bool}

theorem list_length_le (buffers : BufferParams params) (b : Nat) (isWrite : Bool) :
    (buffers.slotPrps b isWrite).list.length ≤
      if params.hasPool then prpListEntriesPerPage else 0 :=
  calculatePrps_list_length _ _ _ _ _ _

theorem wordOffset_eq (inBatch : b < params.effBatch) (pool : params.hasPool = true) :
    nvmePrpListWordOffset params b isWrite =
      nvmePrpListDmaSlotIndex params b isWrite * prpListEntriesPerPage := by
  rw [nvmePrpListWordOffset_eq, IoParams.prpEntriesPerCmd, if_pos ((hasPool_iff inBatch).mp pool)]

theorem listWord_eq (inBatch : b < params.effBatch) (pooled : params.hasPool = true)
    (pool : Nat → Nat) (index : Nat) : buffers.listWord b isWrite pool index =
      ((buffers.slotPrps b isWrite).list[index]?).getD
        (pool (nvmePrpListDmaSlotIndex params b isWrite * prpListEntriesPerPage + index)) := by
  rw [listWord, wordOffset_eq inBatch pooled, writeList, if_pos (Nat.le_add_right _ _),
    Nat.add_sub_cancel_left]

theorem listInside (inBatch : b < params.effBatch) : buffers.ListInside b isWrite := by
  intro index written
  have short := buffers.list_length_le b isWrite
  cases pool : params.hasPool
  · rw [pool] at short
    exact absurd (Nat.lt_of_lt_of_le written short) (Nat.not_lt_zero _)
  · rw [pool, if_pos rfl] at short
    rw [wordOffset_eq inBatch pool, Nat.add_mul, Nat.one_mul]
    omega

theorem denotes_of_fits (accepted : params.accepts buffers.bufferSize = true)
    (inBatch : b < params.effBatch)
    (fits : b * params.transferSize % pageSize + params.transferSize ≤ 513 * pageSize) :
    buffers.Denotes b isWrite := by
  intro pool memory visible offset below
  obtain ⟨inside, small⟩ := slot_inside accepted inBatch (Nat.le_of_add_left_le fits)
  have pooled := hasPool_iff inBatch
  have start : b * params.transferSize / pageSize < 2 ^ 32 := by
    rw [pageSize_eq]
    omega
  have computed : calculatePrps
      (Lib.translate pageSize (buffers.direction isWrite).page (b * params.transferSize))
      params.transferSize params.hasPool (buffers.list b isWrite)
      (buffers.direction isWrite).pagePhysAddrs (b * params.transferSize / pageSize) =
        buffers.slotPrps b isWrite := by
    rw [slotPrps, slotAddress_eq _ (by omega) (by omega), bufOff,
      Nat.mod_eq_of_lt (show b * params.transferSize < 2 ^ 64 by omega),
      Nat.mod_eq_of_lt (show params.transferSize < 2 ^ 32 by rw [pageSize_eq] at fits; omega),
      Nat.mod_eq_of_lt start, list]
  refine (buffers.direction isWrite).calculatePrps_denotes memory params.hasPool _ inside
    (fun _ => small.le) fits (fun long => pooled.mpr (long.trans_le (Nat.sub_le _ _))) _ computed
    (fun index word found => ?_) offset below
  obtain ⟨written, -⟩ := List.getElem?_eq_some_iff.mp found
  have short := buffers.list_length_le b isWrite
  have exists_pool : params.hasPool = true := by
    by_contra none
    rw [if_neg none] at short
    omega
  rw [if_pos exists_pool] at short
  rw [visible exists_pool index (by omega), listWord_eq inBatch exists_pool, found,
    Option.getD_some]

theorem list_aligned (inBatch : b < params.effBatch) (pooled : params.hasPool = true) :
    buffers.list b isWrite % pageSize = 0 := by
  rw [list, prpListDmaForSlot, if_pos pooled]
  refine buffers.pageDmas_aligned _ ?_
  simp only [nvmePrpListDmaSlotIndex, IoParams.prpDmaSlots]
  have slots : params.prpSlotsPerBatch = 1 ∨ params.prpSlotsPerBatch = 2 := by
    simp only [IoParams.prpSlotsPerBatch]
    split_ifs <;> simp
  rcases slots with one | two
  · rw [one, if_neg (by decide)]
    omega
  · rw [two, if_pos (by decide)]
    split_ifs <;> omega

/-- The converse: a memory in which the last word of the list points to something else than the rest
of the list does not show the pages behind it. -/
theorem fits_of_denotes (inBatch : b < params.effBatch) (apart : buffers.Apart b isWrite)
    (denotes : buffers.Denotes b isWrite) :
    b * params.transferSize % pageSize + params.transferSize ≤ 513 * pageSize := by
  by_contra long
  have inPage := Nat.mod_lt (b * params.transferSize) (show 0 < pageSize by decide)
  have positive : 0 < params.transferSize := by omega
  have pooled : params.hasPool = true := (hasPool_iff inBatch).mpr (by omega)
  have inside := apart.inside
  have aligned : buffers.list b isWrite % pageSize = 0 := list_aligned inBatch pooled
  let words := buffers.listWord b isWrite fun _ => buffers.list b isWrite + pageSize
  have seen (value : Nat) := denotes _ (memoryWith (buffers.list b isWrite) words value)
    fun _ index listed => memoryWith_list value listed
  have first : slotAddress params (buffers.direction isWrite).toMapping b =
      Lib.translate pageSize (buffers.direction isWrite).page (b * params.transferSize) := by
    have looked := seen 0 0 positive
    rwa [prpAddress_zero, slotPrps, calculatePrps_prp1, Nat.add_zero] at looked
  have place : (buffers.slotPrps b isWrite).prp1 % pageSize =
      b * params.transferSize % pageSize := by
    rw [slotPrps, calculatePrps_prp1, first, DataBuffer.translate_mod _ (by omega)]
  -- the pages that the command names are pages of the buffer
  have page (index : Nat) (below : index < 512) :
      followingPage (slotAddress params (buffers.direction isWrite).toMapping b)
          (pageSize - slotAddress params (buffers.direction isWrite).toMapping b % pageSize)
          (buffers.direction isWrite).pagePhysAddrs (bufOff params b / pageSize % 2 ^ 32) index %
            pageSize = 0 ∧
        followingPage (slotAddress params (buffers.direction isWrite).toMapping b)
          (pageSize - slotAddress params (buffers.direction isWrite).toMapping b % pageSize)
          (buffers.direction isWrite).pagePhysAddrs (bufOff params b / pageSize % 2 ^ 32) index ≠
            buffers.list b isWrite := by
    rw [first, DataBuffer.translate_mod _ (show b * params.transferSize < buffers.bufferSize by
      omega)]
    have next : (b * params.transferSize / pageSize + 1 + index) * pageSize <
        buffers.bufferSize := by
      rw [pageSize_eq] at *
      omega
    obtain ⟨number, inBuffer, same⟩ :=
      (buffers.direction isWrite).followingPage_inside (Nat.mod_le _ (2 ^ 64)) next
    rw [bufOff, same]
    exact ⟨(buffers.direction isWrite).aligned _ inBuffer, apart.list _ inBuffer⟩
  have last : words 511 % pageSize = 0 ∧ words 511 ≠ buffers.list b isWrite := by
    simp only [words, listWord_eq inBatch pooled]
    cases found : (buffers.slotPrps b isWrite).list[511]? with
    | none =>
      rw [Option.getD_none]
      exact ⟨by rw [Nat.add_mod_right, aligned], Nat.ne_of_gt (Nat.lt_add_of_pos_right (by decide))⟩
    | some word =>
      rw [Option.getD_some, calculatePrps_word found]
      exact page 511 (by decide)
  refine lastPage_lost ?_ aligned ?_ last.1 (fun same => absurd same last.2) seen
  · rw [place]
    omega
  · obtain zero | next | listed := calculatePrps_prp2
      (slotAddress params (buffers.direction isWrite).toMapping b) (params.transferSize % 2 ^ 32)
      params.hasPool (buffers.list b isWrite) (buffers.direction isWrite).pagePhysAddrs
      (bufOff params b / pageSize % 2 ^ 32)
    · rw [slotPrps, ← list, zero, Nat.zero_mod]
    · rw [slotPrps, ← list, next]
      exact (page 0 (by decide)).1
    · rw [slotPrps, ← list, listed, aligned]

end

/-- The command of a slot that touches at most 513 pages denotes exactly the slot's bytes, and if
the list page is apart from the buffer only such a command does. List words stay in the list page of
the command. -/
theorem slotPrps_denote_iff (params : IoParams) (buffers : BufferParams params) (b : Nat)
    (isWrite : Bool) (accepted : params.accepts buffers.bufferSize = true)
    (inBatch : b < params.effBatch) :
    buffers.ListInside b isWrite ∧
      (b * params.transferSize % pageSize + params.transferSize ≤ 513 * pageSize →
        buffers.Denotes b isWrite) ∧
      (buffers.Apart b isWrite → buffers.Denotes b isWrite →
        b * params.transferSize % pageSize + params.transferSize ≤ 513 * pageSize) :=
  ⟨listInside inBatch, denotes_of_fits accepted inBatch, fits_of_denotes inBatch⟩

/-! ### The longest transfer that starts inside a page -/

theorem sectorSize_lt : 512 < 2 ^ 32 := by decide

/-- Two commands of 4103 blocks of 512 bytes: 513 pages, the last one not full. -/
def wideParams : IoParams where
  lbaSize := 512
  lbasPerIo := 4103
  queueSize := 64
  batchSize := 2
  readIo := 2
  writeIo := 0
  infiniteMode := false
  lbaSize_lt := sectorSize_lt
  lbasPerIo_lt := by decide
  queueSize_pos := by decide
  queueSize_lt := by decide

/-- A contiguous buffer at `2 ^ 32` with room for both. -/
def wideBuffer : DataBuffer 4201472 where
  buffer := 0
  bufferDma := 2 ^ 32
  pagePhysAddrs := none
  aligned := fun index _ => by
    simp only [Mapping.page, Mapping.base, pageSize_eq, ne_eq, Nat.reducePow, OfNat.ofNat_ne_zero,
      not_false_eq_true, if_true]
    omega
  inSpace := fun index inside => by
    simp only [Mapping.page, Mapping.base, pageSize_eq, ne_eq, Nat.reducePow, OfNat.ofNat_ne_zero,
      not_false_eq_true, if_true] at *
    omega

/-- List pages from `2 ^ 20` on. -/
def wideBuffers : BufferParams wideParams where
  bufferSize := 4201472
  read := wideBuffer
  write := wideBuffer
  prpListPageDmas := fun slot => (256 + slot) * pageSize
  pageDmas_aligned := fun _ _ => Nat.mul_mod_left _ _

theorem wideBuffers_apart (b : Nat) (inBatch : b < 2) : wideBuffers.Apart b false where
  inside := by
    have both : wideParams.transferSize = 2100736 ∧ wideBuffers.bufferSize = 4201472 := by decide
    rw [both.1, both.2]
    omega
  list := by
    intro index _
    have page : (wideBuffers.direction false).page index = 2 ^ 32 + index * pageSize := rfl
    have list : wideBuffers.list b false = (256 + b) * pageSize := rfl
    rw [page, list, pageSize_eq]
    omega

theorem slotPrps_denote_wide : wideParams.accepts wideBuffers.bufferSize = true ∧
    wideBuffers.Denotes 0 false ∧ ¬wideBuffers.Denotes 1 false :=
  ⟨by decide,
    (slotPrps_denote_iff wideParams wideBuffers 0 false (by decide) (by decide)).2.1 (by decide),
    fun denotes => absurd ((slotPrps_denote_iff wideParams wideBuffers 1 false (by decide)
      (by decide)).2.2 (wideBuffers_apart 1 (by decide)) denotes) (by decide)⟩

/-- The last page of the second slot is lost: the word after the 512 words of the list is looked for
in a data page. -/
theorem slotPrps_lastPage : wideParams.accepts wideBuffers.bufferSize = true ∧
    1 < wideParams.effBatch ∧ ¬wideBuffers.Denotes 1 false := by
  refine ⟨by decide, by decide, fun denotes => ?_⟩
  exact absurd (fits_of_denotes (by decide) (wideBuffers_apart 1 (by decide)) denotes) (by decide)

end BufferParams

end RocmXio.Nvme
