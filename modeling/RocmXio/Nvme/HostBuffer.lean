/-
A host data buffer and the physical addresses of its pages.

`allocateGpuAccessibleBuffer` looks the pages of the buffer up in the page map and writes a table
with one address for each NVMe page, through an array of 1024 system pages. A longer buffer has no
table, and neither has one for which some call fails; it is then taken to be contiguous from its
first page on, with a warning and no error.
-/

import RocmXio.Nvme.Prp

namespace RocmXio.Nvme

open Lib

/-! ### The buffer and its frames -/

/-- A host data buffer, and how the calls about it end: the allocations, and opening and reading the
page map, once for the first page and once for all. It begins on a system page, of `ratio` NVMe
pages, because `allocHostMemory` takes it from `hipHostMalloc`. The `malloc` to which
`allocHostMemory` falls back when `hipHostMalloc` fails gives no such page; a buffer from there is
outside this model. -/
structure HostBuffer where
  ratio : Nat
  ratio_pos : 0 < ratio
  ratio_le : ratio ≤ 2 ^ 20
  firstPage : Nat
  size : Nat
  size_pos : 0 < size
  size_lt : size < 2 ^ 63
  hostMemory : Bool
  firstOpen : Bool
  firstRead : Bool
  tableMemory : Bool
  secondOpen : Bool
  reads : Nat → Bool
  present : Nat → Bool

namespace HostBuffer

def sysPage (buffer : HostBuffer) : Nat :=
  buffer.ratio * pageSize

def sysPages (buffer : HostBuffer) : Nat :=
  (buffer.size + buffer.sysPage - 1) / buffer.sysPage

def nvmePages (buffer : HostBuffer) : Nat :=
  (buffer.size + pageSize - 1) / pageSize

structure Frames (buffer : HostBuffer) where
  frame : Nat → Nat
  inSpace : ∀ page < buffer.sysPages,
    (frame (buffer.firstPage + page) + 1) * buffer.sysPage ≤ 2 ^ 64

variable {buffer : HostBuffer}

variable (frames : buffer.Frames)

def Frames.pageAddress (page : Nat) : Nat :=
  frames.frame (buffer.firstPage + page) * buffer.sysPage

/-- The address of a byte of the buffer: the frame of its page and its offset there. -/
def Frames.physical (offset : Nat) : Nat :=
  Lib.translate buffer.sysPage frames.pageAddress offset

/-! ### The allocation -/

/-- `getPhysAddr` of the beginning of the buffer; zero when it fails. -/
def getPhysAddr (buffer : HostBuffer) (frames : buffer.Frames) : Nat :=
  if buffer.firstOpen && buffer.firstRead && buffer.present buffer.firstPage then
    frames.pageAddress 0
  else 0

/-- The errors of `getPagePhysAddrs`: `EINVAL`, that of `open`, `EIO` and `EFAULT`. -/
inductive PagemapError where
  | invalid
  | open
  | io
  | fault
deriving DecidableEq, Repr

/-- The loop of `getPagePhysAddrs` over its first pages. -/
def resolvePages (buffer : HostBuffer) (frames : buffer.Frames) :
    Nat → Except PagemapError (List Nat)
  | 0 => .ok []
  | page + 1 =>
    match resolvePages buffer frames page with
    | .error failure => .error failure
    | .ok addresses =>
      if buffer.reads page = false then .error .io
      else if buffer.present (buffer.firstPage + page) = false then .error .fault
      else .ok (addresses ++ [frames.pageAddress page])

def getPagePhysAddrs (buffer : HostBuffer) (frames : buffer.Frames) (maxPages : Nat) :
    Except PagemapError (List Nat) :=
  if buffer.sysPages > maxPages then .error .invalid
  else if buffer.secondOpen = false then .error .open
  else resolvePages buffer frames buffer.sysPages

def fillSystemPage (ratio nvmeNp : Nat) (sysAddrs : List Nat) (table : List Nat) (s : Nat) :
    Nat → List Nat
  | 0 => table
  | sub + 1 =>
    let filled := fillSystemPage ratio nvmeNp sysAddrs table s sub
    if s * ratio + sub ≥ nvmeNp then filled
    else filled.set (s * ratio + sub) (sysAddrs.getD s 0 + sub * pageSize)

def fillTable (ratio nvmeNp : Nat) (sysAddrs : List Nat) : Nat → List Nat
  | 0 => List.replicate nvmeNp 0
  | s + 1 => fillSystemPage ratio nvmeNp sysAddrs (fillTable ratio nvmeNp sysAddrs s) s ratio

/-- `xioBufferInfo`, as far as it is about addresses. -/
structure BufferInfo where
  dmaAddr : Nat
  pagePhysAddrs : Option (List Nat)
  numPages : Nat
deriving DecidableEq, Repr

/-- The table of page addresses, if there is memory for it and all pages are resolved. -/
def pageTable (buffer : HostBuffer) (frames : buffer.Frames) : Option (List Nat) :=
  let sysNp := buffer.sysPages % 2 ^ 32
  let maxSys := if sysNp ≤ 1024 then sysNp else 1024
  if buffer.tableMemory then
    match getPagePhysAddrs buffer frames maxSys with
    | .error _ => none
    | .ok sysAddrs =>
      some (fillTable buffer.ratio (buffer.nvmePages % 2 ^ 32) sysAddrs sysNp)
  else none

/-- `allocateGpuAccessibleBuffer` for host memory. -/
def allocateGpuAccessibleBuffer (buffer : HostBuffer) (frames : buffer.Frames) :
    Option BufferInfo :=
  if buffer.hostMemory = false then none
  else if getPhysAddr buffer frames = 0 then none
  else some {
    dmaAddr := getPhysAddr buffer frames
    pagePhysAddrs := pageTable buffer frames
    numPages := if (pageTable buffer frames).isSome then buffer.nvmePages % 2 ^ 32 else 0 }

def BufferInfo.mapping (buffer : HostBuffer) (info : BufferInfo) : Mapping where
  buffer := buffer.firstPage * buffer.sysPage
  bufferDma := info.dmaAddr
  pagePhysAddrs := info.pagePhysAddrs.map fun table index => table.getD index 0

/-! ### The table -/

theorem length_fillSystemPage (ratio nvmeNp : Nat) (sysAddrs table : List Nat) (s sub : Nat) :
    (fillSystemPage ratio nvmeNp sysAddrs table s sub).length = table.length := by
  induction sub with
  | zero => rfl
  | succ sub hyp =>
    simp only [fillSystemPage]
    split_ifs
    case pos => exact hyp
    case neg => rw [List.length_set, hyp]

theorem length_fillTable (ratio nvmeNp : Nat) (sysAddrs : List Nat) (s : Nat) :
    (fillTable ratio nvmeNp sysAddrs s).length = nvmeNp := by
  induction s with
  | zero => exact List.length_replicate
  | succ s hyp => rw [fillTable, length_fillSystemPage, hyp]

theorem fillSystemPage_before {ratio nvmeNp : Nat} {sysAddrs table : List Nat} {s index : Nat}
    (before : index < s * ratio) (sub : Nat) :
    (fillSystemPage ratio nvmeNp sysAddrs table s sub).getD index 0 = table.getD index 0 := by
  induction sub with
  | zero => rfl
  | succ sub hyp =>
    simp only [fillSystemPage]
    split_ifs
    case pos => exact hyp
    case neg =>
      have other : s * ratio + sub ≠ index := by omega
      rw [List.getD_eq_getElem?_getD, List.getElem?_set_ne other, ← List.getD_eq_getElem?_getD,
        hyp]

theorem fillSystemPage_within {ratio nvmeNp : Nat} {sysAddrs table : List Nat} {s place : Nat}
    (sized : table.length = nvmeNp) (inTable : s * ratio + place < nvmeNp) {sub : Nat}
    (done : place < sub) :
    (fillSystemPage ratio nvmeNp sysAddrs table s sub).getD (s * ratio + place) 0 =
      sysAddrs.getD s 0 + place * pageSize := by
  induction sub with
  | zero => exact absurd done (Nat.not_lt_zero _)
  | succ sub hyp =>
    have filled := length_fillSystemPage ratio nvmeNp sysAddrs table s sub
    simp only [fillSystemPage]
    rcases Nat.lt_succ_iff_lt_or_eq.mp done with earlier | rfl
    · split_ifs
      case pos => exact hyp earlier
      case neg =>
        have other : s * ratio + sub ≠ s * ratio + place := by omega
        rw [List.getD_eq_getElem?_getD, List.getElem?_set_ne other,
          ← List.getD_eq_getElem?_getD, hyp earlier]
    · rw [if_neg (Nat.not_le_of_lt inTable), List.getD_eq_getElem?_getD,
        List.getElem?_set_self (by rw [filled, sized]; exact inTable), Option.getD_some]

theorem fillTable_getD {ratio nvmeNp : Nat} (sysAddrs : List Nat) {page place : Nat}
    (inPage : place < ratio) (inTable : page * ratio + place < nvmeNp) {s : Nat}
    (done : page < s) :
    (fillTable ratio nvmeNp sysAddrs s).getD (page * ratio + place) 0 =
      sysAddrs.getD page 0 + place * pageSize := by
  induction s with
  | zero => exact absurd done (Nat.not_lt_zero _)
  | succ s hyp =>
    rw [fillTable]
    rcases Nat.lt_succ_iff_lt_or_eq.mp done with earlier | rfl
    · have before : page * ratio + place < s * ratio := by
        have next : (page + 1) * ratio ≤ s * ratio := Nat.mul_le_mul_right ratio earlier
        rw [Nat.add_mul, Nat.one_mul] at next
        omega
      rw [fillSystemPage_before before, hyp earlier]
    · exact fillSystemPage_within (length_fillTable ratio nvmeNp sysAddrs page) inTable inPage

/-- There is memory for the table, and every page is found. The array of system pages has
room for 1024. -/
def Resolved (buffer : HostBuffer) : Prop :=
  buffer.tableMemory = true ∧ buffer.sysPages ≤ 1024 ∧ buffer.secondOpen = true ∧
    ∀ page < buffer.sysPages,
      buffer.reads page = true ∧ buffer.present (buffer.firstPage + page) = true

instance (buffer : HostBuffer) : Decidable buffer.Resolved :=
  inferInstanceAs (Decidable (_ ∧ _ ∧ _ ∧ ∀ page < _, _))

theorem resolvePages_ok {pages : Nat}
    (found : ∀ page < pages,
      buffer.reads page = true ∧ buffer.present (buffer.firstPage + page) = true) :
    resolvePages buffer frames pages = .ok ((List.range pages).map frames.pageAddress) := by
  induction pages with
  | zero => rfl
  | succ pages hyp =>
    obtain ⟨read, present⟩ := found pages (Nat.lt_succ_self pages)
    have earlier := hyp fun page below => found page (Nat.lt_succ_of_lt below)
    simp only [resolvePages, earlier, read, present, Bool.true_eq_false, if_false,
      List.range_succ, List.map_append, List.map_cons, List.map_nil]

theorem found_of_resolvePages {pages : Nat} {addresses : List Nat}
    (ended : resolvePages buffer frames pages = .ok addresses) :
    ∀ page < pages,
      buffer.reads page = true ∧ buffer.present (buffer.firstPage + page) = true := by
  induction pages generalizing addresses with
  | zero => exact fun page below => absurd below (Nat.not_lt_zero page)
  | succ pages hyp =>
    intro page below
    simp only [resolvePages] at ended
    split at ended
    · exact absurd ended (by simp)
    · rename_i earlier
      split_ifs at ended with unread absent
      rcases Nat.lt_succ_iff_lt_or_eq.mp below with before | rfl
      · exact hyp earlier page before
      · exact ⟨eq_true_of_ne_false unread, eq_true_of_ne_false absent⟩

theorem pageTable_of_resolved (resolved : buffer.Resolved) :
    pageTable buffer frames = some (fillTable buffer.ratio (buffer.nvmePages % 2 ^ 32)
        ((List.range buffer.sysPages).map frames.pageAddress) buffer.sysPages) := by
  obtain ⟨memory, few, opened, found⟩ := resolved
  have small : buffer.sysPages % 2 ^ 32 = buffer.sysPages := Nat.mod_eq_of_lt (by omega)
  simp only [pageTable, memory, small, few, if_true, getPagePhysAddrs, opened, gt_iff_lt,
    Nat.lt_irrefl, Bool.true_eq_false, if_false, resolvePages_ok frames found]

theorem pageTable_of_not_resolved (unresolved : ¬ buffer.Resolved) :
    pageTable buffer frames = none := by
  by_contra built
  obtain ⟨table, built⟩ := Option.ne_none_iff_exists'.mp built
  simp only [pageTable] at built
  generalize limit : (if buffer.sysPages % 2 ^ 32 ≤ 1024 then buffer.sysPages % 2 ^ 32 else 1024) =
    maxSys at built
  split_ifs at built with memory
  split at built
  · cases built
  · rename_i ended
    simp only [getPagePhysAddrs] at ended
    split_ifs at ended with many unopened
    have few : buffer.sysPages ≤ 1024 := by
      split_ifs at limit <;> omega
    exact unresolved
      ⟨memory, few, eq_true_of_ne_false unopened, found_of_resolvePages frames ended⟩

/-! ### What the allocation leaves -/

theorem sysPage_pos (buffer : HostBuffer) : 0 < buffer.sysPage :=
  Nat.mul_pos buffer.ratio_pos (by decide)

theorem sysPage_le (buffer : HostBuffer) : buffer.sysPage ≤ 2 ^ 32 := by
  have ratio := buffer.ratio_le
  rw [sysPage, pageSize_eq]
  omega

theorem div_sysPage_lt {offset : Nat} (inside : offset < buffer.size) :
    offset / buffer.sysPage < buffer.sysPages := by
  have positive := buffer.sysPage_pos
  have fits : offset + buffer.sysPage ≤ buffer.size + buffer.sysPage - 1 := by omega
  have next := Nat.div_le_div_right (c := buffer.sysPage) fits
  rw [Nat.add_div_right offset positive] at next
  exact next

theorem Frames.physical_eq_translate (offset : Nat) :
    frames.physical offset =
      Lib.translate pageSize (fun index => frames.physical (index * pageSize)) offset := by
  have small (offset : Nat) : frames.physical offset = _ :=
    Lib.translate_refine buffer.ratio pageSize frames.pageAddress offset
  simp only [small, Lib.translate, pageSize_eq]
  rw [Nat.mul_div_cancel _ (by decide), Nat.mul_mod_left, Nat.add_zero]

theorem Frames.physical_page (index : Nat) :
    frames.physical (index * pageSize) =
      frames.pageAddress (index / buffer.ratio) + index % buffer.ratio * pageSize := by
  have positive : 0 < pageSize := by decide
  rw [physical, sysPage, Lib.translate_refine, Lib.translate, Nat.mul_div_cancel _ positive,
    Nat.mul_mod_left, Nat.add_zero]

theorem Frames.physical_mod (offset : Nat) :
    frames.physical offset % pageSize = offset % pageSize := by
  rw [physical_eq_translate, Lib.translate, physical_page, pageAddress, sysPage,
    ← Nat.mul_assoc, ← Nat.add_mul, Nat.mul_add_mod_self_right, Nat.mod_mod]

theorem Frames.physical_lt {offset : Nat} (inside : offset < buffer.size)
    : frames.physical offset < 2 ^ 64 := by
  have space := frames.inSpace _ (div_sysPage_lt inside)
  have place := Nat.mod_lt offset buffer.sysPage_pos
  rw [Nat.add_mul, Nat.one_mul] at space
  simp only [physical, Lib.translate, pageAddress]
  omega

theorem Frames.physical_first {offset : Nat} (first : offset < buffer.sysPage) :
    frames.physical offset = frames.pageAddress 0 + offset := by
  rw [physical, Lib.translate, Nat.div_eq_of_lt first, Nat.mod_eq_of_lt first]

theorem size_le_of_few (few : buffer.sysPages ≤ 1024) : buffer.size ≤ 2 ^ 42 := by
  have last : (buffer.size - 1) / buffer.sysPage < buffer.sysPages :=
    div_sysPage_lt (Nat.sub_lt buffer.size_pos Nat.one_pos)
  have bound := Nat.lt_mul_of_div_lt (Nat.lt_of_lt_of_le last few) buffer.sysPage_pos
  have small := buffer.sysPage_le
  omega

theorem fillTable_physical (few : buffer.sysPages ≤ 1024) {index : Nat}
    (inside : index * pageSize < buffer.size) :
    (fillTable buffer.ratio (buffer.nvmePages % 2 ^ 32)
      ((List.range buffer.sysPages).map frames.pageAddress) buffer.sysPages).getD index 0 =
        frames.physical (index * pageSize) := by
  have size := size_le_of_few few
  have page : index / buffer.ratio < buffer.sysPages := by
    have onPage := div_sysPage_lt inside
    rwa [sysPage, Nat.mul_div_mul_right _ _ (show 0 < pageSize by decide)] at onPage
  have inTable : index < buffer.nvmePages % 2 ^ 32 := by
    simp only [nvmePages, pageSize_eq] at inside ⊢
    omega
  have split : index / buffer.ratio * buffer.ratio + index % buffer.ratio = index :=
    Nat.div_add_mod' index buffer.ratio
  have entry (sysAddrs : List Nat) :
      (fillTable buffer.ratio (buffer.nvmePages % 2 ^ 32) sysAddrs buffer.sysPages).getD index 0 =
        sysAddrs.getD (index / buffer.ratio) 0 + index % buffer.ratio * pageSize := by
    have set := fillTable_getD sysAddrs (Nat.mod_lt index buffer.ratio_pos)
      (split.symm ▸ inTable) page
    rwa [split] at set
  rw [entry, frames.physical_page, List.getD_eq_getElem?_getD, List.getElem?_map,
    List.getElem?_range page, Option.map_some, Option.getD_some]

def Backed (buffer : HostBuffer) : Prop :=
  buffer.hostMemory = true ∧ buffer.firstOpen = true ∧ buffer.firstRead = true ∧
    buffer.present buffer.firstPage = true

instance (buffer : HostBuffer) : Decidable buffer.Backed :=
  inferInstanceAs (Decidable (_ ∧ _ ∧ _ ∧ _))

theorem allocateGpuAccessibleBuffer_eq_some (info : BufferInfo) :
    allocateGpuAccessibleBuffer buffer frames = some info ↔
      buffer.Backed ∧ frames.pageAddress 0 ≠ 0 ∧
        info = ⟨frames.pageAddress 0, pageTable buffer frames,
          if (pageTable buffer frames).isSome then buffer.nvmePages % 2 ^ 32 else 0⟩ := by
  have found : getPhysAddr buffer frames ≠ 0 ↔ (buffer.firstOpen = true ∧ buffer.firstRead = true ∧
        buffer.present buffer.firstPage = true) ∧ frames.pageAddress 0 ≠ 0 := by
    simp only [getPhysAddr, ne_eq, ite_eq_right_iff, Bool.and_eq_true, and_assoc]
    tauto
  have address (nonzero : getPhysAddr buffer frames ≠ 0) :
      getPhysAddr buffer frames = frames.pageAddress 0 := by
    obtain ⟨⟨opened, read, present⟩, -⟩ := found.mp nonzero
    simp only [getPhysAddr, opened, read, present, Bool.and_self, if_true]
  simp only [allocateGpuAccessibleBuffer]
  constructor
  · intro allocated
    obtain ⟨memory, allocated⟩ := Option.ite_none_left_eq_some.mp allocated
    obtain ⟨backed, allocated⟩ := Option.ite_none_left_eq_some.mp allocated
    obtain ⟨calls, nonzero⟩ := found.mp backed
    rw [address backed] at allocated
    exact ⟨⟨eq_true_of_ne_false memory, calls⟩, nonzero, (Option.some.inj allocated).symm⟩
  · rintro ⟨⟨memory, calls⟩, nonzero, rfl⟩
    have backed := found.mpr ⟨calls, nonzero⟩
    rw [if_neg (by simp [memory]), if_neg backed, address backed]

/-! ### Frames that tell offsets apart -/

def ascending (few : buffer.sysPages ≤ 1024) : buffer.Frames where
  frame page := 1 + (page - buffer.firstPage)
  inSpace page onBuffer := by
    have bound : (1 + page + 1) * buffer.sysPage ≤ 1025 * 2 ^ 32 :=
      Nat.mul_le_mul (by omega) buffer.sysPage_le
    rw [Nat.add_sub_cancel_left]
    omega

theorem ascending_physical (few : buffer.sysPages ≤ 1024) (offset : Nat) :
    (ascending few).physical offset = buffer.sysPage + offset := by
  have split := Nat.div_add_mod' offset buffer.sysPage
  simp only [Frames.physical, Lib.translate, Frames.pageAddress, ascending]
  rw [Nat.add_sub_cancel_left, Nat.add_mul, Nat.one_mul, Nat.add_assoc, split]

/-- The first page lies behind all the others, which share a frame. -/
def scattered (buffer : HostBuffer) : buffer.Frames where
  frame page := if page = buffer.firstPage then 2 else 1
  inSpace page _ := by
    have bound : ((if buffer.firstPage + page = buffer.firstPage then 2 else 1) + 1) *
        buffer.sysPage ≤ 3 * 2 ^ 32 :=
      Nat.mul_le_mul (by split_ifs <;> omega) buffer.sysPage_le
    omega

theorem scattered_first (buffer : HostBuffer) :
    buffer.scattered.pageAddress 0 = 2 * buffer.sysPage := by
  simp [Frames.pageAddress, scattered]

theorem scattered_eq {distance offset : Nat}
    (same : 2 * buffer.sysPage + distance = buffer.scattered.physical offset) :
    offset < buffer.sysPage ∧ distance = offset := by
  by_cases first : offset < buffer.sysPage
  · rw [Frames.physical_first _ first, scattered_first] at same
    exact ⟨first, Nat.add_left_cancel same⟩
  · have later : offset / buffer.sysPage ≠ 0 :=
      Nat.ne_of_gt (Nat.div_pos (Nat.le_of_not_lt first) buffer.sysPage_pos)
    have place := Nat.mod_lt offset buffer.sysPage_pos
    have value : buffer.scattered.physical offset =
        1 * buffer.sysPage + offset % buffer.sysPage := by
      simp [Frames.physical, Lib.translate, Frames.pageAddress, scattered, later]
    omega

theorem pageAddress_mod (page : Nat) : frames.pageAddress page % pageSize = 0 := by
  rw [Frames.pageAddress, sysPage, ← Nat.mul_assoc, Nat.mul_mod_left]

theorem mapping_of_resolved {frames : buffer.Frames} {info : BufferInfo}
    (allocated : allocateGpuAccessibleBuffer buffer frames = some info)
    (resolved : buffer.Resolved) :
    ∃ lookup, (info.mapping buffer).pagePhysAddrs = some lookup ∧
      ∀ index, index * pageSize < buffer.size →
        lookup index = frames.physical (index * pageSize) := by
  obtain ⟨-, -, rfl⟩ := (allocateGpuAccessibleBuffer_eq_some frames info).mp allocated
  refine ⟨_, ?_, fun index inside => fillTable_physical frames resolved.2.1 inside⟩
  simp only [BufferInfo.mapping, pageTable_of_resolved frames resolved, Option.map_some]

theorem mapping_of_not_resolved {frames : buffer.Frames} {info : BufferInfo}
    (allocated : allocateGpuAccessibleBuffer buffer frames = some info)
    (unresolved : ¬ buffer.Resolved) :
    (info.mapping buffer).pagePhysAddrs = none ∧
      (info.mapping buffer).bufferDma = frames.pageAddress 0 ∧ frames.pageAddress 0 ≠ 0 := by
  obtain ⟨-, nonzero, rfl⟩ := (allocateGpuAccessibleBuffer_eq_some frames info).mp allocated
  refine ⟨?_, rfl, nonzero⟩
  simp only [BufferInfo.mapping, pageTable_of_not_resolved frames unresolved, Option.map_none]

theorem exists_allocated (backed : buffer.Backed) (nonzero : frames.pageAddress 0 ≠ 0) :
    ∃ info, allocateGpuAccessibleBuffer buffer frames = some info :=
  ⟨_, (allocateGpuAccessibleBuffer_eq_some frames _).mpr ⟨backed, nonzero, rfl⟩⟩

end HostBuffer

end RocmXio.Nvme
