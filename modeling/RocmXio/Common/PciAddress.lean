/-
The PCI address of an NVMe controller, from the link that sysfs has for it.

The link ends in the address of the function, `DDDD:BB:DD.F`, below those of the bridges that lead
to it. One scanner walks from colon to colon and keeps the last place where an address may begin;
another takes what follows the last `/`. They agree, and the paths of the resource files, printed
from a 32-bit encoding of the address, name the function at the end of the link.
-/

import RocmXio.Lib.Scan
import RocmXio.Common.QueueMemory
import RocmXio.Kmod.Domains

namespace RocmXio.Common

open Lib Errno

/-! ### Addresses -/

structure PciAddress where
  domain : Nat
  bus : Nat
  device : Nat
  function : Nat
  domain_lt : domain < 2 ^ 16
  bus_lt : bus < 2 ^ 8
  device_lt : device < 0x20
  function_lt : function < 8

namespace PciAddress

/-- The address as sysfs writes it, `DDDD:BB:DD.F` in lower case. -/
def text (address : PciAddress) : List Char :=
  hexNumeral 4 address.domain ++ ':' :: (hexNumeral 2 address.bus ++ ':' ::
    (hexNumeral 2 address.device ++ '.' :: hexNumeral 1 address.function))

def bdf (address : PciAddress) : Nat :=
  Kmod.rocmXioBdf address.domain address.bus address.device address.function

end PciAddress

def pciDevices : List Char := "/sys/bus/pci/devices/".toList

def PciAddress.file (address : PciAddress) (name : List Char) : List Char :=
  pciDevices ++ address.text ++ '/' :: name

/-- The link of a controller: its last component is an address, the earlier ones are any. -/
structure LinkTarget where
  earlier : List Char
  address : PciAddress
  component : earlier = [] ∨ ∃ front, earlier = front ++ ['/']
  unterminated : '\x00' ∉ earlier
  short : earlier.length + address.text.length ≤ 255

def LinkTarget.text (link : LinkTarget) : List Char := link.earlier ++ link.address.text

/-! ### Taking the address out of a link -/

/-- What is in the buffer after `readlink`, as a string. -/
def linkStr (link : List Char) : List Char := (link.take 255).takeWhile (· ≠ '\x00')

/-- The place where an address with these two colons begins, if it may be one. -/
def candidate (link : List Char) (colon1 colon2 : Nat) : Option Nat :=
  if (findFrom '.' (colon2 + 1) link).isSome ∧ 4 ≤ colon1 then
    if colon1 - 4 = 0 ∨ link[colon1 - 4 - 1]? = some '/' then some (colon1 - 4) else none
  else none

/-- The loop of `detectBdfFromDevice`. -/
def lastCandidate (link : List Char) (pos : Nat) (pciStart : Option Nat) : Option Nat :=
  if pos < link.length then
    match _ : findFrom ':' pos link with
    | none => pciStart
    | some colon1 =>
      if link.length ≤ colon1 + 3 then pciStart
      else
        match findFrom ':' (colon1 + 1) link with
        | none => pciStart
        | some colon2 =>
          lastCandidate link (colon1 + 1) ((candidate link colon1 colon2).or pciStart)
  else pciStart
termination_by link.length - pos
decreasing_by
  have bounds := bounds_of_findFrom ‹_›
  omega

/-- The text from a place on up to the next `/`. -/
def componentAt (link : List Char) (start : Nat) : List Char :=
  let stop := (findFrom '/' start link).getD link.length
  (link.drop start).take (stop - start)

/-- `sscanf(text, "%04x:%02x:%02x.%x", …)` when it returns 4. -/
def scanAddress (text : List Char) : Option (Nat × Nat × Nat × Nat) := do
  let (domain, text) ← scanHex (some 4) text
  let (bus, text) ← scanHex (some 2) (← scanChar ':' text)
  let (device, text) ← scanHex (some 2) (← scanChar ':' text)
  let (function, _) ← scanHex none (← scanChar '.' text)
  return (domain, bus, device, function)

/-- `detectBdfFromDevice` once the link is read. -/
def bdfOfLink (link : List Char) : Except Errno Nat :=
  match lastCandidate link 0 none with
  | none => .error ENODEV
  | some start =>
    match scanAddress (componentAt link start) with
    | none => .error EINVAL
    | some (domain, bus, device, function) =>
      if 0xFFFF < domain ∨ 0xFF < bus ∨ 0x1F < device ∨ 0x7 < function then .error EINVAL
      else .ok (Kmod.rocmXioBdf domain bus device function)

/-- The first place with a colon four characters on, at the start or behind a `/`. -/
def firstCandidate (link : List Char) : Option Nat :=
  (List.range (link.length - 5)).find? fun i =>
    link[i + 4]? = some ':' ∧ (i = 0 ∨ link[i - 1]? = some '/')

/-- The address that `detectEmulatedNvme` takes out of a link. -/
def emulatedAddress (link : List Char) : Option (List Char) :=
  let start := ((rfind '/' link).map (· + 1)).getD 0
  let start :=
    if link.length - start < 12 ∨ findFrom ':' start link = none then firstCandidate link
    else some start
  start.map (componentAt link)

/-! ### The files -/

/-- A resource file: opening it, mapping bytes of it, and a GPU pointer for them from
`hipHostRegister` or else `hsa_amd_memory_lock`. -/
structure BarFile where
  opened : Option Errno
  map : Nat → Except Errno Nat
  register : Nat → Nat → Option Nat
  lock : Nat → Nat → Except Errno Nat

/-- `mapPciBar` once the path is printed: the pointers for the host and for the GPU. -/
def BarFile.mapBar (file : BarFile) (barSize : Nat) : Except Errno (Nat × Nat) := do
  let barSize := if barSize = 0 then 8192 else barSize
  match file.opened with
  | some errno => .error errno
  | none =>
    let mapped ← file.map barSize
    match file.register mapped barSize with
    | some gpuPtr => return (mapped, gpuPtr)
    | none => return (mapped, ← file.lock mapped barSize)

/-- What the functions see: the controller behind the path of a device, the links, the files
with ids, and the resource files. -/
structure Sysfs where
  resolveNvmeDevicePath : List Char → Except Errno (List Char)
  readlink : List Char → Except Errno (List Char)
  idFile : List Char → IdFile
  capFile : List Char → CapCalls
  barFile : List Char → BarFile

def deviceLink (controllerName : List Char) : List Char :=
  "/sys/class/nvme/".toList ++ controllerName ++ "/device".toList

def resourcePath (pciBdf : Nat) (resource : List Char) : List Char :=
  let domain := pciBdf >>> 16 &&& 0xFFFF
  let bus := pciBdf >>> 8 &&& 0xFF
  let dev := pciBdf >>> 3 &&& 0x1F
  let func := pciBdf &&& 0x7
  snprintf 256 (pciDevices ++ printHex 4 domain ++ ':' :: (printHex 2 bus ++ ':' ::
    (printHex 2 dev ++ '.' :: (printHex 0 func ++ '/' :: resource))))

namespace Sysfs

variable (sysfs : Sysfs)

def detectBdfFromDevice (devicePath : List Char) : Except Errno Nat :=
  match sysfs.resolveNvmeDevicePath devicePath with
  | .error errno => .error errno
  | .ok controllerName =>
    match sysfs.readlink (deviceLink controllerName) with
    | .error _ => .error ENODEV
    | .ok link => bdfOfLink (linkStr link)

/-- `detectEmulatedNvme`, with the files that it reads. -/
def detectEmulatedNvme (devicePath : List Char) (ledger : Ledger) : Int × Bool × Ledger :=
  match sysfs.resolveNvmeDevicePath devicePath with
  | .error errno => (errno.negated, false, ledger)
  | .ok controllerName =>
    match sysfs.readlink (deviceLink controllerName) with
    | .error _ => (ENODEV.negated, false, ledger)
    | .ok link =>
      match emulatedAddress (linkStr link) with
      | none => (ENODEV.negated, false, ledger)
      | some pciAddr =>
        let pciDevPath := pciDevices ++ pciAddr
        DetectCalls.detectEmulatedNvme
          ⟨none, true, true, sysfs.idFile (pciDevPath ++ "/vendor".toList),
            sysfs.idFile (pciDevPath ++ "/device".toList)⟩ ledger

def mapPciBar (pciBdf bar barSize : Nat) : Except Errno (Nat × Nat) :=
  if 5 < bar then .error EINVAL
  else
    (sysfs.barFile (resourcePath pciBdf ("resource".toList ++ Nat.toDigits 10 bar))).mapBar
      barSize

def readNvmeCapCqr (pciBdf : Nat) (ledger : Ledger) : Int × Bool × Ledger :=
  (sysfs.capFile (resourcePath pciBdf "resource0".toList)).readNvmeCapCqr ledger

end Sysfs

/-! ### The text of an address -/

namespace PciAddress

variable (address : PciAddress)

theorem length_text : address.text.length = 12 := by
  simp only [text, List.length_append, List.length_cons, length_hexNumeral]

theorem notMem_text {c : Char} (digit : hexValue c = none) (mark : c ≠ ':' ∧ c ≠ '.') :
    c ∉ address.text := by
  simp only [text, List.mem_append, List.mem_cons, notMem_hexNumeral digit, mark.1, mark.2,
    or_self, not_false_eq_true]

theorem findFrom_colon : findFrom ':' 0 address.text = some 4 := by
  rw [text, findFrom_mark (notMem_hexNumeral (by decide)), length_hexNumeral]

theorem findFrom_secondColon : findFrom ':' 5 address.text = some 7 := by
  have domain : 5 = (hexNumeral 4 address.domain ++ [':']).length + 0 := by
    rw [List.length_append, length_hexNumeral, List.length_singleton]
  rw [text, List.append_cons, domain, findFrom_append_right,
    findFrom_mark (notMem_hexNumeral (by decide)), length_hexNumeral]
  rfl

theorem text_eq_append : address.text = (hexNumeral 4 address.domain ++ ':' ::
    (hexNumeral 2 address.bus ++ [':'])) ++
      (hexNumeral 2 address.device ++ '.' :: hexNumeral 1 address.function) := by
  simp only [text, List.append_assoc, List.cons_append, List.nil_append]

theorem findFrom_behindColons (c : Char) : findFrom c 8 address.text =
    (findFrom c 0 (hexNumeral 2 address.device ++ '.' :: hexNumeral 1 address.function)).map
      (· + 8) := by
  have front : 8 = (hexNumeral 4 address.domain ++ ':' ::
      (hexNumeral 2 address.bus ++ [':'])).length + 0 := by
    simp only [List.length_append, List.length_cons, length_hexNumeral, List.length_nil]
  conv_lhs => rw [text_eq_append, front, findFrom_append_right]
  rw [← Nat.add_zero (List.length _), ← front]

theorem findFrom_dot : findFrom '.' 8 address.text = some 10 := by
  rw [findFrom_behindColons, findFrom_mark (notMem_hexNumeral (by decide)), length_hexNumeral]
  rfl

theorem findFrom_thirdColon : findFrom ':' 8 address.text = none := by
  rw [findFrom_behindColons, Option.map_eq_none_iff]
  refine findFrom_of_free ?_
  have device : ':' ∉ hexNumeral 2 address.device := notMem_hexNumeral (by decide)
  have function : ':' ∉ hexNumeral 1 address.function := notMem_hexNumeral (by decide)
  simp only [List.mem_append, List.mem_cons, device, function, false_or, or_false]
  decide

theorem scanAddress_text : scanAddress address.text =
    some (address.domain, address.bus, address.device, address.function) := by
  have bounded (width value : Nat) (rest : List Char) :
      (hexNumeral width value ++ rest).take ((some width).getD
        (hexNumeral width value ++ rest).length) = hexNumeral width value := by
    exact List.take_left' (length_hexNumeral width value)
  have toEnd (value : Nat) : (hexNumeral 1 value ++ []).take
      ((none : Option Nat).getD (hexNumeral 1 value ++ []).length) = hexNumeral 1 value := by
    rw [List.append_nil, Option.getD_none, List.take_length]
  have last := scanHex_hexNumeral (by decide) (by decide)
    (address.function_lt.trans (by decide)) (toEnd address.function)
  rw [List.append_nil] at last
  rw [text, scanAddress, scanHex_hexNumeral (by decide) (by decide) address.domain_lt (bounded ..)]
  simp only [Option.bind_eq_bind, Option.bind_some, scanChar, if_true]
  rw [scanHex_hexNumeral (by decide) (by decide) address.bus_lt (bounded ..)]
  simp only [Option.bind_some, if_true]
  rw [scanHex_hexNumeral (by decide) (by decide) (address.device_lt.trans (by decide))
    (bounded ..)]
  simp only [Option.bind_some, if_true, last, Option.pure_def]

theorem fields_bdf : address.bdf >>> 16 &&& 0xFFFF = address.domain ∧
    address.bdf >>> 8 &&& 0xFF = address.bus ∧ address.bdf >>> 3 &&& 0x1F = address.device ∧
      address.bdf &&& 0x7 = address.function := by
  have domain := address.domain_lt
  have bus := address.bus_lt
  have device := address.device_lt
  have function := address.function_lt
  rw [bdf, Kmod.rocmXioBdf_eq_add bus device function]
  have masks : 0xFFFF = 2 ^ 16 - 1 ∧ 0xFF = 2 ^ 8 - 1 ∧ 0x1F = 2 ^ 5 - 1 ∧ 0x7 = 2 ^ 3 - 1 := by
    decide
  rw [masks.1, masks.2.1, masks.2.2.1, masks.2.2.2]
  simp only [Nat.and_two_pow_sub_one_eq_mod, Nat.shiftRight_eq_div_pow]
  omega

theorem resourcePath_bdf {name : List Char} (short : name.length ≤ 200) :
    resourcePath address.bdf name = address.file name := by
  obtain ⟨domain, bus, device, function⟩ := address.fields_bdf
  have printed : printHex 0 address.function = hexNumeral 1 address.function := by
    have digit : address.function < 16 := address.function_lt.trans (by decide)
    rw [printHex, Nat.toDigits_of_lt_base digit, Nat.zero_sub, hexNumeral,
      Nat.mod_eq_of_lt digit]
    rfl
  have path : pciDevices ++ hexNumeral 4 address.domain ++ ':' ::
      (hexNumeral 2 address.bus ++ ':' :: (hexNumeral 2 address.device ++ '.' ::
        (hexNumeral 1 address.function ++ '/' :: name))) = address.file name := by
    simp only [file, text, List.append_assoc, List.cons_append]
  have fits : (address.file name).length ≤ 256 - 1 := by
    have directory : pciDevices.length = 21 := rfl
    simp only [file, List.length_append, List.length_cons, length_text, directory]
    omega
  rw [resourcePath]
  simp only [domain, bus, device, function]
  rw [printHex_eq (by decide) address.domain_lt, printHex_eq (by decide) address.bus_lt,
    printHex_eq (by decide) (address.device_lt.trans (by decide)), printed, path, snprintf,
    List.take_of_length_le fits]

end PciAddress

/-! ### The scanners -/

section

variable {link : List Char} {pos colon1 colon2 : Nat} {pciStart : Option Nat}
  (first : findFrom ':' pos link = some colon1)

include first

theorem lastCandidate_of_last (last : findFrom ':' (colon1 + 1) link = none) :
    lastCandidate link pos pciStart = pciStart := by
  have bounds := bounds_of_findFrom first
  rw [lastCandidate, if_pos (bounds.1.trans_lt bounds.2)]
  split
  case h_1 => rfl
  case h_2 other found =>
    cases first.symm.trans found
    rw [last, ite_self]

theorem lastCandidate_of_next (room : colon1 + 3 < link.length)
    (second : findFrom ':' (colon1 + 1) link = some colon2) :
    lastCandidate link pos pciStart =
      lastCandidate link (colon1 + 1) ((candidate link colon1 colon2).or pciStart) := by
  have bounds := bounds_of_findFrom first
  rw [lastCandidate, if_pos (bounds.1.trans_lt bounds.2)]
  split
  case h_1 none => rw [first] at none; cases none
  case h_2 other found =>
    cases first.symm.trans found
    rw [if_neg (Nat.not_le.mpr room), second]

end

namespace LinkTarget

variable (link : LinkTarget)

theorem length_text : link.text.length = link.earlier.length + 12 := by
  rw [text, List.length_append, PciAddress.length_text]

theorem findFrom_address (c : Char) (pos : Nat) : findFrom c (link.earlier.length + pos) link.text =
      (findFrom c pos link.address.text).map (· + link.earlier.length) :=
  findFrom_append_right link.earlier

theorem exists_colon {pos : Nat} (within : pos ≤ link.earlier.length) :
    ∃ colon, findFrom ':' pos link.text = some colon ∧
      (colon < link.earlier.length ∨ colon = link.earlier.length + 4) := by
  rw [text, findFrom_append within, link.address.findFrom_colon, Option.map_some]
  cases early : findFrom ':' pos link.earlier with
  | none => exact ⟨_, Option.none_or, .inr (Nat.add_comm _ _)⟩
  | some colon => exact ⟨colon, Option.some_or, .inl (bounds_of_findFrom early).2⟩

theorem separator : link.earlier.length = 0 ∨ link.text[link.earlier.length - 1]? = some '/' := by
  rcases link.component with none | ⟨front, split⟩
  · exact .inl (List.length_eq_zero_iff.mpr none)
  · refine .inr ?_
    rw [text, split, List.length_append, List.length_singleton, Nat.add_sub_cancel,
      List.append_assoc, List.getElem?_append_right le_rfl, Nat.sub_self]
    rfl

theorem candidate_address :
    candidate link.text (link.earlier.length + 4) (link.earlier.length + 7) =
      some link.earlier.length := by
  have dot : findFrom '.' (link.earlier.length + 7 + 1) link.text =
      some (10 + link.earlier.length) := by
    rw [Nat.add_assoc, findFrom_address, PciAddress.findFrom_dot, Option.map_some]
  rw [candidate, dot, if_pos ⟨rfl, Nat.le_add_left 4 _⟩, Nat.add_sub_cancel, if_pos link.separator]

theorem lastCandidate_secondColon (pciStart : Option Nat) :
    lastCandidate link.text (link.earlier.length + 5) pciStart = pciStart := by
  have colon : findFrom ':' (link.earlier.length + 5) link.text =
      some (7 + link.earlier.length) := by
    rw [findFrom_address, PciAddress.findFrom_secondColon, Option.map_some]
  have none : findFrom ':' (7 + link.earlier.length + 1) link.text = none := by
    rw [Nat.add_comm 7, Nat.add_assoc, findFrom_address, PciAddress.findFrom_thirdColon,
      Option.map_none]
  exact lastCandidate_of_last colon none

theorem lastCandidate_text (pos : Nat) (within : pos ≤ link.earlier.length)
    (pciStart : Option Nat) : lastCandidate link.text pos pciStart = some link.earlier.length := by
  induction left : link.earlier.length - pos using Nat.strong_induction_on
    generalizing pos pciStart with
  | _ left inductionHypothesis =>
    have length := link.length_text
    obtain ⟨colon1, first, early | rfl⟩ := link.exists_colon within
    · -- an earlier component has the colon, and then the address has another one
      have bounds := bounds_of_findFrom first
      obtain ⟨colon2, second, -⟩ := link.exists_colon (Nat.succ_le_of_lt early)
      rw [lastCandidate_of_next first (by omega) second]
      exact inductionHypothesis _ (by omega) _ early _ rfl
    · have second : findFrom ':' (link.earlier.length + 4 + 1) link.text =
          some (link.earlier.length + 7) := by
        rw [Nat.add_assoc, findFrom_address, PciAddress.findFrom_secondColon, Option.map_some,
          Nat.add_comm]
      rw [lastCandidate_of_next first (by omega) second, candidate_address, Option.some_or,
        lastCandidate_secondColon]

theorem linkStr_text : linkStr link.text = link.text := by
  have whole : link.text.take 255 = link.text := by
    refine List.take_of_length_le ?_
    rw [text, List.length_append]
    exact link.short
  rw [linkStr, whole, List.takeWhile_eq_self_iff]
  intro c member
  refine decide_eq_true fun zero => ?_
  rcases List.mem_append.mp (zero ▸ member) with early | last
  · exact link.unterminated early
  · exact link.address.notMem_text (by decide) (by decide) last

theorem componentAt_text : componentAt link.text link.earlier.length = link.address.text := by
  have last : findFrom '/' link.earlier.length link.text = none := by
    refine (link.findFrom_address '/' 0).trans ?_
    rw [findFrom_of_free (link.address.notMem_text (by decide) (by decide)), Option.map_none]
  rw [componentAt, last, Option.getD_none, text, List.length_append, List.drop_left,
    Nat.add_sub_cancel_left, List.take_length]

theorem rfind_text : ((rfind '/' link.text).map (· + 1)).getD 0 = link.earlier.length := by
  have free : '/' ∉ link.address.text := link.address.notMem_text (by decide) (by decide)
  rcases link.component with none | ⟨front, split⟩
  · rw [text, none, List.nil_append, rfind_of_free free]
    rfl
  · rw [text, split, List.append_assoc, List.singleton_append, rfind_append free,
      Option.map_some, Option.getD_some, List.length_append, List.length_singleton]

theorem emulatedAddress_text : emulatedAddress link.text = some link.address.text := by
  have colon : findFrom ':' link.earlier.length link.text = some (4 + link.earlier.length) := by
    refine (link.findFrom_address ':' 0).trans ?_
    rw [PciAddress.findFrom_colon, Option.map_some]
  have long : ¬(link.text.length - link.earlier.length < 12 ∨
      findFrom ':' link.earlier.length link.text = none) := by
    rw [length_text, Nat.add_sub_cancel_left, colon]
    exact not_or.mpr ⟨Nat.lt_irrefl 12, Option.some_ne_none _⟩
  rw [emulatedAddress, rfind_text, if_neg long, Option.map_some, componentAt_text]

theorem bdfOfLink_text : bdfOfLink link.text = .ok link.address.bdf := by
  have valid : ¬(0xFFFF < link.address.domain ∨ 0xFF < link.address.bus ∨
      0x1F < link.address.device ∨ 0x7 < link.address.function) := by
    have domain := link.address.domain_lt
    have bus := link.address.bus_lt
    have device := link.address.device_lt
    have function := link.address.function_lt
    omega
  rw [bdfOfLink, link.lastCandidate_text 0 (Nat.zero_le _) none]
  simp only [componentAt_text, PciAddress.scanAddress_text]
  rw [if_neg valid, PciAddress.bdf]

end LinkTarget

/-! ### Discovery -/

def PciAddress.resource (address : PciAddress) (bar : Nat) : List Char :=
  address.file ("resource".toList ++ Nat.toDigits 10 bar)

/-- The file can be opened and read, and has an id. -/
def Sysfs.HasId (sysfs : Sysfs) (path : List Char) (id : Nat) : Prop :=
  (sysfs.idFile path).opened = none ∧ (sysfs.idFile path).content = some id

/-- The functions look at one address: the encoding is the address, the controller counts as
emulated by the id in its vendor file, and BARs and registers are those of its resource files. -/
structure Discovered (sysfs : Sysfs) (devicePath : List Char) (address : PciAddress) : Prop where
  bdf : sysfs.detectBdfFromDevice devicePath = .ok address.bdf
  detects : ∀ ledger, (sysfs.detectEmulatedNvme devicePath ledger).1 = 0 ↔ ∃ vendor device,
    sysfs.HasId (address.file "vendor".toList) vendor ∧
      sysfs.HasId (address.file "device".toList) device
  emulated : ∀ ledger, (sysfs.detectEmulatedNvme devicePath ledger).2.1 = true ↔ ∃ vendor device,
    sysfs.HasId (address.file "vendor".toList) vendor ∧
      sysfs.HasId (address.file "device".toList) device ∧ vendor % 2 ^ 16 = 0x1b36
  resourcePath : ∀ bar ≤ 5,
    resourcePath address.bdf ("resource".toList ++ Nat.toDigits 10 bar) = address.resource bar
  maps : ∀ bar ≤ 5, ∀ barSize mapped gpuPtr,
    sysfs.mapPciBar address.bdf bar barSize = .ok (mapped, gpuPtr) →
      (sysfs.barFile (address.resource bar)).opened = none ∧
        (sysfs.barFile (address.resource bar)).map (if barSize = 0 then 8192 else barSize) =
          .ok mapped
  reads : ∀ ledger, (sysfs.readNvmeCapCqr address.bdf ledger).1 = 0 ↔
    (sysfs.capFile (address.resource 0)).opened = none ∧
      (sysfs.capFile (address.resource 0)).mapped = none

theorem IdFile.readId_eq (file : IdFile) (ledger : Ledger) :
    (file.opened = none ∧ ∃ id after, file.content = some id ∧
        file.readId ledger = (.ok id, after)) ∨
      (¬ (file.opened = none ∧ ∃ id, file.content = some id) ∧
        ∃ errno after, file.readId ledger = (.error errno, after)) := by
  obtain ⟨opened, content⟩ := file
  cases opened with
  | some errno => exact .inr ⟨fun readable => Option.some_ne_none _ readable.1, _, _, rfl⟩
  | none =>
    cases content with
    | none => exact .inr ⟨fun readable => Option.some_ne_none _ readable.2.choose_spec.symm,
        _, _, rfl⟩
    | some id => exact .inl ⟨rfl, id, _, rfl, rfl⟩

theorem DetectCalls.detectEmulatedNvme_iff (vendor device : IdFile) (ledger : Ledger) :
    ((detectEmulatedNvme ⟨none, true, true, vendor, device⟩ ledger).1 = 0 ↔ ∃ vendorId deviceId,
      (vendor.opened = none ∧ vendor.content = some vendorId) ∧
        device.opened = none ∧ device.content = some deviceId) ∧
    ((detectEmulatedNvme ⟨none, true, true, vendor, device⟩ ledger).2.1 = true ↔
      ∃ vendorId deviceId, (vendor.opened = none ∧ vendor.content = some vendorId) ∧
        (device.opened = none ∧ device.content = some deviceId) ∧ vendorId % 2 ^ 16 = 0x1b36) := by
  simp only [detectEmulatedNvme, Bool.not_true, Bool.or_self, Bool.false_eq_true, if_false]
  obtain ⟨opened, id, after, content, read⟩ | ⟨closed, errno, after, read⟩ :=
    vendor.readId_eq ledger
  · obtain ⟨other, id, last, there, found⟩ | ⟨closed, errno, last, found⟩ :=
      device.readId_eq after
    · simp [read, found, opened, content, other, there]
    · have negative := errno.negated_neg.ne
      simp only [read, found, negative, Bool.false_eq_true, false_iff]
      exact ⟨fun ⟨_, id, _, readable⟩ => closed ⟨readable.1, id, readable.2⟩,
        fun ⟨_, id, _, readable, _⟩ => closed ⟨readable.1, id, readable.2⟩⟩
  · have negative := errno.negated_neg.ne
    simp only [read, negative, Bool.false_eq_true, false_iff]
    exact ⟨fun ⟨id, _, readable, _⟩ => closed ⟨readable.1, id, readable.2⟩,
      fun ⟨id, _, readable, _⟩ => closed ⟨readable.1, id, readable.2⟩⟩

theorem BarFile.opened_of_mapBar {file : BarFile} {barSize mapped gpuPtr : Nat}
    (result : file.mapBar barSize = .ok (mapped, gpuPtr)) :
    file.opened = none ∧ file.map (if barSize = 0 then 8192 else barSize) = .ok mapped := by
  simp only [mapBar] at result
  split at result
  case h_1 => cases result
  case h_2 opened =>
    refine ⟨opened, ?_⟩
    cases map : file.map (if barSize = 0 then 8192 else barSize) with
    | error errno =>
      rw [map] at result
      cases result
    | ok place =>
      rw [map] at result
      change (match file.register place _ with
        | some gpuPtr => Except.ok (place, gpuPtr)
        | none => file.lock place _ >>= fun gpuPtr => .ok (place, gpuPtr)) = _ at result
      split at result
      · cases result
        rfl
      · cases locked : file.lock place (if barSize = 0 then 8192 else barSize) with
        | error errno =>
          rw [locked] at result
          cases result
        | ok other =>
          rw [locked] at result
          cases result
          rfl

theorem CapCalls.readNvmeCapCqr_iff (calls : CapCalls) (ledger : Ledger) :
    (calls.readNvmeCapCqr ledger).1 = 0 ↔ calls.opened = none ∧ calls.mapped = none := by
  obtain ⟨opened, mapped, cap⟩ := calls
  cases opened with
  | some errno =>
    exact ⟨fun zero => absurd zero errno.negated_neg.ne, fun both => absurd both.1 (by simp)⟩
  | none =>
    cases mapped with
    | some errno =>
      exact ⟨fun zero => absurd zero errno.negated_neg.ne, fun both => absurd both.2 (by simp)⟩
    | none => exact ⟨fun _ => ⟨rfl, rfl⟩, fun _ => rfl⟩

/-- A controller below a bridge, with the names of the root and of the bridge in its link. -/
def belowBridge : LinkTarget where
  earlier := "../../pci0000:00/0000:00:01.1/".toList
  address := ⟨0, 3, 0, 1, by decide, by decide, by decide, by decide⟩
  component := .inr ⟨"../../pci0000:00/0000:00:01.1".toList, rfl⟩
  unterminated := by decide
  short := by decide

def bridgedHost : Sysfs where
  resolveNvmeDevicePath _ := .ok "nvme0".toList
  readlink _ := .ok belowBridge.text
  idFile path := ⟨none, if path = belowBridge.address.file "vendor".toList then some 0x1b36
    else some 0⟩
  capFile _ := ⟨none, none, 0⟩
  barFile _ := ⟨none, .ok, fun _ _ => none, fun mapped _ => .ok mapped⟩

end RocmXio.Common
