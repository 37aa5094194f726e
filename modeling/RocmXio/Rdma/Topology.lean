/-
Which device and which address of it an endpoint uses.

`open_ib_device` asks for the closest device that the list of the user admits. Without one it falls
back to the device whose name is the whole list, and then to the first one, listed or not.
`AutoSelectGidIndex` goes over the addresses of a port once and keeps the first one of the highest
priority so far.
-/

import Mathlib.Order.Bounds.Basic
import RocmXio.Lib.Text

namespace RocmXio.Rdma

open Lib

/-! ### The addresses of a port -/

/-- `union ibv_gid`: the words `s6_addr32`, in the byte order of the network. -/
@[ext]
structure Gid where
  word0 : UInt32
  word1 : UInt32
  word2 : UInt32
  word3 : UInt32
deriving DecidableEq, Repr

/-- At one index of the table: the address, if it can be queried, and the text of its type, if that
can be read. -/
structure GidEntry where
  gid : Option Gid
  roceType : Option (List Char)

/-- `GidPriority`. -/
inductive GidPriority where
  | unknown
  | rocev1LinkLocal
  | rocev2LinkLocal
  | rocev1Ipv6
  | rocev2Ipv6
  | rocev1Ipv4
  | rocev2Ipv4
deriving DecidableEq, Repr

/-- The values of the enumeration. -/
def GidPriority.value : GidPriority → Int
  | .unknown => -1
  | .rocev1LinkLocal => 0
  | .rocev2LinkLocal => 1
  | .rocev1Ipv6 => 2
  | .rocev2Ipv6 => 3
  | .rocev1Ipv4 => 4
  | .rocev2Ipv4 => 5

namespace Gid

def isConfiguredGid (gid : Gid) : Bool :=
  let trailer := gid.word1 ||| gid.word2 ||| gid.word3
  !(gid.word0 ||| trailer == 0 || (gid.word0 == 0xfe800000 && trailer == 0))

def linkLocalGid (gid : Gid) : Bool :=
  gid.word0 == 0xfe800000 && gid.word1 == 0

/-- `IsIPv4MappedIPv6`: the bytes 8 to 11 are those of the third word. -/
def isIPv4MappedIPv6 (gid : Gid) : Bool :=
  gid.word0 == 0 && gid.word1 == 0 && gid.word2 == 0x0000ffff

end Gid

/-- The version that `GetRoceVersionNumber` finds in the first 15 characters of a type. -/
def roceVersion (text : List Char) : Nat :=
  if "IB/RoCE v1".toList.isPrefixOf (text.take 15) ||
      "RoCE v1".toList.isPrefixOf (text.take 15) then 1
  else if "RoCE v2".toList.isPrefixOf (text.take 15) then 2
  else 0

def gidPriority (gid : Gid) (roceVersion : Nat) : GidPriority :=
  if gid.isIPv4MappedIPv6 then if roceVersion = 2 then .rocev2Ipv4 else .rocev1Ipv4
  else if !gid.linkLocalGid then if roceVersion = 2 then .rocev2Ipv6 else .rocev1Ipv6
  else if roceVersion = 2 then .rocev2LinkLocal
  else .rocev1LinkLocal

/-- The priority of an entry, unless the loop passes over it. -/
def GidEntry.priority (entry : GidEntry) : Option GidPriority :=
  match entry.gid with
  | none => none
  | some gid =>
    if gid.isConfiguredGid then entry.roceType.map fun text => gidPriority gid (roceVersion text)
    else none

/-- `highestPriority` and `bestGidIndex`. -/
structure GidChoice where
  highestPriority : GidPriority
  bestGidIndex : Int

/-- One turn of the loop. -/
def GidChoice.turn (choice : GidChoice) (indexed : GidEntry × Nat) : GidChoice :=
  match indexed.1.priority with
  | none => choice
  | some priority =>
    if choice.highestPriority.value < priority.value then ⟨priority, indexed.2⟩ else choice

def autoSelectGidIndex (table : List GidEntry) : Int :=
  (table.zipIdx.foldl GidChoice.turn ⟨.unknown, -1⟩).bestGidIndex

/-! ### The best address -/

/-- The address can be queried and its type read, and it is neither zero nor the bare prefix of the
local ones. -/
def GidEntry.Eligible (entry : GidEntry) : Prop :=
  entry.roceType.isSome ∧ ∃ gid, entry.gid = some gid ∧ gid ≠ ⟨0, 0, 0, 0⟩ ∧
    gid ≠ ⟨0xfe800000, 0, 0, 0⟩

/-- An address that stands for one of IPv4. -/
def Gid.Mapped (gid : Gid) : Prop :=
  ∃ address, gid = ⟨0, 0, 0x0000ffff, address⟩

def Gid.LinkLocal (gid : Gid) : Prop :=
  ∃ high low, gid = ⟨0xfe800000, 0, high, low⟩

open Classical in
/-- Addresses of IPv4 come before other global ones and those before link-local ones; of one kind
the second version comes before all others. -/
noncomputable def GidEntry.rank : GidEntry → Nat
  | ⟨some gid, some text⟩ =>
    2 * (if gid.Mapped then 2 else if gid.LinkLocal then 0 else 1) +
      if "RoCE v2".toList <+: text then 1 else 0
  | _ => 0

/-- At the index is an eligible entry, and none ranks higher. -/
def Best (table : List GidEntry) (index : Nat) : Prop :=
  ∃ entry, table[index]? = some entry ∧ entry.Eligible ∧
    ∀ other ∈ table, other.Eligible → other.rank ≤ entry.rank

theorem Gid.isIPv4MappedIPv6_iff (gid : Gid) : gid.isIPv4MappedIPv6 = true ↔ gid.Mapped := by
  simp [isIPv4MappedIPv6, Mapped, Gid.ext_iff, and_assoc]

theorem Gid.linkLocalGid_iff (gid : Gid) : gid.linkLocalGid = true ↔ gid.LinkLocal := by
  simp [linkLocalGid, LinkLocal, Gid.ext_iff]

theorem roceVersion_eq_two_iff (text : List Char) :
    roceVersion text = 2 ↔ "RoCE v2".toList <+: text := by
  have apart : ∀ other ∈ ["IB/RoCE v1".toList, "RoCE v1".toList],
      ¬ ("RoCE v2".toList <+: other ∨ other <+: "RoCE v2".toList) := by
    decide
  simp only [roceVersion, Bool.or_eq_true, List.isPrefixOf_iff_prefix, List.prefix_take_iff]
  split_ifs with first second
  · refine iff_of_false (by decide) fun second => ?_
    rcases first with first | first
    · exact apart _ (by simp) (List.prefix_or_prefix_of_prefix second first.1)
    · exact apart _ (by simp) (List.prefix_or_prefix_of_prefix second first.1)
  · exact iff_of_true rfl second.1
  · exact iff_of_false (by decide) fun found => second ⟨found, by decide⟩

/-- The enumeration orders the entries by their rank. -/
theorem GidEntry.priority_value {entry : GidEntry} {priority : GidPriority}
    (ranked : entry.priority = some priority) : priority.value = entry.rank := by
  obtain ⟨gid, text⟩ := entry
  unfold GidEntry.priority at ranked
  cases gid with
  | none => cases ranked
  | some gid =>
    obtain ⟨-, found⟩ := Option.ite_none_right_eq_some.mp ranked
    obtain ⟨text, rfl, rfl⟩ := Option.map_eq_some_iff.mp found
    simp only [gidPriority, rank, ← Gid.isIPv4MappedIPv6_iff, ← Gid.linkLocalGid_iff,
      ← roceVersion_eq_two_iff, Bool.not_eq_true']
    split_ifs <;> simp_all [GidPriority.value]

theorem Gid.isConfiguredGid_iff (gid : Gid) :
    gid.isConfiguredGid = true ↔ gid ≠ ⟨0, 0, 0, 0⟩ ∧ gid ≠ ⟨0xfe800000, 0, 0, 0⟩ := by
  obtain ⟨word0, word1, word2, word3⟩ := gid
  simp only [isConfiguredGid, ne_eq, mk.injEq, Bool.not_eq_true', Bool.or_eq_false_iff,
    Bool.and_eq_false_iff, beq_eq_false_iff_ne, UInt32.or_eq_zero_iff, and_assoc, not_and_or]

theorem GidEntry.priority_isSome_iff (entry : GidEntry) :
    entry.priority.isSome ↔ entry.Eligible := by
  unfold priority Eligible
  cases entry.gid with
  | none => simp
  | some gid =>
    simp only [← Gid.isConfiguredGid_iff, Option.some.injEq, exists_eq_left']
    split_ifs with configured <;> simp [configured]

theorem GidEntry.unknown_lt {entry : GidEntry} {priority : GidPriority}
    (ranked : entry.priority = some priority) : GidPriority.unknown.value < priority.value := by
  rw [priority_value ranked]
  exact Int.negSucc_lt_zero 0 |>.trans_le (Int.natCast_nonneg _)

/-- What the loop has found after some entries: nothing, or the first one of maximal priority. -/
inductive Chosen (table : List GidEntry) : GidChoice → Prop
  | none (skipped : ∀ entry ∈ table, entry.priority = none) : Chosen table ⟨.unknown, -1⟩
  | some {index : Nat} {entry : GidEntry} {priority : GidPriority}
      (found : table[index]? = some entry) (ranked : entry.priority = some priority)
      (maximal : ∀ other ∈ table, ∀ lower ∈ other.priority, lower.value ≤ priority.value)
      (first : ∀ other ∈ table.take index, ∀ lower ∈ other.priority,
        lower.value < priority.value) : Chosen table ⟨priority, index⟩

theorem Chosen.le {table : List GidEntry} {choice : GidChoice} (chosen : Chosen table choice) :
    ∀ other ∈ table, ∀ lower ∈ other.priority, lower.value ≤ choice.highestPriority.value := by
  cases chosen with
  | none skipped =>
    intro other member lower ranked
    rw [skipped other member] at ranked
    cases ranked
  | some found ranked maximal first => exact maximal

theorem Chosen.append {table : List GidEntry} {choice : GidChoice} (chosen : Chosen table choice)
    {entry : GidEntry}
    (low : ∀ lower ∈ entry.priority, lower.value ≤ choice.highestPriority.value) :
    Chosen (table ++ [entry]) choice := by
  have all : ∀ {property : GidEntry → Prop}, (∀ other ∈ table, property other) → property entry →
      ∀ other ∈ table ++ [entry], property other := by
    intro property old new
    rw [List.forall_mem_append]
    exact ⟨old, by simpa using new⟩
  cases chosen with
  | none skipped =>
    refine .none (all skipped ?_)
    cases ranked : entry.priority with
    | none => rfl
    | some priority => exact absurd (GidEntry.unknown_lt ranked) (low priority ranked).not_gt
  | some found ranked maximal first =>
    have inside := (List.getElem?_eq_some_iff.mp found).1
    refine .some (by rwa [List.getElem?_append_left inside]) ranked (all maximal low) ?_
    rwa [List.take_append_of_le_length inside.le]

theorem Chosen.turn {table : List GidEntry} {choice : GidChoice} (chosen : Chosen table choice)
    (entry : GidEntry) : Chosen (table ++ [entry]) (choice.turn (entry, table.length)) := by
  unfold GidChoice.turn
  cases ranked : entry.priority with
  | none => exact chosen.append (by simp [ranked])
  | some priority =>
    dsimp only
    split_ifs with higher
    · refine .some (by simp) ranked (List.forall_mem_append.mpr ⟨?_, by simp [ranked]⟩) ?_
      · exact fun other member lower low => (chosen.le other member lower low).trans higher.le
      · rw [List.take_left]
        exact fun other member lower low => (chosen.le other member lower low).trans_lt higher
    · exact chosen.append (by simpa [ranked] using higher)

/-- The choice of the whole loop. -/
theorem chosen_autoSelect (table : List GidEntry) :
    Chosen table (table.zipIdx.foldl GidChoice.turn ⟨.unknown, -1⟩) := by
  induction table using List.reverseRecOn with
  | nil => exact .none (by simp)
  | append_singleton table entry inductionHypothesis =>
    rw [List.zipIdx_append, List.foldl_append, Nat.zero_add]
    exact inductionHypothesis.turn entry

/-- `AutoSelectGidIndex` returns -1 exactly when no entry is eligible, and otherwise the smallest
index among the eligible entries of maximal priority. -/
theorem autoSelectGidIndex_spec (table : List GidEntry) :
    (autoSelectGidIndex table = -1 ↔ ∀ entry ∈ table, ¬ entry.Eligible) ∧
      ((∃ entry ∈ table, entry.Eligible) → ∃ index : Nat, autoSelectGidIndex table = index ∧
          IsLeast {index | Best table index} index) := by
  unfold autoSelectGidIndex
  have chosen := chosen_autoSelect table
  generalize table.zipIdx.foldl GidChoice.turn ⟨.unknown, -1⟩ = choice at chosen
  cases chosen with
  | none skipped =>
    have none : ∀ entry ∈ table, ¬ entry.Eligible := by
      intro entry member
      rw [← GidEntry.priority_isSome_iff, skipped entry member]
      exact Bool.false_ne_true
    refine ⟨iff_of_true rfl none, ?_⟩
    rintro ⟨entry, member, eligible⟩
    exact absurd eligible (none entry member)
  | @some index entry priority found ranked maximal first =>
    have eligible : entry.Eligible := by
      rw [← GidEntry.priority_isSome_iff, ranked]
      rfl
    refine ⟨iff_of_false (by simp) fun none =>
      none entry (List.mem_of_getElem? found) eligible, fun _ => ⟨index, rfl, ?_, ?_⟩⟩
    · refine ⟨entry, found, eligible, fun other member able => ?_⟩
      obtain ⟨lower, low⟩ := Option.isSome_iff_exists.mp (other.priority_isSome_iff.mpr able)
      have most := maximal other member lower low
      rwa [GidEntry.priority_value low, GidEntry.priority_value ranked, Int.ofNat_le] at most
    · rintro other ⟨earlier, there, able, highest⟩
      by_contra before
      obtain ⟨high, rank⟩ := Option.isSome_iff_exists.mp (earlier.priority_isSome_iff.mpr able)
      have lower := first earlier (List.mem_of_getElem? (by
        rwa [List.getElem?_take_of_lt (Nat.lt_of_not_le before)])) high rank
      rw [GidEntry.priority_value rank, GidEntry.priority_value ranked, Int.ofNat_lt] at lower
      exact absurd (highest entry (List.mem_of_getElem? found) eligible) lower.not_ge

/-- A link-local address of the second version comes after one of IPv4 of the first. -/
theorem autoSelectGidIndex_spec_mapped : ∃ linkLocal mapped : GidEntry,
    linkLocal.Eligible ∧ mapped.Eligible ∧ linkLocal.rank < mapped.rank ∧
      IsLeast {index | Best [linkLocal, mapped] index} 1 := by
  let linkLocal : GidEntry := ⟨some ⟨0xfe800000, 0, 0, 1⟩, some "RoCE v2".toList⟩
  let mapped : GidEntry := ⟨some ⟨0, 0, 0x0000ffff, 1⟩, some "RoCE v1".toList⟩
  have low : linkLocal.priority = some .rocev2LinkLocal := by decide
  have high : mapped.priority = some .rocev1Ipv4 := by decide
  have able := mapped.priority_isSome_iff.mp (by rw [high]; rfl)
  obtain ⟨index, chosen, least⟩ :=
    (autoSelectGidIndex_spec [linkLocal, mapped]).2 ⟨mapped, by simp, able⟩
  have second : autoSelectGidIndex [linkLocal, mapped] = (1 : Nat) := by decide
  have lowRank := GidEntry.priority_value low
  have highRank := GidEntry.priority_value high
  rw [Int.ofNat_inj.mp (chosen.symm.trans second)] at least
  refine ⟨linkLocal, mapped, linkLocal.priority_isSome_iff.mp (by rw [low]; rfl), able, ?_, least⟩
  simp only [GidPriority.value] at lowRank highRank
  omega

/-! ### The device -/

/-- A device of `ibv_get_device_list`, with its distance to the GPU on the bus if both addresses
can be read. -/
structure IbvDevice where
  name : List Char
  hasActivePort : Bool
  distance : Option Nat
deriving DecidableEq, Repr

/-- The tokens of `std::getline`, which does not report an empty one at the end. -/
def getlineTokens (text : List Char) : List (List Char) :=
  let tokens := pieces ',' text
  if tokens.getLast? = some [] then tokens.dropLast else tokens

def hasExactMatch (namesList name : List Char) : Bool :=
  (getlineTokens namesList).contains name

variable (hcaList : Option (List Char))

def isExcluded (name : List Char) : Bool :=
  let list := hcaList.getD []
  let excludeList := if list.head? = some '^' then list.tail else []
  let includeList := if list.head? = some '^' then [] else list
  hasExactMatch excludeList name || (!includeList.isEmpty && !hasExactMatch includeList name)

def intMax : Nat := 2 ^ 31 - 1

/-- The distance of a device, unless the loop of `GetClosestNicToGpu` passes over it. -/
def IbvDevice.reach (device : IbvDevice) : Option Nat :=
  if !device.hasActivePort || isExcluded hcaList device.name then none else device.distance

/-- One turn of the loop, on the closest device and its distance. -/
def closestTurn (closest : Option (IbvDevice × Nat)) (device : IbvDevice)
    : Option (IbvDevice × Nat) :=
  match device.reach hcaList with
  | none => closest
  | some distance =>
    if distance < closest.elim intMax Prod.snd then some (device, distance) else closest

/-- `GetClosestNicToGpu`; whether the address of the GPU is known is open. -/
def getClosestNicToGpu (gpuFound : Bool) (hcaList : Option (List Char))
    (devices : List IbvDevice) : Option (List Char) :=
  if gpuFound then (devices.foldl (closestTurn hcaList) none).map (·.1.name) else none

/-- The device that `open_ib_device` opens; without any it aborts. -/
def openIbDevice (gpuFound : Bool) (hcaList : Option (List Char)) (devices : List IbvDevice) :
    Option IbvDevice :=
  let byTopology := (getClosestNicToGpu gpuFound hcaList devices).bind fun devName =>
    devices.find? (·.name == devName)
  let byName := hcaList.bind fun list => devices.find? (·.name == list)
  (byTopology.or byName).or devices.head?

/-- A name satisfies the list of the user: all do without one. -/
def Accepts (name : List Char) : Prop :=
  match hcaList.getD [] with
  | [] => True
  | head :: rest =>
    if head = '^' then name ∉ getlineTokens rest else name ∈ getlineTokens (head :: rest)

/-- A device that the topology may choose. -/
def IbvDevice.Placed (device : IbvDevice) : Prop :=
  device.hasActivePort = true ∧ ∃ distance ∈ device.distance, distance < intMax

section

variable (gpuFound : Bool) (hcaList : Option (List Char)) (devices : List IbvDevice)

theorem isExcluded_eq_false_iff (name : List Char) :
    isExcluded hcaList name = false ↔ Accepts hcaList name := by
  have none : getlineTokens [] = [] := rfl
  unfold isExcluded Accepts
  cases hcaList.getD [] with
  | nil => simp [hasExactMatch, none]
  | cons head rest => by_cases excludes : head = '^' <;> simp [excludes, hasExactMatch, none]

theorem reach_iff (device : IbvDevice) : (∃ distance ∈ device.reach hcaList, distance < intMax) ↔
    device.Placed ∧ Accepts hcaList device.name := by
  rw [← isExcluded_eq_false_iff, IbvDevice.reach, IbvDevice.Placed]
  cases device.hasActivePort <;> cases isExcluded hcaList device.name <;> simp

theorem closest_eq_none_iff (closest : Option (IbvDevice × Nat)) :
    devices.foldl (closestTurn hcaList) closest = none ↔ closest = none ∧
      ∀ device ∈ devices, ¬ (device.Placed ∧ Accepts hcaList device.name) := by
  induction devices generalizing closest with
  | nil => simp
  | cons device rest inductionHypothesis =>
    rw [List.foldl_cons, inductionHypothesis, List.forall_mem_cons, ← and_assoc, ← reach_iff,
      closestTurn]
    refine and_congr_left' ?_
    cases device.reach hcaList with
    | none => simp
    | some distance =>
      cases closest with
      | none => by_cases near : distance < intMax <;> simp [near]
      | some nearest => by_cases nearer : distance < nearest.2 <;> simp [nearer]

theorem closest_accepted (found : IbvDevice × Nat)
    (finds : devices.foldl (closestTurn hcaList) none = some found) :
    found.1 ∈ devices ∧ Accepts hcaList found.1.name := by
  refine List.foldlRecOn (motive := fun closest => ∀ found, closest = some found →
    found.1 ∈ devices ∧ Accepts hcaList found.1.name) devices _ (by simp) ?_ found finds
  intro closest before device member found turn
  unfold closestTurn at turn
  cases reach : device.reach hcaList with
  | none =>
    rw [reach] at turn
    exact before found turn
  | some distance =>
    rw [reach] at turn
    obtain ⟨near, taken⟩ | ⟨-, kept⟩ := ite_eq_iff.mp turn
    · cases taken
      refine ⟨member, (isExcluded_eq_false_iff hcaList _).mp ?_⟩
      unfold IbvDevice.reach at reach
      split_ifs at reach with skipped
      exact Bool.eq_false_iff.mpr fun excluded => skipped (by rw [excluded, Bool.or_true])
    · exact before found kept

theorem find_name {name : List Char} (present : name ∈ devices.map (·.name)) :
    ∃ device, devices.find? (·.name == name) = some device ∧ device.name = name := by
  have found : (devices.find? (·.name == name)).isSome := by simpa using present
  obtain ⟨device, finds⟩ := Option.isSome_iff_exists.mp found
  exact ⟨device, finds, by simpa using List.find?_some finds⟩

/-- The device that is opened satisfies the list if and only if the topology has one to choose that
does, or else the device whose name is the whole list, or else the first one. -/
theorem openIbDevice_accepts_iff :
    (∀ device ∈ openIbDevice gpuFound hcaList devices, Accepts hcaList device.name) ↔
      (gpuFound = true ∧ ∃ device ∈ devices, device.Placed ∧ Accepts hcaList device.name) ∨
        (∀ list ∈ hcaList, list ∈ devices.map (·.name) → Accepts hcaList list) ∧
          ((∀ list ∈ hcaList, list ∉ devices.map (·.name)) →
            ∀ first ∈ devices.head?, Accepts hcaList first.name) := by
  unfold openIbDevice
  by_cases placed : gpuFound = true ∧ ∃ device ∈ devices, device.Placed ∧
    Accepts hcaList device.name
  · obtain ⟨located, candidate⟩ := placed
    cases chosen : devices.foldl (closestTurn hcaList) none with
    | none =>
      obtain ⟨device, member, choosable⟩ := candidate
      exact absurd choosable (((closest_eq_none_iff ..).mp chosen).2 device member)
    | some found =>
      obtain ⟨member, accepted⟩ := closest_accepted hcaList devices found chosen
      obtain ⟨device, finds, name⟩ := find_name devices (List.mem_map_of_mem member)
      refine iff_of_true ?_ (.inl ⟨located, candidate⟩)
      simpa [getClosestNicToGpu, located, chosen, finds, name] using accepted
  · have unplaced : getClosestNicToGpu gpuFound hcaList devices = none := by
      rw [getClosestNicToGpu, ite_eq_right_iff, Option.map_eq_none_iff]
      intro located
      rw [closest_eq_none_iff]
      exact ⟨rfl, fun device member choosable => placed ⟨located, device, member, choosable⟩⟩
    rw [or_iff_right placed]
    simp only [unplaced, Option.bind_none, Option.none_or]
    cases hcaList with
    | none => simp
    | some list =>
      simp only [Option.mem_some_iff, forall_eq', Option.bind_some]
      by_cases named : list ∈ devices.map (·.name)
      · obtain ⟨device, finds, rfl⟩ := find_name devices named
        simp [finds, named]
      · have missing : devices.find? (·.name == list) = none := by simpa using named
        simp [missing, named]

/-- Nothing on the list is present, and another device is opened. -/
theorem openIbDevice_ignores_list :
    ∃ device ∈ openIbDevice true (some "bnxt_re0".toList) [⟨"mlx5_0".toList, true, some 3⟩],
      ¬ Accepts (some "bnxt_re0".toList) device.name := by
  refine ⟨_, rfl, ?_⟩
  simp [Accepts, getlineTokens, pieces]

end

end RocmXio.Rdma
