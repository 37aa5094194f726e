/-
Stores of blocks of bytes.

A memory has several spaces, each an array of bytes; a block is a start and the bytes from there on.
A stored block is read back, whole or in part, as long as later blocks are elsewhere.
-/

import Mathlib.Tactic

namespace RocmXio.Lib

/-! ### Numbers as bytes -/

def leBytes : Nat → Nat → List UInt8
  | 0, _ => []
  | width + 1, value => UInt8.ofNat value :: leBytes width (value / 256)

def beBytes (width value : Nat) : List UInt8 :=
  (leBytes width value).reverse

def leValue : List UInt8 → Nat
  | [] => 0
  | byte :: rest => byte.toNat + 256 * leValue rest

def beValue (bytes : List UInt8) : Nat :=
  leValue bytes.reverse

@[simp] theorem length_leBytes (width value : Nat) : (leBytes width value).length = width := by
  induction width generalizing value with
  | zero => rfl
  | succ width inductionHypothesis =>
    rw [leBytes, List.length_cons, inductionHypothesis]

@[simp] theorem length_beBytes (width value : Nat) : (beBytes width value).length = width := by
  rw [beBytes, List.length_reverse, length_leBytes]

/-- The number of bytes that `memcpy` copies when it is given a signed length of 32 bits. -/
def copyCount (length : BitVec 32) : Nat :=
  (length.signExtend 64).toNat

theorem copyCount_of_small {length : BitVec 32} (small : length.toNat < 2 ^ 31) :
    copyCount length = length.toNat := by
  have positive : length.msb = false := by
    rw [BitVec.msb_eq_false_iff_two_mul_lt]
    omega
  rw [copyCount, BitVec.signExtend_eq_setWidth_of_msb_false positive,
    BitVec.toNat_setWidth_of_le (by decide)]

theorem leValue_leBytes {width value : Nat} (fits : value < 256 ^ width) :
    leValue (leBytes width value) = value := by
  induction width generalizing value with
  | zero => exact (Nat.lt_one_iff.mp fits).symm
  | succ width inductionHypothesis =>
    have rest : value / 256 < 256 ^ width := by
      rw [Nat.div_lt_iff_lt_mul (by decide), ← pow_succ]
      exact fits
    rw [leBytes, leValue, inductionHypothesis rest, UInt8.toNat_ofNat']
    exact Nat.mod_add_div value 256

theorem beValue_beBytes {width value : Nat} (fits : value < 256 ^ width) :
    beValue (beBytes width value) = value := by
  rw [beValue, beBytes, List.reverse_reverse, leValue_leBytes fits]

/-! ### Blocks -/

variable {Space : Type*}

abbrev Memory (Space : Type*) : Type _ :=
  Space → Nat → UInt8

def readBytes (memory : Memory Space) (space : Space) (start width : Nat) : List UInt8 :=
  (List.range width).map fun offset => memory space (start + offset)

structure Block (Space : Type*) where
  space : Space
  start : Nat
  bytes : List UInt8

def Block.Inside (block : Block Space) (allowed : Space → Nat → Prop) : Prop :=
  ∀ offset < block.bytes.length, allowed block.space (block.start + offset)

/-- The block is not stored where the bytes from an address on are. -/
def Block.Apart (block : Block Space) (space : Space) (start width : Nat) : Prop :=
  block.space ≠ space ∨ block.start + block.bytes.length ≤ start ∨ start + width ≤ block.start

theorem length_readBytes (memory : Memory Space) (space : Space) (start width : Nat) :
    (readBytes memory space start width).length = width := by
  rw [readBytes, List.length_map, List.length_range]

theorem getElem?_readBytes {width offset : Nat} (within : offset < width) (memory : Memory Space)
    (space : Space) (start : Nat) :
    (readBytes memory space start width)[offset]? = some (memory space (start + offset)) := by
  rw [readBytes, List.getElem?_map, List.getElem?_range within, Option.map_some]

theorem readBytes_eq_iff {memory : Memory Space} {space : Space} {start : Nat}
    {bytes : List UInt8} {width : Nat} (same : bytes.length = width) :
    readBytes memory space start width = bytes ↔
      ∀ offset < width, bytes[offset]? = some (memory space (start + offset)) := by
  constructor
  · rintro rfl offset within
    exact getElem?_readBytes within memory space start
  · intro each
    refine List.ext_getElem? fun offset => ?_
    by_cases within : offset < width
    · rw [getElem?_readBytes within, each offset within]
    · rw [List.getElem?_eq_none (by rw [length_readBytes]; omega),
        List.getElem?_eq_none (by omega)]

theorem readBytes_part {offset width whole : Nat} (within : offset + width ≤ whole)
    (memory : Memory Space) (space : Space) (start : Nat) :
    ((readBytes memory space start whole).drop offset).take width =
      readBytes memory space (start + offset) width := by
  refine ((readBytes_eq_iff ?_).mpr fun more inside => ?_).symm
  · rw [List.length_take, List.length_drop, length_readBytes]
    omega
  · rw [List.getElem?_take_of_lt inside, List.getElem?_drop,
      getElem?_readBytes (by omega), Nat.add_assoc]

variable [DecidableEq Space]

def storeBlock (memory : Memory Space) (block : Block Space) : Memory Space :=
  fun space address =>
    if space = block.space ∧ block.start ≤ address then
      block.bytes.getD (address - block.start) (memory space address)
    else memory space address

def storeBlocks (memory : Memory Space) (blocks : List (Block Space)) : Memory Space :=
  blocks.foldl storeBlock memory

section

variable {memory : Memory Space} {block : Block Space} {space : Space} {start width : Nat}

theorem storeBlocks_cons (memory : Memory Space) (block : Block Space)
    (blocks : List (Block Space)) :
    storeBlocks memory (block :: blocks) = storeBlocks (storeBlock memory block) blocks :=
  rfl

theorem storeBlocks_append (memory : Memory Space) (first second : List (Block Space)) :
    storeBlocks memory (first ++ second) = storeBlocks (storeBlocks memory first) second :=
  List.foldl_append

theorem readBytes_storeBlock_of_apart (apart : block.Apart space start width) :
    readBytes (storeBlock memory block) space start width = readBytes memory space start width := by
  refine (readBytes_eq_iff (length_readBytes _ _ _ _)).mpr fun offset within => ?_
  rw [getElem?_readBytes within, storeBlock]
  split_ifs with covered
  · rcases apart with elsewhere | before | behind
    · exact absurd covered.1.symm elsewhere
    · rw [List.getD_eq_getElem?_getD, List.getElem?_eq_none (by omega), Option.getD_none]
    · omega
  · rfl

theorem readBytes_storeBlocks_of_apart {blocks : List (Block Space)}
    (apart : ∀ block ∈ blocks, block.Apart space start width) :
    readBytes (storeBlocks memory blocks) space start width =
      readBytes memory space start width := by
  induction blocks generalizing memory with
  | nil => rfl
  | cons block rest inductionHypothesis =>
    rw [List.forall_mem_cons] at apart
    rw [storeBlocks_cons, inductionHypothesis apart.2, readBytes_storeBlock_of_apart apart.1]

theorem readBytes_storeBlock {offset : Nat} (within : offset + width ≤ block.bytes.length) :
    readBytes (storeBlock memory block) block.space (block.start + offset) width =
      (block.bytes.drop offset).take width := by
  refine (readBytes_eq_iff ?_).mpr fun more inside => ?_
  · rw [List.length_take, List.length_drop]
    omega
  · have covered : block.space = block.space ∧ block.start ≤ block.start + offset + more :=
      ⟨rfl, by omega⟩
    have position : block.start + offset + more - block.start = offset + more := by omega
    rw [List.getElem?_take_of_lt inside, List.getElem?_drop, storeBlock, if_pos covered, position,
      List.getD_eq_getElem?_getD, List.getElem?_eq_getElem (by omega), Option.getD_some]

theorem readBytes_storeBlocks {bytes : List UInt8} (offset : Nat)
    (before after : List (Block Space)) (within : offset + width ≤ bytes.length)
    (apart : ∀ later ∈ after, later.Apart space (start + offset) width) :
    readBytes (storeBlocks memory (before ++ ⟨space, start, bytes⟩ :: after)) space
      (start + offset) width = (bytes.drop offset).take width := by
  rw [storeBlocks_append, storeBlocks_cons, readBytes_storeBlocks_of_apart apart]
  exact readBytes_storeBlock within

theorem readBytes_storeBlocks_self {bytes : List UInt8} (before after : List (Block Space))
    (whole : bytes.length = width) (apart : ∀ later ∈ after, later.Apart space start width) :
    readBytes (storeBlocks memory (before ++ ⟨space, start, bytes⟩ :: after)) space start width =
      bytes := by
  have part : readBytes (storeBlocks memory (before ++ ⟨space, start, bytes⟩ :: after)) space
      (start + 0) width = (bytes.drop 0).take width :=
    readBytes_storeBlocks 0 before after (by rw [Nat.zero_add, whole]) apart
  rwa [Nat.add_zero, List.drop_zero, List.take_of_length_le (Nat.le_of_eq whole)] at part

end

end RocmXio.Lib
