/-
Puts whose data travels in the work request.

Each provider copies the data of a put into the request when it is no longer than a threshold, which
has no upper bound. The bnxt provider reserves three slots of 16 bytes, one for data; mlx5 builds 64
bytes, 28 for data, in a local variable; ionic writes 64 bytes in place, 32 for data. None looks at
the length again: the copy is right exactly when the data fits.
-/

import RocmXio.Lib.ByteStores
import RocmXio.Rdma.Bnxt

namespace RocmXio.Rdma.Inline

open Lib

/-! ### Requests -/

/-- The buffer the data is in, the send queue, and the local variables of the lane. -/
inductive Space where
  | buffer
  | queue
  | image
deriving DecidableEq, Repr

inductive Kind where
  | write
  | writeImm
  | read
deriving DecidableEq, Repr

def Kind.isWrite : Kind → Bool
  | .write | .writeImm => true
  | .read => false

/-- The arguments of `post_wqe_rma_single`, and the keys of the queue pair. The number of bytes was
converted to an `int32_t`. -/
structure Rma where
  kind : Kind
  length : BitVec 32
  laddr : Nat
  raddr : Nat
  immData : Nat := 0
  rkey : Nat := 0
  lkey : Nat := 0
deriving DecidableEq, Repr

def Rma.size (rma : Rma) : Nat :=
  rma.length.toNat

/-- What a provider has set aside for a request: where it may write, where the data starts in the
queue and how much there is room for, and the length as the hardware reads it. -/
structure Layout where
  reserved : Space → Nat → Prop
  payload : Nat
  room : Nat
  length : Memory Space → Nat

/-- The data has room, it and its length are in the request, and nothing was written outside
of what was set aside. -/
structure Stored (layout : Layout) (rma : Rma) (memory : Memory Space)
    (blocks : List (Block Space)) : Prop where
  room : rma.size ≤ layout.room
  payload : readBytes (storeBlocks memory blocks) .queue layout.payload rma.size =
    readBytes memory .buffer rma.laddr rma.size
  length : layout.length (storeBlocks memory blocks) = rma.size
  inside : ∀ block ∈ blocks, block.Inside layout.reserved

/-! ### The bnxt provider -/

/-- A queue pair of the bnxt provider. The number of slots is one of `compute_sq`, and the tail is a
slot when there are any. -/
structure BnxtQueue where
  qp : Bnxt.Qp
  slots : qp.depth % 256 = 0
  tail_lt : 0 < qp.depth → qp.tail < qp.depth

namespace BnxtQueue

def opcode : Kind → Nat
  | .write => 0x04
  | .writeImm => 0x05
  | .read => 0x06

variable (queue : BnxtQueue) (rma : Rma)

def inlineMsg : Bool :=
  queue.qp.inlineMsg rma.length rma.kind.isWrite

/-- `BNXT_RE_WR_FLAGS_SIGNALED` and `BNXT_RE_WR_FLAGS_INLINE`. -/
def hdrFlags : Nat :=
  if queue.inlineMsg rma then 0x01 ||| 0x10 else 0x01

/-- The header: the size in slots, the flags and the opcode; the immediate data; the length. -/
def header : List UInt8 :=
  leBytes 4 (Bnxt.slotCount <<< 16 ||| queue.hdrFlags rma <<< 8 ||| opcode rma.kind) ++
    leBytes 4 (if rma.kind = .writeImm then rma.immData else 0) ++ leBytes 8 (copyCount rma.length)

/-- `write_rma_wqe` after the poll. The last field of the second slot is not assigned. -/
def writeRmaWqe (memory : Memory Space) : List (Block Space) :=
  [⟨.queue, 16 * queue.qp.getHwqe 0, queue.header rma⟩,
   ⟨.queue, 16 * queue.qp.getHwqe 1,
     leBytes 8 rma.raddr ++ leBytes 4 rma.rkey ++ readBytes memory .image 12 4⟩,
   ⟨.queue, 16 * queue.qp.getHwqe 2,
     if queue.inlineMsg rma then readBytes memory .buffer rma.laddr (copyCount rma.length)
     else leBytes 8 rma.laddr ++ leBytes 4 rma.lkey ++ leBytes 4 rma.size⟩]

def layout : Layout where
  reserved := fun space address => space = .queue ∧ address / 16 < queue.qp.depth ∧
    ∃ index < Bnxt.slotCount, address / 16 = queue.qp.getHwqe index
  payload := 16 * queue.qp.getHwqe 2
  room := 16 * Bnxt.slotCount - 32
  length := fun memory => leValue (readBytes memory .queue (16 * queue.qp.getHwqe 0 + 8) 8)

end BnxtQueue

/-! ### The mlx5 provider -/

/-- A queue pair of the mlx5 provider, and the index of the request. -/
structure Mlx5Queue where
  depth : Nat
  wqeIdx : Nat
  qpNum : Nat
  inlineThreshold : BitVec 32
deriving DecidableEq, Repr

namespace Mlx5Queue

def opcode : Kind → Nat
  | .write => 0x08
  | .writeImm => 0x09
  | .read => 0x10

variable (queue : Mlx5Queue) (rma : Rma)

/-- `can_inline`: both sides of the comparison are unsigned. -/
def canInline : Bool :=
  rma.kind.isWrite && decide (rma.length.toNat ≤ queue.inlineThreshold.toNat)

/-- `inline_ds`: the number of segments of a request with inline data. -/
def inlineDs (byteCount : Nat) : Nat :=
  if byteCount ≤ 12 then 3 else 4

def ctrl (ds : Nat) : List UInt8 :=
  beBytes 4 (queue.wqeIdx <<< 8 ||| opcode rma.kind) ++
    beBytes 4 (queue.qpNum <<< 8 ||| ds &&& 0x3F) ++ [0, 0, 0, 0x08] ++ beBytes 4 0

/-- The request as built in a local variable. Inline data is copied over 28 cleared bytes; the
immediate data is assigned last. -/
def image (memory : Memory Space) : List (Block Space) :=
  [⟨.image, 0, queue.ctrl rma (if queue.canInline rma then inlineDs rma.size else 3)⟩,
   ⟨.image, 16, beBytes 8 rma.raddr ++ leBytes 4 rma.rkey ++ leBytes 4 0⟩] ++
  (if queue.canInline rma then
    [⟨.image, 32, beBytes 4 (rma.size &&& 0x3FF ||| 0x80000000) ++ List.replicate 28 0⟩,
     ⟨.image, 36, readBytes memory .buffer rma.laddr rma.size⟩]
  else
    [⟨.image, 32, beBytes 4 (rma.size % 2 ^ 31) ++ leBytes 4 rma.lkey ++ beBytes 8 rma.laddr⟩]) ++
  [⟨.image, 12, beBytes 4 rma.immData⟩]

def sqIdx : Nat :=
  queue.wqeIdx % queue.depth

/-- `post_wqe_rma_single` builds the request and copies its 64 bytes into the queue. -/
def postWqeRma (memory : Memory Space) : List (Block Space) :=
  queue.image rma memory ++
    [⟨.queue, 64 * queue.sqIdx,
      readBytes (storeBlocks memory (queue.image rma memory)) .image 0 64⟩]

/-- The local variable and one slot; the hardware reads the segments that the request says it
has. -/
def layout : Layout where
  reserved := fun space address => match space with
    | .buffer => False
    | .queue => address / 64 = queue.sqIdx
    | .image => address < 64
  payload := 64 * queue.sqIdx + 36
  room := 16 * inlineDs rma.size - 36
  length := fun memory => beValue (readBytes memory .queue (64 * queue.sqIdx + 32) 4) % 2 ^ 10

end Mlx5Queue

/-! ### The ionic provider -/

/-- A queue pair of the ionic provider, the position of the request and whether it is
signalled. The opcodes depend on the version of the firmware. -/
structure IonicQueue where
  sqMask : Nat
  sqPos : Nat
  signaled : Bool
  firmware2 : Bool
  inlineThreshold : BitVec 32
deriving DecidableEq, Repr

namespace IonicQueue

variable (queue : IonicQueue) (rma : Rma)

def opcode : Nat :=
  match queue.firmware2, rma.kind with
  | true, .write => 0x21
  | true, .writeImm => 0x61
  | true, .read => 0x02
  | false, .write => 4
  | false, .writeImm => 5
  | false, .read => 3

def size : BitVec 32 :=
  if rma.length ≠ 0 ∧ rma.laddr = 0 ∧ rma.kind.isWrite = true then 1 else rma.length

/-- The data is in the request: the length is not zero, and both sides of the comparison are
signed. -/
def inlined : Bool :=
  decide (size rma ≠ 0) && rma.kind.isWrite &&
    decide ((size rma).toInt ≤ queue.inlineThreshold.toInt)

def wqeFlags : Nat :=
  (if queue.sqPos &&& (queue.sqMask + 1) = 0 then 0x10 else 0) |||
    (if queue.signaled then 0x08 else 0) ||| (if queue.inlined rma then 0x04 else 0)

def wqe : Nat :=
  64 * (queue.sqPos &&& queue.sqMask)

def payload (memory : Memory Space) : List (Block Space) :=
  if size rma = 0 then []
  else if queue.inlined rma then
    [⟨.queue, queue.wqe + 9, [0]⟩,
     ⟨.queue, queue.wqe + 32,
       if rma.laddr = 0 then [1] else readBytes memory .buffer rma.laddr (copyCount (size rma))⟩]
  else [⟨.queue, queue.wqe + 32,
    beBytes 8 rma.laddr ++ beBytes 4 (size rma).toNat ++ beBytes 4 rma.lkey⟩]

/-- `post_wqe_rma_single` between the reservation and the commit. The flags are stored last. -/
def postWqeRma (memory : Memory Space) : List (Block Space) :=
  [⟨.queue, queue.wqe, leBytes 8 queue.sqPos⟩,
   ⟨.queue, queue.wqe + 8,
     [UInt8.ofNat (queue.opcode rma), if size rma = 0 then 0 else 1]⟩,
   ⟨.queue, queue.wqe + 12, beBytes 4 rma.immData⟩,
   ⟨.queue, queue.wqe + 16, beBytes 4 (rma.raddr >>> 32) ++ beBytes 4 rma.raddr ++
     beBytes 4 rma.rkey ++ beBytes 4 (size rma).toNat⟩] ++
  queue.payload rma memory ++ [⟨.queue, queue.wqe + 10, beBytes 2 (queue.wqeFlags rma)⟩]

def layout : Layout where
  reserved := fun space address => space = .queue ∧ address / 64 = queue.sqPos &&& queue.sqMask
  payload := queue.wqe + 32
  room := 32
  length := fun memory => beValue (readBytes memory .queue (queue.wqe + 28) 4)

end IonicQueue

/-! ### What fits is stored -/

namespace BnxtQueue

variable {queue : BnxtQueue} {rma : Rma}

theorem length_header : (queue.header rma).length = 16 := by
  simp only [header, List.length_append, length_leBytes]

theorem header_part : ((queue.header rma).drop 8).take 8 = leBytes 8 (copyCount rma.length) := by
  have front : ∀ (flags key : Nat),
      (leBytes 4 flags ++ leBytes 4 key).length = 8 := fun flags key => by
    rw [List.length_append, length_leBytes, length_leBytes]
  rw [header, List.drop_left' (front _ _), List.take_of_length_le (length_leBytes _ _).le]

variable (memory : Memory Space)

theorem layout_length : queue.layout.length memory =
    leValue (readBytes memory .queue (16 * queue.qp.getHwqe 0 + 8) 8) :=
  rfl

variable {index : Nat}

theorem getHwqe_lt (positive : 0 < queue.qp.depth) (small : index < 256) :
    queue.qp.getHwqe index < queue.qp.depth := by
  have tail := queue.tail_lt positive
  have slots := queue.slots
  rw [Bnxt.Qp.getHwqe]
  split_ifs <;> omega

theorem getHwqe_ne {first second : Nat} (ordered : first < second) (small : second < 256) :
    queue.qp.getHwqe first ≠ queue.qp.getHwqe second := by
  have slots := queue.slots
  rw [Bnxt.Qp.getHwqe, Bnxt.Qp.getHwqe]
  split_ifs <;> omega

variable {bytes : List UInt8}

theorem apart_of_ne {first second offset width : Nat} (other : first ≠ second)
    (short : bytes.length ≤ 16) (within : offset + width ≤ 16) :
    (⟨.queue, 16 * first, bytes⟩ : Block Space).Apart .queue (16 * second + offset) width := by
  right
  show 16 * first + bytes.length ≤ _ ∨ _ ≤ 16 * first
  omega

theorem inside_of_slot (positive : 0 < queue.qp.depth) (slot : index < Bnxt.slotCount)
    (short : bytes.length ≤ 16) :
    (⟨.queue, 16 * queue.qp.getHwqe index, bytes⟩ : Block Space).Inside queue.layout.reserved := by
  intro offset within
  have here : (16 * queue.qp.getHwqe index + offset) / 16 = queue.qp.getHwqe index := by
    have bound : offset < bytes.length := within
    omega
  have small : index < 256 := Nat.lt_trans slot (by decide)
  exact ⟨rfl, here.trans_lt (getHwqe_lt positive small), index, slot, here⟩

theorem stored_of_fits (positive : 0 < queue.qp.depth) (inlined : queue.inlineMsg rma = true)
    (fits : rma.size ≤ 16) :
    Stored queue.layout rma memory (queue.writeRmaWqe rma memory) := by
  have count : copyCount rma.length = rma.size :=
    copyCount_of_small (Nat.lt_of_le_of_lt fits (by decide))
  have shape : queue.writeRmaWqe rma memory = [⟨.queue, 16 * queue.qp.getHwqe 0, queue.header rma⟩,
       ⟨.queue, 16 * queue.qp.getHwqe 1,
         leBytes 8 rma.raddr ++ leBytes 4 rma.rkey ++ readBytes memory .image 12 4⟩,
       ⟨.queue, 16 * queue.qp.getHwqe 2, readBytes memory .buffer rma.laddr rma.size⟩] := by
    rw [writeRmaWqe, inlined, if_pos rfl, count]
  have second : (leBytes 8 rma.raddr ++ leBytes 4 rma.rkey ++
      readBytes memory .image 12 4).length = 16 := by
    simp only [List.length_append, length_leBytes, length_readBytes]
  have third : (readBytes memory .buffer rma.laddr rma.size).length = rma.size :=
    length_readBytes _ _ _ _
  rw [shape]
  refine ⟨fits, readBytes_storeBlocks_self [_, _] [] third nofun, ?_, ?_⟩
  · have field : readBytes (storeBlocks memory
        [⟨.queue, 16 * queue.qp.getHwqe 0, queue.header rma⟩,
         ⟨.queue, 16 * queue.qp.getHwqe 1,
           leBytes 8 rma.raddr ++ leBytes 4 rma.rkey ++ readBytes memory .image 12 4⟩,
         ⟨.queue, 16 * queue.qp.getHwqe 2, readBytes memory .buffer rma.laddr rma.size⟩])
        .queue (16 * queue.qp.getHwqe 0 + 8) 8 = ((queue.header rma).drop 8).take 8 := by
      refine readBytes_storeBlocks 8 [] [_, _] (Nat.le_of_eq length_header.symm) ?_
      rw [List.forall_mem_cons, List.forall_mem_singleton]
      exact ⟨apart_of_ne (getHwqe_ne (by decide) (by decide)).symm second.le (by decide),
        apart_of_ne (getHwqe_ne (by decide) (by decide)).symm
          (third.le.trans fits) (by decide)⟩
    rw [layout_length, field, header_part, count]
    exact leValue_leBytes (Nat.lt_of_le_of_lt fits (by decide))
  · rw [List.forall_mem_cons, List.forall_mem_cons, List.forall_mem_singleton]
    exact ⟨inside_of_slot positive (by decide) length_header.le,
      inside_of_slot positive (by decide) second.le,
      inside_of_slot positive (by decide) (third.le.trans fits)⟩

theorem fits_of_stored {memory : Memory Space}
    (stored : Stored queue.layout rma memory (queue.writeRmaWqe rma memory)) :
    0 < queue.qp.depth ∧ rma.size ≤ 16 := by
  have header : Block.Inside ⟨.queue, 16 * queue.qp.getHwqe 0, queue.header rma⟩
      queue.layout.reserved := stored.inside _ List.mem_cons_self
  have first := header 0 (by rw [length_header]; decide)
  exact ⟨Nat.lt_of_le_of_lt (Nat.zero_le _) first.2.1, stored.room⟩

/-! #### The slots of the flow control -/

theorem writeRmaWqe_slots (ringDb : Bool) :
    ∀ block ∈ queue.writeRmaWqe rma memory, ∀ offset < block.bytes.length,
      (block.start + offset) / 16 ∈
        queue.qp.written (.rma rma.length rma.kind.isWrite ringDb) := by
  have first : ∀ index ∈ [0, 1, 2], ∀ offset < 16, (16 * queue.qp.getHwqe index + offset) / 16 ∈
      queue.qp.written (.rma rma.length rma.kind.isWrite ringDb) := by
    intro index member offset within
    rw [Bnxt.Qp.written, List.mem_append,
      show (16 * queue.qp.getHwqe index + offset) / 16 = queue.qp.getHwqe index by omega]
    exact .inl (List.mem_map_of_mem member)
  rw [writeRmaWqe, List.forall_mem_cons, List.forall_mem_cons, List.forall_mem_singleton]
  refine ⟨fun offset within => ?_, fun offset within => ?_, fun offset within => ?_⟩
  · exact first 0 (by decide) offset within
  · exact first 1 (by decide) offset within
  · by_cases here : offset < 16
    · exact first 2 (by decide) offset here
    -- Only inline data is longer than a slot.
    · have inlined : queue.inlineMsg rma = true := by
        by_contra sent
        rw [if_neg sent] at within
        exact here within
      have length : queue.qp.inlineLength (.rma rma.length rma.kind.isWrite ringDb) =
          copyCount rma.length := if_pos inlined
      rw [if_pos inlined, length_readBytes] at within
      rw [Bnxt.Qp.written, List.mem_append, Bnxt.Qp.overrun, length]
      refine .inr (List.mem_map.mpr ⟨offset / 16 - 1, List.mem_range.mpr ?_, ?_⟩)
      · omega
      · show queue.qp.getHwqe 2 + 1 + (offset / 16 - 1) = (16 * queue.qp.getHwqe 2 + offset) / 16
        omega

end BnxtQueue

namespace Mlx5Queue

variable {queue : Mlx5Queue} {rma : Rma}

theorem length_ctrl (ds : Nat) : (queue.ctrl rma ds).length = 16 := by
  simp only [ctrl, List.length_append, length_beBytes, List.length_cons, List.length_nil]

theorem room_iff : rma.size ≤ (queue.layout rma).room ↔ rma.size ≤ 28 := by
  show rma.size ≤ 16 * inlineDs rma.size - 36 ↔ _
  rw [inlineDs]
  split_ifs <;> omega

variable (memory : Memory Space)

theorem layout_length : (queue.layout rma).length memory =
    beValue (readBytes memory .queue (64 * queue.sqIdx + 32) 4) % 2 ^ 10 :=
  rfl

theorem image_of_canInline (inlined : queue.canInline rma = true) : queue.image rma memory =
      [⟨.image, 0, queue.ctrl rma (inlineDs rma.size)⟩,
       ⟨.image, 16, beBytes 8 rma.raddr ++ leBytes 4 rma.rkey ++ leBytes 4 0⟩,
       ⟨.image, 32, beBytes 4 (rma.size &&& 0x3FF ||| 0x80000000) ++ List.replicate 28 0⟩,
       ⟨.image, 36, readBytes memory .buffer rma.laddr rma.size⟩,
       ⟨.image, 12, beBytes 4 rma.immData⟩] := by
  rw [image, inlined, if_pos rfl, if_pos rfl]
  rfl

theorem readBytes_queue {offset width : Nat} (within : offset + width ≤ 64) :
    readBytes (storeBlocks memory (queue.postWqeRma rma memory)) .queue
        (64 * queue.sqIdx + offset) width =
      readBytes (storeBlocks memory (queue.image rma memory)) .image offset width := by
  have copied : offset + width ≤
      (readBytes (storeBlocks memory (queue.image rma memory)) .image 0 64).length := by
    exact within
  rw [postWqeRma, readBytes_storeBlocks offset _ [] copied nofun, readBytes_part within,
    Nat.zero_add]

theorem lengthField {size : Nat} (small : size ≤ 28) : (size &&& 0x3FF ||| 0x80000000) < 256 ^ 4 ∧
      (size &&& 0x3FF ||| 0x80000000) % 2 ^ 10 = size := by
  have low : size &&& 0x3FF = size := by
    rw [show 0x3FF = 2 ^ 10 - 1 from rfl, Nat.and_two_pow_sub_one_eq_mod,
      Nat.mod_eq_of_lt (by omega)]
  have whole : size ||| 0x80000000 = 2 ^ 31 + size := by
    rw [Nat.or_comm]
    exact (Nat.two_pow_add_eq_or_of_lt (show size < 2 ^ 31 by omega) 1).symm
  rw [low, whole]
  omega

theorem inside_image {start : Nat} {bytes : List UInt8} (short : start + bytes.length ≤ 64) :
    Block.Inside ⟨.image, start, bytes⟩ (queue.layout rma).reserved := by
  intro offset within
  have bound : offset < bytes.length := within
  show start + offset < 64
  omega

theorem stored_of_fits (inlined : queue.canInline rma = true) (fits : rma.size ≤ 28) :
    Stored (queue.layout rma) rma memory (queue.postWqeRma rma memory) := by
  refine ⟨room_iff.mpr fits, ?_, ?_, ?_⟩
  · refine (readBytes_queue memory (by omega)).trans ?_
    rw [image_of_canInline memory inlined]
    refine readBytes_storeBlocks_self [_, _, _] [_] (length_readBytes _ _ _ _) ?_
    rw [List.forall_mem_singleton]
    exact .inr (.inl (by simp))
  · obtain ⟨small, value⟩ := lengthField fits
    have field : readBytes (storeBlocks memory (queue.image rma memory)) .image 32 4 =
        beBytes 4 (rma.size &&& 0x3FF ||| 0x80000000) := by
      rw [image_of_canInline memory inlined]
      refine (readBytes_storeBlocks 0 [_, _] [_, _] (by simp) ?_).trans ?_
      · rw [List.forall_mem_cons, List.forall_mem_singleton]
        exact ⟨.inr (.inr (by simp)), .inr (.inl (by simp))⟩
      · rw [List.drop_zero, List.take_left' (length_beBytes _ _)]
    rw [layout_length, readBytes_queue memory (by decide), field, beValue_beBytes small, value]
  · rw [postWqeRma, List.forall_mem_append, List.forall_mem_singleton,
      image_of_canInline memory inlined]
    refine ⟨?_, fun offset within => ?_⟩
    · rw [List.forall_mem_cons, List.forall_mem_cons, List.forall_mem_cons, List.forall_mem_cons,
        List.forall_mem_singleton]
      refine ⟨inside_image ?_, inside_image ?_, inside_image ?_, inside_image ?_, inside_image ?_⟩
      · rw [length_ctrl]
        decide
      · simp
      · simp
      · rw [length_readBytes]
        omega
      · simp
    · rw [length_readBytes] at within
      show (64 * queue.sqIdx + offset) / 64 = queue.sqIdx
      omega

end Mlx5Queue

namespace IonicQueue

variable {queue : IonicQueue} {rma : Rma} (memory : Memory Space)

theorem inside_wqe (start : Nat) {bytes : List UInt8} (short : start + bytes.length ≤ 64) :
    Block.Inside ⟨.queue, queue.wqe + start, bytes⟩ queue.layout.reserved := by
  intro offset within
  have bound : offset < bytes.length := within
  refine ⟨rfl, ?_⟩
  show (queue.wqe + start + offset) / 64 = queue.sqPos &&& queue.sqMask
  rw [wqe]
  omega

theorem size_ne_zero (inlined : queue.inlined rma = true) : size rma ≠ 0 := by
  rw [IonicQueue.inlined, Bool.and_eq_true, Bool.and_eq_true, decide_eq_true_eq] at inlined
  exact inlined.1.1

theorem postWqeRma_of_inlined (inlined : queue.inlined rma = true) : queue.postWqeRma rma memory =
      [⟨.queue, queue.wqe, leBytes 8 queue.sqPos⟩,
       ⟨.queue, queue.wqe + 8, [UInt8.ofNat (queue.opcode rma), 1]⟩,
       ⟨.queue, queue.wqe + 12, beBytes 4 rma.immData⟩,
       ⟨.queue, queue.wqe + 16, beBytes 4 (rma.raddr >>> 32) ++ beBytes 4 rma.raddr ++
         beBytes 4 rma.rkey ++ beBytes 4 (size rma).toNat⟩,
       ⟨.queue, queue.wqe + 9, [0]⟩,
       ⟨.queue, queue.wqe + 32,
         if rma.laddr = 0 then [1]
         else readBytes memory .buffer rma.laddr (copyCount (size rma))⟩,
       ⟨.queue, queue.wqe + 10, beBytes 2 (queue.wqeFlags rma)⟩] := by
  have nonzero := size_ne_zero inlined
  rw [postWqeRma, payload, if_neg nonzero, if_neg nonzero, if_pos inlined]
  rfl

theorem length_part (high low key length : Nat) :
    ((beBytes 4 high ++ beBytes 4 low ++ beBytes 4 key ++ beBytes 4 length).drop 12).take 4 =
      beBytes 4 length := by
  have front : (beBytes 4 high ++ beBytes 4 low ++ beBytes 4 key).length = 12 := by
    simp only [List.length_append, length_beBytes]
  rw [List.drop_left' front, List.take_of_length_le (length_beBytes _ _).le]

theorem stored_of_fits (inlined : queue.inlined rma = true) (source : rma.laddr ≠ 0)
    (fits : rma.size ≤ 32) :
    Stored queue.layout rma memory (queue.postWqeRma rma memory) := by
  have length : size rma = rma.length := if_neg fun without => source without.2.1
  have count : copyCount (size rma) = rma.size := by
    rw [length]
    exact copyCount_of_small (Nat.lt_of_le_of_lt fits (by decide))
  have copied : (readBytes memory .buffer rma.laddr rma.size).length = rma.size :=
    length_readBytes _ _ _ _
  rw [postWqeRma_of_inlined memory inlined, if_neg source, count, length]
  refine ⟨fits, ?_, ?_, ?_⟩
  · refine readBytes_storeBlocks_self [_, _, _, _, _] [_] copied ?_
    rw [List.forall_mem_singleton]
    refine .inr (.inl ?_)
    show queue.wqe + 10 + (beBytes 2 _).length ≤ queue.wqe + 32
    rw [length_beBytes]
    omega
  · refine (congrArg beValue (readBytes_storeBlocks 12 [_, _, _] [_, _, _] (by simp) ?_)).trans ?_
    · rw [List.forall_mem_cons, List.forall_mem_cons, List.forall_mem_singleton]
      refine ⟨.inr (.inl ?_), .inr (.inr ?_), .inr (.inl ?_)⟩
      all_goals simp
    · rw [length_part]
      exact beValue_beBytes (Nat.lt_of_le_of_lt fits (by decide))
  · rw [List.forall_mem_cons, List.forall_mem_cons, List.forall_mem_cons, List.forall_mem_cons,
      List.forall_mem_cons, List.forall_mem_cons, List.forall_mem_singleton]
    refine ⟨inside_wqe 0 ?_, inside_wqe 8 ?_, inside_wqe 12 ?_, inside_wqe 16 ?_, inside_wqe 9 ?_,
      inside_wqe 32 ?_, inside_wqe 10 ?_⟩
    case refine_6 =>
      omega
    all_goals simp

theorem source_of_stored (inlined : queue.inlined rma = true)
    (stored : ∀ memory, Stored queue.layout rma memory (queue.postWqeRma rma memory)) :
    rma.laddr ≠ 0 := by
  intro none
  have nonempty : 1 ≤ rma.size := by
    refine Nat.one_le_iff_ne_zero.mpr fun empty => size_ne_zero inlined ?_
    have zero : rma.length = 0 := BitVec.eq_of_toNat_eq empty
    rw [size, if_neg fun without => without.1 zero, zero]
  have payload := congrArg (fun bytes => (bytes.drop 0).take 1) (stored fun _ _ => 0).payload
  have within : 0 + 1 ≤ rma.size := nonempty
  simp only [readBytes_part within, postWqeRma_of_inlined _ inlined, if_pos none] at payload
  have zero : readBytes (fun _ _ => 0) Space.buffer (rma.laddr + 0) 1 = [0] := rfl
  refine absurd (zero.symm.trans (payload.symm.trans
    (readBytes_storeBlocks_self [_, _, _, _, _] [_] rfl ?_))) (by decide)
  rw [List.forall_mem_singleton]
  refine .inr (.inl ?_)
  show queue.wqe + 10 + (beBytes 2 _).length ≤ queue.wqe + 32
  rw [length_beBytes]
  omega

theorem fits_of_stored (inlined : queue.inlined rma = true)
    (stored : ∀ memory, Stored queue.layout rma memory (queue.postWqeRma rma memory)) :
    rma.laddr ≠ 0 ∧ rma.size ≤ 32 :=
  ⟨source_of_stored inlined stored, (stored fun _ _ => 0).room⟩

end IonicQueue

/-! ### The three providers -/

inductive Put where
  | bnxt (queue : BnxtQueue) (rma : Rma)
  | mlx5 (queue : Mlx5Queue) (rma : Rma)
  | ionic (queue : IonicQueue) (rma : Rma)

namespace Put

def inlined : Put → Bool
  | .bnxt queue rma => queue.inlineMsg rma
  | .mlx5 queue rma => queue.canInline rma
  | .ionic queue rma => queue.inlined rma

/-- The request is written as it should be, whatever the memory holds. -/
def StoredInline : Put → Prop
  | .bnxt queue rma => ∀ memory, Stored queue.layout rma memory (queue.writeRmaWqe rma memory)
  | .mlx5 queue rma =>
    ∀ memory, Stored (queue.layout rma) rma memory (queue.postWqeRma rma memory)
  | .ionic queue rma => ∀ memory, Stored queue.layout rma memory (queue.postWqeRma rma memory)

/-- The length is one that the request of the provider has room for. -/
def Fits : Put → Prop
  | .bnxt queue rma => 0 < queue.qp.depth ∧ rma.size ≤ 16
  | .mlx5 _ rma => rma.size ≤ 28
  | .ionic _ rma => rma.laddr ≠ 0 ∧ rma.size ≤ 32

/-- The data of a put whose provider copies it into the request is stored, in the slots
reserved for it and nowhere else, if and only if it fits. -/
theorem storedInline_iff (put : Put) :
    (put.inlined = true → put.StoredInline) ↔ (put.inlined = true → put.Fits) := by
  refine imp_congr_right fun inlined => ?_
  cases put with
  | bnxt queue rma =>
    exact ⟨fun stored => BnxtQueue.fits_of_stored (stored fun _ _ => 0),
      fun fits memory => BnxtQueue.stored_of_fits memory fits.1 inlined fits.2⟩
  | mlx5 queue rma =>
    exact ⟨fun stored => Mlx5Queue.room_iff.mp (stored fun _ _ => 0).room,
      fun fits memory => Mlx5Queue.stored_of_fits memory inlined fits⟩
  | ionic queue rma =>
    exact ⟨fun stored => IonicQueue.fits_of_stored inlined stored,
      fun fits memory => IonicQueue.stored_of_fits memory inlined fits.1 fits.2⟩

def defaultQueue : BnxtQueue where
  qp := Bnxt.Qp.create 256 28 256
  slots := by decide
  tail_lt := fun positive => positive

def putOf (length : BitVec 32) : Rma where
  kind := .write
  length := length
  laddr := 0x1000
  raddr := 0x2000

theorem writeRmaWqe_slots_overrun : 3 ∈ defaultQueue.qp.written (.rma 20 true true) :=
  @BnxtQueue.writeRmaWqe_slots defaultQueue (putOf 20) (fun _ _ => 0) true _
    (List.mem_cons_of_mem _ (List.mem_cons_of_mem _ List.mem_cons_self)) 19 (by decide)

/-- In the default configuration of the bnxt provider a put of 20 bytes is written over the slot
behind its own. With a threshold of 64 bytes, the others copy 40 bytes to where there is room for 28
and for 32. -/
theorem inline_put_overruns : ((Put.bnxt defaultQueue (putOf 20)).inlined = true ∧
      ∀ memory, ∃ block ∈ defaultQueue.writeRmaWqe (putOf 20) memory,
        ¬ block.Inside defaultQueue.layout.reserved) ∧
    ((Put.mlx5 ⟨256, 0, 1, 64⟩ (putOf 40)).inlined = true ∧
      ¬ (Put.mlx5 ⟨256, 0, 1, 64⟩ (putOf 40)).StoredInline) ∧
    ((Put.ionic ⟨255, 0, true, false, 64⟩ (putOf 40)).inlined = true ∧
      ¬ (Put.ionic ⟨255, 0, true, false, 64⟩ (putOf 40)).StoredInline) := by
  refine ⟨⟨by decide, fun memory => ?_⟩, ⟨by decide, fun stored => ?_⟩,
    ⟨by decide, fun stored => ?_⟩⟩
  · refine ⟨⟨.queue, 32, readBytes memory .buffer 0x1000 20⟩, ?_, fun inside => ?_⟩
    · exact List.mem_cons_of_mem _ (List.mem_cons_of_mem _ List.mem_cons_self)
    · have outside : ∃ index < Bnxt.slotCount, 48 / 16 = defaultQueue.qp.getHwqe index :=
        (inside 16 (by rw [length_readBytes]; decide)).2.2
      exact absurd outside (by decide)
  · exact absurd (stored fun _ _ => 0).room (by decide)
  · exact absurd (stored fun _ _ => 0).room (by decide)

end Put

end RocmXio.Rdma.Inline
