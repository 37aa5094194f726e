/-
Packets that the host builds for the SDMA engine.

This file has what a call asks for, the dwords built for it, and what the engine makes of them at
the widths that the packet structures declare. What is accepted comes back as it was asked for, with
one exception: a linear copy of up to four gigabytes is accepted, since its size less one fits into
32 bits, but the field `count` has 30 bits.
-/

import RocmXio.Lib.BitFields

namespace RocmXio.Sdma

open Lib

/-! ### Packets -/

def sdmaOpCopy : Nat := 1
def sdmaOpPollRegmem : Nat := 8
def sdmaOpAtomic : Nat := 10
def sdmaOpTimestamp : Nat := 13
def sdmaSubopCopyLinear : Nat := 0
def sdmaSubopCopyLinearSubWindow : Nat := 36
def sdmaSubopTimestampGlobal : Nat := 2
def sdmaAtomicAdd32 : Nat := 15
def sdmaAtomicAdd64 : Nat := 47

/-- The low dword of an address: `static_cast<uint32_t>(address)`. -/
def low (address : UInt64) : Nat :=
  packFields [(32, address.toUInt32.toNat)]

/-- The high dword of an address: `static_cast<uint32_t>(address >> 32)`. -/
def high (address : UInt64) : Nat :=
  packFields [(32, (address >>> 32).toUInt32.toNat)]

def copyLinearHeader : Nat :=
  packFields [(8, sdmaOpCopy), (8, sdmaSubopCopyLinear), (11, 0), (1, 0), (4, 0)]

/-- `CopyLinearPacket`: the dwords of `SDMA_PKT_COPY_LINEAR`. -/
def copyLinearPacket (src dst size : UInt64) : List Nat :=
  [copyLinearHeader,
    packFields [(30, (size - 1).toUInt32.toNat), (2, 0)], 0, low src, high src, low dst, high dst]

def timestampHeader : Nat :=
  packFields [(8, sdmaOpTimestamp), (8, sdmaSubopTimestampGlobal), (16, 0)]

/-- `TimestampPacket`: the dwords of `SDMA_PKT_TIMESTAMP`. -/
def timestampPacket (addr : UInt64) : List Nat :=
  [timestampHeader, low addr, high addr]

def largeSubWindowCopyHeader : Nat :=
  packFields [(8, sdmaOpCopy), (8, sdmaSubopCopyLinearSubWindow), (1, 0), (8, 0), (7, 0)]

/-- `LargeSubWindowCopyPacket` at the origin of both buffers: the dwords of
`SDMA_PKT_LINEAR_LARGE_SUB_WINDOW_COPY`. -/
def largeSubWindowCopyPacket (src dst : UInt64) (tileWidth tileHeight srcPitch dstPitch : UInt32) :
    List Nat :=
  [largeSubWindowCopyHeader,
    low src, high src, 0, 0, 0, packFields [(32, (srcPitch - 1).toNat)], 0,
    packFields [(16, 0), (16, 0)], low dst, high dst, 0, 0, 0,
    packFields [(32, (dstPitch - 1).toNat)], 0, packFields [(16, 0), (16, 0)],
    packFields [(32, (tileWidth - 1).toNat)], packFields [(32, (tileHeight - 1).toNat)], 0]

def atomicHeader (wide : Bool) : Nat :=
  packFields [(8, sdmaOpAtomic), (8, 0), (1, 0), (8, 0),
    (7, if wide then sdmaAtomicAdd64 else sdmaAtomicAdd32)]

/-- `AtomicAddPacket`: the dwords of `SDMA_PKT_ATOMIC`, for an addend of 32 or of 64 bits that
was converted to 64 bits. -/
def atomicAddPacket (wide : Bool) (addr delta : UInt64) : List Nat :=
  [atomicHeader wide, low addr, high addr, low delta, high delta, 0, 0,
    packFields [(13, 0), (19, 0)]]

/-- The header of a poll of memory, with the function "greater or equal". -/
def pollRegmemHeader : Nat :=
  packFields [(8, sdmaOpPollRegmem), (8, 0), (10, 0), (1, 0), (1, 0), (3, 5), (1, 1)]

/-- `PollRegmemPacket`: the dwords of `SDMA_PKT_POLL_REGMEM`. -/
def pollRegmemPacket (addr : UInt64) (expected interval retryCount : UInt32) : List Nat :=
  [pollRegmemHeader, low addr, high addr, packFields [(32, expected.toNat)],
    packFields [(32, 0xFFFFFFFF)],
    packFields [(16, interval.toNat), (12, retryCount.toNat), (4, 0)]]

/-! ### Calls of the API -/

inductive PacketCall where
  | linear (src dst size : UInt64)
  | tile (src dst dataSize tileHeight tileWidth srcStride dstStride : UInt64)
  | atomic32 (ptr : UInt64) (value : UInt32)
  | atomic64 (ptr value : UInt64)
  | poll (ptr : UInt64) (expected : UInt32)
  | timestamp (ptr : UInt64)

def kMaxSdmaDword : UInt64 := 0xFFFFFFFF
def kMaxLinearSize : UInt64 := 0x100000000

/-- `validate_linear_args`, and the packet. -/
def buildLinear (fnName : String) (src dst size : UInt64) : Except String (List Nat) :=
  if src = 0 ∨ dst = 0 ∨ size = 0 then .error (fnName ++ ": invalid nullptr/size arguments")
  else if size > kMaxLinearSize then
    .error (fnName ++ ": size exceeds SDMA linear packet limit (4 GiB)")
  else .ok (copyLinearPacket src dst size)

def buildTilePacket (fnName : String)
    (src dst dataSize tileHeight tileWidth srcStride dstStride : UInt64) :
    Except String (List Nat) :=
  if src = 0 ∨ dst = 0 ∨ dataSize = 0 ∨ tileHeight = 0 ∨ tileWidth = 0 then
    .error (fnName ++ ": invalid pointer or tile geometry")
  else if srcStride < tileWidth ∨ dstStride < tileWidth then
    .error (fnName ++ ": row stride is smaller than tile width")
  else if dataSize > kMaxSdmaDword ∨ tileWidth > kMaxSdmaDword / dataSize ∨
      srcStride > kMaxSdmaDword / dataSize ∨ dstStride > kMaxSdmaDword / dataSize then
    .error (fnName ++ ": tile geometry exceeds SDMA limits")
  else
    let tileWidthBytes := tileWidth * dataSize
    let srcPitch := srcStride * dataSize
    let dstPitch := dstStride * dataSize
    if tileWidthBytes > kMaxSdmaDword ∨ tileHeight > kMaxSdmaDword ∨ srcPitch = 0 ∨
        srcPitch > kMaxSdmaDword ∨ dstPitch = 0 ∨ dstPitch > kMaxSdmaDword then
      .error (fnName ++ ": tile geometry exceeds SDMA limits")
    else
      .ok (largeSubWindowCopyPacket src dst tileWidthBytes.toUInt32 tileHeight.toUInt32
        srcPitch.toUInt32 dstPitch.toUInt32)

def buildAtomicPacket (fnName : String) (wide : Bool) (ptr value : UInt64) :
    Except String (List Nat) :=
  if ptr = 0 then .error (fnName ++ ": flag pointer is null")
  else .ok (atomicAddPacket wide ptr value)

/-- `build_poll_packet` with its default interval and number of retries. -/
def buildPollPacket (fnName : String) (ptr : UInt64) (expected : UInt32) :
    Except String (List Nat) :=
  if ptr = 0 then .error (fnName ++ ": flag pointer is null")
  else .ok (pollRegmemPacket ptr expected 10 0xFFF)

/-- The check of `timestamp`, and the packet. -/
def buildTimestamp (ptr : UInt64) : Except String (List Nat) :=
  if ptr = 0 then .error "Invalid timestamp() parameters" else .ok (timestampPacket ptr)

/-- The packet for a call, or the message of the exception that is thrown. -/
def PacketCall.build (fnName : String) : PacketCall → Except String (List Nat)
  | .linear src dst size => buildLinear fnName src dst size
  | .tile src dst dataSize tileHeight tileWidth srcStride dstStride =>
    buildTilePacket fnName src dst dataSize tileHeight tileWidth srcStride dstStride
  | .atomic32 ptr value => buildAtomicPacket fnName false ptr value.toUInt64
  | .atomic64 ptr value => buildAtomicPacket fnName true ptr value
  | .poll ptr expected => buildPollPacket fnName ptr expected
  | .timestamp ptr => buildTimestamp ptr

/-! ### Operations -/

inductive Operation where
  | copy (src dst size : Nat)
  | copyTile (src dst width height srcPitch dstPitch : Nat)
  | add32 (addr addend : Nat)
  | add64 (addr addend : Nat)
  | poll (addr reference : Nat)
  | timestamp (addr : Nat)
deriving DecidableEq, Repr

/-- What the call asks for: a tile of `dataSize` bytes an element has its width and its pitches
in bytes. -/
def PacketCall.requested : PacketCall → Operation
  | .linear src dst size => .copy src.toNat dst.toNat size.toNat
  | .tile src dst dataSize tileHeight tileWidth srcStride dstStride =>
    .copyTile src.toNat dst.toNat (tileWidth.toNat * dataSize.toNat) tileHeight.toNat
      (srcStride.toNat * dataSize.toNat) (dstStride.toNat * dataSize.toNat)
  | .atomic32 ptr value => .add32 ptr.toNat value.toNat
  | .atomic64 ptr value => .add64 ptr.toNat value.toNat
  | .poll ptr expected => .poll ptr.toNat expected.toNat
  | .timestamp ptr => .timestamp ptr.toNat

/-- What the engine reads off the header: the fields that say which operation it is. -/
structure Header where
  op : Nat
  subOp : Nat
  atomicOperation : Nat
  func : Nat
  memPoll : Nat
deriving DecidableEq

def Header.of (word : Nat) : Header :=
  ⟨field 0 8 word, field 8 8 word, field 25 7 word, field 28 3 word, field 31 1 word⟩

/-- What the engine makes of a packet: addresses have two dwords each, and counts, extents and
pitches are stored less one. -/
def decodePacket : List Nat → Option Operation
  | [header, count, _, srcLow, srcHigh, dstLow, dstHigh] =>
    if (Header.of header).op = sdmaOpCopy ∧ (Header.of header).subOp = sdmaSubopCopyLinear then
      some (.copy (join (field 0 32 srcLow) (field 0 32 srcHigh))
        (join (field 0 32 dstLow) (field 0 32 dstHigh)) (field 0 30 count + 1))
    else none
  | [header, srcLow, srcHigh, _, _, _, srcPitch, _, _, dstLow, dstHigh, _, _, _, dstPitch, _, _,
      rectX, rectY, _] =>
    if (Header.of header).op = sdmaOpCopy ∧
        (Header.of header).subOp = sdmaSubopCopyLinearSubWindow then
      some (.copyTile (join (field 0 32 srcLow) (field 0 32 srcHigh))
        (join (field 0 32 dstLow) (field 0 32 dstHigh)) (field 0 32 rectX + 1)
        (field 0 32 rectY + 1) (field 0 32 srcPitch + 1) (field 0 32 dstPitch + 1))
    else none
  | [header, addrLow, addrHigh, dataLow, dataHigh, _, _, _] =>
    let addr := join (field 0 32 addrLow) (field 0 32 addrHigh)
    if (Header.of header).op = sdmaOpAtomic then
      if (Header.of header).atomicOperation = sdmaAtomicAdd64 then
        some (.add64 addr (join (field 0 32 dataLow) (field 0 32 dataHigh)))
      else if (Header.of header).atomicOperation = sdmaAtomicAdd32 then
        some (.add32 addr (field 0 32 dataLow))
      else none
    else none
  | [header, addrLow, addrHigh, value, mask, _] =>
    if (Header.of header).op = sdmaOpPollRegmem ∧ (Header.of header).func = 5 ∧
        (Header.of header).memPoll = 1 ∧ field 0 32 mask = 0xFFFFFFFF then
      some (.poll (join (field 0 32 addrLow) (field 0 32 addrHigh)) (field 0 32 value))
    else none
  | [header, addrLow, addrHigh] =>
    if (Header.of header).op = sdmaOpTimestamp ∧
        (Header.of header).subOp = sdmaSubopTimestampGlobal then
      some (.timestamp (join (field 0 32 addrLow) (field 0 32 addrHigh)))
    else none
  | _ => none

/-- A linear copy has at most as many bytes as the field `count` can count. -/
def PacketCall.Fits : PacketCall → Prop
  | .linear _ _ size => size.toNat ≤ 2 ^ 30
  | _ => True

instance : (call : PacketCall) → Decidable call.Fits
  | .linear _ _ size => inferInstanceAs (Decidable (size.toNat ≤ 2 ^ 30))
  | .tile .. | .atomic32 .. | .atomic64 .. | .poll .. | .timestamp _ => isTrue trivial

/-! ### What the engine decodes -/

@[simp] theorem field_word (word : UInt32) :
    field 0 32 (packFields [(32, word.toNat)]) = word.toNat := by
  rw [field_packFields_head, Nat.mod_eq_of_lt word.toNat_lt]

@[simp] theorem join_low_high (address : UInt64) :
    join (field 0 32 (low address)) (field 0 32 (high address)) = address.toNat := by
  rw [low, high, field_word, field_word, join_halves]

theorem decode_copyLinearPacket (src dst size : UInt64) :
    decodePacket (copyLinearPacket src dst size) =
      some (.copy src.toNat dst.toNat ((size - 1).toUInt32.toNat % 2 ^ 30 + 1)) := by
  rw [copyLinearPacket, decodePacket, if_pos ⟨rfl, rfl⟩, join_low_high, join_low_high,
    field_packFields_head]

theorem field_pred_add_one {count : UInt32} (positive : 0 < count.toNat) :
    field 0 32 (packFields [(32, (count - 1).toNat)]) + 1 = count.toNat := by
  have below : (1 : UInt32) ≤ count := UInt32.le_iff_toNat_le.mpr (Nat.succ_le_of_lt positive)
  rw [field_word, UInt32.toNat_sub_of_le _ _ below]
  exact Nat.sub_add_cancel positive

theorem decode_largeSubWindowCopyPacket (src dst : UInt64)
    {tileWidth tileHeight srcPitch dstPitch : UInt32} (width : 0 < tileWidth.toNat)
    (height : 0 < tileHeight.toNat) (srcPositive : 0 < srcPitch.toNat)
    (dstPositive : 0 < dstPitch.toNat) :
    decodePacket (largeSubWindowCopyPacket src dst tileWidth tileHeight srcPitch dstPitch) =
      some (.copyTile src.toNat dst.toNat tileWidth.toNat tileHeight.toNat srcPitch.toNat
        dstPitch.toNat) := by
  rw [largeSubWindowCopyPacket, decodePacket, if_pos ⟨rfl, rfl⟩, join_low_high, join_low_high,
    field_pred_add_one width, field_pred_add_one height, field_pred_add_one srcPositive,
    field_pred_add_one dstPositive]

theorem atomicHeader_op (wide : Bool) : (Header.of (atomicHeader wide)).op = sdmaOpAtomic := by
  cases wide <;> rfl

theorem atomicHeader_wide : (Header.of (atomicHeader true)).atomicOperation = sdmaAtomicAdd64 := rfl

theorem atomicHeader_narrow :
    (Header.of (atomicHeader false)).atomicOperation = sdmaAtomicAdd32 := rfl

theorem decode_atomicAddPacket64 (addr delta : UInt64) :
    decodePacket (atomicAddPacket true addr delta) = some (.add64 addr.toNat delta.toNat) := by
  rw [atomicAddPacket, decodePacket, if_pos (atomicHeader_op true),
    if_pos atomicHeader_wide, join_low_high, join_low_high]

theorem decode_atomicAddPacket32 (addr : UInt64) (delta : UInt32) :
    decodePacket (atomicAddPacket false addr delta.toUInt64) =
      some (.add32 addr.toNat delta.toNat) := by
  have cut : field 0 32 (low delta.toUInt64) = delta.toNat := by
    rw [low, field_word, UInt32.toUInt32_toUInt64]
  have narrow : (Header.of (atomicHeader false)).atomicOperation ≠ sdmaAtomicAdd64 := by decide
  rw [atomicAddPacket, decodePacket, if_pos (atomicHeader_op false), if_neg narrow,
    if_pos atomicHeader_narrow, join_low_high, cut]

theorem decode_pollRegmemPacket (addr : UInt64) (expected interval retryCount : UInt32) :
    decodePacket (pollRegmemPacket addr expected interval retryCount) =
      some (.poll addr.toNat expected.toNat) := by
  rw [pollRegmemPacket, decodePacket, if_pos ⟨rfl, rfl, rfl, rfl⟩, join_low_high, field_word]

theorem decode_timestampPacket (addr : UInt64) :
    decodePacket (timestampPacket addr) = some (.timestamp addr.toNat) := by
  rw [timestampPacket, decodePacket, if_pos ⟨rfl, rfl⟩, join_low_high]

/-! ### Accepted calls -/

section

variable {fnName : String} {words : List Nat}

theorem passed_of_ok {Value : Type} {invalid : Prop} [Decidable invalid] {message : String}
    {rest : Except String Value} {value : Value}
    (accepted : (if invalid then .error message else rest) = .ok value) :
    ¬ invalid ∧ rest = .ok value := by
  split at accepted
  case isTrue => exact nomatch accepted
  case isFalse valid => exact ⟨valid, accepted⟩

theorem toNat_pos {value : UInt64} (nonzero : value ≠ 0) : 0 < value.toNat :=
  Nat.pos_of_ne_zero fun isZero => nonzero (UInt64.toNat_inj.mp isZero)

/-- A copy of an accepted size has its size in the packet if its size less one has at most 30
bits. -/
theorem decode_buildLinear {src dst size : UInt64}
    (built : buildLinear fnName src dst size = .ok words) :
    decodePacket words = some (.copy src.toNat dst.toNat size.toNat) ↔ size.toNat ≤ 2 ^ 30 := by
  obtain ⟨valid, built⟩ := passed_of_ok built
  obtain ⟨inLimit, ⟨⟩⟩ := passed_of_ok built
  rw [not_or, not_or] at valid
  have positive : 0 < size.toNat := toNat_pos valid.2.2
  have below : (1 : UInt64) ≤ size := UInt64.le_iff_toNat_le.mpr (Nat.succ_le_of_lt positive)
  have count : (size - 1).toUInt32.toNat = (size.toNat - 1) % 2 ^ 32 := by
    rw [UInt64.toNat_toUInt32, UInt64.toNat_sub_of_le _ _ below]
    rfl
  rw [decode_copyLinearPacket, count, Option.some_inj, Operation.copy.injEq,
    and_iff_right rfl, and_iff_right rfl]
  omega

theorem toNat_toUInt32_of_le {value : UInt64} (inLimit : ¬ value > kMaxSdmaDword) :
    value.toUInt32.toNat = value.toNat := by
  have limit : value.toNat ≤ 0xFFFFFFFF := UInt64.le_iff_toNat_le.mp (UInt64.not_lt.mp inLimit)
  exact Nat.mod_eq_of_lt (Nat.lt_succ_of_le limit)

/-- An extent that passes the check against the largest number of elements has a number of
bytes that fits into 32 bits, so that the product does not wrap. -/
theorem toNat_bytes {extent dataSize : UInt64} (nonzero : dataSize ≠ 0)
    (inLimit : ¬ extent > kMaxSdmaDword / dataSize) :
    (extent * dataSize).toUInt32.toNat = extent.toNat * dataSize.toNat := by
  have quotient : extent.toNat ≤ 0xFFFFFFFF / dataSize.toNat := by
    have le := UInt64.le_iff_toNat_le.mp (UInt64.not_lt.mp inLimit)
    rwa [UInt64.toNat_div] at le
  have product : extent.toNat * dataSize.toNat ≤ 0xFFFFFFFF :=
    (Nat.le_div_iff_mul_le (toNat_pos nonzero)).mp quotient
  rw [UInt64.toNat_toUInt32, UInt64.toNat_mul, Nat.mod_mod_of_dvd _ (by decide)]
  exact Nat.mod_eq_of_lt (Nat.lt_succ_of_le product)

theorem decode_buildTilePacket
    {src dst dataSize tileHeight tileWidth srcStride dstStride : UInt64}
    (built : buildTilePacket fnName src dst dataSize tileHeight tileWidth srcStride dstStride =
      .ok words) :
    decodePacket words = some (.copyTile src.toNat dst.toNat
      (tileWidth.toNat * dataSize.toNat) tileHeight.toNat
      (srcStride.toNat * dataSize.toNat) (dstStride.toNat * dataSize.toNat)) := by
  obtain ⟨valid, built⟩ := passed_of_ok built
  obtain ⟨strides, built⟩ := passed_of_ok built
  obtain ⟨extents, built⟩ := passed_of_ok built
  obtain ⟨limits, ⟨⟩⟩ := passed_of_ok built
  simp only [not_or] at valid strides extents limits
  obtain ⟨-, -, dataNonzero, heightNonzero, widthNonzero⟩ := valid
  have width := toNat_bytes dataNonzero extents.2.1
  have srcPitch := toNat_bytes dataNonzero extents.2.2.1
  have dstPitch := toNat_bytes dataNonzero extents.2.2.2
  have height := toNat_toUInt32_of_le limits.2.1
  have widthPos := toNat_pos widthNonzero
  have srcPos := Nat.lt_of_lt_of_le widthPos
    (UInt64.le_iff_toNat_le.mp (UInt64.not_lt.mp strides.1))
  have dstPos := Nat.lt_of_lt_of_le widthPos
    (UInt64.le_iff_toNat_le.mp (UInt64.not_lt.mp strides.2))
  have dataPos := toNat_pos dataNonzero
  rw [decode_largeSubWindowCopyPacket _ _ (width ▸ Nat.mul_pos widthPos dataPos)
    (height ▸ toNat_pos heightNonzero) (srcPitch ▸ Nat.mul_pos srcPos dataPos)
    (dstPitch ▸ Nat.mul_pos dstPos dataPos), width, height, srcPitch, dstPitch]

theorem decode_buildAtomicPacket32 {ptr : UInt64} {value : UInt32}
    (built : buildAtomicPacket fnName false ptr value.toUInt64 = .ok words) :
    decodePacket words = some (.add32 ptr.toNat value.toNat) := by
  obtain ⟨-, ⟨⟩⟩ := passed_of_ok built
  exact decode_atomicAddPacket32 ptr value

theorem decode_buildAtomicPacket64 {ptr value : UInt64}
    (built : buildAtomicPacket fnName true ptr value = .ok words) :
    decodePacket words = some (.add64 ptr.toNat value.toNat) := by
  obtain ⟨-, ⟨⟩⟩ := passed_of_ok built
  exact decode_atomicAddPacket64 ptr value

theorem decode_buildPollPacket {ptr : UInt64} {expected : UInt32}
    (built : buildPollPacket fnName ptr expected = .ok words) :
    decodePacket words = some (.poll ptr.toNat expected.toNat) := by
  obtain ⟨-, ⟨⟩⟩ := passed_of_ok built
  exact decode_pollRegmemPacket ptr expected _ _

theorem decode_buildTimestamp {ptr : UInt64} (built : buildTimestamp ptr = .ok words) :
    decodePacket words = some (.timestamp ptr.toNat) := by
  obtain ⟨-, ⟨⟩⟩ := passed_of_ok built
  exact decode_timestampPacket ptr

end

/-- The engine does what an accepted call asks for, exactly if the size of a linear copy fits
into its field. -/
theorem decode_build_iff {fnName : String} {call : PacketCall} {words : List Nat}
    (built : call.build fnName = .ok words) :
    decodePacket words = some call.requested ↔ call.Fits := by
  cases call with
  | linear src dst size => exact decode_buildLinear built
  | tile src dst dataSize tileHeight tileWidth srcStride dstStride =>
    exact iff_of_true (decode_buildTilePacket built) trivial
  | atomic32 ptr value => exact iff_of_true (decode_buildAtomicPacket32 built) trivial
  | atomic64 ptr value => exact iff_of_true (decode_buildAtomicPacket64 built) trivial
  | poll ptr expected => exact iff_of_true (decode_buildPollPacket built) trivial
  | timestamp ptr => exact iff_of_true (decode_buildTimestamp built) trivial

def gigabyteCopy : PacketCall := .linear 0x100000000 0x200000000 0x40000000

theorem decode_gigabyteCopy : ∃ words, gigabyteCopy.build "put" = .ok words ∧
      decodePacket words = some gigabyteCopy.requested := by
  have built : gigabyteCopy.build "put" =
      .ok (copyLinearPacket 0x100000000 0x200000000 0x40000000) := rfl
  exact ⟨_, built, (decode_build_iff built).mpr (by decide)⟩

def longerCopy : PacketCall := .linear 0x100000000 0x200000000 0x40000001

/-- The engine copies a single byte. -/
theorem decode_longerCopy : ∃ words, longerCopy.build "put" = .ok words ∧
      decodePacket words = some (.copy 0x100000000 0x200000000 1) ∧
      decodePacket words ≠ some longerCopy.requested := by
  have decoded : decodePacket (copyLinearPacket 0x100000000 0x200000000 0x40000001) =
      some (.copy 0x100000000 0x200000000 1) := decode_copyLinearPacket _ _ _
  refine ⟨_, rfl, decoded, ?_⟩
  decide

end RocmXio.Sdma
