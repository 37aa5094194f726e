/-
The calls of the host API of an SDMA queue.

A call of `SdmaQueueHostHandle` checks its arguments, builds the packets of one batch and hands them
to `submit`, which rejects a batch that cannot fit into the ring. Everything that can throw does so
before `submit` reserves space.
-/

import RocmXio.Sdma.HostPacket
import RocmXio.Sdma.Placement

namespace RocmXio.Sdma

/-! ### Packets with their lengths -/

def hostFormat : Format := fun header =>
  if (Header.of header).op = sdmaOpCopy then
    if (Header.of header).subOp = sdmaSubopCopyLinearSubWindow then 20 else 7
  else if (Header.of header).op = sdmaOpAtomic then 8
  else if (Header.of header).op = sdmaOpPollRegmem then 6
  else 3

def PacketCall.packet : PacketCall → Packet hostFormat
  | .linear src dst size =>
    ⟨copyLinearHeader, (copyLinearPacket src dst size).tail, by decide, rfl,
      by simp [copyLinearPacket]⟩
  | .tile src dst dataSize tileHeight tileWidth srcStride dstStride =>
    ⟨largeSubWindowCopyHeader, (largeSubWindowCopyPacket src dst (tileWidth * dataSize).toUInt32
      tileHeight.toUInt32 (srcStride * dataSize).toUInt32 (dstStride * dataSize).toUInt32).tail,
      by decide, rfl, by simp [largeSubWindowCopyPacket]⟩
  | .atomic32 ptr value =>
    ⟨atomicHeader false, (atomicAddPacket false ptr value.toUInt64).tail, by decide, rfl,
      by simp [atomicAddPacket]⟩
  | .atomic64 ptr value =>
    ⟨atomicHeader true, (atomicAddPacket true ptr value).tail, by decide, rfl,
      by simp [atomicAddPacket]⟩
  | .poll ptr expected =>
    ⟨pollRegmemHeader, (pollRegmemPacket ptr expected 10 0xFFF).tail, by decide, rfl,
      by simp [pollRegmemPacket]⟩
  | .timestamp ptr =>
    ⟨timestampHeader, (timestampPacket ptr).tail, by decide, rfl, by simp [timestampPacket]⟩

/-! ### Batches -/

variable {format : Format}

def kMaxSubmitBytes : Nat := sdmaQueueSize - 4

def totalPacketBytes (packets : List (Packet format)) : Nat :=
  (packets.map Packet.bytes).sum

/-- What `submit` reserves space for: at least one packet, and less than a whole ring. -/
structure Batch (format : Format) where
  packets : List (Packet format)
  nonempty : packets ≠ []
  admissible : totalPacketBytes packets ≤ kMaxSubmitBytes

/-- `total_size`. -/
def Batch.bytes (batch : Batch format) : Nat := totalPacketBytes batch.packets

def Batch.words (batch : Batch format) : List Nat := batch.packets.flatMap Packet.words

/-- What `submit` does before it reserves space: it returns when there are no packets, and
`check_submit_size` throws when there are too many. -/
def checkSubmit (packets : List (Packet format)) : Except String (Option (Batch format)) :=
  if empty : packets = [] then .ok none
  else if admissible : totalPacketBytes packets ≤ kMaxSubmitBytes then
    .ok (some ⟨packets, empty, admissible⟩)
  else
    .error ("SdmaQueueHostHandle::submit: batch size " ++ toString (totalPacketBytes packets) ++
      " bytes exceeds the maximum single submission of " ++ toString kMaxSubmitBytes ++
      " bytes (SDMA ring is " ++ toString sdmaQueueSize ++
      " bytes). Split the batch into smaller submissions.")

theorem checkSubmit_isError {packets : List (Packet format)}
    (large : kMaxSubmitBytes < totalPacketBytes packets) :
    ∃ message, checkSubmit packets = .error message := by
  have nonempty : packets ≠ [] := by
    rintro rfl
    exact absurd large (Nat.not_lt_zero _)
  exact ⟨_, by rw [checkSubmit, dif_neg nonempty, dif_neg (Nat.not_le.mpr large)]⟩

/-! ### Calls -/

/-- The flag of a call that is instantiated for 32 and for 64 bits. -/
inductive Flag where
  | narrow (ptr : UInt64) (value : UInt32)
  | wide (ptr value : UInt64)

def Flag.element : Flag → PacketCall
  | .narrow ptr value => .atomic32 ptr value
  | .wide ptr value => .atomic64 ptr value

structure Tile where
  dstPtr : UInt64
  srcPtr : UInt64
  dataSize : UInt64
  tileHeight : UInt64
  tileWidth : UInt64
  srcStride : UInt64
  dstStride : UInt64

def Tile.element (tile : Tile) : PacketCall :=
  .tile tile.srcPtr tile.dstPtr tile.dataSize tile.tileHeight tile.tileWidth tile.srcStride
    tile.dstStride

/-- The arguments of a call with several tiles: one array for each. -/
structure TileArrays where
  dstPtrs : List UInt64
  srcPtrs : List UInt64
  dataSize : UInt64
  tileHeights : List UInt64
  tileWidths : List UInt64
  srcStrides : List UInt64
  dstStrides : List UInt64

def TileArrays.Mismatch (arrays : TileArrays) : Prop :=
  arrays.srcPtrs.length ≠ arrays.dstPtrs.length ∨
    arrays.srcPtrs.length ≠ arrays.tileHeights.length ∨
    arrays.srcPtrs.length ≠ arrays.tileWidths.length ∨
    arrays.srcPtrs.length ≠ arrays.srcStrides.length ∨
    arrays.srcPtrs.length ≠ arrays.dstStrides.length

instance (arrays : TileArrays) : Decidable arrays.Mismatch := by
  unfold TileArrays.Mismatch
  infer_instance

def TileArrays.elements (arrays : TileArrays) : List PacketCall :=
  (List.range arrays.srcPtrs.length).map fun i =>
    Tile.element ⟨arrays.dstPtrs.getD i 0, arrays.srcPtrs.getD i 0, arrays.dataSize,
      arrays.tileHeights.getD i 0, arrays.tileWidths.getD i 0, arrays.srcStrides.getD i 0,
      arrays.dstStrides.getD i 0⟩

/-- The member functions that submit packets, with their arguments. -/
inductive HostCall where
  | put (dst src size : UInt64)
  | signal (flag : Flag)
  | timestamp (ptr : UInt64)
  | putSignal (dst src size : UInt64) (flag : Flag)
  | putTile (tile : Tile)
  | putTiles (arrays : TileArrays)
  | putTileSignal (tile : Tile) (flag : Flag)
  | putTilesSignal (arrays : TileArrays) (flag : Flag)
  | waitFlagThenPut (flagPtr : UInt64) (expected : UInt32) (dst src size : UInt64)
  | waitFlagThenPutTile (flagPtr : UInt64) (expected : UInt32) (tile : Tile)
  | waitFlagThenPutTiles (flagPtr : UInt64) (expected : UInt32) (arrays : TileArrays)

/-- The name that a function passes to the checks of its arguments. -/
def HostCall.fnName : HostCall → String
  | .put .. => "put"
  | .signal .. => "signal"
  | .timestamp .. => "timestamp"
  | .putSignal .. => "put_signal"
  | .putTile .. => "put_tile"
  | .putTiles .. => "put_tiles"
  | .putTileSignal .. => "put_tile_signal"
  | .putTilesSignal .. => "put_tiles_signal"
  | .waitFlagThenPut .. => "wait_flag_then_put"
  | .waitFlagThenPutTile .. => "wait_flag_then_put_tile"
  | .waitFlagThenPutTiles .. => "wait_flag_then_put_tiles"

/-- What the batch of a call is made of. With no tiles there is no batch to signal the end of. -/
def HostCall.elements : HostCall → List PacketCall
  | .put dst src size => [.linear src dst size]
  | .signal flag => [flag.element]
  | .timestamp ptr => [.timestamp ptr]
  | .putSignal dst src size flag => [.linear src dst size, flag.element]
  | .putTile tile => [tile.element]
  | .putTiles arrays => arrays.elements
  | .putTileSignal tile flag => [tile.element, flag.element]
  | .putTilesSignal arrays flag =>
    if arrays.srcPtrs = [] then [] else arrays.elements ++ [flag.element]
  | .waitFlagThenPut flagPtr expected dst src size =>
    [.poll flagPtr expected, .linear src dst size]
  | .waitFlagThenPutTile flagPtr expected tile => [.poll flagPtr expected, tile.element]
  | .waitFlagThenPutTiles flagPtr expected arrays => .poll flagPtr expected :: arrays.elements

/-- Builds the packets one after the other; the first invalid one throws. -/
def buildAll (fnName : String) (elements : List PacketCall) :
    Except String (List (Packet hostFormat)) :=
  elements.mapM fun element => (element.build fnName).map fun _ => element.packet

/-- The packets that a call hands to `submit`, or the message of its exception. The calls with
arrays check them first, and all but one return when they are empty; the linear copy behind a flag
is checked before the flag. -/
def HostCall.packets (call : HostCall) : Except String (List (Packet hostFormat)) :=
  match call with
  | .putTiles arrays =>
    if arrays.Mismatch then .error "put_tiles: transfer arrays must have the same size"
    else if arrays.srcPtrs = [] then .ok []
    else buildAll call.fnName call.elements
  | .putTilesSignal arrays _ =>
    if arrays.Mismatch then .error "put_tiles_signal: transfer arrays must have the same size"
    else if arrays.srcPtrs = [] then .ok []
    else buildAll call.fnName call.elements
  | .waitFlagThenPutTiles _ _ arrays =>
    if arrays.srcPtrs = [] ∨ arrays.Mismatch then
      .error "Invalid wait_flag_then_put_tiles() parameters"
    else buildAll call.fnName call.elements
  | .waitFlagThenPut _ _ dst src size => do
    let _ ← buildLinear call.fnName src dst size
    buildAll call.fnName call.elements
  | _ => buildAll call.fnName call.elements

theorem buildAll_isError {fnName : String} {elements : List PacketCall} {element : PacketCall}
    (member : element ∈ elements) (invalid : ∀ words, element.build fnName ≠ .ok words) :
    ∃ message, buildAll fnName elements = .error message := by
  induction elements with
  | nil => exact absurd member List.not_mem_nil
  | cons first rest inductionHypothesis =>
    rw [buildAll, List.mapM_cons]
    cases built : first.build fnName with
    | error message => exact ⟨message, rfl⟩
    | ok words =>
      rcases List.mem_cons.mp member with rfl | later
      · exact absurd built (invalid words)
      · obtain ⟨message, failed⟩ := inductionHypothesis later
        rw [buildAll] at failed
        rw [failed]
        exact ⟨message, rfl⟩

theorem packets_isError {call : HostCall} {element : PacketCall} (member : element ∈ call.elements)
    (invalid : ∀ words, element.build call.fnName ≠ .ok words) :
    ∃ message, call.packets = .error message := by
  have failed := buildAll_isError member invalid
  cases call with
  | putTiles arrays =>
    have some : arrays.srcPtrs ≠ [] := by
      intro empty
      rw [HostCall.elements, TileArrays.elements, empty] at member
      exact absurd member List.not_mem_nil
    by_cases mismatch : arrays.Mismatch
    · exact ⟨_, if_pos mismatch⟩
    · rwa [HostCall.packets, if_neg mismatch, if_neg some]
  | putTilesSignal arrays flag =>
    have some : arrays.srcPtrs ≠ [] := by
      intro empty
      rw [HostCall.elements, if_pos empty] at member
      exact absurd member List.not_mem_nil
    by_cases mismatch : arrays.Mismatch
    · exact ⟨_, if_pos mismatch⟩
    · rwa [HostCall.packets, if_neg mismatch, if_neg some]
  | waitFlagThenPutTiles flagPtr expected arrays =>
    by_cases refused : arrays.srcPtrs = [] ∨ arrays.Mismatch
    · exact ⟨_, if_pos refused⟩
    · rwa [HostCall.packets, if_neg refused]
  | waitFlagThenPut flagPtr expected dst src size =>
    rw [HostCall.packets]
    cases buildLinear _ src dst size with
    | error message => exact ⟨message, rfl⟩
    | ok words => exact failed
  | put | signal | timestamp | putSignal | putTile | putTileSignal | waitFlagThenPutTile =>
    exact failed

end RocmXio.Sdma
