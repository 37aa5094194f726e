/-
Copies with a signal, in one packet or in two.

A device copies bytes and then adds one to a signal, to a counter or to both. On older engines that
takes a copy packet and one or two atomic packets; newer engines fuse the copy and the first
addition. This file has both encodings and an interpreter that goes by the declared fields, and
shows that a memory ends up the same either way.
-/

import RocmXio.Lib.ByteStores
import RocmXio.Sdma.HostPacket

namespace RocmXio.Sdma

open Lib

/-! ### The fused packet -/

def sdmaSubopCopyLinearWaitSignalMI4 : Nat := 0
def sdmaSignalOpAdd64MI4 : Nat := 111
def sdmaWaitFuncGeqMI4 : Nat := 5

/-- The low dword of the address of a 64-bit word: three reserved bits and `addr_31_3`. -/
def wordLow (addr : UInt64) : Nat :=
  packFields [(3, 0), (29, (addr >>> 3).toUInt32.toNat)]

def waitSignalHeader (wait signal : Bool) : Nat :=
  packFields [(8, sdmaOpCopy), (8, sdmaSubopCopyLinearWaitSignalMI4), (2, 0), (1, 0), (9, 0),
    (1, 0), (1, 0), (1, wait.toNat), (1, signal.toNat)]

/-- `CreateCopyWaitSignalPacketMI4`: the dwords of `SDMA_PKT_COPY_LINEAR_WAIT_SIGNAL_MI4`. -/
def createCopyWaitSignalPacketMI4 (srcBuf dstBuf packetSize signalAddr signalData : UInt64)
    (enableWait : Bool) (waitAddr waitRef waitMask : UInt64) : List Nat :=
  let signal := signalAddr != 0
  let wait := enableWait && waitAddr != 0
  let ifWait (word : Nat) := if wait then word else 0
  let ifSignal (word : Nat) := if signal then word else 0
  [waitSignalHeader wait signal,
    ifWait (packFields [(3, sdmaWaitFuncGeqMI4), (15, 0), (2, 0), (3, 0), (9, 0)]),
    ifWait (wordLow waitAddr), ifWait (high waitAddr), ifWait (low waitRef),
    ifWait (high waitRef), ifWait (low waitMask), ifWait (high waitMask),
    packFields [(30, (packetSize - 1).toUInt32.toNat), (2, 0)], 0,
    low srcBuf, high srcBuf, low dstBuf, high dstBuf,
    ifSignal (packFields [(7, sdmaSignalOpAdd64MI4), (11, 0), (2, 0), (3, 0), (9, 0)]),
    ifSignal (wordLow signalAddr), ifSignal (high signalAddr), ifSignal (low signalData),
    ifSignal (high signalData)]

/-! ### What is emitted -/

def createAtomicIncPacket (addr : UInt64) : List Nat := atomicAddPacket true addr 1

def sizeofCopyLinear : Nat := 28
def sizeofAtomic : Nat := 32
def sizeofCopyLinearWaitSignalMI4 : Nat := 76

/-- The space that is reserved in the ring, and the packets that are placed there. -/
structure Emission where
  spaceRequired : Nat
  packets : List (List Nat)

def Emission.placed (emission : Emission) : Nat :=
  (emission.packets.map fun words => 4 * words.length).sum

/-- `put_signal_counter_impl`, with `XIO_SDMA_OSS7` set or not. -/
def putSignalCounterImpl (oss7 putEn signalEn counterEn : Bool)
    (dst src size signal counter : UInt64) : Emission :=
  if oss7 && putEn && (signalEn || counterEn) then
    let both := signalEn && counterEn
    let fusedAddr := if signalEn then signal else counter
    { spaceRequired := sizeofCopyLinearWaitSignalMI4 + if both then sizeofAtomic else 0
      packets := createCopyWaitSignalPacketMI4 src dst size fusedAddr 1 false 0 0 0 ::
        if both then [createAtomicIncPacket counter] else [] }
  else
    { spaceRequired := (if putEn then sizeofCopyLinear else 0) +
        (if signalEn then sizeofAtomic else 0) + if counterEn then sizeofAtomic else 0
      packets := (if putEn then [copyLinearPacket src dst size] else []) ++
        (if signalEn then [createAtomicIncPacket signal] else []) ++
          if counterEn then [createAtomicIncPacket counter] else [] }

structure Transfer where
  dst : UInt64
  src : UInt64
  size : UInt64
  size_pos : 0 < size.toNat
  size_le : size.toNat ≤ 2 ^ 30

structure WordAddress where
  address : UInt64
  aligned : address.toNat % 8 = 0
  nonnull : address ≠ 0

inductive PutOperation where
  | putSignal (signal : WordAddress)
  | putCounter (counter : WordAddress)
  | putSignalCounter (signal counter : WordAddress)

def PutOperation.emit (oss7 : Bool) (transfer : Transfer) : PutOperation → Emission
  | .putSignal signal => putSignalCounterImpl oss7 true true false transfer.dst transfer.src
    transfer.size signal.address 0
  | .putCounter counter => putSignalCounterImpl oss7 true false true transfer.dst transfer.src
    transfer.size 0 counter.address
  | .putSignalCounter signal counter => putSignalCounterImpl oss7 true true true transfer.dst
    transfer.src transfer.size signal.address counter.address

/-! ### What the engine does -/

abbrev Bytes : Type := Memory Unit

namespace Bytes

variable (memory : Bytes)

def word64 (addr : Nat) : Nat := leValue (readBytes memory () addr 8)

def copy (src dst size : Nat) : Bytes := storeBlock memory ⟨(), dst, readBytes memory () src size⟩

def add64 (addr addend : Nat) : Bytes :=
  storeBlock memory ⟨(), addr, leBytes 8 ((memory.word64 addr + addend) % 2 ^ 64)⟩

end Bytes

structure WaitSignalCopy where
  wait : Option (Nat × Nat × Nat × Nat)
  src : Nat
  dst : Nat
  size : Nat
  signal : Option (Nat × Nat × Nat)
deriving DecidableEq

/-- The fields of `SDMA_PKT_COPY_LINEAR_WAIT_SIGNAL_MI4`: function, address, reference and mask
of the wait, the copy, and operation, address and data of the signal. -/
def decodeWaitSignal : List Nat → Option WaitSignalCopy
  | [header, waitCtrl, waitLow, waitHigh, refLow, refHigh, maskLow, maskHigh, count, _, srcLow,
      srcHigh, dstLow, dstHigh, signalCtrl, signalLow, signalHigh, dataLow, dataHigh] =>
    if field 0 8 header = sdmaOpCopy ∧ field 8 8 header = sdmaSubopCopyLinearWaitSignalMI4 then
      some {
        wait := if field 30 1 header = 1 then
            some (field 0 3 waitCtrl, join (field 3 29 waitLow * 8) (field 0 32 waitHigh),
              join (field 0 32 refLow) (field 0 32 refHigh),
              join (field 0 32 maskLow) (field 0 32 maskHigh))
          else none
        src := join (field 0 32 srcLow) (field 0 32 srcHigh)
        dst := join (field 0 32 dstLow) (field 0 32 dstHigh)
        size := field 0 30 count + 1
        signal := if field 31 1 header = 1 then
            some (field 0 7 signalCtrl, join (field 3 29 signalLow * 8) (field 0 32 signalHigh),
              join (field 0 32 dataLow) (field 0 32 dataHigh))
          else none }
    else none
  | _ => none

/-- The engine waits until the word has reached the reference, copies, and signals. Nothing is
said about other functions and operations, or before the wait is over. -/
def WaitSignalCopy.execute (packet : WaitSignalCopy) (memory : Bytes) : Option Bytes :=
  let ready := match packet.wait with
    | none => true
    | some (function, addr, reference, mask) =>
      function = sdmaWaitFuncGeqMI4 && reference ≤ (memory.word64 addr &&& mask)
  let copied := memory.copy packet.src packet.dst packet.size
  if ready then
    match packet.signal with
    | none => some copied
    | some (operation, addr, data) =>
      if operation = sdmaSignalOpAdd64MI4 then some (copied.add64 addr data) else none
  else none

def Operation.execute (memory : Bytes) : Operation → Option Bytes
  | .copy src dst size => some (memory.copy src dst size)
  | .add64 addr addend => some (memory.add64 addr addend)
  | _ => none

def executePacket (memory : Bytes) (words : List Nat) : Option Bytes :=
  match decodeWaitSignal words with
  | some packet => packet.execute memory
  | none => (decodePacket words).bind (Operation.execute memory)

def executePackets (memory : Bytes) (packets : List (List Nat)) : Option Bytes :=
  packets.foldlM executePacket memory

variable (transfer : Transfer)

def PutOperation.effect (memory : Bytes) : PutOperation → Bytes
  | .putSignal signal => (memory.copy transfer.src.toNat transfer.dst.toNat
    transfer.size.toNat).add64 signal.address.toNat 1
  | .putCounter counter => (memory.copy transfer.src.toNat transfer.dst.toNat
    transfer.size.toNat).add64 counter.address.toNat 1
  | .putSignalCounter signal counter => ((memory.copy transfer.src.toNat transfer.dst.toNat
    transfer.size.toNat).add64 signal.address.toNat 1).add64 counter.address.toNat 1

namespace Bytes

variable (memory : Bytes)

theorem readBytes_copy (src dst size : Nat) :
    readBytes (memory.copy src dst size) () dst size = readBytes memory () src size :=
  readBytes_storeBlocks_self [] [] (length_readBytes _ _ _ _)
    fun _ impossible => absurd impossible List.not_mem_nil

theorem word64_add64 (addr addend : Nat) :
    (memory.add64 addr addend).word64 addr = (memory.word64 addr + addend) % 2 ^ 64 := by
  have stored : readBytes (memory.add64 addr addend) () addr 8 =
      leBytes 8 ((memory.word64 addr + addend) % 2 ^ 64) :=
    readBytes_storeBlocks_self [] [] (length_leBytes _ _)
      fun _ impossible => absurd impossible List.not_mem_nil
  have fits : (memory.word64 addr + addend) % 2 ^ 64 < 256 ^ 8 := Nat.mod_lt _ (by decide)
  rw [word64, stored, leValue_leBytes fits]

theorem readBytes_add64 {addr start width : Nat} (addend : Nat)
    (apart : addr + 8 ≤ start ∨ start + width ≤ addr) :
    readBytes (memory.add64 addr addend) () start width = readBytes memory () start width := by
  refine readBytes_storeBlock_of_apart (.inr ?_)
  rwa [length_leBytes]

theorem readBytes_copy_of_apart {src dst size start width : Nat}
    (apart : dst + size ≤ start ∨ start + width ≤ dst) :
    readBytes (memory.copy src dst size) () start width = readBytes memory () start width := by
  refine readBytes_storeBlock_of_apart (.inr ?_)
  rwa [length_readBytes]

end Bytes

/-- With the signal outside of the destination, the destination gets the bytes of the source and the
signal one more. -/
theorem PutOperation.effect_putSignal (signal : WordAddress) (memory : Bytes)
    (apart : signal.address.toNat + 8 ≤ transfer.dst.toNat ∨
      transfer.dst.toNat + transfer.size.toNat ≤ signal.address.toNat) :
    let after := PutOperation.effect transfer memory (.putSignal signal)
    readBytes after () transfer.dst.toNat transfer.size.toNat =
        readBytes memory () transfer.src.toNat transfer.size.toNat ∧
      after.word64 signal.address.toNat = (memory.word64 signal.address.toNat + 1) % 2 ^ 64 := by
  intro after
  refine ⟨?_, ?_⟩
  · exact (Bytes.readBytes_add64 _ 1 apart).trans (memory.readBytes_copy _ _ _)
  · have kept : (memory.copy transfer.src.toNat transfer.dst.toNat transfer.size.toNat).word64
        signal.address.toNat = memory.word64 signal.address.toNat := by
      rw [Bytes.word64, memory.readBytes_copy_of_apart apart.symm, Bytes.word64]
    exact (Bytes.word64_add64 _ _ 1).trans (by rw [kept])

/-! ### Decoding -/

theorem size_eq : (transfer.size - 1).toUInt32.toNat % 2 ^ 30 + 1 = transfer.size.toNat := by
  have positive := transfer.size_pos
  have small := transfer.size_le
  have less : (1 : UInt64) ≤ transfer.size :=
    UInt64.le_iff_toNat_le.mpr (Nat.succ_le_of_lt positive)
  rw [UInt64.toNat_toUInt32, UInt64.toNat_sub_of_le _ _ less, UInt64.toNat_one]
  omega

theorem join_wordLow_high (word : WordAddress) :
    join (field 3 29 (wordLow word.address) * 8) (field 0 32 (high word.address)) =
      word.address.toNat := by
  have aligned := word.aligned
  have bound := word.address.toNat_lt
  rw [wordLow, high, field_word, field_packFields_tail le_rfl, Nat.sub_self,
    field_packFields_head, UInt64.toNat_toUInt32, UInt64.toNat_toUInt32, UInt64.toNat_shiftRight,
    UInt64.toNat_shiftRight, join]
  simp only [UInt64.reduceToNat, Nat.reduceMod, Nat.shiftRight_eq_div_pow]
  omega

theorem signalCtrl_operation : field 0 7 (packFields [(7, sdmaSignalOpAdd64MI4), (11, 0), (2, 0),
    (3, 0), (9, 0)]) = sdmaSignalOpAdd64MI4 := by
  rfl

theorem decode_fused (word : WordAddress) :
    decodeWaitSignal (createCopyWaitSignalPacketMI4 transfer.src transfer.dst transfer.size
      word.address 1 false 0 0 0) = some ⟨none, transfer.src.toNat, transfer.dst.toNat,
        transfer.size.toNat, some (sdmaSignalOpAdd64MI4, word.address.toNat, 1)⟩ := by
  have signals : (word.address != 0) = true := bne_iff_ne.mpr word.nonnull
  have opcode : field 0 8 (waitSignalHeader false true) = sdmaOpCopy ∧
      field 8 8 (waitSignalHeader false true) = sdmaSubopCopyLinearWaitSignalMI4 := by decide
  have noWait : ¬field 30 1 (waitSignalHeader false true) = 1 := by decide
  have signal : field 31 1 (waitSignalHeader false true) = 1 := by decide
  have one : (1 : UInt64).toNat = 1 := rfl
  simp only [createCopyWaitSignalPacketMI4, signals, Bool.false_and, if_true, decodeWaitSignal]
  rw [if_pos opcode, if_neg noWait, if_pos signal, join_low_high, join_low_high,
    join_low_high, one, join_wordLow_high, signalCtrl_operation, field_packFields_head, size_eq]

theorem execute_fused (word : WordAddress) (memory : Bytes) :
    executePacket memory (createCopyWaitSignalPacketMI4 transfer.src transfer.dst transfer.size
      word.address 1 false 0 0 0) =
        some ((memory.copy transfer.src.toNat transfer.dst.toNat transfer.size.toNat).add64
          word.address.toNat 1) := by
  rw [executePacket, decode_fused]
  simp only [WaitSignalCopy.execute, if_true]

theorem execute_copyLinear (memory : Bytes) :
    executePacket memory (copyLinearPacket transfer.src transfer.dst transfer.size) =
      some (memory.copy transfer.src.toNat transfer.dst.toNat transfer.size.toNat) := by
  have other : decodeWaitSignal (copyLinearPacket transfer.src transfer.dst transfer.size) =
      none := rfl
  rw [executePacket, other]
  simp only [decode_copyLinearPacket, size_eq, Option.bind_some, Operation.execute]

theorem execute_atomicInc (addr : UInt64) (memory : Bytes) :
    executePacket memory (createAtomicIncPacket addr) = some (memory.add64 addr.toNat 1) := by
  have other : decodeWaitSignal (createAtomicIncPacket addr) = none := rfl
  have one : (1 : UInt64).toNat = 1 := rfl
  rw [executePacket, other]
  simp only [createAtomicIncPacket, decode_atomicAddPacket64, Option.bind_some,
    Operation.execute, one]

/-! ### Both encodings do the same -/

theorem executePackets_cons {memory next : Bytes} {words : List Nat}
    (first : executePacket memory words = some next) (rest : List (List Nat)) :
    executePackets memory (words :: rest) = executePackets next rest := by
  rw [executePackets, List.foldlM_cons, first]
  rfl

theorem execute_emit (oss7 : Bool) (transfer : Transfer) (operation : PutOperation)
    (memory : Bytes) : executePackets memory (operation.emit oss7 transfer).packets =
      some (operation.effect transfer memory) := by
  cases operation with
  | putSignal signal =>
    cases oss7 with
    | true => exact executePackets_cons (execute_fused transfer signal memory) []
    | false =>
      refine (executePackets_cons (execute_copyLinear transfer memory) _).trans ?_
      exact executePackets_cons (execute_atomicInc signal.address _) []
  | putCounter counter =>
    cases oss7 with
    | true => exact executePackets_cons (execute_fused transfer counter memory) []
    | false =>
      refine (executePackets_cons (execute_copyLinear transfer memory) _).trans ?_
      exact executePackets_cons (execute_atomicInc counter.address _) []
  | putSignalCounter signal counter =>
    cases oss7 with
    | true =>
      refine (executePackets_cons (execute_fused transfer signal memory) _).trans ?_
      exact executePackets_cons (execute_atomicInc counter.address _) []
    | false =>
      refine (executePackets_cons (execute_copyLinear transfer memory) _).trans ?_
      refine (executePackets_cons (execute_atomicInc signal.address _) _).trans ?_
      exact executePackets_cons (execute_atomicInc counter.address _) []

theorem placed_emit (oss7 : Bool) (transfer : Transfer) (operation : PutOperation) :
    (operation.emit oss7 transfer).placed = (operation.emit oss7 transfer).spaceRequired := by
  cases operation <;> cases oss7 <;> rfl

/-- With the fused packet and without it, an operation copies the bytes and adds one to the
signal and to the counter, and places as many bytes as it reserves. -/
theorem fused_eq_separate (operation : PutOperation) (memory : Bytes) :
    executePackets memory (operation.emit true transfer).packets =
        executePackets memory (operation.emit false transfer).packets ∧
      executePackets memory (operation.emit true transfer).packets =
        some (operation.effect transfer memory) ∧
      ∀ oss7, (operation.emit oss7 transfer).placed =
        (operation.emit oss7 transfer).spaceRequired := by
  refine ⟨?_, execute_emit true transfer operation memory,
    fun oss7 => placed_emit oss7 transfer operation⟩
  rw [execute_emit, execute_emit]

def sectorTransfer : Transfer := ⟨8192, 4096, 512, by decide, by decide⟩

def firstSignal : WordAddress := ⟨64, by decide, by decide⟩

theorem fused_eq_separate_sector : ∃ after : Bytes,
    executePackets (fun _ _ => 7)
        ((PutOperation.putSignal firstSignal).emit true sectorTransfer).packets = some after ∧
      readBytes after () 8192 512 = List.replicate 512 7 ∧
      after.word64 64 = Bytes.word64 (fun _ _ => 7) 64 + 1 := by
  obtain ⟨copied, signalled⟩ := PutOperation.effect_putSignal sectorTransfer firstSignal
    (fun _ _ => 7) (by decide)
  exact ⟨_, (fused_eq_separate sectorTransfer (.putSignal firstSignal) _).2.1,
    copied.trans (by decide +kernel), signalled.trans (by decide +kernel)⟩

end RocmXio.Sdma
