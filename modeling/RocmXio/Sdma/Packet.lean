/-
SDMA packets as the engine sees them.

The engine reads the ring dword by dword. The low byte of a packet's first dword is its opcode;
opcode zero is a NOP, with the number of dwords to skip after it in bits 16 to 29, and for every
other packet the header fixes the length. Which length belongs to which header differs between SDMA
generations, so the header format is a parameter throughout: the producers rely on it only through
the sizes of the packet structs they place.

The engine is a decoder fed one dword at a time. Two facts carry everything that follows: the NOP
padding that a producer writes in front of the ring end leaves the decoder where it was, although it
can be longer than the count field of its header, and a whole packet adds exactly that packet.
-/

import RocmXio.Lib.Window

namespace RocmXio.Sdma

/-- `SDMA_QUEUE_SIZE`: the size of the ring in bytes. -/
def sdmaQueueSize : Nat := 8 * 1024 * 1024

def ringDwords : Nat := sdmaQueueSize / 4

theorem sdmaQueueSize_eq : sdmaQueueSize = 8388608 := rfl

theorem ringDwords_eq : ringDwords = 2097152 := rfl

/-- The packet length, in dwords, that the engine reads off a header dword. -/
abbrev Format := Nat → Nat

/-- A packet that is not a NOP and whose length is the one its header announces. The bound
is the one `placePacket` asserts of every packet type. -/
structure Packet (format : Format) where
  header : Nat
  body : List Nat
  notNop : header % 256 ≠ 0
  announced : format header = body.length + 1
  short : body.length + 1 ≤ 64

variable {format : Format}

def Packet.words (packet : Packet format) : List Nat :=
  packet.header :: packet.body

/-- `sizeof(PacketType)`. -/
def Packet.bytes (packet : Packet format) : Nat :=
  4 * packet.words.length

theorem Packet.bytes_pos (packet : Packet format) : 0 < packet.bytes := by
  simp [Packet.bytes, Packet.words]

/-- The dwords `placePacket` writes in front of a packet that would straddle the ring end:
one NOP header that counts the dwords after it, cut to sixteen bits, and zeros. -/
def nopPadding (numOffsetDwords : Nat) : List Nat :=
  (List.range numOffsetDwords).map fun i =>
    if i = 0 then ((numOffsetDwords - 1) &&& 0xFFFF) <<< 16 else 0

@[simp] theorem nopPadding_length (numOffsetDwords : Nat) :
    (nopPadding numOffsetDwords).length = numOffsetDwords := by
  simp [nopPadding]

theorem nopPadding_succ (count : Nat) :
    nopPadding (count + 1) = ((count &&& 0xFFFF) <<< 16) :: List.replicate count 0 := by
  rw [nopPadding, List.range_succ_eq_map, List.map_cons, List.map_map]
  refine congrArg₂ List.cons (by simp) ?_
  rw [List.eq_replicate_iff]
  refine ⟨by simp, fun word member => ?_⟩
  obtain ⟨i, _, rfl⟩ := List.mem_map.mp member
  simp

/-! ### The engine's decoder -/

/-- The decoder between two dwords: the packets recognised so far, the dwords of the current packet,
how many of those are still to come, and how many dwords a NOP still skips. -/
structure Decoder where
  packets : List (List Nat)
  current : List Nat
  missing : Nat
  skip : Nat
deriving DecidableEq, Repr

def Decoder.atBoundary (packets : List (List Nat)) : Decoder where
  packets := packets
  current := []
  missing := 0
  skip := 0

def Decoder.feed (format : Format) (decoder : Decoder) (word : Nat) : Decoder :=
  if 0 < decoder.skip then
    { decoder with skip := decoder.skip - 1 }
  else if 1 < decoder.missing then
    { decoder with current := decoder.current ++ [word], missing := decoder.missing - 1 }
  else if 0 < decoder.missing then
    .atBoundary (decoder.packets ++ [decoder.current ++ [word]])
  else if word % 256 = 0 then
    { decoder with skip := word / 2 ^ 16 % 2 ^ 14 }
  else if 1 < format word then
    { decoder with current := [word], missing := format word - 1 }
  else
    .atBoundary (decoder.packets ++ [[word]])

/-- What the engine makes of a stream of dwords that starts at a packet boundary. -/
def decode (format : Format) (words : List Nat) : Decoder :=
  words.foldl (Decoder.feed format) (.atBoundary [])

variable (packets : List (List Nat))

/-- Zeros are skipped: either the NOP in front of them counted them, or each is a NOP of its
own. -/
theorem feed_zeros (skip count : Nat) :
    (List.replicate count 0).foldl (Decoder.feed format) ⟨packets, [], 0, skip⟩ =
      ⟨packets, [], 0, skip - count⟩ := by
  induction count generalizing skip with
  | zero => rfl
  | succ count inductionHypothesis =>
    have one : Decoder.feed format ⟨packets, [], 0, skip⟩ 0 = ⟨packets, [], 0, skip - 1⟩ := by
      cases skip with
      | zero => rfl
      | succ rest => simp [Decoder.feed]
    rw [List.replicate_succ, List.foldl_cons, one, inductionHypothesis,
      Nat.sub_sub, Nat.add_comm 1 count]

theorem feed_nopPadding (numOffsetDwords : Nat) :
    (nopPadding numOffsetDwords).foldl (Decoder.feed format) (.atBoundary packets) =
      .atBoundary packets := by
  cases numOffsetDwords with
  | zero => rfl
  | succ count =>
    have shifted : (count &&& 0xFFFF) <<< 16 = count % 65536 * 65536 := by
      rw [Nat.shiftLeft_eq, show (0xFFFF : Nat) = 2 ^ 16 - 1 from rfl,
        Nat.and_two_pow_sub_one_eq_mod]
    have header : Decoder.feed format (.atBoundary packets) ((count &&& 0xFFFF) <<< 16) =
        ⟨packets, [], 0, count % 16384⟩ := by
      have opcode : count % 65536 * 65536 % 256 = 0 := by omega
      have field : count % 65536 * 65536 / 2 ^ 16 % 2 ^ 14 = count % 16384 := by omega
      simp only [shifted, Decoder.feed, Decoder.atBoundary, lt_irrefl, if_false, opcode,
        if_true, field, Nat.not_lt_zero]
    have caughtUp : count % 16384 - count = 0 := Nat.sub_eq_zero_of_le (Nat.mod_le _ _)
    rw [nopPadding_succ, List.foldl_cons, header, feed_zeros, caughtUp]
    rfl

theorem feed_body (current body : List Nat) (missing : Nat) (incomplete : body.length < missing) :
    body.foldl (Decoder.feed format) ⟨packets, current, missing, 0⟩ =
      ⟨packets, current ++ body, missing - body.length, 0⟩ := by
  induction body generalizing current missing with
  | nil => simp
  | cons word rest inductionHypothesis =>
    rw [List.length_cons] at incomplete
    have one : Decoder.feed format ⟨packets, current, missing, 0⟩ word =
        ⟨packets, current ++ [word], missing - 1, 0⟩ := by
      simp [Decoder.feed, show 1 < missing by omega]
    rw [List.foldl_cons, one, inductionHypothesis _ _ (by omega), List.append_assoc,
      List.singleton_append, List.length_cons, Nat.sub_sub, Nat.add_comm 1 rest.length]

theorem feed_packet (packet : Packet format) :
    packet.words.foldl (Decoder.feed format) (.atBoundary packets) =
      .atBoundary (packets ++ [packet.words]) := by
  have announced := packet.announced
  rcases List.eq_nil_or_concat packet.body with empty | ⟨initial, last, body⟩
  · have single : ¬ 1 < format packet.header := by
      rw [announced, empty]
      simp
    simp [Packet.words, empty, Decoder.feed, Decoder.atBoundary, packet.notNop, single]
  · rw [List.concat_eq_append] at body
    have length : format packet.header = initial.length + 2 := by
      rw [announced, body]
      simp
    have header : Decoder.feed format (.atBoundary packets) packet.header =
        ⟨packets, [packet.header], initial.length + 1, 0⟩ := by
      simp [Decoder.feed, Decoder.atBoundary, packet.notNop, length]
    rw [Packet.words, List.foldl_cons, header, body, List.foldl_append,
      feed_body _ _ _ _ (Nat.lt_succ_self _)]
    simp [Decoder.feed]

theorem feed_packets (placed : List (Packet format)) :
    (placed.flatMap Packet.words).foldl (Decoder.feed format) (.atBoundary packets) =
      .atBoundary (packets ++ placed.map Packet.words) := by
  induction placed generalizing packets with
  | nil => simp
  | cons packet rest inductionHypothesis =>
    rw [List.flatMap_cons, List.foldl_append, feed_packet, inductionHypothesis,
      List.map_cons, List.append_assoc, List.singleton_append]

end RocmXio.Sdma
