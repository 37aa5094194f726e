/-
The multi-producer SDMA ring.

Any number of producers share one ring through `SdmaQueueHandle`. A submission reserves space with a
compare-and-exchange on `cachedWptr`, stores its packets (with NOP padding in front when they would
straddle the ring end), waits until `committedWptr` has reached its base, and publishes through
`wptr`, the doorbell and `committedWptr`, in that order. The space check may be answered from a read
pointer that the producer cached earlier.

Every access to shared memory is a step of its own, so that producers and engine interleave freely.
All counters are 64-bit byte indices, with sums and differences modulo `2 ^ 64`. The state also
carries a history: which reservations were made, in the order of the successful exchanges and split
at `committedWptr`, and which dwords the engine read.
-/

import RocmXio.Sdma.Packet

namespace RocmXio.Sdma

variable {Id : Type} {format : Format}

def indexRange : Nat := 2 ^ 64

/-- What one call reserves space for: at least one packet, and at most half a ring. -/
structure Submission (format : Format) where
  packets : List (Packet format)
  nonempty : packets ≠ []
  halfRing : (packets.map Packet.bytes).sum ≤ sdmaQueueSize / 2

/-- `space_required`. -/
def Submission.bytes (submission : Submission format) : Nat :=
  (submission.packets.map Packet.bytes).sum

/-- A submission and the places where the caller passes its `SdmaQueueState`: the plain operations
pass it to both halves of the call or to neither, the fused ones only to `submitPacket`. -/
structure Call (format : Format) where
  submission : Submission format
  reserveState : Bool
  submitState : Bool

structure SdmaQueueState where
  cachedHwReadIndex : Nat := 0
  maxWritePtr : Nat := 0

inductive Phase (format : Format) where
  | idle
  | load (call : Call format)
  | check (call : Call format) (curIndex : Nat)
  | exchange (call : Call format) (curIndex : Nat)
  | place (call : Call format) (base : Nat) (stores : List (Nat × Nat)) (pendingWptr : Nat)
  | commit (call : Call format) (base pendingWptr : Nat)
  | publish (call : Call format) (base pendingWptr : Nat)
  | ring (call : Call format) (base pendingWptr : Nat)
  | advance (call : Call format) (base pendingWptr : Nat)

/-- One producer: its phase and the state object it may pass to the calls. -/
structure Producer (format : Format) where
  phase : Phase format
  state : SdmaQueueState

/-! ### The functions of the handle -/

def wrapIntoRing (index : Nat) : Nat :=
  index % sdmaQueueSize

def indexSub (left right : Nat) : Nat :=
  (left + indexRange - right) % indexRange

/-- The padding `ReserveQueueSpace` puts in front of a region that would straddle the ring
end. -/
def paddingFor (curIndex size : Nat) : Nat :=
  if wrapIntoRing curIndex + size > sdmaQueueSize then
    sdmaQueueSize - wrapIntoRing curIndex
  else 0

/-- `new_index` of `ReserveQueueSpace`. -/
def newIndex (curIndex size : Nat) : Nat :=
  (curIndex + size + paddingFor curIndex size) % indexRange

/-- `CanWriteUpto` with the value that a load of `rptr` returns: the answer, and the state
object after the call. -/
def canWriteUpto (uptoIndex hwRead : Nat) (useState : Bool) (state : SdmaQueueState) :
    Bool × SdmaQueueState :=
  if useState && decide (indexSub uptoIndex state.cachedHwReadIndex < sdmaQueueSize) then
    (true, state)
  else
    (decide (indexSub uptoIndex hwRead < sdmaQueueSize),
      if useState then { state with cachedHwReadIndex := hwRead } else state)

/-- The stores of `placePacket`, in order and as dword indices into `queueBuf`, and the
pending write pointer after it. -/
def placePacket (packet : Packet format) (pendingWptr offset : Nat) :
    List (Nat × Nat) × Nat :=
  let paddingIdx := wrapIntoRing pendingWptr / 4
  let afterPadding := (pendingWptr + offset) % indexRange
  let packetIdx := wrapIntoRing afterPadding / 4
  ((nopPadding (offset / 4)).mapIdx (fun i word => (paddingIdx + i, word)) ++
      packet.words.mapIdx (fun i word => (packetIdx + i, word)),
    (afterPadding + packet.bytes) % indexRange)

/-- The `placePacket` calls of one submission: only the first one pads. -/
def placePackets : List (Packet format) → Nat → Nat → List (Nat × Nat) × Nat
  | [], pendingWptr, _ => ([], pendingWptr)
  | packet :: rest, pendingWptr, offset =>
    let placed := placePacket packet pendingWptr offset
    let others := placePackets rest placed.2 0
    (placed.1 ++ others.1, others.2)

/-! ### The shared state -/

structure Reservation (format : Format) where
  base : Nat
  offset : Nat
  submission : Submission format

def Reservation.bytes (reservation : Reservation format) : Nat :=
  reservation.offset + reservation.submission.bytes

def Reservation.words (reservation : Reservation format) : List Nat :=
  nopPadding (reservation.offset / 4) ++ reservation.submission.packets.flatMap Packet.words

/-- The ring with its producers. `committed`, `pending` and `fetched` are history: the
reservations below and above `committedWptr`, the latter with their producers, and the
dwords the engine has read. -/
structure Ring (Id : Type) (format : Format) where
  queueBuf : Nat → Nat
  rptr : Nat
  wptr : Nat
  doorbell : Nat
  cachedWptr : Nat
  committedWptr : Nat
  producers : Id → Producer format
  committed : List (Reservation format)
  pending : List (Id × Reservation format)
  fetched : List Nat

def Ring.reservations (ring : Ring Id format) : List (Reservation format) :=
  ring.committed ++ ring.pending.map Prod.snd

def Ring.totalReserved (ring : Ring Id format) : Nat :=
  (ring.reservations.map Reservation.bytes).sum

/-- A fresh queue: all indices are zero, the ring may hold anything. -/
def Ring.fresh (queueBuf : Nat → Nat) : Ring Id format where
  queueBuf := queueBuf
  rptr := 0
  wptr := 0
  doorbell := 0
  cachedWptr := 0
  committedWptr := 0
  producers := fun _ => ⟨.idle, {}⟩
  committed := []
  pending := []
  fetched := []

/-- A producer starts a call, refreshes its state object or makes its next access to shared memory,
or the engine reads some of the published dwords. -/
inductive Label (Id : Type) (format : Format) where
  | call (producer : Id) (call : Call format)
  | init (producer : Id)
  | step (producer : Id)
  | engine (dwords : Nat)

section

variable [DecidableEq Id]

def Ring.setProducer (ring : Ring Id format) (id : Id) (producer : Producer format) :
    Ring Id format :=
  { ring with producers := Function.update ring.producers id producer }

def Ring.setPhase (ring : Ring Id format) (id : Id) (phase : Phase format) : Ring Id format :=
  ring.setProducer id { ring.producers id with phase := phase }

def Ring.advanceProducer (ring : Ring Id format) (id : Id) : Option (Ring Id format) :=
  match (ring.producers id).phase with
  | .idle => none
  | .load call => some (ring.setPhase id (.check call ring.cachedWptr))
  | .check call curIndex =>
    let answer := canWriteUpto (newIndex curIndex call.submission.bytes) ring.rptr
      call.reserveState (ring.producers id).state
    some (ring.setProducer id
      { phase := if answer.1 then .exchange call curIndex else .load call
        state := answer.2 })
  | .exchange call curIndex =>
    if ring.cachedWptr = curIndex then
      let size := call.submission.bytes
      let offset := paddingFor curIndex size
      let placed := placePackets call.submission.packets curIndex offset
      some { ring.setPhase id (.place call curIndex placed.1 placed.2) with
        cachedWptr := newIndex curIndex size
        pending := ring.pending ++ [(id, ⟨curIndex, offset, call.submission⟩)] }
    else some (ring.setPhase id (.load call))
  | .place call base [] pendingWptr => some (ring.setPhase id (.commit call base pendingWptr))
  | .place call base ((slot, word) :: stores) pendingWptr =>
    some { ring.setPhase id (.place call base stores pendingWptr) with
      queueBuf := Function.update ring.queueBuf slot word }
  | .commit call base pendingWptr =>
    if ring.committedWptr = base then some (ring.setPhase id (.publish call base pendingWptr))
    else some ring
  | .publish call base pendingWptr =>
    some { ring.setPhase id (.ring call base pendingWptr) with wptr := pendingWptr }
  | .ring call base pendingWptr =>
    some { ring.setPhase id (.advance call base pendingWptr) with doorbell := pendingWptr }
  | .advance call _ pendingWptr =>
    let state := (ring.producers id).state
    some { ring.setProducer id
        { phase := .idle
          state := if call.submitState then { state with maxWritePtr := pendingWptr }
            else state } with
      committedWptr := pendingWptr
      committed := ring.committed ++ (ring.pending.take 1).map Prod.snd
      pending := ring.pending.drop 1 }

def Ring.step (ring : Ring Id format) : Label Id format → Option (Ring Id format)
  | .call id call =>
    match (ring.producers id).phase with
    | .idle => some (ring.setPhase id (.load call))
    | _ => none
  | .init id =>
    match (ring.producers id).phase with
    | .idle =>
      some (ring.setProducer id { phase := .idle
                                  state := { (ring.producers id).state with
                                    cachedHwReadIndex := ring.rptr } })
    | _ => none
  | .step id => ring.advanceProducer id
  | .engine dwords =>
    if ring.rptr + 4 * dwords ≤ ring.wptr then
      some { ring with
        rptr := ring.rptr + 4 * dwords
        fetched := ring.fetched ++
          (List.range dwords).map fun i => ring.queueBuf ((ring.rptr / 4 + i) % ringDwords) }
    else none

end

end RocmXio.Sdma
