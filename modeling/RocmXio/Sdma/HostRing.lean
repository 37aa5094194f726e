/-
The SDMA ring that host threads share.

`reserveQueueSpace` of `SdmaQueueHostHandle` loads `hostCachedWptr_`, pads the ring to its end when
the batch would cross it, checks the space and claims it with a compare-and-exchange. The padding is
a claim of its own, filled with NOPs and submitted before the loop starts again. `submitPacket`
waits for its turn and moves the write pointer, the doorbell and `hostCommittedWptr_`.

Each access to shared memory is a step. Indices are 64-bit byte indices that may start anywhere and
wrap, and the weak exchange may fail although the values are equal. The claims and the dwords that
were read are history; a thread remembers how many claims there were when it loaded its index, and
the number of its claim.
-/

import RocmXio.Sdma.HostCall

namespace RocmXio.Sdma

variable {Id : Type} {format : Format}

/-! ### The functions of the handle -/

/-- `canWriteUpto` with the value that a load of the read pointer returns. -/
def canWriteUptoHost (uptoIndex hwReadIndex : Nat) : Bool :=
  decide (indexSub uptoIndex hwReadIndex < sdmaQueueSize)

/-- `padding_size` of `padRingToEnd`. -/
def paddingSize (curIndex : Nat) : Nat :=
  sdmaQueueSize - wrapIntoRing curIndex

/-- The stores of `placePacket`, a `memcpy` of the packet, as dword indices. -/
def placePacketHost (packet : Packet format) (index : Nat) : List (Nat × Nat) :=
  packet.words.mapIdx fun i word => (wrapIntoRing index / 4 + i, word)

/-- The loop of `submit` over the packets. -/
def placeBatch : List (Packet format) → Nat → List (Nat × Nat)
  | [], _ => []
  | packet :: rest, current =>
    placePacketHost packet current ++ placeBatch rest ((current + packet.bytes) % indexRange)

/-- The NOPs of `padRingToEnd`: each is a dword of its own. -/
def padStores (curIndex : Nat) : List (Nat × Nat) :=
  (List.replicate (paddingSize curIndex / 4) 0).mapIdx fun i word =>
    (wrapIntoRing curIndex / 4 + i, word)

/-! ### The shared state -/

inductive Claim (format : Format) where
  | padding (dwords : Nat)
  | batch (content : Batch format)

def Claim.words : Claim format → List Nat
  | .padding dwords => List.replicate dwords 0
  | .batch content => content.words

def Claim.packets : Claim format → List (Packet format)
  | .padding _ => []
  | .batch content => content.packets

/-- Where a thread stands in `submit`. The phases before the exchange carry the index that was
loaded and the number of claims then; those after it the number of the claim, and the batch with
which the loop starts again after padding. -/
inductive HostPhase (format : Format) where
  | idle
  | load (batch : Batch format)
  | check (batch : Batch format) (curIndex seen : Nat)
  | exchange (batch : Batch format) (curIndex seen : Nat)
  | checkPadding (batch : Batch format) (curIndex seen : Nat)
  | exchangePadding (batch : Batch format) (curIndex seen : Nat)
  | place (resume : Option (Batch format)) (ticket base : Nat) (stores : List (Nat × Nat))
      (pendingWptr : Nat)
  | wait (resume : Option (Batch format)) (ticket base pendingWptr : Nat)
  | publish (resume : Option (Batch format)) (ticket pendingWptr : Nat)
  | ring (resume : Option (Batch format)) (ticket pendingWptr : Nat)
  | advance (resume : Option (Batch format)) (ticket pendingWptr : Nat)

/-- The queue with its threads; `claims` and `fetched` are history. -/
structure HostRing (Id : Type) (format : Format) where
  queueBuffer : Nat → Nat
  queueReadPtr : Nat
  queueWritePtr : Nat
  doorbell : Nat
  hostCachedWptr : Nat
  hostCommittedWptr : Nat
  threads : Id → HostPhase format
  claims : List (Claim format)
  fetched : List Nat

/-- A new queue: the host's indices start where the write pointer is. -/
def HostRing.fresh (queueBuffer : Nat → Nat) (initialWptr : Nat) : HostRing Id format where
  queueBuffer := queueBuffer
  queueReadPtr := initialWptr
  queueWritePtr := initialWptr
  doorbell := initialWptr
  hostCachedWptr := initialWptr
  hostCommittedWptr := initialWptr
  threads := fun _ => .idle
  claims := []
  fetched := []

/-- A thread calls `submit` or makes its next access to shared memory, or the engine reads some of
the published dwords. An exchange can fail for no reason. -/
inductive HostLabel (Id : Type) (format : Format) where
  | submit (thread : Id) (packets : List (Packet format))
  | step (thread : Id) (spurious : Bool)
  | engine (dwords : Nat)

namespace HostRing

section

variable [DecidableEq Id]

variable (ring : HostRing Id format)

def setPhase (id : Id) (phase : HostPhase format) : HostRing Id format :=
  { ring with threads := Function.update ring.threads id phase }

@[simp] theorem setPhase_self (ring : HostRing Id format) (id : Id) (phase : HostPhase format) :
    (ring.setPhase id phase).threads id = phase :=
  Function.update_self ..

theorem setPhase_of_ne {id other : Id} (different : other ≠ id) (phase : HostPhase format)
    : (ring.setPhase id phase).threads other = ring.threads other :=
  Function.update_of_ne different ..

/-- The beginning of `submit`: what it returns or throws, and the queue after it. -/
def submit (id : Id) (packets : List (Packet format)) : Except String Unit × HostRing Id format :=
  match checkSubmit packets with
  | .error message => (.error message, ring)
  | .ok none => (.ok (), ring)
  | .ok (some batch) => (.ok (), ring.setPhase id (.load batch))

def call (ring : HostRing Id hostFormat) (id : Id) (call : HostCall) :
    Except String Unit × HostRing Id hostFormat :=
  match call.packets with
  | .error message => (.error message, ring)
  | .ok packets => ring.submit id packets

def advanceThread (id : Id) (spurious : Bool) : Option (HostRing Id format) :=
  match ring.threads id with
  | .idle => none
  | .load batch =>
    let curIndex := ring.hostCachedWptr
    if wrapIntoRing curIndex + batch.bytes > sdmaQueueSize then
      some (ring.setPhase id (.checkPadding batch curIndex ring.claims.length))
    else some (ring.setPhase id (.check batch curIndex ring.claims.length))
  | .check batch curIndex seen =>
    if canWriteUptoHost ((curIndex + batch.bytes) % indexRange) ring.queueReadPtr then
      some (ring.setPhase id (.exchange batch curIndex seen))
    else some (ring.setPhase id (.load batch))
  | .exchange batch curIndex _ =>
    if ring.hostCachedWptr = curIndex ∧ spurious = false then
      let newIndex := (curIndex + batch.bytes) % indexRange
      some { ring.setPhase id (.place none ring.claims.length curIndex
          (placeBatch batch.packets curIndex) newIndex) with
        hostCachedWptr := newIndex
        claims := ring.claims ++ [.batch batch] }
    else some (ring.setPhase id (.load batch))
  | .checkPadding batch curIndex seen =>
    if canWriteUptoHost ((curIndex + paddingSize curIndex) % indexRange) ring.queueReadPtr then
      some (ring.setPhase id (.exchangePadding batch curIndex seen))
    else some (ring.setPhase id (.load batch))
  | .exchangePadding batch curIndex _ =>
    if ring.hostCachedWptr = curIndex ∧ spurious = false then
      let newIndex := (curIndex + paddingSize curIndex) % indexRange
      some { ring.setPhase id (.place (some batch) ring.claims.length curIndex
          (padStores curIndex) newIndex) with
        hostCachedWptr := newIndex
        claims := ring.claims ++ [.padding (paddingSize curIndex / 4)] }
    else some (ring.setPhase id (.load batch))
  | .place resume ticket base [] pendingWptr =>
    some (ring.setPhase id (.wait resume ticket base pendingWptr))
  | .place resume ticket base ((slot, word) :: stores) pendingWptr =>
    some { ring.setPhase id (.place resume ticket base stores pendingWptr) with
      queueBuffer := Function.update ring.queueBuffer slot word }
  | .wait resume ticket base pendingWptr =>
    if ring.hostCommittedWptr = base then
      some (ring.setPhase id (.publish resume ticket pendingWptr))
    else some ring
  | .publish resume ticket pendingWptr =>
    some { ring.setPhase id (.ring resume ticket pendingWptr) with queueWritePtr := pendingWptr }
  | .ring resume ticket pendingWptr =>
    some { ring.setPhase id (.advance resume ticket pendingWptr) with doorbell := pendingWptr }
  | .advance resume _ pendingWptr =>
    some { ring.setPhase id (resume.elim .idle .load) with hostCommittedWptr := pendingWptr }

def ahead (dwords : Nat) : List Nat :=
  (List.range dwords).map fun i =>
    ring.queueBuffer ((wrapIntoRing ring.queueReadPtr / 4 + i) % ringDwords)

def step : HostLabel Id format → Option (HostRing Id format)
  | .submit id packets =>
    match ring.threads id with
    | .idle => some (ring.submit id packets).2
    | _ => none
  | .step id spurious => ring.advanceThread id spurious
  | .engine dwords =>
    if 4 * dwords ≤ indexSub ring.queueWritePtr ring.queueReadPtr then
      some { ring with
        queueReadPtr := (ring.queueReadPtr + 4 * dwords) % indexRange
        fetched := ring.fetched ++ ring.ahead dwords }
    else none

end

end HostRing

end RocmXio.Sdma
