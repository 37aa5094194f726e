/-
The send queue of the ionic provider in ring mode, driven by one lane.

A post reserves the next position, waits until the request in its slot is completed, writes the
request with the color of its pass and rings the doorbell. A completion carries the number of
completed messages in 24 bits, compared by the sign bit of a 24-bit difference: the positions are
never further apart than the queue is deep.

A stop request makes the wait return at once, so that a quiet returns early and a post writes into a
slot in use. Hardware that goes around a completion queue shallower than the send queue is not
noticed: a completion is recognised by its color alone. And the data of a put that is no longer than
a threshold is copied into the request, over the slots behind it if there is more than 32 bytes.
-/

import RocmXio.Lib.ByteStores
import RocmXio.Lib.Mask
import RocmXio.Lib.Ring

namespace RocmXio.Rdma.Ionic

open Lib

/-! ### States -/

/-- What decides about the data of `post_wqe_rma_single`: the number of bytes, which was converted
to an `int32_t`, whether they are written or read, and whether there is a buffer. -/
structure Rma where
  size : BitVec 32
  isWrite : Bool
  buffered : Bool
deriving DecidableEq, Repr

/-- The number of bytes copied into the request itself. Without a buffer it is one; both sides of
the comparison are signed. -/
def Rma.inlineLength (rma : Rma) (inlineThreshold : BitVec 32) : Nat :=
  let size := if rma.size ≠ 0 ∧ rma.buffered = false ∧ rma.isWrite = true then 1 else rma.size
  if rma.isWrite = true ∧ size.toInt ≤ inlineThreshold.toInt then copyCount size else 0

/-- A request: its number, the position written into it and its color. -/
structure Wqe where
  number : Nat
  wqeIdx : Nat
  color : Bool
deriving DecidableEq, Repr

/-- A completion: its number, its color, and the count of completed messages. -/
structure Cqe where
  number : Nat := 0
  color : Bool := false
  msn : Nat := 0
deriving DecidableEq, Repr

/-- Who waits: a post with the position it has reserved, or a quiet. -/
inductive Caller where
  | post (rma : Rma) (mySqProd : Nat)
  | quiet
deriving DecidableEq, Repr

/-- Where the lane is. `outer` and `inner` are the loops of `quiet_internal`. -/
inductive Pc where
  | idle
  | outer (caller : Caller) (cons : Nat)
  | inner (caller : Caller) (cons innerCount greed : Nat)
  | write (rma : Rma) (mySqProd : Nat)
  | commit (mySqProd : Nat)
  | quieted
deriving DecidableEq, Repr

/-- The queue pair, the hardware and the history of both: the doorbell positions, the numbers of the
completions consumed, and the counts of requests written, published and completed. -/
structure Qp where
  sqDepth : Nat
  cqDepth : Nat
  inlineThreshold : BitVec 32
  sqProd : Nat
  sqDbprod : Nat
  sqMsn : Nat
  cqPos : Nat
  cqDbpos : Nat
  sqDbreg : Nat
  cqDbreg : Nat
  stopFlag : Bool
  slots : Nat → Option Wqe
  cq : Nat → Cqe
  pc : Pc
  written : Nat
  published : Nat
  done : Nat
  rung : List Nat
  consumed : List Nat

inductive Label where
  | post (rma : Rma)
  | quiet
  | lane
  | nic
  | stop
deriving DecidableEq, Repr

namespace Qp

def create (sqDepth cqDepth : Nat) (inlineThreshold : BitVec 32) : Qp where
  sqDepth := sqDepth
  cqDepth := cqDepth
  inlineThreshold := inlineThreshold
  sqProd := 0
  sqDbprod := 0
  sqMsn := 0
  cqPos := 0
  cqDbpos := 0
  sqDbreg := 0
  cqDbreg := 0
  stopFlag := false
  slots := fun _ => none
  cq := fun _ => {}
  pc := .idle
  written := 0
  published := 0
  done := 0
  rung := []
  consumed := []

def sqMask (qp : Qp) : Nat :=
  qp.sqDepth - 1

def cqMask (qp : Qp) : Nat :=
  qp.cqDepth - 1

/-! ### Waiting -/

/-- The completed messages are behind a position, by the sign of a 24-bit difference. -/
def behind (sqMsn cons : Nat) : Bool :=
  decide ((sqMsn + 2 ^ 32 - cons) % 2 ^ 32 &&& 2 ^ 23 ≠ 0)

def currentCqe (qp : Qp) : Cqe :=
  qp.cq (qp.cqPos &&& qp.cqMask)

/-- The completion queue's doorbell is rung when a hundred completions were consumed. -/
def ringCqDoorbell (qp : Qp) : Qp :=
  if 100 ≤ (qp.cqPos + 2 ^ 32 - qp.cqDbpos) % 2 ^ 32 &&& qp.cqMask then
    { qp with
      cqDbpos := qp.cqPos
      cqDbreg := qp.cqMask &&& qp.cqPos }
  else qp

def consume (qp : Qp) : Qp :=
  let cqe := qp.currentCqe
  { { qp with
      cqPos := (qp.cqPos + 1) % 2 ^ 32
      consumed := qp.consumed ++ [cqe.number] }.ringCqDoorbell with
    sqMsn := cqe.msn }

/-- `poll_wave_cqes` with one active lane. -/
def pollWaveCqes (qp : Qp) : Qp :=
  if qp.currentCqe.color = decide (qp.cqPos &&& (qp.cqMask + 1) = 0) then qp.consume else qp

/-- `quiet_internal` returns to its caller. -/
def proceed (qp : Qp) : Caller → Qp
  | .post rma mySqProd => { qp with pc := .write rma mySqProd }
  | .quiet => { qp with pc := .quieted }

/-- One turn of the outer loop, in which one lane always gets the lock. -/
def outerTurn (qp : Qp) (caller : Caller) (cons : Nat) : Qp :=
  if behind qp.sqMsn cons = false then qp.proceed caller
  else if qp.stopFlag then qp.proceed caller
  else { qp with pc := .inner caller cons 0 10 }

/-- The end of a turn of the inner loop: it is left when the wait is over, unless the last
completion was new and there is greed left. -/
def innerEnd (qp : Qp) (oldSqMsn : Nat) (caller : Caller) (cons innerCount greed : Nat) : Qp :=
  if behind qp.sqMsn cons = false then
    if qp.sqMsn = oldSqMsn then qp.proceed caller
    else if greed = 0 then qp.proceed caller
    else { qp with pc := .inner caller cons innerCount (greed - 1) }
  else { qp with pc := .inner caller cons innerCount greed }

def innerTurn (qp : Qp) (caller : Caller) (cons innerCount greed : Nat) : Qp :=
  if behind qp.sqMsn cons = false then qp.proceed caller
  else if innerCount % 100 = 0 ∧ qp.stopFlag then qp.proceed caller
  else qp.pollWaveCqes.innerEnd qp.sqMsn caller cons ((innerCount + 1) % 2 ^ 32) greed

/-! ### Posting -/

/-- `reserve_sq_single` up to the wait. -/
def reserveSqSingle (qp : Qp) (rma : Rma) : Qp :=
  { qp with
    sqProd := (qp.sqProd + 1) % 2 ^ 32
    pc := .outer (.post rma qp.sqProd) ((qp.sqProd + 1 + 2 ^ 32 - qp.sqMask) % 2 ^ 32) }

/-- The slot of a request and those behind it that inline data runs over, without turning at the end
of the ring: the data starts in the middle of the 64 bytes of a slot. -/
def touched (qp : Qp) (rma : Rma) (slot : Nat) : List Nat :=
  slot :: (List.range ((rma.inlineLength qp.inlineThreshold + 31) / 64)).map fun more =>
    slot + 1 + more

def writeWqe (qp : Qp) (rma : Rma) (mySqProd : Nat) : Qp :=
  { qp with
    slots := store qp.slots (qp.touched rma (mySqProd &&& qp.sqMask)) (some
      { number := qp.written
        wqeIdx := mySqProd
        color := decide (mySqProd &&& (qp.sqMask + 1) = 0) })
    written := qp.written + 1
    pc := .commit mySqProd }

def commitSqSingle (qp : Qp) (mySqProd : Nat) : Qp :=
  let dbprod := (mySqProd + 1) % 2 ^ 32
  if (qp.sqDbprod + 2 ^ 32 - dbprod) % 2 ^ 32 &&& 2 ^ 31 ≠ 0 then
    { qp with
      sqDbprod := dbprod
      sqDbreg := qp.sqMask &&& dbprod
      published := qp.written
      rung := qp.rung ++ [dbprod]
      pc := .idle }
  else { qp with pc := .idle }

def ready (qp : Qp) : Bool :=
  match qp.pc with
  | .idle | .quieted => true
  | .outer _ _ | .inner _ _ _ _ | .write _ _ | .commit _ => false

/-! ### The hardware and the system -/

/-- The completion of request `index`. -/
def completion (cqDepth index : Nat) : Cqe where
  number := index
  color := passTag cqDepth index
  msn := (index + 1) % 2 ^ 24

def complete (qp : Qp) : Qp :=
  { qp with
    cq := store qp.cq [qp.done % qp.cqDepth] (completion qp.cqDepth qp.done)
    done := qp.done + 1 }

def step (qp : Qp) : Label → Option Qp
  | .post rma => if qp.ready then some (qp.reserveSqSingle rma) else none
  | .quiet => if qp.ready then some { qp with pc := .outer .quiet qp.sqProd } else none
  | .lane =>
    match qp.pc with
    | .outer caller cons => some (qp.outerTurn caller cons)
    | .inner caller cons innerCount greed => some (qp.innerTurn caller cons innerCount greed)
    | .write rma mySqProd => some (qp.writeWqe rma mySqProd)
    | .commit mySqProd => some (qp.commitSqSingle mySqProd)
    | .idle | .quieted => none
  | .nic => if qp.done < qp.published then some qp.complete else none
  | .stop => some { qp with stopFlag := true }

/-! ### The property -/

/-- Request `number` as it is written: the position in 32 bits and the color of its pass. -/
def request (sqDepth number : Nat) : Wqe where
  number := number
  wqeIdx := number % 2 ^ 32
  color := passTag sqDepth number

/-- No request is overwritten before it is completed, and each has the color of its pass; the
doorbell moves forward by one request at a time; the completions are consumed in order, each once;
and a quiet that has returned has waited for all requests. -/
structure FlowControlled (qp : Qp) : Prop where
  intact : Holds qp.sqDepth 1 qp.done qp.written (some ∘ request qp.sqDepth) qp.slots
  forward : qp.rung = (List.range qp.published).map fun number => (number + 1) % 2 ^ 32
  once : qp.consumed = List.range qp.consumed.length ∧ qp.consumed.length ≤ qp.done
  quiet : qp.pc = .quieted → qp.done = qp.written

/-- A wait does not end for a stop request, the hardware writes a completion only over one that was
consumed, and inline data fits its request. -/
def Careful (qp : Qp) : Label → Prop
  | .lane =>
    match qp.pc with
    | .outer _ _ => qp.stopFlag = false
    | .inner _ _ innerCount _ => ¬ (innerCount % 100 = 0 ∧ qp.stopFlag = true)
    | .idle | .write _ _ | .commit _ | .quieted => True
  | .nic => qp.done < qp.consumed.length + qp.cqDepth
  | .post rma => rma.inlineLength qp.inlineThreshold ≤ 32
  | .quiet | .stop => True

instance Careful.decidable (qp : Qp) : ∀ label, Decidable (qp.Careful label)
  | .lane => by
    unfold Careful
    cases qp.pc <;> infer_instance
  | .nic => inferInstanceAs (Decidable (_ < _))
  | .post _ => inferInstanceAs (Decidable (_ ≤ _))
  | .quiet | .stop => inferInstanceAs (Decidable True)

end Qp

end RocmXio.Rdma.Ionic
