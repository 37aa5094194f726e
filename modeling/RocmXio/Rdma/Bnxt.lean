/-
The send queue of the bnxt provider, driven by one lane.

The queue is a ring of 16-byte slots, and a work request takes three. The lane keeps the slot of the
next request (`tail`) and the slot behind the last one known to be completed (`head`), and polls
until three slots are free, `quiet_single` until all are. A completion carries the number of
completed requests modulo `2 ^ 16`.

The hardware completes published requests in order and writes one completion for each into a slot
that was given back. A slot remembers which request was last written to it.
-/

import RocmXio.Lib.ByteStores
import RocmXio.Lib.Ring

namespace RocmXio.Rdma.Bnxt

open Lib

/-! ### Sizing -/

def roundupPow2 (n : Nat) : Nat :=
  if n ≤ 1 then 1
  else
    let n := n - 1
    let n := n ||| n >>> 1
    let n := n ||| n >>> 2
    let n := n ||| n >>> 4
    let n := n ||| n >>> 8
    let n := n ||| n >>> 16
    let n := n ||| n >>> 32
    n + 1

/-- `align_up` for an alignment that is a power of two. -/
def alignUp (value alignment : Nat) : Nat :=
  (value + alignment - 1) % 2 ^ 32 / alignment * alignment

/-- The size of a request in bytes: header, and the data entries or the inline data. -/
def wqeSize (maxSendSge maxInlineData : Nat) : Nat :=
  let size := (16 * maxSendSge + 32) % 2 ^ 32
  if maxInlineData > 0 then
    let inlined := (32 + alignUp maxInlineData 16) % 2 ^ 32
    alignUp (if inlined > size then inlined else size) 16
  else size

/-- `compute_sq`: the number of slots of the send queue, in 32-bit arithmetic. -/
def computeSq (maxSendWr maxSendSge maxInlineData : Nat) : Nat :=
  let requests := roundupPow2 ((maxSendWr + 1 + 128) % 2 ^ 32) % 2 ^ 32
  alignUp (requests * wqeSize maxSendSge maxInlineData % 2 ^ 32 / 16) 256

/-! ### States -/

def slotCount : Nat := 3

/-- A completion: its phase and `con_indx`. -/
structure Cqe where
  phase : Bool := false
  conIndx : Nat := 0
deriving DecidableEq, Repr

/-- A put or get of some length, which was converted to an `int32_t`, with or without a doorbell, or
an atomic operation, which a fetching one follows by a quiet. -/
inductive Op where
  | rma (length : BitVec 32) (isWrite ringDb : Bool)
  | amo (fetching : Bool)
deriving DecidableEq, Repr

/-- Who called `poll_cq_until`. -/
inductive Caller where
  | post (op : Op)
  | quiet
deriving DecidableEq, Repr

/-- Where the lane is, with the local variables of `poll_cq_until`: the position in the completion
queue, the number of polls and whether a completion was taken. In `quieted` a quiet has just
returned. -/
inductive Pc where
  | idle
  | quieted
  | poll (caller : Caller) (cqCons pollCount : Nat) (cqDirty : Bool)
  | write (op : Op)
  | ring (op : Op)
deriving DecidableEq, Repr

structure Qp where
  depth : Nat
  cqDepth : Nat
  inlineThreshold : Nat
  tail : Nat
  head : Nat
  cqHead : Nat
  slots : Nat → Option Nat
  cq : Nat → Cqe
  stopFlag : Bool
  pc : Pc
  posted : Nat
  published : Nat
  done : Nat
  taken : Nat
  acked : Nat

/-- The caller asks for an operation, a quiet or a doorbell, the lane makes one step, the hardware
completes a request, or the host asks to stop. -/
inductive Label where
  | call (op : Op)
  | quiet
  | doorbell
  | lane
  | nic
  | stop
deriving DecidableEq, Repr

/-- `bnxt_create_cqs` makes a completion queue of at least 256 entries. It takes the depth as an
`int`, so that half of all depths are negative to it. -/
def cqDepthFor (cqDepth : Nat) : Nat :=
  if cqDepth < 256 ∨ 2 ^ 31 ≤ cqDepth then 256 else cqDepth

namespace Qp

/-- A queue pair after `bnxt_initialize_gpu_qp`. -/
def create (sqDepth inlineThreshold cqDepth : Nat) : Qp where
  depth := computeSq sqDepth 1 inlineThreshold
  cqDepth := cqDepthFor cqDepth
  inlineThreshold := inlineThreshold
  tail := 0
  head := 0
  cqHead := 0
  slots := fun _ => none
  cq := fun _ => {}
  stopFlag := false
  pc := .idle
  posted := 0
  published := 0
  done := 0
  taken := 0
  acked := 0

/-! ### The lane -/

/-- `available` of `poll_cq_until`, in 32-bit arithmetic. -/
def available (qp : Qp) : Nat :=
  qp.depth - (qp.tail + 2 ^ 32 - qp.head + qp.depth) % 2 ^ 32 % qp.depth

def requested (qp : Qp) : Caller → Nat
  | .post _ => slotCount
  | .quiet => qp.depth

/-- `poll_cq_until` returns to its caller. -/
def proceed (qp : Qp) : Caller → Qp
  | .post op => { qp with pc := .write op }
  | .quiet => { qp with pc := .quieted }

/-- The completion is taken: the head moves to where the completion says. -/
def take (qp : Qp) (caller : Caller) (cqCons pollCount : Nat) : Qp :=
  { qp with
    head := (qp.cq (cqCons % qp.cqDepth)).conIndx * slotCount % 2 ^ 32 % qp.depth
    taken := qp.taken + 1
    pc := .poll caller ((cqCons + 1) % 2 ^ 32) ((pollCount + 1) % 2 ^ 32) true }

/-- One turn of the loop of `poll_cq_until`. Only when the slots are found is the position written
back and are the completions given back. -/
def pollTurn (qp : Qp) (caller : Caller) (cqCons pollCount : Nat) (cqDirty : Bool) : Qp :=
  if qp.stopFlag = true ∧ pollCount % 100 = 0 then qp.proceed caller
  else if qp.available ≥ qp.requested caller then
    if cqDirty then { qp with acked := qp.taken, cqHead := cqCons }.proceed caller
    else qp.proceed caller
  else if (qp.cq (cqCons % qp.cqDepth)).phase = passTag qp.cqDepth cqCons then
    qp.take caller cqCons pollCount
  else { qp with pc := .poll caller cqCons ((pollCount + 1) % 2 ^ 32) cqDirty }

/-- `bnxt_re_get_hwqe`: the slot `index` slots after the tail. -/
def getHwqe (qp : Qp) (index : Nat) : Nat :=
  if index + qp.tail ≥ qp.depth then index + qp.tail - qp.depth else index + qp.tail

/-- `inline_msg`: both sides of the comparison are signed. -/
def inlineMsg (qp : Qp) (length : BitVec 32) (isWrite : Bool) : Bool :=
  decide (length.toInt ≤ (BitVec.ofNat 32 qp.inlineThreshold).toInt) && isWrite

/-- The number of bytes copied into the slot of the data entry, when the data goes into the
request itself. -/
def inlineLength (qp : Qp) : Op → Nat
  | .rma length isWrite _ => if qp.inlineMsg length isWrite then copyCount length else 0
  | .amo _ => 0

/-- The slots behind the data entry that inline data runs over, without turning at the end of
the ring. -/
def overrun (qp : Qp) (op : Op) : List Nat :=
  (List.range ((qp.inlineLength op - 1) / 16)).map fun more => qp.getHwqe 2 + 1 + more

def written (qp : Qp) (op : Op) : List Nat :=
  [qp.getHwqe 0, qp.getHwqe 1, qp.getHwqe 2] ++ qp.overrun op

def incrTail (qp : Qp) : Nat :=
  if qp.tail + slotCount ≥ qp.depth then (qp.tail + slotCount) % qp.depth
  else qp.tail + slotCount

/-- The rest of `write_rma_wqe` and `write_amo_wqe` after the poll. -/
def writeWqe (qp : Qp) (op : Op) : Qp :=
  { qp with
    slots := store qp.slots (qp.written op) (some qp.posted)
    tail := qp.incrTail
    posted := qp.posted + 1
    pc := .ring op }

/-- What follows a written request: the doorbell, and the quiet of a fetching atomic. -/
def finish (qp : Qp) : Op → Qp
  | .rma _ _ ringDb =>
    { qp with published := if ringDb then qp.posted else qp.published, pc := .idle }
  | .amo fetching =>
    { qp with
      published := qp.posted
      pc := if fetching then .poll .quiet qp.cqHead 0 false else .idle }

def lane (qp : Qp) : Option Qp :=
  match qp.pc with
  | .idle | .quieted => none
  | .poll caller cqCons pollCount cqDirty => some (qp.pollTurn caller cqCons pollCount cqDirty)
  | .write op => some (qp.writeWqe op)
  | .ring op => some (qp.finish op)

/-! ### The hardware and the system -/

/-- The completion of request `index`. -/
def completion (cqDepth index : Nat) : Cqe where
  phase := passTag cqDepth index
  conIndx := (index + 1) % 2 ^ 16

def complete (qp : Qp) : Qp :=
  { qp with
    cq := store qp.cq [qp.done % qp.cqDepth] (completion qp.cqDepth qp.done)
    done := qp.done + 1 }

def ready (qp : Qp) : Bool :=
  qp.pc = .idle || qp.pc = .quieted

def step (qp : Qp) : Label → Option Qp
  | .call op =>
    if qp.ready then some { qp with pc := .poll (.post op) qp.cqHead 0 false } else none
  | .quiet => if qp.ready then some { qp with pc := .poll .quiet qp.cqHead 0 false } else none
  | .doorbell => if qp.ready then some { qp with published := qp.posted } else none
  | .lane => qp.lane
  | .nic =>
    if qp.done < qp.published ∧ qp.done < qp.acked + qp.cqDepth then some qp.complete else none
  | .stop => some { qp with stopFlag := true }

end Qp

/-- The default configuration has 2048 slots, the smallest one 768. -/
example : computeSq 256 1 28 = 2048 ∧ computeSq 1 1 0 = 768 := by decide

end RocmXio.Rdma.Bnxt
