/-
The exchange of connection data over TCP.

Two peers call `exchange_info` and `tcp_sync` in the same order. Each call sends a message of a
fixed size with `tcp_send_all` and then receives one with `tcp_recv_all`; both loop over system
calls that may move fewer bytes, be interrupted or fail. A peer may close its end at any time: what
it sent before can still be read, and what is sent to it afterwards resets the connection.

`send` is called without `MSG_NOSIGNAL`, so on a connection that was reset `SIGPIPE` ends a process
that does not ignore it. Otherwise the protocol keeps its promises: success means the message of the
matching call, a barrier is left only after the other peer has come to it, and a call whose message
is never completed fails.
-/

import RocmXio.Lib.ByteStores
import RocmXio.Lib.Framing
import RocmXio.Lib.Run

namespace RocmXio.TcpExchange

open Lib

/-! ### Messages -/

inductive Side where
  | server
  | client
deriving DecidableEq, Repr

def Side.peer : Side → Side
  | server => client
  | client => server

@[simp] theorem Side.peer_peer (side : Side) : side.peer.peer = side := by
  cases side <;> rfl

@[simp] theorem Side.peer_ne (side : Side) : side.peer ≠ side := by
  cases side <;> decide

@[simp] theorem Side.ne_peer (side : Side) : side ≠ side.peer := side.peer_ne.symm

theorem Side.eq_or_eq_peer (side other : Side) : other = side ∨ other = side.peer := by
  cases side <;> cases other <;> decide

structure ExchangeMsg where
  qpn : UInt32
  rkey : UInt32
  lid : UInt16
  pad : UInt16
  remoteAddr : UInt64
  gid : Vector UInt8 16
deriving DecidableEq, Repr

/-- The structure in memory: packed, the lowest byte of each number first. -/
def ExchangeMsg.bytes (msg : ExchangeMsg) : List UInt8 :=
  leBytes 4 msg.qpn.toNat ++ (leBytes 4 msg.rkey.toNat ++ (leBytes 2 msg.lid.toNat ++
    (leBytes 2 msg.pad.toNat ++ (leBytes 8 msg.remoteAddr.toNat ++ msg.gid.toList))))

/-- `sizeof(ExchangeMsg)`. -/
def ExchangeMsg.size : Nat := 36

def ExchangeMsg.ofBytes (bytes : List UInt8) : ExchangeMsg where
  qpn := UInt32.ofNat (leValue (bytes.take 4))
  rkey := UInt32.ofNat (leValue ((bytes.drop 4).take 4))
  lid := UInt16.ofNat (leValue ((bytes.drop 8).take 2))
  pad := UInt16.ofNat (leValue ((bytes.drop 10).take 2))
  remoteAddr := UInt64.ofNat (leValue ((bytes.drop 12).take 8))
  gid := Vector.ofFn fun index => bytes.getD (20 + index) 0

theorem ExchangeMsg.length_bytes (msg : ExchangeMsg) : msg.bytes.length = size := by
  simp [bytes, size]

theorem take_field {bytes rest : List UInt8} {start width value : Nat}
    (there : bytes.drop start = leBytes width value ++ rest) :
    (bytes.drop start).take width = leBytes width value := by
  rw [there, List.take_left' (length_leBytes width value)]

theorem drop_field {bytes rest : List UInt8} {start width value next : Nat}
    (there : bytes.drop start = leBytes width value ++ rest) (after : start + width = next) :
    bytes.drop next = rest := by
  rw [← after, ← List.drop_drop, there, List.drop_left' (length_leBytes width value)]

theorem ExchangeMsg.ofBytes_bytes (msg : ExchangeMsg) : ofBytes msg.bytes = msg := by
  have atQpn : msg.bytes.drop 0 = leBytes 4 msg.qpn.toNat ++ _ := rfl
  have atRkey := drop_field atQpn (show 0 + 4 = 4 from rfl)
  have atLid := drop_field atRkey (show 4 + 4 = 8 from rfl)
  have atPad := drop_field atLid (show 8 + 2 = 10 from rfl)
  have atAddr := drop_field atPad (show 10 + 2 = 12 from rfl)
  have atGid := drop_field atAddr (show 12 + 8 = 20 from rfl)
  have gid : (Vector.ofFn fun index : Fin 16 => msg.bytes.getD (20 + index) 0) = msg.gid := by
    refine Vector.ext fun index inside => ?_
    rw [Vector.getElem_ofFn, List.getD_eq_getElem?_getD, ← List.getElem?_drop, atGid,
      Vector.getElem?_toList, Vector.getElem?_eq_getElem inside, Option.getD_some]
  have qpn := take_field atQpn
  rw [List.drop_zero] at qpn
  rw [ofBytes, qpn, take_field atRkey, take_field atLid, take_field atPad, take_field atAddr, gid,
    leValue_leBytes msg.qpn.toNat_lt, leValue_leBytes msg.rkey.toNat_lt,
    leValue_leBytes msg.lid.toNat_lt, leValue_leBytes msg.pad.toNat_lt,
    leValue_leBytes msg.remoteAddr.toNat_lt]
  simp only [UInt32.ofNat_toNat, UInt16.ofNat_toNat, UInt64.ofNat_toNat]

/-- A call that both peers make: `exchange_info`, each with its own structure, or
`tcp_sync`. -/
inductive Round where
  | exchangeInfo (own : Side → ExchangeMsg)
  | tcpSync

def Round.message (round : Round) (side : Side) : List UInt8 :=
  match round with
  | exchangeInfo own => (own side).bytes
  | tcpSync => [1]

def Round.size : Round → Nat
  | exchangeInfo _ => ExchangeMsg.size
  | tcpSync => 1

theorem Round.length_message (round : Round) (side : Side) :
    (round.message side).length = round.size := by
  cases round with
  | exchangeInfo own => exact (own side).length_bytes
  | tcpSync => rfl

theorem Round.size_pos : ∀ round : Round, 0 < round.size
  | exchangeInfo _ => show 0 < ExchangeMsg.size by decide
  | tcpSync => Nat.one_pos

def Round.isSync : Round → Bool
  | exchangeInfo _ => false
  | tcpSync => true

/-! ### The peers and the connection -/

/-- What `send` and `recv` return: a number of bytes, zero, or an error. -/
inductive Outcome where
  | moved (count : Nat)
  | zero
  | interrupted
  | brokenPipe
  | error
deriving DecidableEq, Repr

/-- A byte in a stream. The stream carries the value; which call has sent it is noted beside
it. -/
structure WireByte where
  call : Nat
  value : UInt8
deriving DecidableEq, Repr

/-- Where a peer is: between calls, sending with the bytes that are left, receiving with the bytes
that have come, after a call that returned `-1`, or ended by the signal. -/
inductive Pc where
  | idle
  | sending (rest : List UInt8)
  | receiving (buffer : List WireByte)
  | failed
  | killed
deriving DecidableEq, Repr

/-- A peer: the calls it has entered, what those that returned `0` have received, what it has put
into its stream, and how many bytes it has taken out of the other. -/
structure Peer where
  pc : Pc := .idle
  entered : Nat := 0
  received : List (List WireByte) := []
  sent : List WireByte := []
  taken : Nat := 0
  closed : Bool := false

abbrev Link : Type := Side → Peer

def start : Link := fun _ => {}

def Peer.enter (peer : Peer) (message : List UInt8) : Peer :=
  { peer with pc := .sending message, entered := peer.entered + 1 }

/-- The loop of `tcp_send_all` after a `send`. -/
def Peer.afterSend (peer : Peer) (ignored : Bool) (rest : List UInt8) : Outcome → Peer
  | .moved count =>
    { peer with
      pc := if count < rest.length then .sending (rest.drop count) else .receiving []
      sent := peer.sent ++ (rest.take count).map (WireByte.mk (peer.entered - 1)) }
  | .interrupted => peer
  | .brokenPipe => { peer with pc := if ignored then .failed else .killed }
  | .zero | .error => { peer with pc := .failed }

/-- The bytes that a `recv` adds to the buffer. -/
def Peer.extend (peer : Peer) (stream buffer : List WireByte) (count : Nat) : List WireByte :=
  buffer ++ (stream.drop peer.taken).take count

/-- The loop of `tcp_recv_all` after a `recv`. -/
def Peer.afterRecv (peer : Peer) (size : Nat) (stream buffer : List WireByte) : Outcome → Peer
  | .moved count =>
    if buffer.length + count < size then
      { peer with
        pc := .receiving (peer.extend stream buffer count)
        taken := peer.taken + count }
    else
      { peer with
        pc := .idle
        received := peer.received ++ [peer.extend stream buffer count]
        taken := peer.taken + count }
  | .interrupted => peer
  | .zero | .brokenPipe | .error => { peer with pc := .failed }

/-- What a connection may answer to a `send`. It is reset when the other end is closed and did
not read everything. -/
def SendPossible (peer other : Peer) (rest : List UInt8) : Outcome → Prop
  | .moved count => 0 < count ∧ count ≤ rest.length
  | .brokenPipe => other.closed = true ∧ other.taken < peer.sent.length
  | .zero | .interrupted | .error => True

/-- What a connection may answer to a `recv`: bytes that are there and fit, and zero when there
will be no more. -/
def RecvPossible (peer other : Peer) (missing : Nat) : Outcome → Prop
  | .moved count => 0 < count ∧ count ≤ missing ∧ peer.taken + count ≤ other.sent.length
  | .zero => other.closed = true ∧ peer.taken = other.sent.length
  | .brokenPipe => False
  | .interrupted | .error => True

instance SendPossible.decidable (peer other : Peer) (rest : List UInt8) :
    ∀ outcome, Decidable (SendPossible peer other rest outcome)
  | .moved _ | .brokenPipe => inferInstanceAs (Decidable (_ ∧ _))
  | .zero | .interrupted | .error => inferInstanceAs (Decidable True)

instance RecvPossible.decidable (peer other : Peer) (missing : Nat) :
    ∀ outcome, Decidable (RecvPossible peer other missing outcome)
  | .moved _ => inferInstanceAs (Decidable (_ ∧ _ ∧ _))
  | .zero => inferInstanceAs (Decidable (_ ∧ _))
  | .brokenPipe => inferInstanceAs (Decidable False)
  | .interrupted | .error => inferInstanceAs (Decidable True)

/-- What a peer does: enter the next call, one system call, or close its end. -/
inductive Action where
  | enter
  | send (outcome : Outcome)
  | recv (outcome : Outcome)
  | close
deriving DecidableEq, Repr

def Peer.move (ignored : Bool) (rounds : List Round) (side : Side) (peer other : Peer) :
    Action → Option Peer
  | .enter =>
    match peer.pc, rounds[peer.entered]? with
    | .idle, some round => some (peer.enter (round.message side))
    | _, _ => none
  | .send outcome =>
    match peer.pc with
    | .sending rest =>
      if SendPossible peer other rest outcome then some (peer.afterSend ignored rest outcome)
      else none
    | _ => none
  | .recv outcome =>
    match peer.pc, rounds[peer.entered - 1]? with
    | .receiving buffer, some round =>
      if RecvPossible peer other (round.size - buffer.length) outcome then
        some (peer.afterRecv round.size other.sent buffer outcome)
      else none
    | _, _ => none
  | .close => some { peer with closed := true }

structure Label where
  side : Side
  action : Action
deriving DecidableEq, Repr

/-- One step: a peer that has not closed its end moves. `ignored` says who ignores `SIGPIPE`. -/
def step (ignored : Side → Bool) (rounds : List Round) (link : Link) (label : Label) :
    Option Link :=
  if (link label.side).closed then none
  else match (link label.side).move (ignored label.side) rounds label.side
      (link label.side.peer) label.action with
    | none => none
    | some peer => some (Function.update link label.side peer)

/-! ### The property -/

/-- What the calls of a peer have received, with the one that is receiving. -/
def Peer.buffers (peer : Peer) : List (List WireByte) :=
  match peer.pc with
  | .receiving buffer => peer.received ++ [buffer]
  | .idle | .sending _ | .failed | .killed => peer.received

def Pc.InCall : Pc → Prop
  | .sending _ | .receiving _ => True
  | .idle | .failed | .killed => False

def messages (rounds : List Round) (side : Side) : List (List WireByte) :=
  rounds.mapIdx fun index round => (round.message side).map (WireByte.mk index)

/-- The other end was closed before the message that the peer's call waits for was sent in full. -/
structure Cut (rounds : List Round) (link : Link) (side : Side) : Prop where
  inCall : (link side).pc.InCall
  closed : (link side.peer).closed = true
  short : (link side.peer).sent.length <
    offset (messages rounds side.peer) ((link side).received.length + 1)

def Action.completes : Action → Bool
  | .send outcome | .recv outcome => outcome != .interrupted
  | .enter | .close => false

/-- The peer does not block: bytes can be moved, or the end of the stream is seen. -/
def Ready (ignored : Side → Bool) (rounds : List Round) (link : Link) (side : Side) : Prop :=
  ∃ action, (action = .recv .zero ∨ ∃ count, action = .send (.moved count) ∨
      action = .recv (.moved count)) ∧ (step ignored rounds link ⟨side, action⟩).isSome

/-- The call reports a failure: it does not return success however the run goes on, it can always go
on until it has failed unless the process closes the connection itself, and it makes a bounded
number of uninterrupted system calls. -/
def Fails (ignored : Side → Bool) (rounds : List Round) (link : Link) (side : Side) : Prop :=
  ∃ bound, ∀ labels next, run (step ignored rounds) link labels = some next →
    (next side).received = (link side).received ∧
      ((next side).pc = .failed ∨ (next side).closed = true ∨ Ready ignored rounds next side) ∧
      labels.countP (fun label => label.side == side && label.action.completes) ≤ bound

/-- A call that returned success has received the structure of the matching call, every byte is
received in the match of the call that sent it, no more barriers are left than the other peer has
come to, no process is ended, and a call fails if the other end is closed before its message is
sent. -/
structure Correct (ignored : Side → Bool) (rounds : List Round) (link : Link) : Prop where
  matched : ∀ (side : Side) (index : Nat) (own : Side → ExchangeMsg) (buffer : List WireByte),
    rounds[index]? = some (.exchangeInfo own) → (link side).received[index]? = some buffer →
      ExchangeMsg.ofBytes (buffer.map WireByte.value) = own side.peer
  framed : ∀ (side : Side) (index : Nat) (buffer : List WireByte),
    (link side).buffers[index]? = some buffer → ∀ byte ∈ buffer, byte.call = index
  barrier : ∀ side, (rounds.take (link side).received.length).countP Round.isSync ≤
    (rounds.take (link side.peer).entered).countP Round.isSync
  reported : ∀ side, (link side).pc ≠ .killed
  cut : ∀ side, Cut rounds link side → Fails ignored rounds link side

/-! ### What a step does -/

inductive Moves (ignored : Bool) (rounds : List Round) (side : Side) (peer other : Peer) :
    Action → Peer → Prop
  | enter {round : Round} (idle : peer.pc = .idle) (next : rounds[peer.entered]? = some round) :
      Moves ignored rounds side peer other .enter (peer.enter (round.message side))
  | send {outcome : Outcome} {rest : List UInt8} (sending : peer.pc = .sending rest)
      (possible : SendPossible peer other rest outcome) :
      Moves ignored rounds side peer other (.send outcome) (peer.afterSend ignored rest outcome)
  | recv {outcome : Outcome} {buffer : List WireByte} {round : Round}
      (receiving : peer.pc = .receiving buffer) (this : rounds[peer.entered - 1]? = some round)
      (possible : RecvPossible peer other (round.size - buffer.length) outcome) :
      Moves ignored rounds side peer other (.recv outcome)
        (peer.afterRecv round.size other.sent buffer outcome)
  | close : Moves ignored rounds side peer other .close { peer with closed := true }

theorem Peer.moves {ignored : Bool} {rounds : List Round} {side : Side} {peer other next : Peer}
    {action : Action} (move : peer.move ignored rounds side other action = some next) :
    Moves ignored rounds side peer other action next := by
  cases action with
  | enter =>
    simp only [Peer.move] at move
    split at move
    case h_1 round idle found =>
      cases move
      exact .enter idle found
    case h_2 => cases move
  | send outcome =>
    simp only [Peer.move] at move
    split at move
    case h_1 rest sending =>
      obtain ⟨possible, ⟨⟩⟩ := Option.ite_none_right_eq_some.mp move
      exact .send sending possible
    case h_2 => cases move
  | recv outcome =>
    simp only [Peer.move] at move
    split at move
    case h_1 buffer round receiving found =>
      obtain ⟨possible, ⟨⟩⟩ := Option.ite_none_right_eq_some.mp move
      exact .recv receiving found possible
    case h_2 => cases move
  | close =>
    cases move
    exact .close

theorem step_moves {ignored : Side → Bool} {rounds : List Round} {link next : Link}
    {label : Label} (move : step ignored rounds link label = some next) :
    (link label.side).closed = false ∧ ∃ peer, next = Function.update link label.side peer ∧
      Moves (ignored label.side) rounds label.side (link label.side) (link label.side.peer)
        label.action peer := by
  obtain ⟨isOpen, move⟩ := Option.ite_none_left_eq_some.mp move
  refine ⟨Bool.eq_false_iff.mpr isOpen, ?_⟩
  split at move
  case h_1 => cases move
  case h_2 peer moved =>
    cases move
    exact ⟨peer, rfl, Peer.moves moved⟩

end RocmXio.TcpExchange
