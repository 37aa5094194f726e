/-
What the exchange over TCP keeps in every run.

Each peer has sent a prefix of the messages of the calls that it has entered, and has taken from the
other stream the messages of the calls that have returned and a part of the next one. A call whose
message is cut off runs out of bytes and sees the end of the stream, unless the signal comes first,
which it can in every sequence of calls but the empty one and a single `tcp_sync`.
-/

import RocmXio.Common.TcpExchange

namespace RocmXio.TcpExchange

open Lib Function

/-! ### The streams -/

section

variable {rounds : List Round} {side : Side}

theorem length_messages : (messages rounds side).length = rounds.length := List.length_mapIdx

variable {index : Nat} {round : Round}

theorem getElem?_messages (there : rounds[index]? = some round) :
    (messages rounds side)[index]? = some ((round.message side).map (WireByte.mk index)) := by
  rw [messages, List.getElem?_mapIdx, there, Option.map_some]

theorem length_message (round : Round) (index : Nat) :
    ((round.message side).map (WireByte.mk index)).length = round.size := by
  rw [List.length_map, Round.length_message]

theorem length_of_getElem? {message : List WireByte} (there : rounds[index]? = some round)
    (known : (messages rounds side)[index]? = some message) : message.length = round.size := by
  obtain rfl := Option.some.inj (known.symm.trans (getElem?_messages there))
  exact length_message round index

theorem messages_ne_nil : ∀ message ∈ messages rounds side, message ≠ [] := by
  intro message member
  obtain ⟨index, inside, rfl⟩ := List.mem_mapIdx.mp member
  refine List.ne_nil_of_length_pos ?_
  rw [length_message]
  exact Round.size_pos _

end

/-! ### One peer -/

/-- What holds at each place of a peer: what it has sent, and what it has taken. -/
def Place (rounds : List Round) (side : Side) (peer : Peer) : Prop :=
  match peer.pc with
  | .idle => peer.entered = peer.received.length ∧
      peer.sent = ((messages rounds side).take peer.entered).flatten ∧
      peer.taken = offset (messages rounds side.peer) peer.received.length
  | .sending rest => rest ≠ [] ∧ peer.entered = peer.received.length + 1 ∧
      peer.sent ++ rest.map (WireByte.mk (peer.entered - 1)) =
        ((messages rounds side).take peer.entered).flatten ∧
      peer.taken = offset (messages rounds side.peer) peer.received.length
  | .receiving buffer => peer.entered = peer.received.length + 1 ∧
      peer.sent = ((messages rounds side).take peer.entered).flatten ∧
      peer.taken = offset (messages rounds side.peer) peer.received.length + buffer.length ∧
      ∃ message, (messages rounds side.peer)[peer.received.length]? = some message ∧
        buffer <+: message ∧ buffer.length < message.length
  | .failed | .killed => peer.entered = peer.received.length + 1 ∧
      peer.sent <+: ((messages rounds side).take peer.entered).flatten ∧
      offset (messages rounds side.peer) peer.received.length ≤ peer.taken

structure Own (rounds : List Round) (side : Side) (peer : Peer) : Prop where
  place : Place rounds side peer
  results : peer.received = (messages rounds side.peer).take peer.received.length
  within : peer.entered ≤ rounds.length

section

variable {ignored : Bool} {rounds : List Round} {side : Side} {peer other next : Peer}

section

variable (own : Own rounds side peer)
include own

theorem Own.sent_isPrefix : peer.sent <+: ((messages rounds side).take peer.entered).flatten := by
  have place := own.place
  cases there : peer.pc <;> simp only [Place, there] at place
  case idle => exact place.2.1 ▸ List.prefix_refl _
  case sending => exact ⟨_, place.2.2.1⟩
  case receiving => exact place.2.1 ▸ List.prefix_refl _
  all_goals exact place.2.1

theorem Own.offset_le : offset (messages rounds side.peer) peer.received.length ≤ peer.taken := by
  have place := own.place
  cases there : peer.pc <;> simp only [Place, there] at place
  case idle => exact place.2.2.ge
  case sending => exact place.2.2.2.ge
  case receiving => exact place.2.2.1 ▸ Nat.le_add_right _ _
  all_goals exact place.2.2

theorem Own.received_le : peer.received.length ≤ rounds.length := by
  have within := own.within
  have place := own.place
  cases there : peer.pc <;> simp only [Place, there] at place
  case idle => exact place.1 ▸ within
  case sending => omega
  all_goals omega

theorem Own.stop (entered : peer.entered = peer.received.length + 1) {pc : Pc}
    (stopped : pc = .failed ∨ pc = .killed) : Own rounds side { peer with pc := pc } := by
  refine ⟨?_, own.results, own.within⟩
  rcases stopped with rfl | rfl <;> exact ⟨entered, own.sent_isPrefix, own.offset_le⟩

end

variable {round : Round}

theorem Own.enter (own : Own rounds side peer) (idle : peer.pc = .idle)
    (this : rounds[peer.entered]? = some round) :
    Own rounds side (peer.enter (round.message side)) := by
  have place := own.place
  simp only [Place, idle] at place
  obtain ⟨entered, sent, taken⟩ := place
  obtain ⟨inside, -⟩ := List.getElem?_eq_some_iff.mp this
  refine ⟨⟨?_, congrArg (· + 1) entered, ?_, taken⟩, own.results, inside⟩
  · refine List.ne_nil_of_length_pos ?_
    rw [Round.length_message]
    exact round.size_pos
  · show peer.sent ++ (round.message side).map (WireByte.mk (peer.entered + 1 - 1)) = _
    rw [Nat.add_sub_cancel, sent]
    exact (flatten_take_succ (getElem?_messages this)).symm

variable {outcome : Outcome}

theorem Own.afterSend {rest : List UInt8} (own : Own rounds side peer)
    (sending : peer.pc = .sending rest) (possible : SendPossible peer other rest outcome) :
    Own rounds side (peer.afterSend ignored rest outcome) := by
  have place := own.place
  simp only [Place, sending] at place
  obtain ⟨-, entered, sent, taken⟩ := place
  cases outcome with
  | moved count =>
    obtain ⟨-, most⟩ := possible
    by_cases more : count < rest.length
    · have left : rest.drop count ≠ [] := by
        rw [Ne, List.drop_eq_nil_iff]
        omega
      have whole : peer.sent ++ (rest.take count).map (WireByte.mk (peer.entered - 1)) ++
          (rest.drop count).map (WireByte.mk (peer.entered - 1)) =
            ((messages rounds side).take peer.entered).flatten := by
        rw [List.append_assoc, ← List.map_append, List.take_append_drop, sent]
      rw [Peer.afterSend, if_pos more]
      exact ⟨⟨left, entered, whole, taken⟩, own.results, own.within⟩
    · have all : rest.take count = rest := List.take_of_length_le (Nat.le_of_not_lt more)
      rw [Peer.afterSend, if_neg more, all, sent]
      have inside : peer.received.length < rounds.length := entered.ge.trans own.within
      refine ⟨⟨entered, rfl, taken, _, getElem?_messages (List.getElem?_eq_getElem inside),
        List.nil_prefix, ?_⟩, own.results, own.within⟩
      rw [length_message]
      exact Round.size_pos _
  | interrupted => exact own
  | zero | error => exact own.stop entered (.inl rfl)
  | brokenPipe =>
    refine own.stop entered ?_
    cases ignored
    · exact .inr rfl
    · exact .inl rfl

/-- Bytes that are received go on with the message of the matching call; the last of them
complete it. -/
theorem Own.afterRecv {buffer : List WireByte} (own : Own rounds side peer)
    (receiving : peer.pc = .receiving buffer) (this : rounds[peer.entered - 1]? = some round)
    (stream : other.sent <+: (messages rounds side.peer).flatten)
    (possible : RecvPossible peer other (round.size - buffer.length) outcome) :
    Own rounds side (peer.afterRecv round.size other.sent buffer outcome) := by
  have place := own.place
  simp only [Place, receiving] at place
  obtain ⟨entered, sent, taken, message, there, started, unfinished⟩ := place
  have size : message.length = round.size := by
    rw [entered, Nat.add_sub_cancel] at this
    exact length_of_getElem? this there
  cases outcome with
  | moved count =>
    obtain ⟨-, most, available⟩ := possible
    have continued : peer.extend other.sent buffer count <+: message := by
      rw [Peer.extend, taken]
      exact append_drop_take_prefix stream there started (by omega)
    have length : (peer.extend other.sent buffer count).length = buffer.length + count := by
      rw [Peer.extend, List.length_append, List.length_take, List.length_drop]
      omega
    by_cases more : buffer.length + count < round.size
    · rw [Peer.afterRecv, if_pos more]
      refine ⟨⟨entered, sent, ?_, message, there, continued, ?_⟩, own.results, own.within⟩
      · rw [length, taken, Nat.add_assoc]
      · rw [length, size]
        exact more
    · have complete : peer.extend other.sent buffer count = message :=
        continued.eq_of_length (by omega)
      have results : peer.received ++ [message] =
          (messages rounds side.peer).take (peer.received.length + 1) := by
        rw [List.take_add_one, there, Option.toList_some, ← own.results]
      have longer : (peer.received ++ [message]).length = peer.received.length + 1 :=
        List.length_append
      rw [Peer.afterRecv, if_neg more, complete]
      refine ⟨⟨entered.trans longer.symm, sent, ?_⟩, ?_, own.within⟩
      · show peer.taken + count = offset _ (peer.received ++ [message]).length
        rw [longer, offset_succ there]
        omega
      · rw [longer, results]
  | interrupted => exact own
  | zero | brokenPipe | error => exact own.stop entered (.inl rfl)

variable {action : Action}

theorem Own.moves (own : Own rounds side peer)
    (stream : other.sent <+: (messages rounds side.peer).flatten)
    (move : Moves ignored rounds side peer other action next) : Own rounds side next := by
  cases move with
  | enter idle this => exact own.enter idle this
  | send sending possible => exact own.afterSend sending possible
  | recv receiving this possible => exact own.afterRecv receiving this stream possible
  | close => exact ⟨own.place, own.results, own.within⟩

theorem Moves.counts (move : Moves ignored rounds side peer other action next)
    (before : peer.taken ≤ other.sent.length) :
    peer.sent <+: next.sent ∧ next.taken ≤ other.sent.length := by
  cases move with
  | enter | close => exact ⟨List.prefix_refl _, before⟩
  | send sending possible =>
    rename_i outcome rest
    cases outcome
    case moved => exact ⟨List.prefix_append _ _, before⟩
    all_goals exact ⟨List.prefix_refl _, before⟩
  | recv receiving this possible =>
    rename_i outcome buffer round
    cases outcome
    case moved count =>
      rw [Peer.afterRecv]
      split_ifs <;> exact ⟨List.prefix_refl _, possible.2.2⟩
    all_goals exact ⟨List.prefix_refl _, before⟩

end

/-! ### Both peers -/

structure Invariant (rounds : List Round) (link : Link) : Prop where
  own : ∀ side, Own rounds side (link side)
  taken_le : ∀ side, (link side).taken ≤ (link side.peer).sent.length

theorem start_invariant (rounds : List Round) : Invariant rounds start where
  own := fun _ => ⟨⟨rfl, rfl, rfl⟩, rfl, Nat.zero_le _⟩
  taken_le := fun _ => Nat.zero_le _

section

variable {ignored : Side → Bool} {rounds : List Round} {link next : Link}

theorem Invariant.stream (invariant : Invariant rounds link) (side : Side) :
    (link side).sent <+: (messages rounds side).flatten := by
  have entered := List.take_prefix (link side).entered (messages rounds side)
  exact (invariant.own side).sent_isPrefix.trans entered.flatten

theorem Invariant.step {label : Label} (invariant : Invariant rounds link)
    (move : step ignored rounds link label = some next) : Invariant rounds next := by
  obtain ⟨-, peer, rfl, moves⟩ := step_moves move
  have own := (invariant.own label.side).moves (invariant.stream label.side.peer) moves
  obtain ⟨sent, taken⟩ := moves.counts (invariant.taken_le label.side)
  refine ⟨fun side => ?_, fun side => ?_⟩
  · rcases label.side.eq_or_eq_peer side with rfl | rfl
    · rwa [update_self]
    · rw [update_of_ne label.side.peer_ne]
      exact invariant.own _
  · rcases label.side.eq_or_eq_peer side with rfl | rfl
    · rwa [update_self, update_of_ne label.side.peer_ne]
    · rw [Side.peer_peer, update_self, update_of_ne label.side.peer_ne]
      have before := invariant.taken_le label.side.peer
      rw [Side.peer_peer] at before
      exact before.trans sent.length_le

variable {side : Side} {index : Nat} {buffer : List WireByte}

section

variable (invariant : Invariant rounds link)
include invariant

theorem Invariant.received_eq (there : (link side).received[index]? = some buffer) :
    ∃ round, rounds[index]? = some round ∧
      buffer = (round.message side.peer).map (WireByte.mk index) := by
  have own := invariant.own side
  obtain ⟨inside, -⟩ := List.getElem?_eq_some_iff.mp there
  have known := List.getElem?_eq_getElem (inside.trans_le own.received_le)
  refine ⟨_, known, ?_⟩
  rw [own.results, List.getElem?_take_of_lt inside, getElem?_messages known] at there
  exact (Option.some.inj there).symm

theorem Invariant.matched {own : Side → ExchangeMsg}
    (exchange : rounds[index]? = some (.exchangeInfo own))
    (there : (link side).received[index]? = some buffer) :
    ExchangeMsg.ofBytes (buffer.map WireByte.value) = own side.peer := by
  obtain ⟨round, known, rfl⟩ := invariant.received_eq there
  obtain rfl := Option.some.inj (exchange.symm.trans known)
  have values : ((own side.peer).bytes.map (WireByte.mk index)).map WireByte.value =
      (own side.peer).bytes := by
    rw [List.map_map]
    exact List.map_id _
  rw [Round.message, values, ExchangeMsg.ofBytes_bytes]

theorem Invariant.framed (there : (link side).buffers[index]? = some buffer) :
    ∀ byte ∈ buffer, byte.call = index := by
  have tagged : ∀ (message : List UInt8), ∀ byte ∈ message.map (WireByte.mk index),
      byte.call = index := by
    intro message byte member
    obtain ⟨_, -, rfl⟩ := List.mem_map.mp member
    rfl
  have place := (invariant.own side).place
  have returned : (link side).received[index]? = some buffer →
      ∀ byte ∈ buffer, byte.call = index := fun there => by
    obtain ⟨round, -, rfl⟩ := invariant.received_eq there
    exact tagged _
  cases pc : (link side).pc <;> simp only [Peer.buffers, pc] at there
  case receiving current =>
    simp only [Place, pc] at place
    obtain ⟨-, -, -, message, known, started, -⟩ := place
    rcases Nat.lt_or_ge index (link side).received.length with before | last
    · exact returned (List.getElem?_append_left before ▸ there)
    · rw [List.getElem?_append_right last, List.getElem?_singleton] at there
      obtain ⟨same, ⟨⟩⟩ := Option.ite_none_right_eq_some.mp there
      have here : index = (link side).received.length := by omega
      rw [← here, messages, List.getElem?_mapIdx] at known
      obtain ⟨round, -, rfl⟩ := Option.map_eq_some_iff.mp known
      exact fun byte member => tagged _ byte (started.subset member)
  all_goals exact returned there

theorem Invariant.returned_le (side : Side) :
    (link side).received.length ≤ (link side.peer).entered := by
  have own := invariant.own side
  have inside : (link side).received.length ≤ (messages rounds side.peer).length :=
    own.received_le.trans length_messages.ge
  refine le_of_offset_le messages_ne_nil inside ?_
  calc offset (messages rounds side.peer) (link side).received.length
      ≤ (link side).taken := own.offset_le
    _ ≤ (link side.peer).sent.length := invariant.taken_le side
    _ ≤ offset (messages rounds side.peer) (link side.peer).entered :=
        (invariant.own side.peer).sent_isPrefix.length_le

theorem Invariant.barrier (side : Side) :
    (rounds.take (link side).received.length).countP Round.isSync ≤
      (rounds.take (link side.peer).entered).countP Round.isSync :=
  (List.take_prefix_take_left (invariant.returned_le side)).sublist.countP_le

end

end

/-! ### A message that is cut off -/

/-- How many system calls a peer can still make in its call, when the other end is closed. -/
def Peer.remaining (peer other : Peer) : Nat :=
  match peer.pc with
  | .sending rest => rest.length + (other.sent.length - peer.taken) + 1
  | .receiving _ => other.sent.length - peer.taken + 1
  | .idle | .failed | .killed => 0

section

variable {ignored : Bool} {rounds : List Round} {side : Side} {peer other next : Peer}
  {outcome : Outcome}

theorem Peer.afterSend_remaining {rest : List UInt8} (sending : peer.pc = .sending rest)
    (possible : SendPossible peer other rest outcome) :
    (peer.afterSend ignored rest outcome).pc ≠ .idle ∧
      (peer.afterSend ignored rest outcome).remaining other +
        (outcome != .interrupted).toNat ≤ peer.remaining other := by
  have uses : peer.remaining other = rest.length + (other.sent.length - peer.taken) + 1 := by
    rw [Peer.remaining, sending]
  rw [uses]
  cases outcome with
  | moved count =>
    obtain ⟨some, most⟩ := possible
    by_cases more : count < rest.length
    · rw [Peer.afterSend, if_pos more]
      refine ⟨nofun, ?_⟩
      show (rest.drop count).length + (other.sent.length - peer.taken) + 1 + 1 ≤ _
      rw [List.length_drop]
      omega
    · rw [Peer.afterSend, if_neg more]
      refine ⟨nofun, ?_⟩
      show other.sent.length - peer.taken + 1 + 1 ≤ _
      omega
  | interrupted =>
    refine ⟨?_, uses.le⟩
    show peer.pc ≠ .idle
    rw [sending]
    exact nofun
  | zero | error => exact ⟨nofun, Nat.le_add_left _ _⟩
  | brokenPipe => cases ignored <;> exact ⟨nofun, Nat.le_add_left _ _⟩

/-- A message that is cut off is not completed, and every uninterrupted `recv` uses up bytes or ends
the call. -/
theorem Peer.afterRecv_remaining {buffer : List WireByte} {size : Nat}
    (receiving : peer.pc = .receiving buffer)
    (possible : RecvPossible peer other (size - buffer.length) outcome)
    (short : other.sent.length + buffer.length < peer.taken + size) :
    (peer.afterRecv size other.sent buffer outcome).received = peer.received ∧
      (peer.afterRecv size other.sent buffer outcome).pc ≠ .idle ∧
      (peer.afterRecv size other.sent buffer outcome).remaining other +
        (outcome != .interrupted).toNat ≤ peer.remaining other := by
  have uses : peer.remaining other = other.sent.length - peer.taken + 1 := by
    rw [Peer.remaining, receiving]
  rw [uses]
  cases outcome with
  | moved count =>
    obtain ⟨some, most, available⟩ := possible
    have more : buffer.length + count < size := by omega
    rw [Peer.afterRecv, if_pos more]
    refine ⟨rfl, nofun, ?_⟩
    show other.sent.length - (peer.taken + count) + 1 + 1 ≤ _
    omega
  | interrupted =>
    refine ⟨rfl, ?_, uses.le⟩
    show peer.pc ≠ .idle
    rw [receiving]
    exact nofun
  | zero | brokenPipe | error => exact ⟨rfl, nofun, Nat.le_add_left _ _⟩

/-- A call does not return success on a message that is cut off, and uninterrupted calls use
something up. -/
theorem Moves.cutOff {action : Action} (move : Moves ignored rounds side peer other action next)
    (own : Own rounds side peer) (entered : peer.pc ≠ .idle)
    (short : other.sent.length < offset (messages rounds side.peer) (peer.received.length + 1)) :
    next.received = peer.received ∧ next.pc ≠ .idle ∧
      next.remaining other + action.completes.toNat ≤ peer.remaining other := by
  cases move with
  | enter idle => exact absurd idle entered
  | close => exact ⟨rfl, entered, le_refl _⟩
  | send sending possible =>
    rename_i outcome rest
    have same : (peer.afterSend ignored rest outcome).received = peer.received := by
      cases outcome <;> rfl
    exact ⟨same, Peer.afterSend_remaining sending possible⟩
  | recv receiving this possible =>
    have place := own.place
    simp only [Place, receiving] at place
    obtain ⟨number, -, taken, -⟩ := place
    rw [number, Nat.add_sub_cancel] at this
    rw [offset_succ (getElem?_messages this), length_message] at short
    exact Peer.afterRecv_remaining receiving possible (by omega)

end

structure CutOff (rounds : List Round) (side : Side) (received : List (List WireByte))
    (link : Link) : Prop where
  invariant : Invariant rounds link
  entered : (link side).pc ≠ .idle
  closed : (link side.peer).closed = true
  received_eq : (link side).received = received
  short : (link side.peer).sent.length < offset (messages rounds side.peer) (received.length + 1)

section

variable {ignored : Side → Bool} {rounds : List Round} {link next : Link} {side : Side}
  {received : List (List WireByte)}

theorem Cut.cutOff (cut : Cut rounds link side) (invariant : Invariant rounds link) :
    CutOff rounds side (link side).received link where
  __ := cut
  invariant := invariant
  entered := fun idle => by
    have inCall := cut.inCall
    rw [idle] at inCall
    exact inCall
  received_eq := rfl

theorem CutOff.step {label : Label} (cutOff : CutOff rounds side received link)
    (move : step ignored rounds link label = some next) :
    CutOff rounds side received next ∧ (next side).remaining (next side.peer) +
        (label.side == side && label.action.completes).toNat ≤
          (link side).remaining (link side.peer) := by
  have invariant := cutOff.invariant.step move
  obtain ⟨isOpen, peer, rfl, moves⟩ := step_moves move
  rcases side.eq_or_eq_peer label.side with rfl | other
  · have short := cutOff.short
    rw [← cutOff.received_eq] at short
    obtain ⟨same, entered, uses⟩ :=
      moves.cutOff (cutOff.invariant.own label.side) cutOff.entered short
    rw [update_self, update_of_ne label.side.peer_ne, beq_self_eq_true,
      Bool.true_and]
    refine ⟨⟨invariant, ?_, ?_, ?_, ?_⟩, uses⟩
    · rwa [update_self]
    · rw [update_of_ne label.side.peer_ne]
      exact cutOff.closed
    · rw [update_self, same, cutOff.received_eq]
    · rw [update_of_ne label.side.peer_ne]
      exact cutOff.short
  · rw [other, cutOff.closed] at isOpen
    exact nomatch isOpen

theorem CutOff.ready (cutOff : CutOff rounds side received link)
    (alive : (link side).pc ≠ .killed) :
    (link side).pc = .failed ∨ (link side).closed = true ∨ Ready ignored rounds link side := by
  cases isOpen : (link side).closed
  case true => exact .inr (.inl rfl)
  have own := cutOff.invariant.own side
  have place := own.place
  have within := own.within
  cases pc : (link side).pc <;> simp only [Place, pc] at place
  case idle => exact absurd pc cutOff.entered
  case failed => exact .inl rfl
  case killed => exact absurd pc alive
  case sending rest =>
    have possible : SendPossible (link side) (link side.peer) rest (.moved 1) :=
      ⟨Nat.one_pos, List.length_pos_of_ne_nil place.1⟩
    refine .inr (.inr ⟨.send (.moved 1), .inr ⟨1, .inl rfl⟩, ?_⟩)
    simp only [TcpExchange.step, isOpen, Peer.move, pc, if_pos possible]
    rfl
  case receiving buffer =>
    obtain ⟨number, -, -, message, known, -, unfinished⟩ := place
    have inside : (link side).received.length < rounds.length := number.ge.trans within
    have this : rounds[(link side).entered - 1]? = some rounds[(link side).received.length] := by
      rw [number, Nat.add_sub_cancel, List.getElem?_eq_getElem inside]
    have size := length_of_getElem? (List.getElem?_eq_getElem inside) known
    refine .inr (.inr ?_)
    rcases (cutOff.invariant.taken_le side).lt_or_eq with available | drained
    · have possible : RecvPossible (link side) (link side.peer)
          (rounds[(link side).received.length].size - buffer.length) (.moved 1) :=
        ⟨Nat.one_pos, by omega, available⟩
      refine ⟨.recv (.moved 1), .inr ⟨1, .inr rfl⟩, ?_⟩
      simp only [TcpExchange.step, isOpen, Peer.move, pc, this, if_pos possible]
      rfl
    · have possible : RecvPossible (link side) (link side.peer)
          (rounds[(link side).received.length].size - buffer.length) .zero :=
        ⟨cutOff.closed, drained⟩
      refine ⟨.recv .zero, .inl rfl, ?_⟩
      simp only [TcpExchange.step, isOpen, Peer.move, pc, this, if_pos possible]
      rfl

end

/-! ### The signal -/

/-- No `send` can raise the signal, or no process is ended by it. -/
def Harmless (ignored : Side → Bool) (rounds : List Round) : Prop :=
  rounds = [] ∨ rounds = [.tcpSync] ∨ ∀ side, ignored side = true

section

variable {ignored : Side → Bool} {rounds : List Round} {link next : Link} {side : Side}

theorem Own.sent_eq_nil {peer : Peer} {rest : List UInt8} (own : Own rounds side peer)
    (sending : peer.pc = .sending rest) (single : rounds = [] ∨ rounds = [.tcpSync]) :
    peer.sent = [] := by
  have place := own.place
  simp only [Place, sending] at place
  obtain ⟨some, -, sent, -⟩ := place
  have total : (messages rounds side).flatten.length ≤ 1 := by
    rcases single with rfl | rfl
    · exact Nat.zero_le _
    · exact le_refl _
  have entered := List.take_prefix peer.entered (messages rounds side)
  have most := entered.flatten.length_le
  rw [← sent, List.length_append, List.length_map] at most
  have left := List.length_pos_of_ne_nil some
  exact List.eq_nil_of_length_eq_zero (by omega)

theorem Moves.alive {ignored : Bool} {peer other next : Peer} {action : Action}
    (move : Moves ignored rounds side peer other action next) (own : Own rounds side peer)
    (harmless : (rounds = [] ∨ rounds = [.tcpSync]) ∨ ignored = true) (alive : peer.pc ≠ .killed) :
    next.pc ≠ .killed := by
  cases move with
  | enter => exact nofun
  | close => exact alive
  | send sending possible =>
    rename_i outcome rest
    cases outcome with
    | moved count =>
      rw [Peer.afterSend]
      split_ifs <;> exact nofun
    | interrupted => exact alive
    | zero | error => exact nofun
    | brokenPipe =>
      rcases harmless with single | rfl
      · obtain ⟨-, unread⟩ := possible
        rw [own.sent_eq_nil sending single] at unread
        exact absurd unread (Nat.not_lt_zero _)
      · exact nofun
  | recv receiving this possible =>
    rename_i outcome buffer round
    cases outcome with
    | moved count =>
      rw [Peer.afterRecv]
      split_ifs <;> exact nofun
    | interrupted => exact alive
    | zero | brokenPipe | error => exact nofun

theorem Invariant.alive_step {label : Label} (invariant : Invariant rounds link)
    (harmless : Harmless ignored rounds) (alive : ∀ side, (link side).pc ≠ .killed)
    (move : TcpExchange.step ignored rounds link label = some next) :
    ∀ side, (next side).pc ≠ .killed := by
  obtain ⟨-, peer, rfl, moves⟩ := step_moves move
  intro side
  rcases label.side.eq_or_eq_peer side with rfl | rfl
  · rw [update_self]
    refine moves.alive (invariant.own _) ?_ (alive _)
    rcases harmless with empty | single | all
    · exact .inl (.inl empty)
    · exact .inl (.inr single)
    · exact .inr (all _)
  · rw [update_of_ne label.side.peer_ne]
    exact alive _

variable {labels : List Label}

theorem Invariant.run_alive (invariant : Invariant rounds link) (harmless : Harmless ignored rounds)
    (alive : ∀ side, (link side).pc ≠ .killed)
    (reaches : run (TcpExchange.step ignored rounds) link labels = some next) :
    Invariant rounds next ∧ ∀ side, (next side).pc ≠ .killed :=
  run_invariant (motive := fun link => Invariant rounds link ∧ ∀ side, (link side).pc ≠ .killed)
    (fun _ _ _ before move => ⟨before.1.step move, before.1.alive_step harmless before.2 move⟩)
    ⟨invariant, alive⟩ reaches

theorem Invariant.fails (invariant : Invariant rounds link) (harmless : Harmless ignored rounds)
    (alive : ∀ side, (link side).pc ≠ .killed) (cut : Cut rounds link side) :
    Fails ignored rounds link side := by
  refine ⟨(link side).remaining (link side.peer), fun labels next reaches => ?_⟩
  obtain ⟨-, alive⟩ := invariant.run_alive harmless alive reaches
  have every : EveryStep (TcpExchange.step ignored rounds) (fun _ _ => True) link labels :=
    everyStep_of_forall (fun _ _ _ => True.intro) link
  obtain ⟨cutOff, count⟩ := run_spends_of_everyStep
    (fun _ _ _ before _ move => CutOff.step before move) (cut.cutOff invariant) every reaches
  exact ⟨cutOff.received_eq, cutOff.ready (alive side), (Nat.le_add_right _ _).trans count⟩

/-! ### The result -/

theorem run_correct (harmless : Harmless ignored rounds)
    (reaches : run (TcpExchange.step ignored rounds) start labels = some link) :
    Correct ignored rounds link := by
  obtain ⟨invariant, alive⟩ := (start_invariant rounds).run_alive harmless (fun _ => nofun) reaches
  exact ⟨fun _ _ _ _ exchange there => invariant.matched exchange there,
    fun _ _ _ there => invariant.framed there, invariant.barrier, alive,
    fun _ cut => invariant.fails harmless alive cut⟩

/-- The peer closes its end while a message is under way: the rest cannot be sent. -/
def cutInside (side : Side) : List Label :=
  [⟨side.peer, .close⟩, ⟨side, .enter⟩, ⟨side, .send (.moved 1)⟩, ⟨side, .send .brokenPipe⟩]

/-- The peer closes behind its first message: the first call succeeds, and the next cannot be sent.
-/
def cutBetween (side : Side) : List Label :=
  [⟨side.peer, .enter⟩, ⟨side.peer, .send (.moved 1)⟩, ⟨side.peer, .close⟩,
    ⟨side, .enter⟩, ⟨side, .send (.moved 1)⟩, ⟨side, .recv (.moved 1)⟩,
    ⟨side, .enter⟩, ⟨side, .send .brokenPipe⟩]

variable {rest : List Round}

theorem run_cutInside {own : Side → ExchangeMsg} (raised : ignored side = false) :
    ∃ link, run (TcpExchange.step ignored (.exchangeInfo own :: rest)) start (cutInside side) =
      some link ∧ (link side).pc = .killed := by
  have long : 1 < (own side).bytes.length := by
    rw [ExchangeMsg.length_bytes]
    decide
  simp [cutInside, run, TcpExchange.step, start, Peer.move, Peer.enter, Peer.afterSend,
    SendPossible, Round.message, raised, long, long.le]

theorem run_cutBetween {second : Round} (raised : ignored side = false) :
    ∃ link, run (TcpExchange.step ignored (.tcpSync :: second :: rest)) start (cutBetween side) =
      some link ∧ (link side).pc = .killed := by
  simp [cutBetween, run, TcpExchange.step, start, Peer.move, Peer.enter, Peer.afterSend,
    Peer.afterRecv, SendPossible, RecvPossible, Round.message, Round.size, raised]

theorem exists_run_killed (harmful : ¬ Harmless ignored rounds) :
    ∃ side labels link, run (TcpExchange.step ignored rounds) start labels = some link ∧
      (link side).pc = .killed := by
  simp only [Harmless, not_or, not_forall, Bool.not_eq_true] at harmful
  obtain ⟨nonempty, several, side, raised⟩ := harmful
  match rounds with
  | [] => exact absurd rfl nonempty
  | [.tcpSync] => exact absurd rfl several
  | .exchangeInfo _ :: _ => exact ⟨side, _, run_cutInside raised⟩
  | .tcpSync :: _ :: _ => exact ⟨side, _, run_cutBetween raised⟩

/-- Every run is correct if and only if both processes ignore the signal or at most one byte is
sent. -/
theorem exchange_correct_iff (ignored : Side → Bool) (rounds : List Round) :
    (∀ labels link, run (TcpExchange.step ignored rounds) start labels = some link →
      Correct ignored rounds link) ↔
        (rounds = [] ∨ rounds = [.tcpSync] ∨ ∀ side, ignored side = true) := by
  constructor
  · intro correct
    by_contra harmful
    obtain ⟨side, labels, link, reaches, killed⟩ := exists_run_killed harmful
    exact (correct labels link reaches).reported side killed
  · exact fun harmless _ _ reaches => run_correct harmless reaches

/-- A server that closes after its first barrier ends a client in its second. -/
theorem client_killed_in_second_sync :
    ∃ link, run (TcpExchange.step (fun _ => false) [.tcpSync, .tcpSync]) start
      (cutBetween .client) = some link ∧ ¬ Correct (fun _ => false) [.tcpSync, .tcpSync] link := by
  have killing : ∃ link, run (TcpExchange.step (fun _ => false) [.tcpSync, .tcpSync]) start
      (cutBetween .client) = some link ∧ (link .client).pc = .killed := run_cutBetween rfl
  obtain ⟨link, reaches, killed⟩ := killing
  exact ⟨link, reaches, fun correct => correct.reported .client killed⟩

end

end RocmXio.TcpExchange
