/-
Safety of the host ring.

As long as every exchange is made before `2 ^ 64` further bytes are claimed, the claims follow one
another in the stream, none crosses the ring end, no thread overwrites what the engine has not read,
and the engine finds the batches in the order of the claims with nothing but NOPs between them. A
thread alone gets its batch accepted after at most one padding, and what is rejected leaves no
trace.

The condition is needed. A thread that has checked its space and sleeps while the others claim
exactly `2 ^ 64` bytes finds the index it expects, although the ring is full by now.
-/

import RocmXio.Sdma.HostRingSolo

namespace RocmXio.Sdma

open Lib

variable {Id : Type} {format : Format}

/-! ### The stream of the claims -/

theorem decode_claims (packets : List (List Nat)) (claims : List (Claim format)) :
    (claims.flatMap Claim.words).foldl (Decoder.feed format) (.atBoundary packets) =
      .atBoundary (packets ++ claims.flatMap fun claim => claim.packets.map Packet.words) := by
  induction claims generalizing packets with
  | nil => simp
  | cons claim rest inductionHypothesis =>
    have one : claim.words.foldl (Decoder.feed format) (.atBoundary packets) =
        .atBoundary (packets ++ claim.packets.map Packet.words) := by
      cases claim with
      | padding dwords =>
        have skipped : (List.replicate dwords 0).foldl (Decoder.feed format)
            (.atBoundary packets) = ⟨packets, [], 0, 0 - dwords⟩ := feed_zeros packets 0 dwords
        rw [Nat.zero_sub] at skipped
        rw [Claim.packets, List.map_nil, List.append_nil]
        exact skipped
      | batch content => exact feed_packets packets content.packets
    rw [List.flatMap_cons, List.foldl_append, one, inductionHypothesis, List.flatMap_cons,
      List.append_assoc]

def HostRing.before (ring : HostRing Id format) (ticket : Nat) : Nat :=
  4 * ((ring.claims.take ticket).flatMap Claim.words).length

def HostRing.unread (ring : HostRing Id format) : Nat :=
  indexSub ring.queueWritePtr ring.queueReadPtr / 4

section

variable {start : Nat} {ring : HostRing Id format} {tickets : TicketRing Nat}

theorem Related.take_flatten (related : Related start ring tickets) (ticket : Nat) :
    (tickets.claims.take ticket).flatten = (ring.claims.take ticket).flatMap Claim.words := by
  rw [related.claims, ← List.map_take, List.flatMap_def]

theorem Related.before_eq (related : Related start ring tickets) (ticket : Nat) :
    ring.before ticket = 4 * tickets.offset ticket := by
  rw [HostRing.before, ← related.take_flatten]
  rfl

theorem Related.index_eq (related : Related start ring tickets) (ticket : Nat) :
    (4 * start + ring.before ticket) % indexRange = indexAt start (tickets.offset ticket) := by
  rw [related.before_eq, ← Nat.mul_add]
  rfl

theorem Related.unread_dwords (invariant : tickets.Invariant ringDwords start)
    (related : Related start ring tickets) :
    tickets.read + ring.unread = tickets.offset tickets.published := by
  rw [HostRing.unread, related.unread_eq invariant, Nat.mul_div_cancel_left _ (by decide)]
  exact Nat.add_sub_cancel' invariant.readPublished

theorem Related.claim_of_ticket (related : Related start ring tickets) {ticket : Nat}
    {words : List Nat} (claimed : tickets.claims[ticket]? = some words) :
    ∃ claim, ring.claims[ticket]? = some claim ∧ claim.words = words := by
  rw [related.claims, List.getElem?_map, Option.map_eq_some_iff] at claimed
  exact claimed

theorem Related.fetched_unread (invariant : tickets.Invariant ringDwords start)
    (related : Related start ring tickets) :
    ring.fetched ++ ring.ahead ring.unread =
      (ring.claims.take tickets.published).flatMap Claim.words := by
  have visible := related.unread_dwords invariant
  have found := invariant.fetched_ahead (Nat.le_of_eq visible)
  rw [← related.fetched, related.ahead_eq, found, visible, ← related.take_flatten,
    TicketRing.stream_take_offset]

end

/-! ### What the ring guarantees -/

/-- The guarantees of a queue whose indices start at `initialWptr`. Claims follow one another, in
one piece each, and a thread stores where its claim is; a store misses every published dword that is
not read; the engine finds the batches in the order of the claims, and zeros between them; a thread
alone with a drained ring pads at most once and can always go on to claim its batch; and what
`submit` or a call rejects changes nothing. -/
structure HostRing.Safe (initialWptr : Nat) (ring : HostRing Id hostFormat) [DecidableEq Id] :
    Prop where
  inOrder : ring.hostCachedWptr = (initialWptr + ring.before ring.claims.length) % indexRange
  unbroken : ∀ ticket claim, ring.claims[ticket]? = some claim →
    wrapIntoRing (initialWptr + ring.before ticket) + 4 * claim.words.length ≤ sdmaQueueSize
  inside : ∀ id resume ticket base stores pendingWptr,
    ring.threads id = .place resume ticket base stores pendingWptr →
      ∃ claim, ring.claims[ticket]? = some claim ∧
        base = (initialWptr + ring.before ticket) % indexRange ∧
        stores <:+ slotsFrom ((initialWptr + ring.before ticket) / 4) claim.words
  apart : ∀ id other ticket, (ring.threads id).ticket? = some ticket →
    (ring.threads other).ticket? = some ticket → id = other
  storesMiss : ∀ id resume ticket base slot word stores pendingWptr,
    ring.threads id = .place resume ticket base ((slot, word) :: stores) pendingWptr →
      ∀ i < ring.unread, (wrapIntoRing ring.queueReadPtr / 4 + i) % ringDwords ≠ slot
  parsed : ∃ published ≤ ring.claims.length,
    ring.queueWritePtr = (initialWptr + ring.before published) % indexRange ∧
    ring.fetched ++ ring.ahead ring.unread = (ring.claims.take published).flatMap Claim.words ∧
    decode hostFormat (ring.fetched ++ ring.ahead ring.unread) =
      .atBoundary ((ring.claims.take published).flatMap fun claim =>
        claim.packets.map Packet.words)
  admitted : ∀ id batch, (∀ other, other ≠ id → ring.threads other = .idle) →
    ring.threads id = .load batch → ring.queueReadPtr = ring.hostCachedWptr →
      ∀ next, ReachesSolo id ring next →
        (next.claims = ring.claims ∨ (∃ dwords, next.claims = ring.claims ++ [.padding dwords]) ∨
          Accepted ring.claims batch next) ∧
        ∃ final, ReachesSolo id next final ∧ Accepted ring.claims batch final
  tooLarge : ∀ id packets, kMaxSubmitBytes < totalPacketBytes packets →
    ∃ message, ring.submit id packets = (.error message, ring)
  invalid : ∀ id call element, element ∈ HostCall.elements call →
    (∀ words, element.build call.fnName ≠ .ok words) →
      ∃ message, ring.call id call = (.error message, ring)

section

variable [DecidableEq Id] {start : Nat}

theorem HostRing.submit_isError (ring : HostRing Id format) (id : Id)
    {packets : List (Packet format)} (large : kMaxSubmitBytes < totalPacketBytes packets) :
    ∃ message, ring.submit id packets = (.error message, ring) := by
  obtain ⟨message, failed⟩ := checkSubmit_isError large
  exact ⟨message, by rw [HostRing.submit, failed]⟩

theorem HostRing.call_isError (ring : HostRing Id hostFormat) (id : Id) {call : HostCall}
    {element : PacketCall} (member : element ∈ call.elements)
    (invalid : ∀ words, element.build call.fnName ≠ .ok words) :
    ∃ message, ring.call id call = (.error message, ring) := by
  obtain ⟨message, failed⟩ := packets_isError member invalid
  exact ⟨message, by rw [HostRing.call, failed]⟩

theorem Related.store_misses {ring : HostRing Id format} {tickets : TicketRing Nat}
    (invariant : tickets.Invariant ringDwords start) (related : Related start ring tickets)
    {id : Id} {resume : Option (Batch format)} {ticket base slot word pendingWptr : Nat}
    {stores : List (Nat × Nat)}
    (phase : ring.threads id = .place resume ticket base ((slot, word) :: stores) pendingWptr)
    {i : Nat} (visible : i < ring.unread) :
    (wrapIntoRing ring.queueReadPtr / 4 + i) % ringDwords ≠ slot := by
  obtain ⟨words, unpublished, claimed, next, here, -⟩ := related.store phase
  obtain ⟨missing, -⟩ := List.getElem?_eq_some_iff.mp next
  obtain ⟨storeUnread, above, below⟩ := invariant.store_position unpublished claimed missing
  have unread := related.unread_dwords invariant
  have apart := invariant.slot_ne (Nat.le_add_right tickets.read i) (by omega) storeUnread below
    (by omega)
  rw [related.read, wrapIntoRing_indexAt, Nat.mul_div_cancel_left _ (by decide), Nat.mod_add_mod,
    here, Nat.add_assoc]
  exact apart

theorem HostRing.Invariant.safe {ring : HostRing Id hostFormat} (kept : ring.Invariant start) :
    ring.Safe (4 * start) := by
  obtain ⟨tickets, invariant, related⟩ := kept
  refine
    { inOrder := ?_
      unbroken := ?_
      inside := ?_
      apart := fun id other ticket firstHolds secondHolds => by
        obtain ⟨_, first⟩ := HostPhase.held_of_ticket firstHolds
        obtain ⟨_, second⟩ := HostPhase.held_of_ticket secondHolds
        exact related.writers.apart id other ticket _ _ first second
      storesMiss := fun id resume ticket base slot word stores pendingWptr phase i visible =>
        related.store_misses invariant phase visible
      parsed := ⟨tickets.published, ?_, ?_, related.fetched_unread invariant, ?_⟩
      admitted := ?_
      tooLarge := fun id packets => ring.submit_isError id
      invalid := fun id call element => ring.call_isError id }
  · rw [related.index_eq, related.offset_length]
    exact related.cached
  · intro ticket claim claimed
    have words : tickets.claims[ticket]? = some claim.words := by
      rw [related.claims, List.getElem?_map, claimed, Option.map_some]
    have fits := related.unbroken ticket claim.words words
    rw [related.before_eq, wrapIntoRing, sdmaQueueSize_eq]
    rw [ringDwords_eq] at fits
    omega
  · intro id resume ticket base stores pendingWptr phase
    have ok := related.phases id
    rw [phase] at ok
    obtain ⟨words, owned, rest⟩ := ok
    obtain ⟨claim, claimed, rfl⟩ := related.claim_of_ticket owned.1
    refine ⟨claim, claimed, ?_, ?_⟩
    · rw [related.index_eq]
      exact owned.2.1
    · have position : (4 * start + ring.before ticket) / 4 = start + tickets.offset ticket := by
        rw [related.before_eq, ← Nat.mul_add, Nat.mul_div_cancel_left _ (by decide)]
      have stored := invariant.within ticket _ owned.1
      have split := slotsFrom_append (start + tickets.offset ticket)
        (claim.words.take (tickets.stored ticket)) (claim.words.drop (tickets.stored ticket))
      rw [List.take_append_drop, List.length_take_of_le stored, Nat.add_assoc] at split
      rw [position, rest, split]
      exact List.suffix_append _ _
  · have length : tickets.claims.length = ring.claims.length := by
      rw [related.claims, List.length_map]
    exact length ▸ invariant.published
  · rw [related.index_eq]
    exact related.written
  · rw [related.fetched_unread invariant]
    exact decode_claims [] _
  · intro id batch others phase drained next reaches
    have solo := solo_of_drained ⟨tickets, invariant, related⟩ others phase drained
    have still : Solo start id ring.claims batch next :=
      reaches.invariant (fun _ _ _ solo own move => solo.step own move) solo
    exact ⟨still.claimed, still.exists_accepted⟩

/-- Whatever the threads submit, however their accesses interleave and however far the engine
reads, the queue keeps its guarantees as long as every exchange is timely. -/
theorem sdmaQueueHostHandle_safe (queueBuffer : Nat → Nat) (initialWptr : Nat)
    (aligned : 4 ∣ initialWptr) (bounded : initialWptr < indexRange)
    (labels : List (HostLabel Id hostFormat)) (ring : HostRing Id hostFormat)
    (timely : EveryStep HostRing.step HostRing.Timely (HostRing.fresh queueBuffer initialWptr)
      labels)
    (reaches : run HostRing.step (HostRing.fresh queueBuffer initialWptr) labels = some ring) :
    ring.Safe initialWptr := by
  have kept : ring.Invariant (initialWptr / 4) :=
    run_invariant_of_everyStep (fun _ _ _ kept timely move => kept.step timely move)
      (HostRing.fresh_invariant queueBuffer aligned bounded) timely reaches
  have safe := kept.safe
  rwa [Nat.mul_div_cancel' aligned] at safe

end

/-- A queue that starts eight bytes before `2 ^ 64`: a timestamp does not fit there, so that the
thread pads the ring and the indices wrap. -/
def stampBehindPadding : List (HostLabel Bool hostFormat) :=
  [.submit true [(PacketCall.timestamp 0x1000).packet]] ++ List.replicate 2 (.step true false) ++
    [.step true true] ++ List.replicate 10 (.step true false) ++ [.engine 2] ++
    List.replicate 11 (.step true false) ++ [.engine 3]

theorem sdmaQueueHostHandle_safe_wrapped : ∃ ring : HostRing Bool hostFormat,
      run HostRing.step (HostRing.fresh (fun _ => 7) (2 ^ 64 - 8)) stampBehindPadding = some ring ∧
        ring.fetched = [0, 0] ++ timestampPacket 0x1000 ∧ ring.Safe (2 ^ 64 - 8) := by
  have timely : EveryStep HostRing.step HostRing.Timely (HostRing.fresh (fun _ => 7) (2 ^ 64 - 8))
      stampBehindPadding := by decide +kernel
  have fetched : (run HostRing.step (HostRing.fresh (fun _ => 7) (2 ^ 64 - 8))
      stampBehindPadding).map HostRing.fetched = some ([0, 0] ++ timestampPacket 0x1000) := by
    decide +kernel
  obtain ⟨ring, reaches, parsed⟩ := Option.map_eq_some_iff.mp fetched
  exact ⟨ring, reaches, parsed, sdmaQueueHostHandle_safe (fun _ => 7) (2 ^ 64 - 8) (by decide)
    (by decide) stampBehindPadding ring timely reaches⟩

/-! ### An exchange that comes too late -/

/-- The batch of the thread that does the work: one atomic addition, eight dwords. -/
def oneAtomic : Batch hostFormat := ⟨[(PacketCall.atomic64 0x1000 1).packet], by simp, by decide⟩

def twoAtomics : Batch hostFormat :=
  ⟨[(PacketCall.atomic64 0x1000 1).packet, (PacketCall.atomic64 0x1000 1).packet], by simp,
    by decide⟩

/-- One thread sleeps before its exchange, for which it loaded the index zero; the other one is
in some phase. -/
structure Asleep (ring : HostRing Bool hostFormat) (phase : HostPhase hostFormat)
    (cached committed written read : Nat) : Prop where
  sleeper : ring.threads true = .exchange twoAtomics 0 0
  worker : ring.threads false = phase
  cached : ring.hostCachedWptr = cached
  committed : ring.hostCommittedWptr = committed
  written : ring.queueWritePtr = written
  read : ring.queueReadPtr = read

abbrev Leads : HostRing Bool hostFormat → HostRing Bool hostFormat → Prop :=
  Reaches HostRing.step fun _ _ => True

section

variable {ring next : HostRing Bool hostFormat} {phase after : HostPhase hostFormat}
  {cached committed written read newCached newCommitted newWritten newRead : Nat}

theorem leads_of_advance (id : Bool) (move : ring.advanceThread id false = some next) :
    Leads ring next :=
  have step : ring.step (.step id false) = some next := move
  Reaches.single trivial step

variable {ticket base pendingWptr : Nat}

theorem leads_stores {id : Bool} {first rest : List (Nat × Nat)}
    (phase : ring.threads id = .place none ticket base (first ++ rest) pendingWptr) :
    ∃ queueBuffer, Leads ring { ring.setPhase id (.place none ticket base rest pendingWptr) with
      queueBuffer := queueBuffer } := by
  induction first generalizing ring with
  | nil =>
    refine ⟨ring.queueBuffer, ?_⟩
    rw [List.nil_append] at phase
    rw [HostRing.setPhase, ← phase, Function.update_eq_self]
    exact .refl
  | cons store first inductionHypothesis =>
    have move : ring.advanceThread id false = some
        { ring.setPhase id (.place none ticket base (first ++ rest) pendingWptr) with
          queueBuffer := Function.update ring.queueBuffer store.1 store.2 } := by
      rw [HostRing.advanceThread, phase]
      rfl
    obtain ⟨queueBuffer, leads⟩ := inductionHypothesis
      (show HostRing.threads
        { ring.setPhase id (.place none ticket base (first ++ rest) pendingWptr) with
          queueBuffer := Function.update ring.queueBuffer store.1 store.2 } id = _ from
        ring.setPhase_self id _)
    refine ⟨queueBuffer, (leads_of_advance id move).trans ?_⟩
    simp only [HostRing.setPhase, Function.update_idem] at leads ⊢
    exact leads

def LeadsTo (ring : HostRing Bool hostFormat) (phase : HostPhase hostFormat)
    (cached committed written read : Nat) : Prop :=
  ∃ next, Leads ring next ∧ Asleep next phase cached committed written read

theorem LeadsTo.trans (leads : LeadsTo ring phase cached committed written read)
    (goesOn : ∀ ring, Asleep ring phase cached committed written read →
      LeadsTo ring after newCached newCommitted newWritten newRead) :
    LeadsTo ring after newCached newCommitted newWritten newRead := by
  obtain ⟨middle, first, asleep⟩ := leads
  obtain ⟨next, second, still⟩ := goesOn middle asleep
  exact ⟨next, first.trans second, still⟩

theorem Asleep.setPhase (asleep : Asleep ring phase cached committed written read)
    (next : HostPhase hostFormat) :
    Asleep (ring.setPhase false next) next cached committed written read :=
  { asleep with
    sleeper := (ring.setPhase_of_ne (by decide) next).trans asleep.sleeper
    worker := ring.setPhase_self false next }

theorem Asleep.access (asleep : Asleep next after newCached newCommitted newWritten newRead)
    (move : ring.advanceThread false false = some next) :
    LeadsTo ring after newCached newCommitted newWritten newRead :=
  ⟨next, leads_of_advance false move, asleep⟩

theorem Asleep.stores {stores : List (Nat × Nat)}
    (asleep : Asleep ring (.place none ticket base stores pendingWptr) cached committed written
      read) :
    LeadsTo ring (.place none ticket base [] pendingWptr) cached committed written read := by
  have all : ring.threads false = .place none ticket base (stores ++ []) pendingWptr := by
    rw [List.append_nil, asleep.worker]
  obtain ⟨queueBuffer, leads⟩ := leads_stores all
  exact ⟨_, leads, { asleep.setPhase (.place none ticket base [] pendingWptr) with }⟩

variable {index : Nat}

theorem Asleep.submission (asleep : Asleep ring .idle index index index read) (aligned : 32 ∣ index)
    (space : canWriteUptoHost ((index + 32) % indexRange) read = true) :
    LeadsTo ring .idle ((index + 32) % indexRange) ((index + 32) % indexRange)
      ((index + 32) % indexRange) read := by
  have submit : ring.step (.submit false oneAtomic.packets) =
      some (ring.setPhase false (.load oneAtomic)) := by
    rw [HostRing.step, asleep.worker]
    rfl
  have submitted : LeadsTo ring (.load oneAtomic) index index index read :=
    ⟨_, .single trivial submit, asleep.setPhase _⟩
  have fits : ¬ wrapIntoRing index + oneAtomic.bytes > sdmaQueueSize := by
    rw [show oneAtomic.bytes = 32 from rfl, wrapIntoRing, sdmaQueueSize_eq]
    omega
  refine submitted.trans fun loaded loading => ?_
  generalize ticketEq : loaded.claims.length = ticket
  refine ((loading.setPhase (.check oneAtomic index ticket)).access ?_).trans
    fun ring checking => ?_
  · rw [HostRing.advanceThread, loading.worker, ← ticketEq]
    simp only [loading.cached, if_neg fits]
  refine ((checking.setPhase (.exchange oneAtomic index ticket)).access ?_).trans
    fun ring exchanging => ?_
  · rw [HostRing.advanceThread, checking.worker, checking.read]
    exact if_pos space
  generalize stopEq : (index + 32) % indexRange = stop
  generalize placedEq : ring.claims.length = placed
  have placing : Asleep { ring.setPhase false
      (.place none placed index (placeBatch oneAtomic.packets index) stop) with
        hostCachedWptr := stop, claims := ring.claims ++ [.batch oneAtomic] } _ stop index index
        read := { exchanging.setPhase _ with cached := rfl }
  refine (placing.access ?_).trans fun _ placing => placing.stores.trans fun ring stored => ?_
  · rw [HostRing.advanceThread, exchanging.worker, ← stopEq, ← placedEq]
    exact if_pos ⟨exchanging.cached, rfl⟩
  refine ((stored.setPhase (.wait none placed index stop)).access ?_).trans
    fun ring waiting => ?_
  · rw [HostRing.advanceThread, stored.worker]
  refine ((waiting.setPhase (.publish none placed stop)).access ?_).trans
    fun ring publishing => ?_
  · rw [HostRing.advanceThread, waiting.worker]
    exact if_pos waiting.committed
  have ringing : Asleep { ring.setPhase false (.ring none placed stop) with
      queueWritePtr := stop } (.ring none placed stop) stop index stop read :=
    { publishing.setPhase _ with written := rfl }
  refine (ringing.access (by rw [HostRing.advanceThread, publishing.worker])).trans
    fun ring ringing => ?_
  have advancing : Asleep { ring.setPhase false (.advance none placed stop) with
      doorbell := stop } (.advance none placed stop) stop index stop read :=
    { ringing.setPhase _ with }
  refine (advancing.access (by rw [HostRing.advanceThread, ringing.worker])).trans
    fun ring advancing => ?_
  have idle : Asleep { ring.setPhase false .idle with hostCommittedWptr := stop } .idle stop stop
      stop read := { advancing.setPhase .idle with committed := rfl }
  exact idle.access (by rw [HostRing.advanceThread, advancing.worker]; rfl)

theorem Asleep.drain (inRange : index < indexRange)
    (asleep : Asleep ring .idle ((index + 32) % indexRange) ((index + 32) % indexRange)
      ((index + 32) % indexRange) index) :
    LeadsTo ring .idle ((index + 32) % indexRange) ((index + 32) % indexRange)
      ((index + 32) % indexRange) ((index + 32) % indexRange) := by
  have unread : 4 * 8 ≤ indexSub ring.queueWritePtr ring.queueReadPtr := by
    rw [asleep.written, asleep.read, indexSub]
    rw [indexRange_eq] at inRange ⊢
    omega
  have move : ring.step (.engine 8) = some { ring with
      queueReadPtr := (ring.queueReadPtr + 4 * 8) % indexRange
      fetched := ring.fetched ++ ring.ahead 8 } := if_pos unread
  exact ⟨_, .single trivial move, { asleep with read := by rw [asleep.read] }⟩

theorem following_index (aligned : 32 ∣ index) (count : Nat) :
    32 ∣ (index + 32 * count) % indexRange ∧ ((index + 32 * count) % indexRange + 32) % indexRange =
      (index + 32 * (count + 1)) % indexRange := by
  refine ⟨?_, by rw [Nat.mod_add_mod, Nat.mul_succ, Nat.add_assoc]⟩
  rw [indexRange_eq]
  omega

theorem Asleep.many (asleep : Asleep ring .idle index index index index) (aligned : 32 ∣ index)
    (inRange : index < indexRange) (count : Nat) :
    ∃ stop, stop = (index + 32 * count) % indexRange ∧ LeadsTo ring .idle stop stop stop stop := by
  refine ⟨_, rfl, ?_⟩
  induction count with
  | zero =>
    rw [Nat.mul_zero, Nat.add_zero, Nat.mod_eq_of_lt inRange]
    exact ⟨ring, .refl, asleep⟩
  | succ count inductionHypothesis =>
    obtain ⟨still, following⟩ := following_index aligned count
    have below : (index + 32 * count) % indexRange < indexRange := Nat.mod_lt _ (by decide)
    rw [← following]
    refine inductionHypothesis.trans fun _ reached => ?_
    exact (reached.submission still (canWriteUptoHost_drained below (by decide))).trans
      fun _ submitted => submitted.drain below

theorem Asleep.fill (asleep : Asleep ring .idle index index index index) (aligned : 32 ∣ index)
    (inRange : index < indexRange) {count : Nat} (short : 32 * count < sdmaQueueSize) :
    ∃ stop, stop = (index + 32 * count) % indexRange ∧ LeadsTo ring .idle stop stop stop index := by
  refine ⟨_, rfl, ?_⟩
  induction count with
  | zero =>
    rw [Nat.mul_zero, Nat.add_zero, Nat.mod_eq_of_lt inRange]
    exact ⟨ring, .refl, asleep⟩
  | succ count inductionHypothesis =>
    obtain ⟨still, following⟩ := following_index aligned count
    rw [← following]
    refine (inductionHypothesis (by omega)).trans fun _ reached => reached.submission still ?_
    rw [following]
    exact canWriteUptoHost_drained inRange short

end

theorem leads_asleep :
    ∃ ring, Leads (HostRing.fresh (fun _ => 0) 0) ring ∧ Asleep ring .idle 0 0 0 0 := by
  refine ⟨_, reaches_iff.mpr ⟨[.submit true twoAtomics.packets, .step true false,
    .step true false], everyStep_of_forall (fun _ _ _ => trivial) _, rfl⟩, ?_⟩
  exact ⟨rfl, rfl, rfl, rfl, rfl, rfl⟩

/-- The sleeping thread wakes up when the index is zero again: its exchange succeeds, and it
stores the first of its packets. -/
theorem Asleep.wake {ring : HostRing Bool hostFormat} {read : Nat}
    (asleep : Asleep ring .idle 0 0 0 read) :
    ∃ next ticket word stores, Leads ring next ∧
      next.threads true = .place none ticket 0 ((8, word) :: stores) 64 ∧
      next.queueWritePtr = 0 ∧ next.queueReadPtr = read := by
  have stores : placeBatch twoAtomics.packets 0 = (placeBatch twoAtomics.packets 0).take 8 ++
      (8, atomicHeader true) :: (placeBatch twoAtomics.packets 0).drop 9 := by
    decide
  obtain ⟨claimed, exchange, placing, written, readPtr⟩ : ∃ claimed,
      ring.advanceThread true false = some claimed ∧
      claimed.threads true = .place none ring.claims.length 0
        (placeBatch twoAtomics.packets 0) 64 ∧
      claimed.queueWritePtr = 0 ∧ claimed.queueReadPtr = read := by
    rw [HostRing.advanceThread, asleep.sleeper]
    exact ⟨_, if_pos ⟨asleep.cached, rfl⟩, ring.setPhase_self true _, asleep.written, asleep.read⟩
  obtain ⟨queueBuffer, leads⟩ := leads_stores placing
  exact ⟨_, _, _, _, (leads_of_advance true exchange).trans leads, claimed.setPhase_self true _,
    written, readPtr⟩

/-- While one thread sleeps between its check and its exchange, another claims `2 ^ 64` bytes, the
last of which are unread. The exchange succeeds, and the first dword of the second packet overwrites
an unread one. -/
theorem sdmaQueueHostHandle_late_exchange :
    ∃ (labels : List (HostLabel Bool hostFormat)) (ring : HostRing Bool hostFormat),
      run HostRing.step (HostRing.fresh (fun _ => 0) 0) labels = some ring ∧ ¬ ring.Safe 0 := by
  obtain ⟨ring, sleeps, asleep⟩ := leads_asleep
  obtain ⟨read, readEq, drained, claims, rested⟩ :=
    asleep.many (dvd_zero 32) (by decide) (2 ^ 59 - 262143)
  have readValue : read = 2 ^ 64 - 8388576 := by
    rw [readEq]
    decide
  have short : 32 * 262143 < sdmaQueueSize := by decide
  obtain ⟨stop, stopEq, full, fills, lagging⟩ :=
    rested.fill (by rw [readValue]; decide) (by rw [readValue]; decide) short
  have wrapped : stop = 0 := by
    rw [stopEq, readValue]
    decide
  rw [wrapped] at lagging
  obtain ⟨final, ticket, word, stores, wakes, placing, written, readPtr⟩ := lagging.wake
  obtain ⟨labels, -, reaches⟩ := reaches_iff.mp (sleeps.trans (claims.trans (fills.trans wakes)))
  refine ⟨labels, final, reaches, fun safe => ?_⟩
  have unread : 0 < final.unread := by
    rw [HostRing.unread, written, readPtr, readValue]
    decide
  refine safe.storesMiss true none ticket 0 8 word stores 64 placing 0 unread ?_
  rw [readPtr, readValue]
  decide

end RocmXio.Sdma
