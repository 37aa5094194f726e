/-
Safety of the multi-producer SDMA ring.

Each step keeps the invariant, so it holds after every run in which the reserved bytes stay below `2
^ 64`. What the producers and the engine rely on is read off it: the reserved regions tile the
stream, no packet straddles the ring end, no producer overwrites what the engine still has to read,
everything below `wptr` is stored, and the engine decodes exactly the submitted packets in the order
of the reservations.
-/

import RocmXio.Sdma.RingInvariant

namespace RocmXio.Sdma

open Lib Function

variable {Id : Type} {format : Format} [DecidableEq Id] {ring next : Ring Id format}
  {tickets : TicketRing Nat} {holds : Id → Option (Nat × Bool)} {id : Id}

/-! ### Steps that move one producer -/

variable {producer : Producer format}

theorem forall_setProducer {motive : Id → Producer format → Prop} (self : motive id producer)
    (others : ∀ other, other ≠ id → motive other (ring.producers other)) (other : Id) :
    motive other ((ring.setProducer id producer).producers other) :=
  (Function.forall_update_iff ring.producers (p := motive)).mpr ⟨self, others⟩ other

theorem phases_setProducer {later : TicketRing Nat} {held : Option (Nat × Bool)}
    (self : ProducerOk later held producer.phase)
    (others : ∀ other, other ≠ id →
      ProducerOk later (holds other) (ring.producers other).phase) (other : Id) :
    ProducerOk later (update holds id held other)
      ((ring.setProducer id producer).producers other).phase := by
  refine forall_setProducer (motive := fun other producer =>
    ProducerOk later (update holds id held other) producer.phase) ?_ ?_ other
  · rw [update_self]
    exact self
  · intro other different
    rw [update_of_ne different]
    exact others other different

section

variable (shows : Shows ring tickets holds)
include shows

theorem Shows.caches_setProducer
    (cache : producer.state.cachedHwReadIndex ≤ ring.rptr) (other : Id) :
    ((ring.setProducer id producer).producers other).state.cachedHwReadIndex ≤ ring.rptr :=
  forall_setProducer (motive := fun _ producer => producer.state.cachedHwReadIndex ≤ ring.rptr)
    cache (fun other _ => shows.caches other) other

theorem Shows.attempts_setProducer {laterWptr : Nat} (grows : ring.cachedWptr ≤ laterWptr)
    (attempt : producer.phase.Attempt ring.rptr laterWptr) (other : Id) :
    ((ring.setProducer id producer).producers other).phase.Attempt ring.rptr laterWptr :=
  forall_setProducer (motive := fun _ producer => producer.phase.Attempt ring.rptr laterWptr)
    attempt (fun other _ => (shows.attempts other).mono (le_refl _) grows) other

theorem Shows.setProducer (ok : ProducerOk tickets (holds id) producer.phase)
    (cache : producer.state.cachedHwReadIndex ≤ ring.rptr)
    (attempt : producer.phase.Attempt ring.rptr ring.cachedWptr) :
    Shows (ring.setProducer id producer) tickets holds :=
  { shows with
    caches := shows.caches_setProducer cache
    attempts := shows.attempts_setProducer (le_refl _) attempt
    phases := forall_setProducer
      (motive := fun other producer => ProducerOk tickets (holds other) producer.phase) ok
      fun other _ => shows.phases other }

end

/-! ### Steps that change shared memory -/

theorem indexAt_zero {position : Nat} (bounded : 4 * position < indexRange) :
    indexAt 0 position = 4 * position := by
  rw [indexAt, Nat.zero_add, Nat.mod_eq_of_lt bounded]

/-- What a call reserves at the index that the ring has cached. -/
def Ring.reservation (ring : Ring Id format) (call : Call format) : Reservation format :=
  ⟨ring.cachedWptr, paddingFor ring.cachedWptr call.submission.bytes, call.submission⟩

variable {call : Call format} {base pendingWptr : Nat} {state : SdmaQueueState}

section

variable (shows : Shows ring tickets holds) (writers : tickets.Writers ringDwords 0 holds)
include shows writers

theorem Shows.store {slot word : Nat} {stores : List (Nat × Nat)}
    (phase : (ring.producers id).phase = .place call base ((slot, word) :: stores) pendingWptr) :
    Invariant { ring.setPhase id (.place call base stores pendingWptr) with
      queueBuf := update ring.queueBuf slot word } := by
  obtain ⟨ticket, words, held, reserves, next, rfl, rest⟩ := shows.store_position phase
  have own : ProducerOk (tickets.store ringDwords 0 ticket word) (holds id)
      (.place call base stores pendingWptr) :=
    ⟨ticket, words, held, reserves, by rw [TicketRing.stored_store_self]; exact rest⟩
  refine ⟨_, holds, writers.store held reserves.1 next, ?_⟩
  exact
    { shows with
      memory := by rw [← shows.memory]; rfl
      caches := shows.caches_setProducer (shows.caches id)
      attempts := shows.attempts_setProducer (le_refl _) trivial
      phases := forall_setProducer (motive := fun other producer =>
          ProducerOk (tickets.store ringDwords 0 ticket word) (holds other) producer.phase) own
        fun other different => (shows.phases other).frame
          (fun otherTicket _ otherHeld claimed => ⟨claimed, rfl, by
            refine TicketRing.stored_store_of_ne (fun same => different ?_) _ _ _
            rw [same] at otherHeld
            exact writers.apart other id ticket _ _ otherHeld held⟩)
          (fun _ => rfl) fun _ _ => rfl }

theorem Shows.exchange (phase : (ring.producers id).phase = .exchange call ring.cachedWptr)
    (bounded : ring.cachedWptr + call.submission.bytes +
      paddingFor ring.cachedWptr call.submission.bytes < indexRange) :
    Invariant { ring.setPhase id (.place call ring.cachedWptr
        (placePackets call.submission.packets ring.cachedWptr
          (paddingFor ring.cachedWptr call.submission.bytes)).1
        (placePackets call.submission.packets ring.cachedWptr
          (paddingFor ring.cachedWptr call.submission.bytes)).2) with
      cachedWptr := newIndex ring.cachedWptr call.submission.bytes
      pending := ring.pending ++ [(id, ring.reservation call)] } := by
  have free := shows.phases id
  have attempt := shows.attempts id
  rw [phase] at free attempt
  have cached := shows.cached
  have atIndex : indexAt 0 tickets.total = ring.cachedWptr := by
    rw [cached, indexAt_zero (by omega)]
  let words := call.submission.padded 0 tickets.total
  have padding : paddingFor ring.cachedWptr call.submission.bytes =
      4 * paddingBefore (0 + tickets.total) call.submission.words.length := by
    rw [← atIndex, paddingFor_submission]
  have length : words.length = paddingBefore (0 + tickets.total) call.submission.words.length +
      call.submission.words.length := call.submission.padded_length 0 tickets.total
  have bytes : call.submission.bytes = 4 * call.submission.words.length := call.submission.bytes_eq
  have stop : indexAt 0 (tickets.total + words.length) = 4 * (tickets.total + words.length) :=
    indexAt_zero (by omega)
  have placed := placePackets_submission call.submission 0 tickets.total
  have upto := newIndex_submission call.submission 0 tickets.total
  rw [stop, atIndex] at placed upto
  have isWords : (ring.reservation call).words = words := by
    rw [Ring.reservation, Reservation.words, padding, Nat.mul_div_cancel_left _ (by decide)]
    rfl
  have room : tickets.total + words.length < tickets.read + ringDwords := by
    rcases attempt.2 bounded with space | stale
    · rw [shows.read, sdmaQueueSize_eq] at space
      rw [ringDwords_eq]
      omega
    · exact absurd stale (lt_irrefl _)
  have grown :
      Ring.reservations { ring with pending := ring.pending ++ [(id, ring.reservation call)] } =
        ring.reservations ++ [ring.reservation call] := by
    rw [Ring.reservations, List.map_append, ← List.append_assoc]
    rfl
  have wptrGrows : ring.cachedWptr ≤ newIndex ring.cachedWptr call.submission.bytes := by
    omega
  have keeps : ∀ ticket ≤ tickets.claims.length,
      (tickets.claim words).offset ticket = tickets.offset ticket :=
    fun _ below => TicketRing.claim_offset below words
  have published := writers.invariant.published
  refine ⟨tickets.claim words, _,
    writers.claim free (call.submission.padded_ne_nil 0 tickets.total) room, ?_⟩
  exact
    { shows with
      claims := by
        show tickets.claims ++ [words] = (Ring.reservations { ring with pending := _ }).map _
        rw [grown, List.map_append, ← shows.claims, List.map_singleton, isWords]
      tiles := by
        show Tiles 0 (Ring.reservations { ring with pending := _ }) _
        rw [grown]
        refine tiles_append.mpr ⟨_, shows.tiles, rfl, ?_, rfl, ?_⟩
        · rw [cached]
          exact dvd_mul_right 4 _
        · show ring.cachedWptr + (paddingFor ring.cachedWptr call.submission.bytes +
            call.submission.bytes) = newIndex ring.cachedWptr call.submission.bytes
          omega
      committedWptr := by
        show ring.committedWptr = 4 * (tickets.claim words).offset tickets.committed
        rw [keeps _ (Nat.le_trans writers.invariant.committed published)]
        exact shows.committedWptr
      written := by
        show ring.wptr = 4 * (tickets.claim words).offset tickets.published
        rw [keeps _ published]
        exact shows.written
      caches := shows.caches_setProducer (shows.caches id)
      attempts := shows.attempts_setProducer wptrGrows trivial
      phases := phases_setProducer
        ⟨_, words, rfl, ⟨List.getElem?_concat_length .., by
          rw [keeps _ (le_refl _), TicketRing.offset_length, cached], by
          rw [keeps _ (le_refl _), TicketRing.offset_length, placed]⟩, by
          rw [keeps _ (le_refl _), TicketRing.offset_length, placed,
            show (tickets.claim words).stored = tickets.stored from rfl,
            writers.invariant.unclaimed _ (le_refl _), Nat.add_zero, List.drop_zero,
            Nat.zero_add]⟩
        fun other _ => (shows.phases other).frame
          (fun ticket _ held claimed => ⟨TicketRing.claim_getElem? claimed words,
            keeps _ (Nat.le_of_lt (writers.ticket_lt held)), rfl⟩)
          (fun _ => rfl) fun _ _ => keeps _ published }

omit [DecidableEq Id] in
theorem Shows.turn {ticket : Nat} (held : holds id = some (ticket, false))
    (atCommitted : ring.committedWptr = 4 * tickets.offset ticket) :
    ticket = tickets.committed := by
  obtain ⟨unpublished, below⟩ := writers.storing id ticket held
  rw [shows.committedWptr] at atCommitted
  exact (TicketRing.eq_of_offset_eq writers.invariant.nonempty (Nat.le_of_lt below)
    (Nat.le_trans writers.invariant.committed unpublished)
    (Nat.eq_of_mul_eq_mul_left (by decide) atCommitted)).symm

theorem Shows.publish (phase : (ring.producers id).phase = .publish call base pendingWptr) :
    ring.wptr ≤ pendingWptr ∧
      Invariant { ring.setPhase id (.ring call base pendingWptr) with wptr := pendingWptr } := by
  have ok := shows.phases id
  rw [phase] at ok
  obtain ⟨words, held, ⟨claimed, -, stop⟩, complete⟩ := ok
  have level := writers.published_eq held
  have atEnd : pendingWptr = 4 * tickets.publish.offset tickets.publish.published := by
    rw [stop, show tickets.publish.published = tickets.committed + 1 from
      congrArg (· + 1) level]
    exact congrArg (4 * ·) (TicketRing.offset_succ claimed).symm
  refine ⟨?_, tickets.publish, _, writers.publish held claimed complete, ?_⟩
  · rw [shows.written, level, stop]
    omega
  · exact
      { shows with
        written := atEnd
        caches := shows.caches_setProducer (shows.caches id)
        attempts := shows.attempts_setProducer (le_refl _) trivial
        phases := phases_setProducer ⟨_, rfl, atEnd⟩ fun other _ => (shows.phases other).frame
          (fun _ _ _ claimed => ⟨claimed, rfl, rfl⟩) (fun _ => rfl)
          fun ticket handing => absurd handing (writers.not_handing held other ticket) }

theorem Shows.advance (phase : (ring.producers id).phase = .advance call base pendingWptr)
    (cache : state.cachedHwReadIndex ≤ ring.rptr) :
    Invariant { ring.setProducer id ⟨.idle, state⟩ with
      committedWptr := pendingWptr
      committed := ring.committed ++ (ring.pending.take 1).map Prod.snd
      pending := ring.pending.drop 1 } := by
  have ok := shows.phases id
  rw [phase] at ok
  obtain ⟨ticket, held, stop⟩ := ok
  obtain ⟨-, ahead⟩ := writers.handing id ticket held
  have same : ring.committed ++ (ring.pending.take 1).map Prod.snd ++
      (ring.pending.drop 1).map Prod.snd = ring.reservations := by
    rw [List.append_assoc, ← List.map_append, List.take_append_drop]
    rfl
  have positive : 0 < ring.pending.length := by
    have published := writers.invariant.published
    rw [shows.claims, List.length_map, Ring.reservations, List.length_append, List.length_map,
      ahead, shows.committed] at published
    omega
  refine ⟨tickets.commit, _, writers.commit held, ?_⟩
  exact
    { shows with
      claims := shows.claims.trans (congrArg (List.map _) same.symm)
      tiles := (congrArg (Tiles 0 · ring.cachedWptr) same).mpr shows.tiles
      committed := by
        show tickets.committed + 1 = (ring.committed ++ (ring.pending.take 1).map _).length
        rw [List.length_append, List.length_map, List.length_take, shows.committed]
        omega
      committedWptr := by
        rw [stop, ahead]
        rfl
      caches := shows.caches_setProducer cache
      attempts := shows.attempts_setProducer (le_refl _) trivial
      phases := phases_setProducer rfl fun other different => (shows.phases other).frame
        (fun _ _ _ claimed => ⟨claimed, rfl, rfl⟩)
        (fun turn => by
          obtain ⟨rfl, -⟩ := writers.handing id ticket held
          exact absurd (writers.apart other id _ _ _ turn held) different)
        fun _ _ => rfl }

omit [DecidableEq Id] in
theorem Shows.engine {dwords : Nat} (published : ring.rptr + 4 * dwords ≤ ring.wptr) :
    Invariant { ring with
      rptr := ring.rptr + 4 * dwords
      fetched := ring.fetched ++
        (List.range dwords).map fun i => ring.queueBuf ((ring.rptr / 4 + i) % ringDwords) } := by
  have visible : tickets.read + dwords ≤ tickets.offset tickets.published := by
    rw [shows.read, shows.written] at published
    omega
  refine ⟨_, holds, writers.fetch visible, ?_⟩
  exact
    { shows with
      fetched := by
        show tickets.fetched ++ _ = ring.fetched ++ _
        rw [shows.fetched, TicketRing.ahead, shows.memory, shows.read,
          Nat.mul_div_cancel_left _ (by decide)]
        simp only [TicketRing.slot, Nat.zero_add]
      read := by
        rw [TicketRing.read_fetch, shows.read, Nat.mul_add]
      caches := fun other => Nat.le_trans (shows.caches other) (Nat.le_add_right _ _)
      attempts := fun other => (shows.attempts other).mono (Nat.le_add_right _ _) (le_refl _)
      phases := fun other => (shows.phases other).frame (fun _ _ _ claimed => ⟨claimed, rfl, rfl⟩)
        (fun _ => rfl) fun _ _ => rfl }

end

/-! ### The space check -/

/-- A check against a read pointer not newer than the real one leaves enough space, or the index it
was made for has been taken since. -/
theorem attempt_of_indexSub {curIndex hwRead rptr cachedWptr : Nat}
    (notAhead : curIndex ≤ cachedWptr) (old : hwRead ≤ rptr) (unread : rptr ≤ cachedWptr)
    (space : indexSub (newIndex curIndex call.submission.bytes) hwRead < sdmaQueueSize) :
    (Phase.exchange call curIndex).Attempt rptr cachedWptr := by
  refine ⟨notAhead, fun bounded => ?_⟩
  rw [newIndex, Nat.mod_eq_of_lt bounded, indexSub] at space
  by_cases ahead : hwRead ≤ curIndex + call.submission.bytes +
      paddingFor curIndex call.submission.bytes
  · left
    rw [Nat.add_comm _ indexRange, Nat.add_sub_assoc ahead, Nat.add_mod_left,
      Nat.mod_eq_of_lt (by omega)] at space
    omega
  · right
    omega

theorem canWriteUpto_sound (call : Call format) {curIndex rptr cachedWptr : Nat}
    (notAhead : curIndex ≤ cachedWptr) (old : state.cachedHwReadIndex ≤ rptr)
    (unread : rptr ≤ cachedWptr) (useState : Bool) :
    (canWriteUpto (newIndex curIndex call.submission.bytes) rptr useState state).2.cachedHwReadIndex
        ≤ rptr ∧
      ((canWriteUpto (newIndex curIndex call.submission.bytes) rptr useState state).1 = true →
        (Phase.exchange call curIndex).Attempt rptr cachedWptr) := by
  unfold canWriteUpto
  split
  case isTrue fast =>
    rw [Bool.and_eq_true, decide_eq_true_eq] at fast
    exact ⟨old, fun _ => attempt_of_indexSub notAhead old unread fast.2⟩
  case isFalse slow =>
    refine ⟨?_, fun space => attempt_of_indexSub notAhead (le_refl rptr) unread
      (of_decide_eq_true space)⟩
    cases useState
    · exact old
    · exact le_refl rptr

/-! ### Every step -/

/-- A step reserves nothing or some bytes, and while the indices stay below `2 ^ 64` it moves
`wptr` only forward and keeps the invariant. -/
structure Sound (ring next : Ring Id format) : Prop where
  reserved : ring.totalReserved ≤ next.totalReserved
  forward : Invariant ring → ring.wptr ≤ next.wptr
  kept : Invariant ring → next.totalReserved < indexRange → Invariant next

theorem sound_of_setProducer
    (own : ∀ {tickets holds}, tickets.Writers ringDwords 0 holds → Shows ring tickets holds →
      ProducerOk tickets (holds id) producer.phase ∧ producer.state.cachedHwReadIndex ≤ ring.rptr ∧
        producer.phase.Attempt ring.rptr ring.cachedWptr) :
    Sound ring (ring.setProducer id producer) where
  reserved := le_refl _
  forward := fun _ => le_refl _
  kept := fun ⟨tickets, holds, writers, shows⟩ _ => by
    obtain ⟨ok, cache, attempt⟩ := own writers shows
    exact ⟨tickets, holds, writers, shows.setProducer ok cache attempt⟩

theorem sound_of_setPhase {before phase : Phase format}
    (place : (ring.producers id).phase = before)
    (ok : ∀ {tickets holds}, tickets.Writers ringDwords 0 holds → Shows ring tickets holds →
      ProducerOk tickets (holds id) before → ProducerOk tickets (holds id) phase)
    (attempt : phase.Attempt ring.rptr ring.cachedWptr) : Sound ring (ring.setPhase id phase) :=
  sound_of_setProducer fun writers shows =>
    ⟨ok writers shows (place ▸ shows.phases id), shows.caches id, attempt⟩

theorem advanceProducer_sound (move : ring.advanceProducer id = some next) : Sound ring next := by
  unfold Ring.advanceProducer at move
  split at move
  case h_1 => cases move
  case h_2 call phase =>
    cases move
    exact sound_of_setPhase phase (fun _ _ free => free) (le_refl _)
  case h_3 call curIndex phase =>
    cases move
    refine sound_of_setProducer fun writers shows => ?_
    have free := shows.phases id
    have attempt := shows.attempts id
    rw [phase] at free attempt
    have bounds := shows.bounds writers
    obtain ⟨cache, granted⟩ := canWriteUpto_sound call attempt (shows.caches id)
      (Nat.le_trans bounds.1 bounds.2) call.reserveState
    refine ⟨?_, cache, ?_⟩
    · split <;> exact free
    · split
      case isTrue answer => exact granted answer
      case isFalse => exact trivial
  case h_4 call curIndex phase =>
    split at move
    case isTrue current =>
      subst current
      cases move
      have total : Ring.totalReserved
          { ring with pending := ring.pending ++ [(id, ring.reservation call)] } =
            ring.totalReserved + (paddingFor ring.cachedWptr call.submission.bytes +
              call.submission.bytes) := by
        simp [Ring.totalReserved, Ring.reservations, Reservation.bytes, Nat.add_assoc,
          Ring.reservation]
      refine ⟨(Nat.le_add_right _ _).trans total.symm.le, fun _ => le_refl _, ?_⟩
      rintro ⟨tickets, holds, writers, shows⟩ bounded
      have below := lt_of_eq_of_lt total.symm bounded
      rw [shows.totalReserved_eq] at below
      exact shows.exchange writers phase (by omega)
    case isFalse =>
      cases move
      exact sound_of_setPhase phase (fun _ _ free => free) trivial
  case h_5 call base pendingWptr phase =>
    cases move
    refine sound_of_setPhase phase (fun {tickets holds} writers _ ok => ?_) trivial
    obtain ⟨ticket, words, held, reserves, rest⟩ := ok
    exact ⟨ticket, words, held, reserves, Nat.le_antisymm
      (writers.invariant.within ticket words reserves.1) (slotsFrom_drop_nil rest)⟩
  case h_6 call base slot word stores pendingWptr phase =>
    cases move
    refine ⟨le_refl _, fun _ => le_refl _, ?_⟩
    rintro ⟨_, _, writers, shows⟩ _
    exact shows.store writers phase
  case h_7 call base pendingWptr phase =>
    split at move
    case isTrue committed =>
      cases move
      refine sound_of_setPhase phase (fun writers shows ok => ?_) trivial
      obtain ⟨ticket, words, held, reserves, complete⟩ := ok
      obtain rfl := shows.turn writers held (committed.trans reserves.2.1)
      exact ⟨words, held, reserves, complete⟩
    case isFalse =>
      cases move
      exact ⟨le_refl _, fun _ => le_refl _, fun invariant _ => invariant⟩
  case h_8 call base pendingWptr phase =>
    cases move
    refine ⟨le_refl _, ?_, ?_⟩
    · rintro ⟨_, _, writers, shows⟩
      exact (shows.publish writers phase).1
    · rintro ⟨_, _, writers, shows⟩ _
      exact (shows.publish writers phase).2
  case h_9 call base pendingWptr phase =>
    cases move
    have sound : Sound ring (ring.setPhase id (.advance call base pendingWptr)) :=
      sound_of_setPhase phase (fun _ _ ok => ok) trivial
    refine ⟨sound.reserved, sound.forward, fun invariant bounded => ?_⟩
    obtain ⟨tickets, holds, writers, shows⟩ := sound.kept invariant bounded
    exact ⟨tickets, holds, writers, { shows with }⟩
  case h_10 call base pendingWptr phase =>
    cases move
    refine ⟨?_, fun _ => le_refl _, ?_⟩
    · simp only [Ring.totalReserved, Ring.reservations, List.append_assoc, ← List.map_append,
        List.take_append_drop]
      exact le_refl _
    · rintro ⟨_, _, writers, shows⟩ _
      exact shows.advance writers phase (by split <;> exact shows.caches id)

theorem step_sound {label : Label Id format} (move : ring.step label = some next) :
    Sound ring next := by
  cases label with
  | call id call =>
    simp only [Ring.step] at move
    split at move
    case h_1 phase =>
      cases move
      exact sound_of_setPhase phase (fun _ _ free => free) trivial
    case h_2 => cases move
  | init id =>
    simp only [Ring.step] at move
    split at move
    case h_1 phase =>
      cases move
      refine sound_of_setProducer fun _ shows => ⟨?_, le_refl _, trivial⟩
      have free := shows.phases id
      rwa [phase] at free
    case h_2 => cases move
  | step id => exact advanceProducer_sound move
  | engine dwords =>
    simp only [Ring.step] at move
    split at move
    case isTrue published =>
      cases move
      exact ⟨le_refl _, fun _ => le_refl _,
        fun ⟨_, _, writers, shows⟩ _ => shows.engine writers published⟩
    case isFalse => cases move

theorem run_ring_invariant {queueBuf : Nat → Nat} {labels : List (Label Id format)}
    (reaches : run Ring.step (Ring.fresh queueBuf) labels = some ring)
    (bounded : ring.totalReserved < indexRange) : Invariant ring :=
  run_invariant (motive := fun ring => ring.totalReserved < indexRange → Invariant ring)
    (fun _ _ _ kept move bounded =>
      have sound := step_sound move
      sound.kept (kept (Nat.lt_of_le_of_lt sound.reserved bounded)) bounded)
    (fun _ => fresh_invariant queueBuf) reaches bounded

/-! ### What the ring guarantees -/

def packetSpans : Nat → List (Packet format) → List (Nat × Nat)
  | _, [] => []
  | start, packet :: rest => (start, packet.bytes) :: packetSpans (start + packet.bytes) rest

theorem packetSpans_fit {start : Nat} {packets : List (Packet format)}
    (fits : start % sdmaQueueSize + (packets.map Packet.bytes).sum ≤ sdmaQueueSize)
    {span : Nat × Nat} (member : span ∈ packetSpans start packets) :
    span.1 % sdmaQueueSize + span.2 ≤ sdmaQueueSize := by
  induction packets generalizing start with
  | nil => exact absurd member List.not_mem_nil
  | cons packet rest inductionHypothesis =>
    rw [List.map_cons, List.sum_cons] at fits
    rcases List.mem_cons.mp member with rfl | later
    · simp only
      omega
    · refine inductionHypothesis ?_ later
      rw [sdmaQueueSize_eq] at fits ⊢
      omega

def Ring.unread (ring : Ring Id format) : List Nat :=
  (List.range ((ring.wptr - ring.rptr) / 4)).map fun i =>
    ring.queueBuf ((ring.rptr / 4 + i) % ringDwords)

/-- The reserved regions follow one another from zero to `cachedWptr`; every packet lies in one
piece in the ring; a store that a producer is about to make misses every published dword that is
still unread; the dwords between the read and the write pointer are the ones that belong there; no
step moves `wptr` back; and what the engine has read, continued with what is published, decodes to
the packets of the reservations below `wptr`, in their order. -/
structure Ring.Safe (ring : Ring Id format) : Prop where
  tiles : Tiles 0 ring.reservations ring.cachedWptr
  disjoint : ring.reservations.Pairwise fun earlier later =>
    earlier.base + earlier.bytes ≤ later.base
  unbroken : ∀ reservation ∈ ring.reservations,
    ∀ span ∈ packetSpans (reservation.base + reservation.offset) reservation.submission.packets,
      span.1 % sdmaQueueSize + span.2 ≤ sdmaQueueSize
  storesMiss : ∀ id call base slot word stores pendingWptr,
    (ring.producers id).phase = .place call base ((slot, word) :: stores) pendingWptr →
      ∀ position, ring.rptr ≤ 4 * position → 4 * position < ring.wptr → position % ringDwords ≠ slot
  stored : ∀ position word, ring.rptr ≤ 4 * position → 4 * position < ring.wptr →
    (stream ring.reservations)[position]? = some word → ring.queueBuf (position % ringDwords) = word
  forward : ∀ label next, ring.step label = some next → ring.wptr ≤ next.wptr
  decoded : ∃ published later, ring.reservations = published ++ later ∧
    Tiles 0 published ring.wptr ∧
    decode format (ring.fetched ++ ring.unread) = .atBoundary (published.flatMap fun reservation =>
        reservation.submission.packets.map Packet.words)

omit [DecidableEq Id] in
theorem Shows.published_tiles (shows : Shows ring tickets holds) :
    Tiles 0 (ring.reservations.take tickets.published) ring.wptr ∧
      stream (ring.reservations.take tickets.published) =
        tickets.stream.take (tickets.offset tickets.published) := by
  have tiles := shows.tiles
  rw [← List.take_append_drop tickets.published ring.reservations] at tiles
  obtain ⟨middle, below, -⟩ := tiles_append.mp tiles
  have handed : stream (ring.reservations.take tickets.published) =
      tickets.stream.take (tickets.offset tickets.published) := by
    rw [TicketRing.stream_take_offset, shows.claims, ← List.map_take, stream, List.flatMap_def]
  have stop := below.stream_length
  rw [handed, TicketRing.stream_take_offset, Nat.zero_add] at stop
  refine ⟨?_, handed⟩
  rw [shows.written, TicketRing.offset, stop]
  exact below

omit [DecidableEq Id] in
theorem Shows.fetched_unread (writers : tickets.Writers ringDwords 0 holds)
    (shows : Shows ring tickets holds) :
    ring.fetched ++ ring.unread = stream (ring.reservations.take tickets.published) := by
  have read := writers.invariant.readPublished
  have count : (ring.wptr - ring.rptr) / 4 = tickets.offset tickets.published - tickets.read := by
    rw [shows.written, shows.read]
    omega
  have visible : tickets.read + (tickets.offset tickets.published - tickets.read) =
      tickets.offset tickets.published := Nat.add_sub_cancel' read
  have ahead : ring.unread = tickets.ahead ringDwords 0 ((ring.wptr - ring.rptr) / 4) := by
    rw [Ring.unread, TicketRing.ahead, shows.memory, shows.read,
      Nat.mul_div_cancel_left _ (by decide)]
    simp only [TicketRing.slot, Nat.zero_add]
  rw [shows.published_tiles.2, ahead, count, ← shows.fetched,
    writers.invariant.fetched_ahead visible.le, visible]

/-- Whatever the producers submit, however their accesses interleave and however far the
engine reads, the ring keeps its guarantees as long as the reserved bytes stay below
`2 ^ 64`. -/
theorem sdmaQueueHandle_safe (queueBuf : Nat → Nat) (labels : List (Label Id format))
    (ring : Ring Id format) (reaches : run Ring.step (Ring.fresh queueBuf) labels = some ring)
    (bounded : ring.totalReserved < indexRange) : ring.Safe := by
  have invariant := run_ring_invariant reaches bounded
  obtain ⟨tickets, holds, writers, shows⟩ := invariant
  refine ⟨shows.tiles, shows.tiles.pairwise, ?_, ?_, ?_, ?_, _, _,
    (List.take_append_drop tickets.published _).symm, shows.published_tiles.1, ?_⟩
  · intro reservation member span inside
    obtain ⟨-, -, -, offset⟩ := shows.tiles.mem member
    refine packetSpans_fit ?_ inside
    rw [offset]
    exact paddingFor_fits reservation.base reservation.submission
  · intro id call base slot word stores pendingWptr phase position unread visible
    obtain ⟨ticket, words, held, reserves, next, rfl, -⟩ := shows.store_position phase
    obtain ⟨missing, -⟩ := List.getElem?_eq_some_iff.mp next
    obtain ⟨storeUnread, above, below⟩ := writers.invariant.store_position
      (writers.storing id ticket held).1 reserves.1 missing
    rw [shows.read] at unread
    rw [shows.written] at visible
    have apart : TicketRing.slot ringDwords 0 position ≠ _ :=
      writers.invariant.slot_ne (by omega) (by omega) storeUnread below (by omega)
    rwa [TicketRing.slot, Nat.zero_add] at apart
  · intro position word unread visible found
    rw [shows.read] at unread
    rw [shows.written] at visible
    rw [← shows.stream_eq] at found
    have stored := writers.invariant.published_contents (by omega) (by omega) found
    rwa [TicketRing.slot, Nat.zero_add, shows.memory] at stored
  · exact fun label next move => (step_sound move).forward ⟨tickets, holds, writers, shows⟩
  · rw [shows.fetched_unread writers]
    exact decode_stream [] _

/-- Two producers whose calls interleave, with the engine reading in between: the first
reserves, the second reserves and stores, and the first publishes before the second. -/
def twoProducers : List (Label Bool fun _ => 2) :=
  [.call false ⟨⟨[⟨1, [7], by decide, rfl, by decide⟩], by decide, by decide⟩, true, true⟩,
    .call true ⟨⟨[⟨2, [8], by decide, rfl, by decide⟩], by decide, by decide⟩, false, false⟩] ++
    List.replicate 3 (.step false) ++ List.replicate 7 (.step true) ++
    List.replicate 6 (.step false) ++ [.engine 1] ++ List.replicate 1 (.step false) ++
    List.replicate 4 (.step true) ++ [.engine 3]

theorem sdmaQueueHandle_safe_twoProducers :
    ∃ ring : Ring Bool (fun _ => 2), run Ring.step (Ring.fresh fun _ => 0) twoProducers =
      some ring ∧ ring.fetched = [1, 7, 2, 8] ∧ ring.Safe := by
  have observed : (run Ring.step (Ring.fresh fun _ => 0) twoProducers).map
      (fun ring => (ring.fetched, ring.totalReserved)) = some ([1, 7, 2, 8], 16) := by
    decide +kernel
  obtain ⟨ring, reaches, seen⟩ := Option.map_eq_some_iff.mp observed
  obtain ⟨fetched, reserved⟩ := Prod.mk.inj seen
  exact ⟨ring, reaches, fetched,
    sdmaQueueHandle_safe (fun _ => 0) twoProducers ring reaches (reserved ▸ by decide)⟩

end RocmXio.Sdma
