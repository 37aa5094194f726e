/-
Where the dwords of a reservation go.

A reservation is a region of the endless stream that the producers write, and the ring shows the
stream through a window of `SDMA_QUEUE_SIZE` bytes. In terms of the stream, the padding of
`paddingFor` moves the packets of a submission to the next pass exactly when they would not fit
before the ring end, and the dword indices that `placePacket` computes separately for the padding
and for each packet are the images of consecutive positions. Reservations that follow one another
tile the stream, which is the concatenation of their dwords.
-/

import RocmXio.Sdma.Ring

namespace RocmXio.Sdma

variable {format : Format}

/-! ### Sizes -/

theorem Packet.words_length (packet : Packet format) : 4 * packet.words.length = packet.bytes := rfl

theorem sum_bytes (packets : List (Packet format)) :
    (packets.map Packet.bytes).sum = 4 * (packets.flatMap Packet.words).length := by
  induction packets with
  | nil => rfl
  | cons packet rest inductionHypothesis =>
    rw [List.map_cons, List.sum_cons, inductionHypothesis, List.flatMap_cons,
      List.length_append, Nat.mul_add, Packet.words_length]

variable (submission : Submission format)

theorem Submission.bytes_eq :
    submission.bytes = 4 * (submission.packets.flatMap Packet.words).length :=
  sum_bytes submission.packets

theorem Submission.bytes_pos : 0 < submission.bytes := by
  obtain ⟨packets, nonempty, halfRing⟩ := submission
  cases packets with
  | nil => exact absurd rfl nonempty
  | cons packet rest =>
    show 0 < ((packet :: rest).map Packet.bytes).sum
    exact Nat.add_pos_left packet.bytes_pos _

theorem Submission.bytes_le : submission.bytes ≤ 4194304 :=
  submission.halfRing

/-! ### Padding -/

theorem paddingFor_cases (curIndex size : Nat) :
    paddingFor curIndex size = 0 ∧ curIndex % sdmaQueueSize + size ≤ sdmaQueueSize ∨
      curIndex % sdmaQueueSize + paddingFor curIndex size = sdmaQueueSize := by
  unfold paddingFor wrapIntoRing
  have inRing : curIndex % sdmaQueueSize < sdmaQueueSize := Nat.mod_lt _ (by decide)
  split
  · exact Or.inr (by omega)
  · exact Or.inl ⟨rfl, by omega⟩

theorem paddingFor_fits (curIndex : Nat) (submission : Submission format) :
    (curIndex + paddingFor curIndex submission.bytes) % sdmaQueueSize + submission.bytes ≤
      sdmaQueueSize := by
  have half := submission.bytes_le
  rcases paddingFor_cases curIndex submission.bytes with ⟨none, fits⟩ | atEnd
  · rw [none, Nat.add_zero]
    exact fits
  · rw [sdmaQueueSize_eq] at atEnd ⊢
    omega

theorem paddingFor_aligned {curIndex : Nat} (aligned : 4 ∣ curIndex) (size : Nat) :
    4 ∣ paddingFor curIndex size := by
  rcases paddingFor_cases curIndex size with ⟨none, -⟩ | atEnd
  · rw [none]
    exact dvd_zero 4
  · rw [sdmaQueueSize_eq] at atEnd
    omega

/-! ### The stores of a submission -/

/-- The stores that put consecutive dwords of the stream into the ring. -/
def slotsFrom : Nat → List Nat → List (Nat × Nat)
  | _, [] => []
  | position, word :: rest => (position % ringDwords, word) :: slotsFrom (position + 1) rest

theorem slotsFrom_append (position : Nat) (first second : List Nat) :
    slotsFrom position (first ++ second) =
      slotsFrom position first ++ slotsFrom (position + first.length) second := by
  induction first generalizing position with
  | nil => rfl
  | cons word rest inductionHypothesis =>
    rw [List.cons_append, slotsFrom, slotsFrom, inductionHypothesis, List.cons_append,
      List.length_cons, Nat.add_right_comm position 1, Nat.add_assoc]

theorem slotsFrom_drop_nil {position count : Nat} {words : List Nat}
    (all : [] = slotsFrom position (words.drop count)) : words.length ≤ count := by
  cases missing : words.drop count with
  | nil => exact List.drop_eq_nil_iff.mp missing
  | cons first others =>
    rw [missing] at all
    cases all

theorem slotsFrom_drop_cons {position count slot word : Nat} {words : List Nat}
    {stores : List (Nat × Nat)}
    (rest : (slot, word) :: stores = slotsFrom position (words.drop count)) :
    words[count]? = some word ∧ slot = position % ringDwords ∧
      stores = slotsFrom (position + 1) (words.drop (count + 1)) := by
  cases missing : words.drop count with
  | nil =>
    rw [missing] at rest
    cases rest
  | cons first others =>
    rw [missing, slotsFrom, List.cons.injEq, Prod.mk.injEq] at rest
    obtain ⟨⟨rfl, rfl⟩, rfl⟩ := rest
    rw [← List.head?_drop, ← List.drop_drop, missing]
    exact ⟨rfl, rfl, rfl⟩

/-- Indices counted up from one ring position are consecutive stream positions as long as
they stay inside the ring. -/
theorem mapIdx_eq_slotsFrom (position : Nat) (words : List Nat)
    (inside : position % ringDwords + words.length ≤ ringDwords) :
    words.mapIdx (fun i word => (position % ringDwords + i, word)) = slotsFrom position words := by
  induction words generalizing position with
  | nil => rfl
  | cons word rest inductionHypothesis =>
    rw [List.length_cons] at inside
    rw [List.mapIdx_cons, slotsFrom]
    refine congrArg₂ List.cons rfl ?_
    by_cases last : rest = []
    · rw [last]
      rfl
    · have more : 0 < rest.length := List.length_pos_iff.mpr last
      have next : (position + 1) % ringDwords = position % ringDwords + 1 := by
        rw [ringDwords_eq] at inside ⊢
        omega
      rw [← inductionHypothesis (position + 1) (by omega), next]
      refine congrArg (fun store => rest.mapIdx store) ?_
      funext i following
      rw [Nat.add_assoc, Nat.add_comm 1 i]

/-! ### Indices and positions -/

def Submission.words : List Nat :=
  submission.packets.flatMap Packet.words

theorem Submission.words_length_le : submission.words.length ≤ 1048576 := by
  have half := submission.bytes_le
  rw [submission.bytes_eq] at half
  rw [Submission.words]
  omega

theorem Submission.words_ne_nil : submission.words ≠ [] := by
  intro empty
  have positive := submission.bytes_pos
  rw [submission.bytes_eq, ← Submission.words, empty] at positive
  exact absurd positive (lt_irrefl 0)

/-- The index of a position of the stream, for a queue that starts at dword `start`. -/
def indexAt (start position : Nat) : Nat := 4 * (start + position) % indexRange

theorem indexRange_eq : indexRange = 18446744073709551616 := rfl

theorem wrapIntoRing_indexAt (start position : Nat) :
    wrapIntoRing (indexAt start position) = 4 * ((start + position) % ringDwords) := by
  rw [wrapIntoRing, indexAt, indexRange_eq, sdmaQueueSize_eq, ringDwords_eq]
  omega

theorem indexAt_add (start position count : Nat) :
    (indexAt start position + 4 * count) % indexRange = indexAt start (position + count) := by
  rw [indexAt, indexAt, Nat.mod_add_mod, Nat.mul_add, Nat.mul_add, Nat.mul_add, Nat.add_assoc]

theorem mapIdx_indexAt {start position : Nat} {words : List Nat}
    (fits : (start + position) % ringDwords + words.length ≤ ringDwords) :
    (words.mapIdx fun i word => (wrapIntoRing (indexAt start position) / 4 + i, word)) =
      slotsFrom (start + position) words := by
  rw [wrapIntoRing_indexAt, Nat.mul_div_cancel_left _ (by decide), mapIdx_eq_slotsFrom _ _ fits]

/-- The padding in front of a region of `count` dwords, in dwords. -/
def paddingBefore (position count : Nat) : Nat :=
  if ringDwords < position % ringDwords + count then ringDwords - position % ringDwords else 0

theorem paddingBefore_cases (position count : Nat) :
    paddingBefore position count = 0 ∧ position % ringDwords + count ≤ ringDwords ∨
      position % ringDwords + paddingBefore position count = ringDwords ∧
        paddingBefore position count < count := by
  have inRing : position % ringDwords < ringDwords := Nat.mod_lt _ (by decide)
  unfold paddingBefore
  split
  · exact Or.inr (by omega)
  · exact Or.inl (by omega)

theorem placePacket_indexAt (packet : Packet format) {start position padding : Nat}
    (atEnd : padding = 0 ∨ (start + position) % ringDwords + padding = ringDwords)
    (fits : (start + position + padding) % ringDwords + packet.words.length ≤ ringDwords) :
    placePacket packet (indexAt start position) (4 * padding) =
      (slotsFrom (start + position) (nopPadding padding ++ packet.words),
        indexAt start (position + padding + packet.words.length)) := by
  have inRing : (start + position) % ringDwords < ringDwords := Nat.mod_lt _ (by decide)
  have paddingInside : (start + position) % ringDwords + (nopPadding padding).length ≤
      ringDwords := by
    rw [nopPadding_length]
    omega
  rw [Nat.add_assoc] at fits
  simp only [placePacket, indexAt_add, Packet.bytes,
    Nat.mul_div_cancel_left _ (show 0 < 4 by decide)]
  rw [mapIdx_indexAt paddingInside, mapIdx_indexAt fits, slotsFrom_append, nopPadding_length,
    Nat.add_assoc start]

theorem placePackets_indexAt (packets : List (Packet format)) {start position padding : Nat}
    (nonempty : packets ≠ [])
    (atEnd : padding = 0 ∨ (start + position) % ringDwords + padding = ringDwords)
    (fits : (start + position + padding) % ringDwords + (packets.flatMap Packet.words).length ≤
      ringDwords) :
    placePackets packets (indexAt start position) (4 * padding) =
      (slotsFrom (start + position) (nopPadding padding ++ packets.flatMap Packet.words),
        indexAt start (position + padding + (packets.flatMap Packet.words).length)) := by
  induction packets generalizing position padding with
  | nil => exact absurd rfl nonempty
  | cons packet rest inductionHypothesis =>
    rw [List.flatMap_cons, List.length_append] at fits ⊢
    rw [placePackets, placePacket_indexAt packet atEnd (by omega)]
    by_cases last : rest = []
    · subst last
      simp [placePackets]
    · have inside : (start + (position + padding + packet.words.length) + 0) % ringDwords +
          (rest.flatMap Packet.words).length ≤ ringDwords := by
        rw [ringDwords_eq] at fits ⊢
        omega
      have others : placePackets rest
          (indexAt start (position + padding + packet.words.length)) 0 = _ :=
        inductionHypothesis last (Or.inl rfl) inside
      have behind : start + (position + padding + packet.words.length) =
          start + position + (nopPadding padding ++ packet.words).length := by
        rw [List.length_append, nopPadding_length]
        omega
      simp only [others]
      refine Prod.ext ?_ (congrArg (indexAt start) (by omega))
      show _ ++ slotsFrom _ ([] ++ _) = _
      rw [List.nil_append, behind, ← slotsFrom_append, List.append_assoc]

section

variable (submission : Submission format) (start position : Nat)

/-- What a submission puts into the ring at a position, padding included. -/
def Submission.padded : List Nat :=
  nopPadding (paddingBefore (start + position) submission.words.length) ++ submission.words

theorem paddingFor_submission : paddingFor (indexAt start position) submission.bytes =
    4 * paddingBefore (start + position) submission.words.length := by
  rw [submission.bytes_eq, ← Submission.words, paddingFor, wrapIntoRing_indexAt, paddingBefore,
    sdmaQueueSize_eq, ringDwords_eq]
  split <;> split <;> omega

theorem Submission.padded_length : (submission.padded start position).length =
    paddingBefore (start + position) submission.words.length + submission.words.length := by
  rw [Submission.padded, List.length_append, nopPadding_length]

theorem Submission.padded_ne_nil : submission.padded start position ≠ [] :=
  fun empty => submission.words_ne_nil (List.append_eq_nil_iff.mp empty).2

theorem newIndex_submission : newIndex (indexAt start position) submission.bytes =
    indexAt start (position + (submission.padded start position).length) := by
  rw [newIndex, paddingFor_submission, submission.bytes_eq, ← Submission.words, Nat.add_assoc,
    ← Nat.mul_add, indexAt_add, submission.padded_length, Nat.add_comm submission.words.length]

theorem placePackets_submission : placePackets submission.packets (indexAt start position)
      (paddingFor (indexAt start position) submission.bytes) =
    (slotsFrom (start + position) (submission.padded start position),
      indexAt start (position + (submission.padded start position).length)) := by
  have small := submission.words_length_le
  have cases := paddingBefore_cases (start + position) submission.words.length
  have fits : (start + position + paddingBefore (start + position) submission.words.length) %
      ringDwords + submission.words.length ≤ ringDwords := by
    rw [ringDwords_eq] at cases ⊢
    omega
  rw [paddingFor_submission, submission.padded_length, ← Nat.add_assoc]
  exact placePackets_indexAt submission.packets submission.nonempty
    (cases.imp And.left And.left) fits

end

/-! ### Regions of the stream -/

/-- The reservations follow one another from `start` to `stop`, each with the padding that
its place asks for. -/
def Tiles : Nat → List (Reservation format) → Nat → Prop
  | start, [], stop => start = stop
  | start, reservation :: rest, stop =>
    reservation.base = start ∧ 4 ∣ start ∧
      reservation.offset = paddingFor start reservation.submission.bytes ∧
      Tiles (start + reservation.bytes) rest stop

theorem tiles_append {start stop : Nat} {first second : List (Reservation format)} :
    Tiles start (first ++ second) stop ↔
      ∃ middle, Tiles start first middle ∧ Tiles middle second stop := by
  induction first generalizing start with
  | nil => simp [Tiles]
  | cons reservation rest inductionHypothesis =>
    simp only [List.cons_append, Tiles, inductionHypothesis]
    constructor
    · rintro ⟨base, aligned, offset, middle, before, after⟩
      exact ⟨middle, ⟨base, aligned, offset, before⟩, after⟩
    · rintro ⟨middle, ⟨base, aligned, offset, before⟩, after⟩
      exact ⟨base, aligned, offset, middle, before, after⟩

theorem Tiles.stop_eq {start stop : Nat} {reservations : List (Reservation format)}
    (tiles : Tiles start reservations stop) :
    stop = start + (reservations.map Reservation.bytes).sum := by
  induction reservations generalizing start with
  | nil => exact tiles.symm
  | cons reservation rest inductionHypothesis =>
    obtain ⟨-, -, -, tail⟩ := tiles
    rw [inductionHypothesis tail, List.map_cons, List.sum_cons, Nat.add_assoc]

theorem Tiles.mem {start stop : Nat} {reservations : List (Reservation format)}
    (tiles : Tiles start reservations stop) {reservation : Reservation format}
    (member : reservation ∈ reservations) :
    start ≤ reservation.base ∧ reservation.base + reservation.bytes ≤ stop ∧ 4 ∣ reservation.base ∧
      reservation.offset = paddingFor reservation.base reservation.submission.bytes := by
  induction reservations generalizing start with
  | nil => exact absurd member List.not_mem_nil
  | cons head rest inductionHypothesis =>
    obtain ⟨base, aligned, offset, tail⟩ := tiles
    rcases List.mem_cons.mp member with rfl | later
    · rw [base]
      have stop := tail.stop_eq
      exact ⟨le_refl _, by omega, aligned, offset⟩
    · obtain ⟨after, rest⟩ := inductionHypothesis tail later
      exact ⟨by omega, rest⟩

theorem Tiles.pairwise {start stop : Nat} {reservations : List (Reservation format)}
    (tiles : Tiles start reservations stop) :
    reservations.Pairwise fun earlier later => earlier.base + earlier.bytes ≤ later.base := by
  induction reservations generalizing start with
  | nil => exact List.Pairwise.nil
  | cons head rest inductionHypothesis =>
    obtain ⟨base, -, -, tail⟩ := tiles
    refine List.Pairwise.cons (fun later member => ?_) (inductionHypothesis tail)
    rw [base]
    exact (tail.mem member).1

theorem Reservation.words_length {reservation : Reservation format}
    (aligned : 4 ∣ reservation.base)
    (offset : reservation.offset = paddingFor reservation.base reservation.submission.bytes) :
    4 * reservation.words.length = reservation.bytes := by
  have offsetAligned := paddingFor_aligned aligned reservation.submission.bytes
  rw [Reservation.words, Reservation.bytes, List.length_append, nopPadding_length,
    Submission.bytes_eq]
  omega

def stream (reservations : List (Reservation format)) : List Nat :=
  reservations.flatMap Reservation.words

theorem Tiles.stream_length {start stop : Nat} {reservations : List (Reservation format)}
    (tiles : Tiles start reservations stop) :
    start + 4 * (stream reservations).length = stop := by
  induction reservations generalizing start with
  | nil => exact tiles
  | cons reservation rest inductionHypothesis =>
    obtain ⟨base, aligned, offset, tail⟩ := tiles
    have length : 4 * reservation.words.length = reservation.bytes :=
      Reservation.words_length (base ▸ aligned) (base ▸ offset)
    have rest := inductionHypothesis tail
    rw [stream, List.flatMap_cons, List.length_append]
    rw [stream] at rest
    omega

theorem decode_stream (packets : List (List Nat)) (reservations : List (Reservation format)) :
    (stream reservations).foldl (Decoder.feed format) (.atBoundary packets) =
      .atBoundary (packets ++ reservations.flatMap fun reservation =>
        reservation.submission.packets.map Packet.words) := by
  induction reservations generalizing packets with
  | nil => simp [stream]
  | cons reservation rest inductionHypothesis =>
    have one : reservation.words.foldl (Decoder.feed format) (.atBoundary packets) =
        .atBoundary (packets ++ reservation.submission.packets.map Packet.words) := by
      rw [Reservation.words, List.foldl_append, feed_nopPadding, feed_packets]
    rw [stream, List.flatMap_cons, List.foldl_append, one]
    have others := inductionHypothesis
      (packets ++ reservation.submission.packets.map Packet.words)
    rw [stream] at others
    rw [others, List.flatMap_cons, List.append_assoc]

end RocmXio.Sdma
