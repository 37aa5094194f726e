/-
The command ring of the PCI MMIO bridge.

`genPciMmioBridgeCmd` reads `producer_idx`, stores the three words of a command in that slot, reads
the index once more and stores its successor; the bridge executes the commands and advances
`consumer_idx`. The function ignores `consumer_idx`, nothing keeps producers apart, and the slots
survive the wrap of the index only if the depth divides `2 ^ 32`. If a call begins only when no
other one is under way and its slot is free, every command is executed once, in order.
-/

import RocmXio.Lib.BitFields
import RocmXio.Lib.Window

namespace RocmXio.Bridge

open Lib Function

/-! ### Commands -/

/-- The arguments of `genPciMmioBridgeCmd`. -/
structure Request where
  targetBdf : UInt16
  targetBar : UInt8
  offset : UInt32
  value : UInt64
  command : UInt8
  size : UInt8
deriving DecidableEq, Repr

def cmdWrite : UInt8 := 1

def statusPending : Nat := 0

/-- `pci_mmio_bridge_command` as the three words that `XioComEnqueue` stores. -/
def Request.words (request : Request) (slot : Nat) : List Nat :=
  [packFields [(16, request.targetBdf.toNat), (8, request.targetBar.toNat), (8, 0),
      (32, request.offset.toNat)],
    packFields [(64, request.value.toNat)],
    packFields [(8, request.command.toNat), (8, request.size.toNat), (8, statusPending), (8, 0),
      (32, slot)]]

def execute (words : Nat → Nat) : Request where
  targetBdf := UInt16.ofNat (field 0 16 (words 0))
  targetBar := UInt8.ofNat (field 16 8 (words 0))
  offset := UInt32.ofNat (field 32 32 (words 0))
  value := UInt64.ofNat (field 0 64 (words 1))
  command := UInt8.ofNat (field 0 8 (words 2))
  size := UInt8.ofNat (field 8 8 (words 2))

/-- The doorbell of the NVMe endpoint: `UINT32_MAX` stands for no other offset. -/
def nvmeDoorbell (nvmeTargetBdf doorbellOffset offsetOverride : UInt32) (value : UInt16) :
    Request where
  targetBdf := nvmeTargetBdf.toUInt16
  targetBar := 0
  offset := if offsetOverride ≠ 0xFFFFFFFF then offsetOverride else doorbellOffset
  value := value.toUInt64
  command := cmdWrite
  size := 4

def ernicDoorbell (ernicTargetBdf uarBarOffset value : UInt32) : Request where
  targetBdf := ernicTargetBdf.toUInt16
  targetBar := 2
  offset := uarBarOffset
  value := value.toUInt64
  command := cmdWrite
  size := 4

/-! ### The ring -/

/-- How far a call is: some words stored in its slot, or `producer_idx` read once more. -/
inductive Phase where
  | idle
  | storing (request : Request) (slot stored : Nat)
  | adding (request : Request) (index : Nat)
deriving DecidableEq, Repr

/-- The shared memory, the calls under way, and logs of the commands returned and executed. -/
structure State (Producer : Type*) where
  producerIdx : Nat
  consumerIdx : Nat
  queueDepth : Nat
  slots : Nat → Nat → Nat
  phase : Producer → Phase
  published : List Request
  executed : List Request

inductive Label (Producer : Type*) where
  | call (producer : Producer) (request : Request)
  | store (producer : Producer)
  | readIndex (producer : Producer)
  | publish (producer : Producer)
  | consume
deriving DecidableEq, Repr

namespace State

variable {Producer : Type*} [DecidableEq Producer]

def start (queueDepth index : Nat) (slots : Nat → Nat → Nat) : State Producer where
  producerIdx := index
  consumerIdx := index
  queueDepth := queueDepth
  slots := slots
  phase _ := .idle
  published := []
  executed := []

def setPhase (state : State Producer) (producer : Producer) (phase : Phase) : State Producer :=
  { state with phase := update state.phase producer phase }

variable (state : State Producer)

theorem setPhase_self (producer : Producer) (phase : Phase) :
    (state.setPhase producer phase).phase producer = phase :=
  update_self ..

theorem setPhase_of_ne {producer other : Producer} (phase : Phase) (different : other ≠ producer) :
    (state.setPhase producer phase).phase other = state.phase other :=
  update_of_ne different ..

def storeWord (state : State Producer) (slot index word : Nat) : State Producer :=
  { state with
    slots := update state.slots slot (update (state.slots slot) index word) }

/-- `genPciMmioBridgeCmd`, one access to the shared memory at a time, and the bridge. -/
def step (state : State Producer) : Label Producer → Option (State Producer)
  | .call producer request =>
    match state.phase producer with
    | .idle =>
      some (state.setPhase producer (.storing request (state.producerIdx % state.queueDepth) 0))
    | _ => none
  | .store producer =>
    match state.phase producer with
    | .storing request slot stored =>
      match (request.words slot)[stored]? with
      | some word =>
        some ((state.storeWord slot stored word).setPhase producer
          (.storing request slot (stored + 1)))
      | none => none
    | _ => none
  | .readIndex producer =>
    match state.phase producer with
    | .storing request slot stored =>
      if stored = (request.words slot).length then
        some (state.setPhase producer (.adding request state.producerIdx))
      else none
    | _ => none
  | .publish producer =>
    match state.phase producer with
    | .adding request index =>
      some { state.setPhase producer .idle with
        producerIdx := (index + 1) % 2 ^ 32
        published := state.published ++ [request] }
    | _ => none
  | .consume =>
    if state.consumerIdx = state.producerIdx then none
    else some { state with
      consumerIdx := (state.consumerIdx + 1) % 2 ^ 32
      executed := state.executed ++
        [execute (state.slots (state.consumerIdx % state.queueDepth))] }

def pending (state : State Producer) : Nat :=
  (state.producerIdx + 2 ^ 32 - state.consumerIdx) % 2 ^ 32

def pendingSlot (state : State Producer) (position : Nat) : Nat :=
  (state.consumerIdx + position) % 2 ^ 32 % state.queueDepth

/-- A call begins when no other one is under way and the slot at `producer_idx` is not that of
a pending command. -/
def Orderly (state : State Producer) : Label Producer → Prop
  | .call _ _ =>
    (∀ producer, state.phase producer = .idle) ∧ ∀ position < state.pending,
        state.pendingSlot position ≠ state.producerIdx % state.queueDepth
  | _ => True

/-- The bridge has executed the first commands in order, the others are intact in their slots, and
it goes through all of them. -/
structure ExactlyOnce (state : State Producer) : Prop where
  executed : state.executed = state.published.take state.executed.length
  counted : state.executed.length + state.pending = state.published.length
  intact : ∀ position < state.pending,
    state.published[state.executed.length + position]? =
      some (execute (state.slots (state.pendingSlot position)))
  drained : ∃ final, run step state (List.replicate state.pending .consume) = some final ∧
    final.executed = state.published

/-! ### The invariant -/

def Holds (state : State Producer) (slot : Nat) (request : Request) : Prop :=
  ∀ index word, (request.words slot)[index]? = some word → state.slots slot index = word

variable {state}

omit [DecidableEq Producer] in
theorem Holds.execute_eq {slot : Nat} {request : Request} (holds : state.Holds slot request) :
    execute (state.slots slot) = request := by
  simp only [execute, holds 0 _ rfl, holds 1 _ rfl, holds 2 _ rfl]
  simp

/-- The slot of the command with the given number, when the indices began at `origin`. -/
def slotAt (state : State Producer) (origin number : Nat) : Nat :=
  (origin + number) % 2 ^ 32 % state.queueDepth

/-- What is known about a call under way: its slot is the next one and free, and the words
stored so far are in it. -/
def PhaseOk (state : State Producer) (origin : Nat) : Phase → Prop
  | .idle => True
  | .storing request slot stored =>
    slot = state.slotAt origin state.published.length ∧
      (∀ number, state.executed.length ≤ number → number < state.published.length →
        state.slotAt origin number ≠ slot) ∧
      ∀ index < stored, ∀ word, (request.words slot)[index]? = some word →
        state.slots slot index = word
  | .adding request index =>
    index = state.producerIdx ∧
      (∀ number, state.executed.length ≤ number → number < state.published.length →
        state.slotAt origin number ≠ state.slotAt origin state.published.length) ∧
      state.Holds (state.slotAt origin state.published.length) request

/-- The indices count the logs, the pending commands are intact in different slots, and at most one
call is under way. -/
structure Invariant (origin : Nat) (state : State Producer) : Prop where
  depth_pos : 0 < state.queueDepth
  depth_lt : state.queueDepth < 2 ^ 32
  producer : state.producerIdx = (origin + state.published.length) % 2 ^ 32
  consumer : state.consumerIdx = (origin + state.executed.length) % 2 ^ 32
  behind : state.executed <+: state.published
  distinct : Set.InjOn (state.slotAt origin)
    (Set.Ico state.executed.length state.published.length)
  intact : ∀ number request, state.executed.length ≤ number →
    state.published[number]? = some request → state.Holds (state.slotAt origin number) request
  alone : ∀ first second, state.phase first ≠ .idle → state.phase second ≠ .idle → first = second
  phases : ∀ producer, state.PhaseOk origin (state.phase producer)

omit [DecidableEq Producer] in
theorem start_invariant {queueDepth index : Nat} (slots : Nat → Nat → Nat)
    (positive : 0 < queueDepth) (bounded : queueDepth < 2 ^ 32) (inRange : index < 2 ^ 32) :
    Invariant index (start queueDepth index slots : State Producer) where
  depth_pos := positive
  depth_lt := bounded
  producer := (Nat.mod_eq_of_lt inRange).symm
  consumer := (Nat.mod_eq_of_lt inRange).symm
  behind := List.prefix_rfl
  distinct := by simp [start]
  intact := by simp [start]
  alone := fun _ _ busy => absurd rfl busy
  phases := fun _ => trivial

namespace Invariant

variable {origin : Nat} (invariant : state.Invariant origin)

include invariant

omit [DecidableEq Producer]

theorem window_le : state.published.length - state.executed.length ≤ state.queueDepth := by
  have slots : Set.MapsTo (state.slotAt origin)
      (Finset.Ico state.executed.length state.published.length)
      (Finset.range state.queueDepth) := by
    intro number _
    exact Finset.mem_coe.mpr (Finset.mem_range.mpr (Nat.mod_lt _ invariant.depth_pos))
  have distinct := invariant.distinct
  rw [← Finset.coe_Ico] at distinct
  have card := Finset.card_le_card_of_injOn _ slots distinct
  rwa [Nat.card_Ico, Finset.card_range] at card

theorem pending_eq : state.pending = state.published.length - state.executed.length := by
  have window := invariant.window_le
  have depth := invariant.depth_lt
  have order := invariant.behind.length_le
  rw [pending, invariant.producer, invariant.consumer, distance_eq (by omega) (by omega)]
  omega

theorem pendingSlot_eq (position : Nat) :
    state.pendingSlot position = state.slotAt origin (state.executed.length + position) := by
  rw [pendingSlot, slotAt, invariant.consumer, Nat.mod_add_mod, Nat.add_assoc]

theorem next_eq : state.producerIdx % state.queueDepth =
    state.slotAt origin state.published.length := by
  rw [slotAt, invariant.producer]

theorem execute_pending {number : Nat} {request : Request}
    (unexecuted : state.executed.length ≤ number)
    (found : state.published[number]? = some request) :
    execute (state.slots (state.slotAt origin number)) = request :=
  (invariant.intact number request unexecuted found).execute_eq

end Invariant

/-! ### Steps -/

namespace Invariant

variable {origin : Nat} (invariant : state.Invariant origin)

include invariant

variable {producer : Producer} {phase : Phase}

theorem setPhase (others : ∀ other, other ≠ producer → state.phase other = .idle)
    (ok : state.PhaseOk origin phase) :
    (state.setPhase producer phase).Invariant origin where
  __ := invariant
  alone := by
    have only (other : Producer) (busy : (state.setPhase producer phase).phase other ≠ .idle) :
        other = producer := by
      by_contra different
      rw [state.setPhase_of_ne phase different] at busy
      exact busy (others other different)
    intro first second busyFirst busySecond
    rw [only first busyFirst, only second busySecond]
  phases := by
    intro other
    by_cases same : other = producer
    · rw [same, setPhase_self]
      exact ok
    · rw [setPhase_of_ne _ _ same]
      exact invariant.phases other

omit [DecidableEq Producer] in
theorem others_idle (under : state.phase producer = phase) (busy : phase ≠ .idle) :
    ∀ other, other ≠ producer → state.phase other = .idle := by
  intro other different
  by_contra otherBusy
  exact different (invariant.alone other producer otherBusy (under ▸ busy))

theorem call (request : Request) (orderly : state.Orderly (.call producer request)) :
    (state.setPhase producer
      (.storing request (state.producerIdx % state.queueDepth) 0)).Invariant origin := by
  obtain ⟨idle, free⟩ := orderly
  refine invariant.setPhase (fun other _ => idle other) ⟨invariant.next_eq, ?_, ?_⟩
  · intro number unexecuted published
    have apart := free (number - state.executed.length) (by
      rw [invariant.pending_eq]
      omega)
    rwa [invariant.pendingSlot_eq, Nat.add_sub_cancel' unexecuted] at apart
  · exact fun index below => absurd below (Nat.not_lt_zero index)

variable {request : Request}

omit [DecidableEq Producer] in
theorem holds_storeWord {slot stored word number : Nat}
    (unexecuted : state.executed.length ≤ number) (found : state.published[number]? = some request)
    (apart : state.slotAt origin number ≠ slot) :
    (state.storeWord slot stored word).Holds (state.slotAt origin number) request := by
  intro index expected member
  simp only [storeWord, update_of_ne apart]
  exact invariant.intact number request unexecuted found index expected member

theorem store {slot stored word : Nat} (busy : state.phase producer = .storing request slot stored)
    (next : (request.words slot)[stored]? = some word) :
    ((state.storeWord slot stored word).setPhase producer
      (.storing request slot (stored + 1))).Invariant origin := by
  have others := invariant.others_idle busy nofun
  have ok := invariant.phases producer
  rw [busy] at ok
  obtain ⟨place, free, written⟩ := ok
  have below {index : Nat} (earlier : index < stored + 1) (expected : Nat)
      (member : (request.words slot)[index]? = some expected) :
      (state.storeWord slot stored word).slots slot index = expected := by
    simp only [storeWord, update_self]
    rcases Nat.lt_succ_iff_lt_or_eq.mp earlier with before | rfl
    · rw [update_of_ne (Nat.ne_of_lt before)]
      exact written index before expected member
    · rw [update_self]
      exact Option.some.inj (next.symm.trans member)
  have kept : (state.storeWord slot stored word).Invariant origin := {
    invariant with
    intact := fun number other unexecuted found =>
      invariant.holds_storeWord unexecuted found
        (free number unexecuted (List.getElem?_eq_some_iff.mp found).1)
    phases := fun other => by
      by_cases same : other = producer
      · have phase : (state.storeWord slot stored word).phase other =
            .storing request slot stored := same ▸ busy
        rw [phase]
        exact ⟨place, free, fun index before => below (Nat.lt_succ_of_lt before)⟩
      · have phase : (state.storeWord slot stored word).phase other = .idle := others other same
        rw [phase]
        trivial }
  exact kept.setPhase others ⟨place, free, fun index earlier => below earlier⟩

theorem readIndex {slot stored : Nat} (busy : state.phase producer = .storing request slot stored)
    (complete : stored = (request.words slot).length) :
    (state.setPhase producer (.adding request state.producerIdx)).Invariant origin := by
  have ok := invariant.phases producer
  rw [busy] at ok
  obtain ⟨rfl, free, written⟩ := ok
  refine invariant.setPhase (invariant.others_idle busy nofun) ⟨rfl, free, ?_⟩
  intro index word member
  exact written index (complete ▸ (List.getElem?_eq_some_iff.mp member).1) word member

theorem publish {index : Nat} (busy : state.phase producer = .adding request index) :
    Invariant origin { state.setPhase producer .idle with
      producerIdx := (index + 1) % 2 ^ 32
      published := state.published ++ [request] } := by
  have idle := invariant.setPhase (invariant.others_idle busy nofun)
    (show state.PhaseOk origin .idle from trivial)
  have ok := invariant.phases producer
  rw [busy] at ok
  obtain ⟨rfl, free, holds⟩ := ok
  refine ⟨invariant.depth_pos, invariant.depth_lt, ?_, invariant.consumer,
    invariant.behind.trans (List.prefix_append _ _), ?_, ?_, idle.alone, fun other => ?_⟩
  · simp only [invariant.producer, List.length_append, List.length_singleton]
    omega
  · intro first firstIn second secondIn same
    simp only [List.length_append, List.length_singleton, Set.mem_Ico] at firstIn secondIn
    rcases Nat.lt_succ_iff_lt_or_eq.mp firstIn.2 with before | rfl
    · rcases Nat.lt_succ_iff_lt_or_eq.mp secondIn.2 with secondBefore | rfl
      · exact invariant.distinct ⟨firstIn.1, before⟩ ⟨secondIn.1, secondBefore⟩ same
      · exact absurd same (free first firstIn.1 before)
    · rcases Nat.lt_succ_iff_lt_or_eq.mp secondIn.2 with secondBefore | rfl
      · exact absurd same.symm (free second secondIn.1 secondBefore)
      · rfl
  · intro number other unexecuted found
    rcases Nat.lt_succ_iff_lt_or_eq.mp (List.length_append ▸ (List.getElem?_eq_some_iff.mp found).1)
      with before | rfl
    · rw [List.getElem?_append_left before] at found
      exact invariant.intact number other unexecuted found
    · rw [List.getElem?_concat_length] at found
      exact Option.some.inj found ▸ holds
  · have quiet : (state.setPhase producer .idle).phase other = .idle := by
      by_cases same : other = producer
      · rw [same, setPhase_self]
      · rw [setPhase_of_ne _ _ same]
        exact invariant.others_idle busy nofun other same
    simp only [quiet]
    trivial

omit [DecidableEq Producer] in
theorem consume (waiting : state.consumerIdx ≠ state.producerIdx) : Invariant origin { state with
      consumerIdx := (state.consumerIdx + 1) % 2 ^ 32
      executed := state.executed ++
        [execute (state.slots (state.consumerIdx % state.queueDepth))] } := by
  have order := invariant.behind.length_le
  have more : state.executed.length < state.published.length := by
    refine Nat.lt_of_le_of_ne order fun same => waiting ?_
    rw [invariant.consumer, invariant.producer, same]
  have command : state.published[state.executed.length]? =
      some (execute (state.slots (state.consumerIdx % state.queueDepth))) := by
    have found := List.getElem?_eq_getElem more
    rw [found, invariant.consumer, ← slotAt, invariant.execute_pending le_rfl found]
  have later {number : Nat}
      (unexecuted : (state.executed ++
        [execute (state.slots (state.consumerIdx % state.queueDepth))]).length ≤ number) :
      state.executed.length ≤ number := by
    rw [List.length_append] at unexecuted
    omega
  refine ⟨invariant.depth_pos, invariant.depth_lt, invariant.producer, ?_,
    prefix_concat invariant.behind command, ?_, ?_, invariant.alone, fun producer => ?_⟩
  · simp only [invariant.consumer, List.length_append, List.length_singleton]
    omega
  · exact invariant.distinct.mono (Set.Ico_subset_Ico_left (later le_rfl))
  · exact fun number request unexecuted found =>
      invariant.intact number request (later unexecuted) found
  · have ok := invariant.phases producer
    cases under : state.phase producer with
    | idle => trivial
    | storing request slot stored =>
      rw [under] at ok
      exact ⟨ok.1, fun number unexecuted => ok.2.1 number (later unexecuted), ok.2.2⟩
    | adding request index =>
      rw [under] at ok
      exact ⟨ok.1, fun number unexecuted => ok.2.1 number (later unexecuted), ok.2.2⟩

theorem step {label : Label Producer} {next : State Producer} (orderly : state.Orderly label)
    (move : state.step label = some next) : next.Invariant origin := by
  cases label with
  | call producer request =>
    simp only [State.step] at move
    split at move
    · cases move
      exact invariant.call request orderly
    · exact absurd move nofun
  | store producer =>
    simp only [State.step] at move
    split at move
    · rename_i request slot stored busy
      split at move
      · rename_i word found
        cases move
        exact invariant.store busy found
      · exact absurd move nofun
    · exact absurd move nofun
  | readIndex producer =>
    simp only [State.step] at move
    split at move
    · rename_i request slot stored busy
      obtain ⟨complete, ⟨⟩⟩ := Option.ite_none_right_eq_some.mp move
      exact invariant.readIndex busy complete
    · exact absurd move nofun
  | publish producer =>
    simp only [State.step] at move
    split at move
    · rename_i request index busy
      cases move
      exact invariant.publish busy
    · exact absurd move nofun
  | consume =>
    obtain ⟨waiting, ⟨⟩⟩ := Option.ite_none_left_eq_some.mp move
    exact invariant.consume waiting

end Invariant

/-! ### Runs -/

variable {origin : Nat}

theorem Invariant.drained (invariant : state.Invariant origin) {count : Nat}
    (left : state.pending = count) :
    ∃ final, run State.step state (List.replicate count .consume) = some final ∧
      final.executed = state.published := by
  induction count generalizing state with
  | zero =>
    have order := invariant.behind.length_le
    rw [invariant.pending_eq] at left
    exact ⟨state, rfl, invariant.behind.eq_of_length (by omega)⟩
  | succ count hyp =>
    have waiting : state.consumerIdx ≠ state.producerIdx := by
      intro same
      rw [pending, same, Nat.add_sub_cancel_left, Nat.mod_self] at left
      exact absurd left (Nat.succ_ne_zero count).symm
    have next := invariant.consume waiting
    have fewer := next.pending_eq
    rw [invariant.pending_eq] at left
    simp only [List.length_append, List.length_singleton] at fewer
    obtain ⟨final, reaches, all⟩ := hyp next (by omega)
    have move : state.step .consume = some _ := if_neg waiting
    exact ⟨final, (run_cons_of_step move).trans reaches, all⟩

theorem Invariant.exactlyOnce (invariant : state.Invariant origin) : state.ExactlyOnce where
  executed := List.prefix_iff_eq_take.mp invariant.behind
  counted := by
    rw [invariant.pending_eq, Nat.add_sub_cancel' invariant.behind.length_le]
  intact := by
    intro position below
    rw [invariant.pending_eq] at below
    have found := List.getElem?_eq_getElem
      (show state.executed.length + position < state.published.length by omega)
    rw [found, invariant.pendingSlot_eq,
      invariant.execute_pending (Nat.le_add_right _ _) found]
  drained := invariant.drained rfl

/-- If every call begins when no other one is under way and its slot is free, every command is
executed exactly once with its fields, whatever the depth, the producers, the lag and the first
index. -/
theorem bridge_exactly_once {queueDepth index : Nat} (slots : Nat → Nat → Nat)
    (positive : 0 < queueDepth) (bounded : queueDepth < 2 ^ 32) (inRange : index < 2 ^ 32)
    {labels : List (Label Producer)} {final : State Producer}
    (orderly : EveryStep step Orderly (start queueDepth index slots) labels)
    (reaches : run step (start queueDepth index slots) labels = some final) :
    final.ExactlyOnce := by
  have invariant := run_invariant_of_everyStep
    (fun state label next (invariant : state.Invariant index) guarded move =>
      invariant.step guarded move)
    (start_invariant slots positive bounded inRange) orderly reaches
  exact invariant.exactlyOnce

def callLabels (producer : Producer) (request : Request) : List (Label Producer) :=
  [.call producer request, .store producer, .store producer, .store producer,
    .readIndex producer, .publish producer]

instance [Fintype Producer] (state : State Producer) :
    ∀ label, Decidable (state.Orderly label)
  | .call _ _ => inferInstanceAs (Decidable (_ ∧ ∀ position < _, _))
  | .store _ | .readIndex _ | .publish _ | .consume => inferInstanceAs (Decidable True)

theorem bridge_exactly_once_twoCalls : EveryStep step Orderly (start 1 (2 ^ 32 - 1) fun _ _ => 0)
        (callLabels false (nvmeDoorbell 0x100 0x1008 0xFFFFFFFF 1) ++ [.consume] ++
          callLabels true (nvmeDoorbell 0x100 0x1010 0xFFFFFFFF 2)) ∧
      ∃ final, run step (start 1 (2 ^ 32 - 1) fun _ _ => 0)
        (callLabels false (nvmeDoorbell 0x100 0x1008 0xFFFFFFFF 1) ++ [.consume] ++
          callLabels true (nvmeDoorbell 0x100 0x1010 0xFFFFFFFF 2)) = some final ∧
            final.ExactlyOnce := by
  have orderly : EveryStep step Orderly (start 1 (2 ^ 32 - 1) fun _ _ => 0)
      (callLabels false (nvmeDoorbell 0x100 0x1008 0xFFFFFFFF 1) ++ [.consume] ++
        callLabels true (nvmeDoorbell 0x100 0x1010 0xFFFFFFFF 2)) := by
    decide
  exact ⟨orderly, _, rfl, bridge_exactly_once _ (by decide) (by decide) (by decide) orderly rfl⟩

/-- Commands are lost in a full ring, between two producers, and when the index of three slots
wraps. -/
theorem bridge_commands_lost : (∃ final : State Unit, run step (start 1 0 fun _ _ => 0)
      (callLabels () (nvmeDoorbell 0x100 0x1008 0xFFFFFFFF 1) ++
        callLabels () (nvmeDoorbell 0x100 0x1008 0xFFFFFFFF 2)) = some final ∧
          ¬ final.ExactlyOnce) ∧
      (∃ final : State Bool, run step (start 4 0 fun _ _ => 0)
        (.call false (nvmeDoorbell 0x100 0x1008 0xFFFFFFFF 1) ::
          callLabels true (nvmeDoorbell 0x100 0x1010 0xFFFFFFFF 2) ++
            [.store false, .store false, .store false, .readIndex false, .publish false]) =
              some final ∧ ¬ final.ExactlyOnce) ∧
      ∃ final : State Unit, run step (start 3 (2 ^ 32 - 1) fun _ _ => 0)
        (callLabels () (nvmeDoorbell 0x100 0x1008 0xFFFFFFFF 1) ++
          callLabels () (nvmeDoorbell 0x100 0x1008 0xFFFFFFFF 2)) = some final ∧
            ¬ final.ExactlyOnce := by
  refine ⟨⟨_, rfl, fun once => ?_⟩, ⟨_, rfl, fun once => ?_⟩, _, rfl, fun once => ?_⟩
  all_goals exact absurd (once.intact 0 (by decide)) (by decide)

end State

end RocmXio.Bridge
