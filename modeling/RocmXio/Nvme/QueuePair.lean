/-
An NVMe queue pair between a GPU kernel and a conforming controller.

All kernels keep the tail of the submission queue, the head of the completion queue and the phase
they expect next; they write submission entries and ring the tail doorbell, recognise a completion
by the phase bit at the head, step the head and ring the head doorbell. The controller takes a
doorbell value as an advance modulo the queue size, fetches announced entries in order, and posts
one completion for each fetched command, in any order, with the phase of its pass, into released
slots.

Commands are numbered in the order of their submission; slots and completions carry these numbers.
The logs of posted and accepted completions are history.
-/

import RocmXio.Lib.Window

namespace RocmXio.Nvme

open Lib Function

/-- A completion queue entry: the number of its command and the 16-bit status word, whose
lowest bit is the phase. -/
structure Cqe where
  command : Nat := 0
  status : Nat := 0
deriving DecidableEq, Repr

def Cqe.phase (cqe : Cqe) : Bool :=
  cqe.status % 2 == 1

/-- `cqeOk`: status code type generic and status code success. -/
def Cqe.ok (cqe : Cqe) : Bool :=
  cqe.status / 512 % 8 == 0 && cqe.status / 2 % 256 == 0

/-- The entry a controller posts for a command: the status field above the phase bit. -/
def Cqe.make (command statusField : Nat) (phase : Bool) : Cqe where
  command := command
  status := 2 * statusField + phase.toNat

@[simp] theorem Cqe.make_phase (command statusField : Nat) (phase : Bool) :
    (Cqe.make command statusField phase).phase = phase := by
  cases phase
  · simp [Cqe.make, Cqe.phase]
  · simp [Cqe.make, Cqe.phase, Nat.add_mod]

theorem Cqe.make_ok {command statusField : Nat} {phase : Bool} (success : statusField % 2048 = 0) :
    (Cqe.make command statusField phase).ok = true := by
  cases phase <;>
    simp only [Cqe.ok, Cqe.make, Bool.toNat_false, Bool.toNat_true, Bool.and_eq_true,
      beq_iff_eq] <;>
    omega

/-- The kernel's variables, the two rings, the controller, and the history of submissions and
completions. -/
structure QueuePair where
  queueSize : Nat
  sqTail : Nat
  cqHead : Nat
  expectedPhase : Bool
  submissionQueue : Nat → Nat
  completionQueue : Nat → Cqe
  announced : Nat
  fetched : Nat
  inFlight : List Nat
  released : Nat
  submitted : Nat
  posted : List Cqe
  accepted : List Cqe

/-- A queue pair after its creation: rings zeroed, first phase one. -/
def QueuePair.create (queueSize : Nat) : QueuePair where
  queueSize := queueSize
  sqTail := 0
  cqHead := 0
  expectedPhase := true
  submissionQueue := fun _ => 0
  completionQueue := fun _ => {}
  announced := 0
  fetched := 0
  inFlight := []
  released := 0
  submitted := 0
  posted := []
  accepted := []

namespace QueuePair

/-! ### The kernel's side -/

variable (queue : QueuePair)

/-- `sqeWrite` of the command with the given number. -/
def sqeWrite (slot command : Nat) : QueuePair :=
  { queue with submissionQueue := update queue.submissionQueue slot command }

/-- The tail moves over `count` written entries. -/
def advanceTail (count : Nat) : QueuePair :=
  { queue with
    sqTail := (queue.sqTail + count) % queue.queueSize
    submitted := queue.submitted + count }

def submit : QueuePair :=
  (queue.sqeWrite queue.sqTail queue.submitted).advanceTail 1

def doorbellAdvance (queueSize counter value : Nat) : Nat :=
  counter + (value + queueSize - counter % queueSize) % queueSize

def ringSq : QueuePair :=
  { queue with announced := doorbellAdvance queue.queueSize queue.announced queue.sqTail }

def cqeReady : Bool :=
  (queue.completionQueue queue.cqHead).phase == queue.expectedPhase

/-- The entry at the head is taken: the head steps and the phase flips when it returns to
zero. -/
def consume : QueuePair :=
  let cqHead := (queue.cqHead + 1) % queue.queueSize
  { queue with
    cqHead := cqHead
    expectedPhase := if cqHead = 0 then !queue.expectedPhase else queue.expectedPhase
    accepted := queue.accepted ++ [queue.completionQueue queue.cqHead] }

def ringCq : QueuePair :=
  { queue with released := doorbellAdvance queue.queueSize queue.released queue.cqHead }

/-! ### The controller's side -/

/-- The controller fetches the next announced entry, or posts a completion with some status field
for a command in flight. -/
inductive Controller where
  | fetch
  | post (index statusField : Nat)
deriving DecidableEq, Repr

def fetchOne : QueuePair :=
  { queue with
    fetched := queue.fetched + 1
    inFlight := queue.inFlight ++ [queue.submissionQueue (queue.fetched % queue.queueSize)] }

/-- The effect of posting a completion for the command at `index`. -/
def postOne (index command statusField : Nat) : QueuePair :=
  let cqe := Cqe.make command statusField (passTag queue.queueSize queue.posted.length)
  { queue with
    inFlight := queue.inFlight.eraseIdx index
    completionQueue := update queue.completionQueue
      (queue.posted.length % queue.queueSize) cqe
    posted := queue.posted ++ [cqe] }

def controller : Controller → Option QueuePair
  | .fetch => if queue.fetched < queue.announced then some queue.fetchOne else none
  | .post index statusField =>
    match queue.inFlight[index]? with
    | none => none
    | some command =>
      if queue.posted.length < queue.released + queue.queueSize then
        some (queue.postOne index command statusField)
      else none

theorem controller_cases {queue next : QueuePair} {label : Controller}
    (move : queue.controller label = some next) :
    label = .fetch ∧ queue.fetched < queue.announced ∧ next = queue.fetchOne ∨
      ∃ index command statusField, label = .post index statusField ∧
        queue.inFlight[index]? = some command ∧
        queue.posted.length < queue.released + queue.queueSize ∧
        next = queue.postOne index command statusField := by
  cases label with
  | fetch =>
    simp only [controller, Option.ite_none_right_eq_some, Option.some.injEq] at move
    exact Or.inl ⟨rfl, move.1, move.2.symm⟩
  | post index statusField =>
    simp only [controller] at move
    split at move
    case h_1 => cases move
    case h_2 command found =>
      simp only [Option.ite_none_right_eq_some, Option.some.injEq] at move
      exact Or.inr ⟨index, command, statusField, rfl, found, move.1, move.2.symm⟩

/-! ### Coherence -/

/-- Tail, head and phase are those of the counts, every accepted completion is the posted one of the
same number, and the completion ring holds the completions still needed. -/
structure Coherent (queue : QueuePair) : Prop where
  size : 2 ≤ queue.queueSize
  tail : queue.sqTail = queue.submitted % queue.queueSize
  head : queue.cqHead = queue.accepted.length % queue.queueSize
  phase : queue.expectedPhase = passTag queue.queueSize queue.accepted.length
  announced_le : queue.announced ≤ queue.submitted
  fetched_le : queue.fetched ≤ queue.announced
  posted_add : queue.posted.length + queue.inFlight.length = queue.fetched
  accepted_prefix : queue.accepted <+: queue.posted
  released_le : queue.released ≤ queue.accepted.length
  window : queue.posted.length ≤ queue.released + queue.queueSize
  tags : Tagged queue.queueSize queue.posted.length fun slot => (queue.completionQueue slot).phase
  completions : ∀ index cqe, queue.posted[index]? = some cqe →
    queue.posted.length ≤ index + queue.queueSize →
      queue.completionQueue (index % queue.queueSize) = cqe

/-- At most `queueSize - 1` commands are submitted and not yet accepted, an entry stays in the
submission ring until it is fetched, and each fetched command is in flight or has exactly one
completion. -/
structure Disciplined (queue : QueuePair) : Prop extends Coherent queue where
  occupancy : queue.submitted < queue.accepted.length + queue.queueSize
  entries : ∀ command, queue.fetched ≤ command → command < queue.submitted →
    queue.submissionQueue (command % queue.queueSize) = command
  commands : (queue.posted.map Cqe.command ++ queue.inFlight).Perm (List.range queue.fetched)

theorem create_coherent {queueSize : Nat} (size : 2 ≤ queueSize) : (create queueSize).Coherent where
  size := size
  tail := (Nat.zero_mod queueSize).symm
  head := (Nat.zero_mod queueSize).symm
  phase := (passTag_of_lt (show 0 < queueSize by omega)).symm
  announced_le := le_refl 0
  fetched_le := le_refl 0
  posted_add := rfl
  accepted_prefix := List.prefix_refl []
  released_le := le_refl 0
  window := Nat.zero_le _
  tags := tagged_zero queueSize fun _ => rfl
  completions := by simp [create]

theorem create_disciplined {queueSize : Nat} (size : 2 ≤ queueSize) :
    (create queueSize).Disciplined where
  toCoherent := create_coherent size
  occupancy := show 0 < 0 + queueSize by omega
  entries := fun _ _ impossible => absurd impossible (Nat.not_lt_zero _)
  commands := List.Perm.refl []

section

variable {queue next : QueuePair}

section

variable (coherent : queue.Coherent)
include coherent

theorem Coherent.accepted_le : queue.accepted.length ≤ queue.posted.length :=
  coherent.accepted_prefix.length_le

theorem Coherent.posted_le : queue.posted.length ≤ queue.submitted := by
  have posted := coherent.posted_add
  have fetched := coherent.fetched_le
  have announced := coherent.announced_le
  omega

/-- The phase test at the head succeeds exactly when a posted completion has not been accepted. -/
theorem Coherent.cqeReady_iff :
    queue.cqeReady = true ↔ queue.accepted.length < queue.posted.length := by
  have size := coherent.size
  have released := coherent.released_le
  have window := coherent.window
  rw [cqeReady, beq_iff_eq, coherent.head, coherent.phase]
  exact coherent.tags.fresh_iff (by omega) coherent.accepted_le (by omega)

theorem Coherent.head_entry (ready : queue.cqeReady = true) :
    queue.posted[queue.accepted.length]? = some (queue.completionQueue queue.cqHead) := by
  have available := coherent.cqeReady_iff.mp ready
  have released := coherent.released_le
  have window := coherent.window
  rw [coherent.head, List.getElem?_eq_getElem available,
    coherent.completions _ _ (List.getElem?_eq_getElem available) (by omega)]

end

theorem doorbellAdvance_eq {queueSize counter target : Nat} (positive : 0 < queueSize)
    (ordered : counter ≤ target) :
    doorbellAdvance queueSize counter (target % queueSize) =
      counter + (target - counter) % queueSize := by
  rw [doorbellAdvance, distance_mod ordered positive]

section

variable (coherent : queue.Coherent)
include coherent

theorem Coherent.sqeWrite (slot command : Nat) : (queue.sqeWrite slot command).Coherent :=
  { coherent with }

theorem Coherent.advanceTail (count : Nat) : (queue.advanceTail count).Coherent :=
  { coherent with
    tail := show (queue.sqTail + count) % queue.queueSize =
        (queue.submitted + count) % queue.queueSize by
      rw [coherent.tail, Nat.mod_add_mod]
    announced_le := Nat.le_trans coherent.announced_le (Nat.le_add_right _ _) }

theorem Coherent.ringSq_announced : queue.ringSq.announced =
      queue.announced + (queue.submitted - queue.announced) % queue.queueSize := by
  have size := coherent.size
  show doorbellAdvance _ _ queue.sqTail = _
  rw [coherent.tail, doorbellAdvance_eq (by omega) coherent.announced_le]

theorem Coherent.ringSq : queue.ringSq.Coherent := by
  have ordered := coherent.announced_le
  have fetched := coherent.fetched_le
  have announced := coherent.ringSq_announced
  have short := Nat.mod_le (queue.submitted - queue.announced) queue.queueSize
  exact { coherent with
    announced_le := show queue.ringSq.announced ≤ queue.submitted by omega
    fetched_le := show queue.fetched ≤ queue.ringSq.announced by omega }

theorem Coherent.ringCq_released : queue.ringCq.released =
      queue.released + (queue.accepted.length - queue.released) % queue.queueSize := by
  have size := coherent.size
  show doorbellAdvance _ _ queue.cqHead = _
  rw [coherent.head, doorbellAdvance_eq (by omega) coherent.released_le]

theorem Coherent.ringCq : queue.ringCq.Coherent := by
  have ordered := coherent.released_le
  have window := coherent.window
  have released := coherent.ringCq_released
  have short := Nat.mod_le (queue.accepted.length - queue.released) queue.queueSize
  exact { coherent with
    released_le := show queue.ringCq.released ≤ queue.accepted.length by omega
    window := show queue.posted.length ≤ queue.ringCq.released + queue.queueSize by omega }

theorem Coherent.consume (ready : queue.cqeReady = true) : queue.consume.Coherent := by
  have headStep : (queue.cqHead + 1) % queue.queueSize =
      (queue.accepted.length + 1) % queue.queueSize := by
    rw [coherent.head, Nat.mod_add_mod]
  have length : queue.consume.accepted.length = queue.accepted.length + 1 := by
    simp [QueuePair.consume]
  have nextPrefix : queue.consume.accepted <+: queue.posted :=
    prefix_concat coherent.accepted_prefix (coherent.head_entry ready)
  have released := coherent.released_le
  refine ⟨coherent.size, coherent.tail, ?_, ?_, coherent.announced_le, coherent.fetched_le,
    coherent.posted_add, nextPrefix, ?_, coherent.window, coherent.tags, coherent.completions⟩
  · rw [length]
    exact headStep
  · rw [length]
    show (if (queue.cqHead + 1) % queue.queueSize = 0 then _ else _) = passTag queue.queueSize _
    rw [headStep, passTag_succ, coherent.phase]
  · rw [length]
    exact Nat.le_trans released (Nat.le_succ _)

theorem Coherent.fetchOne (more : queue.fetched < queue.announced) : queue.fetchOne.Coherent := by
  have posted := coherent.posted_add
  refine { coherent with fetched_le := more, posted_add := ?_ }
  show queue.posted.length + (queue.inFlight ++ [_]).length = queue.fetched + 1
  rw [List.length_append, List.length_singleton]
  omega

theorem Coherent.postOne {index command : Nat} (statusField : Nat)
    (found : queue.inFlight[index]? = some command)
    (room : queue.posted.length < queue.released + queue.queueSize) :
    (queue.postOne index command statusField).Coherent := by
  have posted := coherent.posted_add
  obtain ⟨inside, -⟩ := List.getElem?_eq_some_iff.mp found
  unfold QueuePair.postOne
  generalize cqeEq : Cqe.make command statusField
    (passTag queue.queueSize queue.posted.length) = cqe
  have phase : cqe.phase = passTag queue.queueSize queue.posted.length := by
    rw [← cqeEq, Cqe.make_phase]
  have length : (queue.posted ++ [cqe]).length = queue.posted.length + 1 := by simp
  refine { coherent with
    posted_add := ?_
    accepted_prefix := coherent.accepted_prefix.trans (List.prefix_append _ _)
    window := ?_
    tags := ?_
    completions := ?_ }
  · rw [length, List.length_eraseIdx_of_lt inside]
    show _ = queue.fetched
    omega
  · rw [length]
    exact room
  · rw [length]
    have tags := coherent.tags.write
    rw [← phase] at tags
    show Tagged _ _ (Cqe.phase ∘ update queue.completionQueue _ cqe)
    rw [Function.comp_update]
    exact tags
  · intro position other present
      (recent : (queue.posted ++ [cqe]).length ≤ position + queue.queueSize)
    rw [length] at recent
    show update queue.completionQueue _ cqe _ = other
    by_cases latest : position = queue.posted.length
    · rw [latest, List.getElem?_concat_length, Option.some.injEq] at present
      rw [latest, update_self, present]
    · obtain ⟨below, -⟩ := List.getElem?_eq_some_iff.mp present
      rw [length] at below
      rw [List.getElem?_append_left (by omega)] at present
      have apart : position % queue.queueSize ≠ queue.posted.length % queue.queueSize :=
        fun sameSlot => latest (eq_of_mod_eq_of_window sameSlot (by omega) recent)
      rw [update_of_ne apart]
      exact coherent.completions position other present (by omega)

theorem Coherent.controller {label : Controller} (move : queue.controller label = some next) :
    next.Coherent := by
  rcases controller_cases move with ⟨-, more, rfl⟩ | ⟨_, _, statusField, -, found, room, rfl⟩
  · exact coherent.fetchOne more
  · exact coherent.postOne statusField found room

end

/-! ### Discipline -/

section

variable (disciplined : queue.Disciplined)
include disciplined

/-- An entry written ahead of the tail, within the room left, disturbs no entry that is still to be
fetched. -/
theorem Disciplined.sqeWrite (ahead : Nat)
    (room : queue.submitted + ahead < queue.accepted.length + queue.queueSize) :
    (queue.sqeWrite ((queue.sqTail + ahead) % queue.queueSize)
      (queue.submitted + ahead)).Disciplined := by
  refine ⟨disciplined.toCoherent.sqeWrite _ _, disciplined.occupancy, ?_, disciplined.commands⟩
  intro command unfetched (below : command < queue.submitted)
  have accepted := disciplined.toCoherent.accepted_le
  have posted := disciplined.posted_add
  simp only [QueuePair.sqeWrite] at unfetched
  have apart : command % queue.queueSize ≠ (queue.sqTail + ahead) % queue.queueSize := by
    rw [disciplined.tail, Nat.mod_add_mod]
    intro sameSlot
    have same := eq_of_mod_eq_of_window sameSlot (by omega) (by omega)
    omega
  show update queue.submissionQueue _ _ (command % queue.queueSize) = command
  rw [update_of_ne apart]
  exact disciplined.entries command unfetched below

theorem Disciplined.advanceTail {count : Nat}
    (written : ∀ ahead, ahead < count →
      queue.submissionQueue ((queue.submitted + ahead) % queue.queueSize) = queue.submitted + ahead)
    (room : queue.submitted + count < queue.accepted.length + queue.queueSize) :
    (queue.advanceTail count).Disciplined := by
  refine ⟨disciplined.toCoherent.advanceTail count, room, ?_, disciplined.commands⟩
  intro command unfetched (below : command < queue.submitted + count)
  by_cases old : command < queue.submitted
  · exact disciplined.entries command unfetched old
  · have entry := written (command - queue.submitted) (by omega)
    rw [Nat.add_sub_of_le (by omega)] at entry
    exact entry

theorem Disciplined.submit (room : queue.submitted + 1 < queue.accepted.length + queue.queueSize) :
    queue.submit.Disciplined := by
  have tail := disciplined.tail
  have size := disciplined.size
  have slot : (queue.sqTail + 0) % queue.queueSize = queue.sqTail := by
    rw [Nat.add_zero, Nat.mod_eq_of_lt]
    rw [tail]
    exact Nat.mod_lt _ (by omega)
  have wrote := disciplined.sqeWrite 0 (by omega)
  rw [slot] at wrote
  refine wrote.advanceTail (fun ahead first => ?_) room
  rw [Nat.lt_one_iff.mp first]
  rw [tail]
  exact update_self _ _ _

/-- With at most `queueSize - 1` commands outstanding the doorbell announces everything that
was submitted. -/
theorem Disciplined.ringSq_announced : queue.ringSq.announced = queue.submitted := by
  have occupancy := disciplined.occupancy
  have ordered := disciplined.announced_le
  have fetched := disciplined.fetched_le
  have posted := disciplined.posted_add
  have accepted := disciplined.toCoherent.accepted_le
  rw [disciplined.toCoherent.ringSq_announced, Nat.mod_eq_of_lt (by omega)]
  omega

theorem Disciplined.ringSq : queue.ringSq.Disciplined :=
  ⟨disciplined.toCoherent.ringSq, disciplined.occupancy, disciplined.entries,
    disciplined.commands⟩

theorem Disciplined.ringCq : queue.ringCq.Disciplined :=
  ⟨disciplined.toCoherent.ringCq, disciplined.occupancy, disciplined.entries,
    disciplined.commands⟩

theorem Disciplined.consume (ready : queue.cqeReady = true) : queue.consume.Disciplined := by
  have occupancy := disciplined.occupancy
  refine ⟨disciplined.toCoherent.consume ready, ?_, disciplined.entries, disciplined.commands⟩
  show queue.submitted < (queue.accepted ++ [_]).length + queue.queueSize
  rw [List.length_append, List.length_singleton]
  omega

theorem Disciplined.fetchOne (more : queue.fetched < queue.announced) :
    queue.fetchOne.Disciplined := by
  have announced := disciplined.announced_le
  refine ⟨disciplined.toCoherent.fetchOne more, disciplined.occupancy,
    fun command unfetched => disciplined.entries command (Nat.le_of_succ_le unfetched), ?_⟩
  show (_ ++ (queue.inFlight ++ [queue.submissionQueue _])).Perm (List.range (queue.fetched + 1))
  rw [disciplined.entries queue.fetched (le_refl _) (by omega), ← List.append_assoc,
    List.range_succ]
  exact disciplined.commands.append_right _

theorem Disciplined.postOne {index command : Nat} (statusField : Nat)
    (found : queue.inFlight[index]? = some command)
    (room : queue.posted.length < queue.released + queue.queueSize) :
    (queue.postOne index command statusField).Disciplined := by
  refine ⟨disciplined.toCoherent.postOne statusField found room, disciplined.occupancy,
    disciplined.entries, ?_⟩
  obtain ⟨inside, value⟩ := List.getElem?_eq_some_iff.mp found
  refine List.Perm.trans ?_ disciplined.commands
  show (List.map _ (queue.posted ++ [_]) ++ queue.inFlight.eraseIdx index).Perm _
  rw [List.map_append, List.append_assoc]
  refine List.Perm.append_left _ ?_
  rw [← value]
  exact List.getElem_cons_eraseIdx_perm inside

theorem Disciplined.controller {label : Controller} (move : queue.controller label = some next) :
    next.Disciplined := by
  rcases controller_cases move with ⟨-, more, rfl⟩ | ⟨_, _, statusField, -, found, room, rfl⟩
  · exact disciplined.fetchOne more
  · exact disciplined.postOne statusField found room

/-- A controller with nothing in flight fetches the next command and completes it, and the
completion can be taken. -/
theorem Disciplined.serve (idle : queue.fetched = queue.posted.length)
    (taken : queue.accepted.length = queue.posted.length) (more : queue.fetched < queue.announced)
    (room : queue.posted.length < queue.released + queue.queueSize) :
    queue.controller .fetch = some queue.fetchOne ∧
      queue.fetchOne.controller (.post 0 0) = some (queue.fetchOne.postOne 0 queue.fetched 0) ∧
      (queue.fetchOne.postOne 0 queue.fetched 0).Disciplined ∧
      (queue.fetchOne.postOne 0 queue.fetched 0).cqeReady = true ∧
      ((queue.fetchOne.postOne 0 queue.fetched 0).completionQueue queue.cqHead).ok = true := by
  have empty : queue.inFlight = [] := by
    have add := disciplined.posted_add
    exact List.eq_nil_of_length_eq_zero (by omega)
  have single : queue.fetchOne.inFlight[0]? = some queue.fetched := by
    show (queue.inFlight ++ [queue.submissionQueue (queue.fetched % queue.queueSize)])[0]? = _
    rw [empty, disciplined.entries queue.fetched (le_refl _)
      (Nat.lt_of_lt_of_le more disciplined.announced_le)]
    rfl
  have posted := (disciplined.fetchOne more).postOne 0 single room
  have ready : (queue.fetchOne.postOne 0 queue.fetched 0).cqeReady = true := by
    rw [posted.toCoherent.cqeReady_iff]
    show queue.accepted.length < (queue.posted ++ [_]).length
    rw [taken, List.length_append]
    exact Nat.lt_succ_self _
  refine ⟨if_pos more, ?_, posted, ready, ?_⟩
  · simp only [QueuePair.controller, single]
    exact if_pos room
  · have entry := posted.toCoherent.head_entry ready
    have last : (queue.posted ++ [_])[queue.accepted.length]? = some _ := entry
    rw [taken, List.getElem?_concat_length, Option.some.injEq] at last
    show ((queue.fetchOne.postOne 0 queue.fetched 0).completionQueue
      (queue.fetchOne.postOne 0 queue.fetched 0).cqHead).ok = true
    rw [← last]
    exact Cqe.make_ok rfl

end

/-! ### Drained queues and success -/

/-- When everything submitted has been accepted, each command has its completion among the
accepted ones. -/
theorem Disciplined.drained (disciplined : queue.Disciplined)
    (all : queue.accepted.length = queue.submitted) :
    (queue.accepted.map Cqe.command).Perm (List.range queue.submitted) := by
  have announced := disciplined.announced_le
  have fetched := disciplined.fetched_le
  have posted := disciplined.posted_add
  have accepted := disciplined.toCoherent.accepted_le
  have same : queue.accepted = queue.posted := disciplined.accepted_prefix.eq_of_length (by omega)
  have none : queue.inFlight = [] := List.eq_nil_of_length_eq_zero (by omega)
  have everything : queue.fetched = queue.submitted := by omega
  have commands := disciplined.commands
  rw [none, List.append_nil, everything] at commands
  rw [same]
  exact commands

/-- A controller step that reports no error: status code type and status code are zero. -/
def Controller.Succeeds : Controller → Prop
  | .fetch => True
  | .post _ statusField => statusField % 2048 = 0

instance Controller.Succeeds.decidable : ∀ label : Controller, Decidable label.Succeeds
  | .fetch => inferInstanceAs (Decidable True)
  | .post _ statusField => inferInstanceAs (Decidable (statusField % 2048 = 0))

theorem posted_ok {label : Controller} (success : label.Succeeds)
    (move : queue.controller label = some next) (before : ∀ cqe ∈ queue.posted, cqe.ok = true) :
    ∀ cqe ∈ next.posted, cqe.ok = true := by
  rcases controller_cases move with ⟨-, -, rfl⟩ | ⟨_, _, _, rfl, -, -, rfl⟩
  · exact before
  · intro cqe member
    rcases List.mem_append.mp member with old | new
    · exact before cqe old
    · rw [List.mem_singleton.mp new]
      exact Cqe.make_ok success

end

end QueuePair

end RocmXio.Nvme
