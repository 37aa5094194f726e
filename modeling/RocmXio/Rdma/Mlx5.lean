/-
Flow control of the mlx5 send queue, driven by one lane.

`poll_cq_until` returns at once while the number of requests ever posted leaves enough slots; later
it consumes completions until the slots between the newest completion and the tail are few enough.
The number counts up for ever, so from some point on every call waits for a completion, even when
none is due. And when its first look finds none, the loop reads `available_slots` before it was
written. The counting is right in every run in which each call that has to wait finds something to
wait for and no unwritten value is believed.
-/

import RocmXio.Lib.Ring

namespace RocmXio.Rdma.Mlx5

open Lib

/-! ### States -/

/-- The opcodes of a completion that `poll_cq_until` tells apart. -/
inductive Opcode where
  | req
  | reqErr
  | invalid
deriving DecidableEq, Repr

/-- A completion: opcode, owner bit and the index of the completed request. A new completion queue
has invalid entries whose owner bit is set. -/
structure Cqe where
  opcode : Opcode := .invalid
  owner : Bool := true
  wqeCounter : Nat := 0
deriving DecidableEq, Repr

/-- Who called `poll_cq_until`: a post, which needs one slot, or a caller that needs some
number of them. -/
inductive Caller where
  | post (ringDb : Bool)
  | wait (count : Nat)
deriving DecidableEq, Repr

/-- Where the lane is. `look` is the loop of `poll_cq_until` with its variable `available_slots`; in
`returned` a call for some slots has returned. -/
inductive Pc where
  | idle
  | look (caller : Caller) (availableSlots : Nat)
  | write (ringDb : Bool)
  | returned (count : Nat)
  | aborted
deriving DecidableEq, Repr

structure Qp where
  depth : Nat
  cqDepth : Nat
  tail : Nat
  post : Nat
  consIndex : Nat
  slots : Nat → Option Nat
  cq : Nat → Cqe
  pc : Pc
  posted : Nat
  published : Nat
  done : Nat
  taken : Nat

/-- Who moves. A call brings the value that `available_slots` happens to have. -/
inductive Label where
  | call (caller : Caller) (unwritten : Nat)
  | doorbell
  | lane
  | nic
deriving DecidableEq, Repr

namespace Qp

/-- A queue pair after `mlx5_initialize_gpu_qp`. The host has posted some requests before and polled
their completions; their number is taken from the doorbell records, which have 16 bits for the send
queue and 24 for the completion queue. The smoke test of the loopback mode posts one. -/
def create (depth cqDepth earlier : Nat) : Qp where
  depth := depth
  cqDepth := cqDepth
  tail := earlier % 2 ^ 16
  post := earlier % 2 ^ 16
  consIndex := earlier % 2 ^ 24
  slots := fun _ => none
  cq := fun _ => {}
  pc := .idle
  posted := earlier
  published := earlier
  done := earlier
  taken := earlier

/-! ### The lane -/

def requested : Caller → Nat
  | .post _ => 1
  | .wait count => count

/-- `poll_cq_until` returns to its caller. -/
def proceed (qp : Qp) : Caller → Qp
  | .post ringDb => { qp with pc := .write ringDb }
  | .wait count => { qp with pc := .returned count }

/-- The beginning of `poll_cq_until`. -/
def beginPoll (qp : Qp) (caller : Caller) (unwritten : Nat) : Qp :=
  if qp.post ≤ qp.depth - requested caller then qp.proceed caller
  else { qp with pc := .look caller unwritten }

/-- The condition at the end of the loop. One lane does not see `post` change. -/
def loopEnd (qp : Qp) (caller : Caller) (availableSlots : Nat) : Qp :=
  if availableSlots < requested caller then { qp with pc := .look caller availableSlots }
  else qp.proceed caller

/-- `available_slots` after a completion for the request with index `sqHead`, in 16-bit
arithmetic. -/
def availableAfter (qp : Qp) (sqHead : Nat) : Nat :=
  let completed := (sqHead + 1) % 2 ^ 16
  let consumedSlots := (qp.tail + 2 ^ 16 - completed) % 2 ^ 16
  (qp.depth + 2 ^ 16 - consumedSlots) % 2 ^ 16

def currentCqe (qp : Qp) : Cqe :=
  qp.cq (qp.consIndex % qp.cqDepth)

/-- The completion at the consumer index has the expected owner and is not invalid. -/
def cqeFresh (qp : Qp) : Bool :=
  (qp.currentCqe.owner == (qp.consIndex / qp.cqDepth % 2 == 1)) &&
    decide (qp.currentCqe.opcode ≠ .invalid)

/-- One turn of the loop of `poll_cq_until`. -/
def lookTurn (qp : Qp) (caller : Caller) (availableSlots : Nat) : Qp :=
  if qp.cqeFresh = false then qp.loopEnd caller availableSlots
  else if qp.currentCqe.opcode = .reqErr then { qp with pc := .aborted }
  else
    { qp with
      consIndex := (qp.consIndex + 1) % 2 ^ 32
      taken := qp.taken + 1 }.loopEnd caller (qp.availableAfter qp.currentCqe.wqeCounter)

/-- The rest of `post_wqe_rma_single` after the poll. -/
def postWqe (qp : Qp) (ringDb : Bool) : Qp :=
  { qp with
    slots := store qp.slots [qp.tail % qp.depth] (some qp.posted)
    tail := (qp.tail + 1) % 2 ^ 16
    post := (qp.post + 1) % 2 ^ 64
    posted := qp.posted + 1
    published := if ringDb then qp.posted + 1 else qp.published
    pc := .idle }

def ready (qp : Qp) : Bool :=
  match qp.pc with
  | .idle | .returned _ => true
  | .look _ _ | .write _ | .aborted => false

/-! ### The hardware and the system -/

/-- The completion of request `index`. -/
def completion (cqDepth index : Nat) : Cqe where
  opcode := .req
  owner := !passTag cqDepth index
  wqeCounter := index % 2 ^ 16

def complete (qp : Qp) : Qp :=
  { qp with
    cq := store qp.cq [qp.done % qp.cqDepth] (completion qp.cqDepth qp.done)
    done := qp.done + 1 }

/-- The consumer index is written back after each completion, so that the hardware writes only over
completions that were consumed. -/
def step (qp : Qp) : Label → Option Qp
  | .call caller unwritten => if qp.ready then some (qp.beginPoll caller unwritten) else none
  | .doorbell => if qp.ready then some { qp with published := qp.posted } else none
  | .lane =>
    match qp.pc with
    | .look caller availableSlots => some (qp.lookTurn caller availableSlots)
    | .write ringDb => some (qp.postWqe ringDb)
    | .idle | .returned _ | .aborted => none
  | .nic =>
    if qp.done < qp.published ∧ qp.done < qp.taken + qp.cqDepth then some qp.complete else none

/-! ### The property -/

/-- A call for `count` slots that has returned left room for them, a request is written only into a
free slot, a quiet that has returned left nothing outstanding, and the lane looks only for
completions that are due. -/
structure FlowControlled (qp : Qp) : Prop where
  granted : ∀ count, qp.pc = .returned count → count ≤ qp.depth - (qp.posted - qp.done)
  admitted : ∀ ringDb, qp.pc = .write ringDb → 1 ≤ qp.depth - (qp.posted - qp.done)
  quiet : qp.pc = .returned qp.depth → qp.done = qp.posted
  waits : ∀ caller availableSlots, qp.pc = .look caller availableSlots → qp.taken < qp.posted

/-- A call asks for at least one slot and at most all of them, the 64-bit count of posts has not
wrapped, and either the early return applies or some completion is due; and a look that finds no
completion is not ended by an unwritten value. -/
def Careful (qp : Qp) : Label → Prop
  | .call caller _ => 1 ≤ requested caller ∧ requested caller ≤ qp.depth ∧ qp.posted < 2 ^ 64 ∧
      (qp.post ≤ qp.depth - requested caller ∨ qp.taken < qp.posted)
  | .lane =>
    match qp.pc with
    | .look caller availableSlots => qp.cqeFresh = true ∨ availableSlots < requested caller
    | .idle | .write _ | .returned _ | .aborted => True
  | .doorbell | .nic => True

instance Careful.decidable (qp : Qp) : ∀ label, Decidable (qp.Careful label)
  | .call caller _ => inferInstanceAs (Decidable (1 ≤ requested caller ∧ _))
  | .lane => by
    unfold Careful
    cases qp.pc <;> infer_instance
  | .doorbell | .nic => inferInstanceAs (Decidable True)

/-! ### The invariant -/

def Place (qp : Qp) : Prop :=
  match qp.pc with
  | .idle | .aborted => True
  | .look caller _ => qp.taken < qp.posted ∧ 1 ≤ requested caller ∧ requested caller ≤ qp.depth
  | .write _ => qp.posted + 1 ≤ qp.taken + qp.depth
  | .returned count => qp.posted + count ≤ qp.taken + qp.depth

/-- A completion looks like the one with some number: the owner bit is that of its pass, and it is
not invalid. -/
def Awaited (cqDepth index : Nat) (cqe : Cqe) : Prop :=
  cqe.owner = !passTag cqDepth index ∧ cqe.opcode ≠ .invalid

/-- The indices are those of the counts, the ring is not overfilled, and the completion queue holds
the completions not consumed. For a depth that divides `2 ^ 16` the slots hold the requests not
completed. -/
structure Invariant (qp : Qp) : Prop where
  depth_pos : 0 < qp.depth
  depth_lt : qp.depth < 2 ^ 16
  cq_pos : 0 < qp.cqDepth
  cq_dvd : 2 * qp.cqDepth ∣ 2 ^ 32
  tail : qp.tail = qp.posted % 2 ^ 16
  post : qp.post = qp.posted % 2 ^ 64
  consIndex : qp.consIndex = qp.taken % 2 ^ 32
  published_le : qp.published ≤ qp.posted
  done_le : qp.done ≤ qp.published
  taken_le : qp.taken ≤ qp.done
  room : qp.posted ≤ qp.taken + qp.depth
  completions : CompletionRing qp.cqDepth qp.taken qp.done (Awaited qp.cqDepth)
    (completion qp.cqDepth) qp.cq
  intact : qp.depth ∣ 2 ^ 16 → Holds qp.depth 1 qp.done qp.posted some qp.slots
  place : qp.Place

theorem create_invariant {depth cqDepth earlier : Nat} (positive : 0 < depth)
    (short : depth < 2 ^ 16) (cqPositive : 0 < cqDepth) (cqDivides : 2 * cqDepth ∣ 2 ^ 32)
    (few : earlier < 2 ^ 16) : (create depth cqDepth earlier).Invariant where
  depth_pos := positive
  depth_lt := short
  cq_pos := cqPositive
  cq_dvd := cqDivides
  tail := rfl
  post := by
    simp only [create]
    omega
  consIndex := by
    simp only [create]
    omega
  published_le := le_refl _
  done_le := le_refl _
  taken_le := le_refl _
  room := Nat.le_add_right _ _
  completions := completionRing_empty _ fun _ _ _ awaited => awaited.2 rfl
  intact := fun _ => holds_empty _ _ _ _ _
  place := trivial

section

variable {qp next : Qp}

section

variable (invariant : qp.Invariant)
include invariant

/-- The test on the completion at the consumer index finds exactly the completions written and not
consumed. -/
theorem Invariant.cqeFresh_iff : qp.cqeFresh = true ↔ qp.taken < qp.done := by
  obtain ⟨slot, tag⟩ := passTag_mod (Or.inr invariant.cq_dvd : qp.taken < 2 ^ 32 ∨ _)
  have current : qp.currentCqe = qp.cq (qp.taken % qp.cqDepth) := by
    rw [currentCqe, invariant.consIndex, slot]
  have expected : (qp.consIndex / qp.cqDepth % 2 == 1) = !passTag qp.cqDepth qp.taken := by
    rw [← tag, ← invariant.consIndex, passTag]
    rcases Nat.mod_two_eq_zero_or_one (qp.consIndex / qp.cqDepth) with even | odd
    · rw [even]
      rfl
    · rw [odd]
      rfl
  have awaited : Awaited qp.cqDepth qp.taken (completion qp.cqDepth qp.taken) :=
    ⟨rfl, by simp [completion]⟩
  rw [cqeFresh, Bool.and_eq_true, beq_iff_eq, decide_eq_true_eq, expected, current]
  exact invariant.completions.fresh_iff invariant.cq_pos (le_refl _) invariant.taken_le awaited

theorem Invariant.currentCqe_eq (fresh : qp.cqeFresh = true) :
    qp.currentCqe = completion qp.cqDepth qp.taken := by
  obtain ⟨slot, -⟩ := passTag_mod (Or.inr invariant.cq_dvd : qp.taken < 2 ^ 32 ∨ _)
  rw [currentCqe, invariant.consIndex, slot]
  exact invariant.completions.holds.read (le_refl _) (invariant.cqeFresh_iff.mp fresh)

theorem Invariant.availableAfter_eq (more : qp.taken < qp.posted) :
    qp.availableAfter (qp.taken % 2 ^ 16) = qp.depth - (qp.posted - (qp.taken + 1)) := by
  have room := invariant.room
  have short := invariant.depth_lt
  rw [availableAfter, Nat.mod_add_mod, invariant.tail]
  omega

theorem Invariant.proceed (caller : Caller)
    (enough : qp.posted + requested caller ≤ qp.taken + qp.depth) :
    (qp.proceed caller).Invariant := by
  cases caller with
  | post ringDb => exact { invariant with place := enough }
  | wait count => exact { invariant with place := enough }

theorem Invariant.beginPoll {caller : Caller} (unwritten : Nat) (atLeast : 1 ≤ requested caller)
    (most : requested caller ≤ qp.depth) (unwrapped : qp.posted < 2 ^ 64)
    (due : qp.post ≤ qp.depth - requested caller ∨ qp.taken < qp.posted) :
    (qp.beginPoll caller unwritten).Invariant := by
  have post : qp.post = qp.posted := by rw [invariant.post, Nat.mod_eq_of_lt unwrapped]
  unfold Qp.beginPoll
  split_ifs
  case pos early => exact invariant.proceed caller (by omega)
  case neg late =>
    exact { invariant with place := ⟨due.resolve_left late, atLeast, most⟩ }

/-- The end of a turn: the lane leaves the loop with room or looks for a completion that is
due. -/
theorem Invariant.loopEnd {caller : Caller} {availableSlots : Nat} (atLeast : 1 ≤ requested caller)
    (most : requested caller ≤ qp.depth)
    (counted : availableSlots = qp.depth - (qp.posted - qp.taken)) :
    (qp.loopEnd caller availableSlots).Invariant := by
  unfold Qp.loopEnd
  split_ifs
  case pos few =>
    have due : qp.taken < qp.posted := by omega
    exact { invariant with place := ⟨due, atLeast, most⟩ }
  case neg enough => exact invariant.proceed caller (by omega)

theorem Invariant.lookTurn {caller : Caller} {availableSlots : Nat}
    (looking : qp.pc = .look caller availableSlots)
    (believed : qp.cqeFresh = true ∨ availableSlots < requested caller) :
    (qp.lookTurn caller availableSlots).Invariant := by
  have place := invariant.place
  simp only [Place, looking] at place
  obtain ⟨due, atLeast, most⟩ := place
  unfold Qp.lookTurn
  split_ifs
  case pos stale =>
    have few := believed.resolve_left (by rw [stale]; exact Bool.false_ne_true)
    rw [Qp.loopEnd, if_pos few]
    exact { invariant with place := ⟨due, atLeast, most⟩ }
  case pos stale failed => exact { invariant with place := trivial }
  case neg fresh _ =>
    rw [Bool.not_eq_false] at fresh
    have available := invariant.cqeFresh_iff.mp fresh
    have counted : qp.availableAfter qp.currentCqe.wqeCounter =
        qp.depth - (qp.posted - (qp.taken + 1)) := by
      rw [invariant.currentCqe_eq fresh]
      exact invariant.availableAfter_eq due
    have consumed : Invariant { qp with
        consIndex := (qp.consIndex + 1) % 2 ^ 32, taken := qp.taken + 1, pc := .idle } :=
      { invariant with
        consIndex := by
          rw [invariant.consIndex, Nat.mod_add_mod]
        taken_le := available
        room := Nat.le_trans invariant.room (by
          show _ ≤ qp.taken + 1 + qp.depth
          omega)
        completions := invariant.completions.release (Nat.le_succ _)
        place := trivial }
    have ended := consumed.loopEnd atLeast most counted
    cases caller <;> exact ended

theorem Invariant.postWqe {ringDb : Bool} (writing : qp.pc = .write ringDb) :
    (qp.postWqe ringDb).Invariant := by
  have place := invariant.place
  simp only [Place, writing] at place
  have taken := invariant.taken_le
  have published := invariant.published_le
  have done := invariant.done_le
  have publishedNext : (if ringDb then qp.posted + 1 else qp.published) ≤ qp.posted + 1 := by
    split_ifs <;> omega
  have doneNext : qp.done ≤ if ringDb then qp.posted + 1 else qp.published := by
    split_ifs <;> omega
  refine { invariant with
    tail := ?_, post := ?_, published_le := publishedNext, done_le := doneNext, room := place,
    intact := fun (divides : qp.depth ∣ 2 ^ 16) => ?_, place := trivial }
  · show (qp.tail + 1) % 2 ^ 16 = (qp.posted + 1) % 2 ^ 16
    rw [invariant.tail, Nat.mod_add_mod]
  · show (qp.post + 1) % 2 ^ 64 = (qp.posted + 1) % 2 ^ 64
    rw [invariant.post, Nat.mod_add_mod]
  · have slot : qp.tail % qp.depth = qp.posted % qp.depth := by
      rw [invariant.tail, Nat.mod_mod_of_dvd _ divides]
    show Holds qp.depth 1 qp.done (qp.posted + 1) some (store qp.slots [qp.tail % qp.depth] _)
    rw [slot]
    exact (invariant.intact divides).push (by omega)

theorem Invariant.complete (more : qp.done < qp.published)
    (slot : qp.done < qp.taken + qp.cqDepth) :
    qp.complete.Invariant :=
  { invariant with
    done_le := more
    taken_le := Nat.le_succ_of_le invariant.taken_le
    completions := invariant.completions.push slot fun awaited =>
      passTag_ne invariant.cq_pos _ (Bool.not_inj awaited.1)
    intact := fun divides => (invariant.intact divides).drop (Nat.le_succ _)
    place := invariant.place }

theorem Invariant.step {label : Label} (careful : qp.Careful label)
    (move : qp.step label = some next) : next.Invariant := by
  cases label with
  | call caller unwritten =>
    obtain ⟨-, ⟨⟩⟩ := Option.ite_none_right_eq_some.mp move
    obtain ⟨atLeast, most, unwrapped, due⟩ := careful
    exact invariant.beginPoll unwritten atLeast most unwrapped due
  | doorbell =>
    obtain ⟨-, ⟨⟩⟩ := Option.ite_none_right_eq_some.mp move
    exact { invariant with
      published_le := le_refl _
      done_le := Nat.le_trans invariant.done_le invariant.published_le
      place := invariant.place }
  | lane =>
    cases place : qp.pc <;> simp only [Qp.step, Careful, place] at move careful
    case look =>
      cases move
      exact invariant.lookTurn place careful
    case write =>
      cases move
      exact invariant.postWqe place
    all_goals cases move
  | nic =>
    obtain ⟨enabled, ⟨⟩⟩ := Option.ite_none_right_eq_some.mp move
    exact invariant.complete enabled.1 enabled.2

theorem Invariant.flowControlled : qp.FlowControlled := by
  have place := invariant.place
  have taken := invariant.taken_le
  have done := invariant.done_le
  have published := invariant.published_le
  refine ⟨fun count returned => ?_, fun ringDb writing => ?_, fun returned => ?_,
    fun caller availableSlots looking => ?_⟩
  · simp only [Place, returned] at place
    omega
  · simp only [Place, writing] at place
    omega
  · simp only [Place, returned] at place
    omega
  · simp only [Place, looking] at place
    exact place.1

end

end

/-- In every run of careful steps a call returns only when there is room, a quiet only when nothing
is outstanding, and the lane waits only for completions that are due. -/
theorem mlx5_flow_controlled (depth cqDepth earlier : Nat) (positive : 0 < depth)
    (short : depth < 2 ^ 16) (cqPositive : 0 < cqDepth) (cqDivides : 2 * cqDepth ∣ 2 ^ 32)
    (few : earlier < 2 ^ 16) (labels : List Label) (qp : Qp)
    (reaches : run step (create depth cqDepth earlier) labels = some qp)
    (careful : EveryStep step Careful (create depth cqDepth earlier) labels) :
    qp.FlowControlled :=
  (run_invariant_of_everyStep (fun _ _ _ invariant careful move => invariant.step careful move)
    (create_invariant positive short cqPositive cqDivides few) careful reaches).flowControlled

def postQuiet : List Label :=
  [.call (.post true) 0, .lane, .nic, .call (.wait 64) 0, .lane]

theorem mlx5_flow_controlled_postQuiet :
    ∃ qp, run step (create 64 64 1) postQuiet = some qp ∧ qp.pc = .returned 64 ∧
      qp.FlowControlled :=
  ⟨_, rfl, rfl, mlx5_flow_controlled 64 64 1 (by decide) (by decide) (by decide) (by decide)
    (by decide) postQuiet _ rfl (by decide)⟩

/-- A second quiet waits for a completion, though everything is completed, and so does the first one
when the host has posted a request before. -/
theorem mlx5_waits_for_nothing : (∃ labels qp, run step (create 64 64 0) labels = some qp ∧
      ¬ qp.FlowControlled) ∧
    ∃ qp, run step (create 64 64 1) [.call (.wait 64) 0] = some qp ∧ ¬ qp.FlowControlled :=
  ⟨⟨postQuiet ++ [.call (.wait 64) 0], _, rfl, fun controlled =>
    absurd (controlled.waits (.wait 64) 0 rfl) (by decide)⟩, ⟨_, rfl, fun controlled =>
    absurd (controlled.waits (.wait 64) 0 rfl) (by decide)⟩⟩

end Qp

end RocmXio.Rdma.Mlx5
