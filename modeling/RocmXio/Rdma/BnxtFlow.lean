/-
Flow control of the bnxt send queue.

No request is overwritten before it is completed, and a quiet waits for everything, in runs in
which no poll meets a full ring, inline data fits its one slot, and the 16-bit count and the 32-bit
position are read before they wrap, or wrap in step with the rings. A ring that is exactly full
looks empty to `poll_cq_until`, and with a number of slots divisible by three it does become full.
-/

import RocmXio.Rdma.Bnxt

namespace RocmXio.Rdma.Bnxt

open Lib

namespace Qp

/-- No request is overwritten before it is completed, and a quiet that has returned has
waited for all requests. -/
structure FlowControlled (qp : Qp) : Prop where
  intact : Holds qp.depth slotCount qp.done qp.posted some qp.slots
  quiet : qp.pc = .quieted → qp.done = qp.posted

/-- A poll does not return for a request to stop or meet a ring that is full, as the lane counts it,
and the counters of the completion queue are below their wrap or wrap in step with the rings. -/
def Steady (qp : Qp) : Label → Prop
  | .lane =>
    match qp.pc with
    | .poll _ _ pollCount _ => ¬ (qp.stopFlag = true ∧ pollCount % 100 = 0) ∧
        slotCount * (qp.posted - qp.taken) ≠ qp.depth ∧
        (qp.taken < 2 ^ 32 ∨ 2 * qp.cqDepth ∣ 2 ^ 32) ∧
        (qp.taken + 1 < 2 ^ 16 ∨ qp.depth ∣ 3 * 2 ^ 16)
    | .idle | .quieted | .write _ | .ring _ => True
  | .call _ | .quiet | .doorbell | .nic | .stop => True

/-- Inline data fits one slot. -/
def Fitting (qp : Qp) (label : Label) : Prop :=
  match label, qp.pc with
  | .lane, .write op => qp.inlineLength op ≤ 16
  | _, _ => True

def Careful (qp : Qp) (label : Label) : Prop :=
  qp.Steady label ∧ qp.Fitting label

instance Steady.decidable (qp : Qp) : ∀ label, Decidable (qp.Steady label)
  | .lane => by
    unfold Steady
    cases qp.pc <;> infer_instance
  | .call _ | .quiet | .doorbell | .nic | .stop => inferInstanceAs (Decidable True)

instance Careful.decidable (qp : Qp) (label : Label) : Decidable (qp.Careful label) := by
  unfold Careful Fitting
  cases label <;> cases qp.pc <;> infer_instance

/-! ### The invariant -/

def Place (qp : Qp) : Prop :=
  match qp.pc with
  | .idle | .ring _ => qp.cqHead = qp.taken % 2 ^ 32
  | .quieted => qp.cqHead = qp.taken % 2 ^ 32 ∧ qp.taken = qp.posted
  | .poll _ cqCons _ cqDirty => cqCons = qp.taken % 2 ^ 32 ∧ (cqDirty = false → qp.cqHead = cqCons)
  | .write _ => qp.cqHead = qp.taken % 2 ^ 32 ∧
      slotCount * qp.posted + slotCount ≤ slotCount * qp.taken + qp.depth

/-- Tail and head are those of the counts, the ring is never overfilled, the completion queue holds
the completions not given back, and if inline data always fits, the requests are intact. -/
structure Invariant (fits : Prop) (qp : Qp) : Prop where
  depth_pos : 0 < qp.depth
  depth_le : qp.depth ≤ 2 ^ 28
  cq_pos : 0 < qp.cqDepth
  tail : qp.tail = slotCount * qp.posted % qp.depth
  head : qp.head = slotCount * qp.taken % qp.depth
  published_le : qp.published ≤ qp.posted
  done_le : qp.done ≤ qp.published
  taken_le : qp.taken ≤ qp.done
  acked_le : qp.acked ≤ qp.taken
  room : slotCount * qp.posted ≤ slotCount * qp.taken + qp.depth
  completions : CompletionRing qp.cqDepth qp.acked qp.done
    (fun index cqe => cqe.phase = passTag qp.cqDepth index) (completion qp.cqDepth) qp.cq
  intact : fits → Holds qp.depth slotCount qp.done qp.posted some qp.slots
  place : qp.Place

theorem computeSq_le (maxSendWr maxSendSge maxInlineData : Nat) :
    computeSq maxSendWr maxSendSge maxInlineData ≤ 2 ^ 28 := by
  simp only [computeSq, alignUp]
  omega

theorem create_invariant {fits : Prop} {sqDepth inlineThreshold cqDepth : Nat}
    (positive : 0 < computeSq sqDepth 1 inlineThreshold) :
    (create sqDepth inlineThreshold cqDepth).Invariant fits where
  depth_pos := positive
  depth_le := computeSq_le _ _ _
  cq_pos := by
    show 0 < cqDepthFor cqDepth
    unfold cqDepthFor
    split_ifs <;> omega
  tail := (Nat.zero_mod _).symm
  head := (Nat.zero_mod _).symm
  published_le := le_refl 0
  done_le := le_refl 0
  taken_le := le_refl 0
  acked_le := le_refl 0
  room := Nat.zero_le _
  completions := completionRing_empty _ fun index _ below => by
    rw [passTag_of_lt (Nat.lt_of_lt_of_eq below (Nat.zero_add _))]
    exact Bool.false_ne_true
  intact := fun _ => holds_empty _ _ _ _ _
  place := rfl

section

variable {fits : Prop} {qp next : Qp}

section

variable (invariant : qp.Invariant fits)
include invariant

theorem Invariant.available_eq (notFull : slotCount * (qp.posted - qp.taken) ≠ qp.depth) :
    qp.available = qp.depth - slotCount * (qp.posted - qp.taken) := by
  have room := invariant.room
  have bound := invariant.depth_le
  have ordered : slotCount * qp.taken ≤ slotCount * qp.posted := Nat.mul_le_mul_left _
    (Nat.le_trans invariant.taken_le (Nat.le_trans invariant.done_le invariant.published_le))
  rw [Nat.mul_sub] at notFull ⊢
  rw [available, invariant.tail, invariant.head, distance_word ordered (by omega) (by omega)]

theorem Invariant.getHwqe_eq {index : Nat} (small : index < qp.depth) :
    qp.getHwqe index = (slotCount * qp.posted + index) % qp.depth := by
  have tailLt : qp.tail < qp.depth := invariant.tail ▸ Nat.mod_lt _ invariant.depth_pos
  rw [← Nat.mod_add_mod, ← invariant.tail, getHwqe]
  split_ifs
  case pos around => rw [Nat.mod_eq_sub_mod (by omega), Nat.mod_eq_of_lt (by omega)]; omega
  case neg inside => rw [Nat.mod_eq_of_lt (by omega)]; omega

theorem Invariant.incrTail_eq : qp.incrTail = slotCount * (qp.posted + 1) % qp.depth := by
  have next : (qp.tail + slotCount) % qp.depth = slotCount * (qp.posted + 1) % qp.depth := by
    rw [invariant.tail, Nat.mod_add_mod, Nat.mul_succ]
  unfold incrTail
  split_ifs
  case pos => exact next
  case neg inside => rw [← next, Nat.mod_eq_of_lt (by omega)]

theorem Invariant.writeWqe {op : Op} (writing : qp.pc = .write op)
    (short : fits → qp.inlineLength op ≤ 16) :
    (qp.writeWqe op).Invariant fits := by
  have place := invariant.place
  simp only [Place, writing] at place
  have taken : slotCount * qp.taken ≤ slotCount * qp.done :=
    Nat.mul_le_mul_left _ invariant.taken_le
  have published := invariant.published_le
  have done := invariant.done_le
  have takenDone := invariant.taken_le
  have free := place.2
  have three : 3 ≤ qp.depth := by
    simp only [slotCount] at *
    omega
  have slots : fits → qp.written op = entrySlots qp.depth slotCount qp.posted := fun fitting => by
    have none : (qp.inlineLength op - 1) / 16 = 0 := by
      have short := short fitting
      omega
    rw [written, overrun, none, invariant.getHwqe_eq (by omega), invariant.getHwqe_eq (by omega),
      invariant.getHwqe_eq (by omega)]
    rfl
  have intact : fits → Holds qp.depth slotCount qp.done (qp.posted + 1) some
      (store qp.slots (qp.written op) (some qp.posted)) := fun fitting => by
    rw [slots fitting]
    exact (invariant.intact fitting).write (by rw [Nat.mul_succ]; omega)
  exact { invariant with
    tail := invariant.incrTail_eq
    published_le := Nat.le_succ_of_le published
    room := free
    intact := intact
    place := place.1 }

end

theorem head_of_conIndx {depth count : Nat} (inStep : count < 2 ^ 16 ∨ depth ∣ 3 * 2 ^ 16) :
    count % 2 ^ 16 * slotCount % 2 ^ 32 % depth = slotCount * count % depth := by
  have small : count % 2 ^ 16 * slotCount < 2 ^ 32 := by
    simp only [slotCount]
    omega
  rw [Nat.mod_eq_of_lt small, Nat.mul_comm]
  rcases inStep with below | divides
  · rw [Nat.mod_eq_of_lt below]
  · rw [← Nat.mul_mod_mul_left, slotCount, Nat.mod_mod_of_dvd _ divides]

variable {caller : Caller} {cqCons pollCount : Nat} {cqDirty : Bool}

section

variable (invariant : qp.Invariant fits)
include invariant

theorem Invariant.take (polling : qp.pc = .poll caller cqCons pollCount cqDirty)
    (position : qp.taken < 2 ^ 32 ∨ 2 * qp.cqDepth ∣ 2 ^ 32)
    (count : qp.taken + 1 < 2 ^ 16 ∨ qp.depth ∣ 3 * 2 ^ 16)
    (fresh : (qp.cq (cqCons % qp.cqDepth)).phase = passTag qp.cqDepth cqCons) :
    (qp.take caller cqCons pollCount).Invariant fits := by
  have place := invariant.place
  simp only [Place, polling] at place
  obtain ⟨slot, tag⟩ := passTag_mod position
  rw [place.1, slot, tag] at fresh
  have available := (invariant.completions.fresh_iff invariant.cq_pos invariant.acked_le
    invariant.taken_le rfl).mp fresh
  have entry := invariant.completions.holds.read invariant.acked_le available
  have head := head_of_conIndx count
  have room := invariant.room
  refine { invariant with
    head := ?_, taken_le := available, acked_le := Nat.le_succ_of_le invariant.acked_le,
    room := ?_, place := ⟨?_, by simp⟩ }
  · show (qp.cq (cqCons % qp.cqDepth)).conIndx * slotCount % 2 ^ 32 % qp.depth = _
    rw [place.1, slot, entry]
    exact head
  · show slotCount * qp.posted ≤ slotCount * (qp.taken + 1) + qp.depth
    rw [Nat.mul_succ]
    omega
  · show (cqCons + 1) % 2 ^ 32 = (qp.taken + 1) % 2 ^ 32
    rw [place.1, Nat.mod_add_mod]

theorem Invariant.found (polling : qp.pc = .poll caller cqCons pollCount cqDirty)
    (notFull : slotCount * (qp.posted - qp.taken) ≠ qp.depth)
    (enough : qp.available ≥ qp.requested caller) :
    (if cqDirty then { qp with acked := qp.taken, cqHead := cqCons }.proceed caller
      else qp.proceed caller).Invariant fits := by
  have place := invariant.place
  simp only [Place, polling] at place
  rw [invariant.available_eq notFull] at enough
  have positive := invariant.depth_pos
  have published := invariant.published_le
  have done := invariant.done_le
  have taken := invariant.taken_le
  have released : ({ qp with
      acked := if cqDirty then qp.taken else qp.acked
      cqHead := cqCons } : Qp).proceed caller =
        if cqDirty then { qp with acked := qp.taken, cqHead := cqCons }.proceed caller
        else qp.proceed caller := by
    cases cqDirty
    · rw [if_neg Bool.false_ne_true, if_neg Bool.false_ne_true, ← place.2 rfl]
    · rfl
  have acked : (if cqDirty then qp.taken else qp.acked) ≤ qp.taken := by
    split_ifs
    · exact le_refl _
    · exact invariant.acked_le
  have completions := invariant.completions.release
    (show qp.acked ≤ if cqDirty then qp.taken else qp.acked by
      split_ifs
      · exact invariant.acked_le
      · exact le_refl _)
  rw [← released]
  cases caller with
  | post op =>
    refine { invariant with acked_le := acked, completions := completions, place := ⟨place.1, ?_⟩ }
    simp only [requested, slotCount] at enough ⊢
    show 3 * qp.posted + 3 ≤ 3 * qp.taken + qp.depth
    omega
  | quiet =>
    refine { invariant with acked_le := acked, completions := completions, place := ⟨place.1, ?_⟩ }
    simp only [requested, slotCount] at enough
    show qp.taken = qp.posted
    omega

theorem Invariant.complete (more : qp.done < qp.published)
    (slot : qp.done < qp.acked + qp.cqDepth) :
    qp.complete.Invariant fits :=
  { invariant with
    done_le := more
    taken_le := Nat.le_succ_of_le invariant.taken_le
    completions := invariant.completions.push slot (passTag_ne invariant.cq_pos _)
    intact := fun fitting => (invariant.intact fitting).drop (Nat.le_succ _)
    place := invariant.place }

theorem Invariant.cqHead_eq (ready : qp.ready = true) : qp.cqHead = qp.taken % 2 ^ 32 := by
  have place := invariant.place
  rw [Qp.ready, Bool.or_eq_true, decide_eq_true_eq, decide_eq_true_eq] at ready
  rcases ready with idle | quieted
  · simpa only [Place, idle] using place
  · exact (by simpa only [Place, quieted] using place : _ ∧ _).1

theorem Invariant.beginPoll (caller : Caller) (written : qp.cqHead = qp.taken % 2 ^ 32) :
    Invariant fits { qp with pc := .poll caller qp.cqHead 0 false } :=
  { invariant with place := ⟨written, fun _ => rfl⟩ }

theorem Invariant.pollTurn (polling : qp.pc = .poll caller cqCons pollCount cqDirty)
    (running : ¬ (qp.stopFlag = true ∧ pollCount % 100 = 0))
    (notFull : slotCount * (qp.posted - qp.taken) ≠ qp.depth)
    (position : qp.taken < 2 ^ 32 ∨ 2 * qp.cqDepth ∣ 2 ^ 32)
    (count : qp.taken + 1 < 2 ^ 16 ∨ qp.depth ∣ 3 * 2 ^ 16) :
    (qp.pollTurn caller cqCons pollCount cqDirty).Invariant fits := by
  have place := invariant.place
  simp only [Place, polling] at place
  rw [Qp.pollTurn, if_neg running]
  by_cases enough : qp.available ≥ qp.requested caller
  · rw [if_pos enough]
    exact invariant.found polling notFull enough
  · split_ifs
    case pos fresh => exact invariant.take polling position count fresh
    case neg => exact { invariant with place := place }

theorem Invariant.finish {op : Op} (ringing : qp.pc = .ring op) :
    (qp.finish op).Invariant fits := by
  have place := invariant.place
  simp only [Place, ringing] at place
  have done := Nat.le_trans invariant.done_le invariant.published_le
  cases op with
  | rma length isWrite ringDb =>
    cases ringDb
    · exact { invariant with place := place }
    · exact { invariant with published_le := le_refl _, done_le := done, place := place }
  | amo fetching =>
    have published : Invariant fits { qp with published := qp.posted } :=
      { invariant with
        published_le := le_refl _, done_le := done
        place := by simpa only [Place, ringing] using place }
    cases fetching
    · exact { published with place := place }
    · exact published.beginPoll .quiet place

theorem Invariant.step {label : Label} (steady : qp.Steady label) (short : fits → qp.Fitting label)
    (move : qp.step label = some next) : next.Invariant fits := by
  cases label with
  | call op =>
    obtain ⟨ready, ⟨⟩⟩ := Option.ite_none_right_eq_some.mp move
    exact invariant.beginPoll _ (invariant.cqHead_eq ready)
  | quiet =>
    obtain ⟨ready, ⟨⟩⟩ := Option.ite_none_right_eq_some.mp move
    exact invariant.beginPoll _ (invariant.cqHead_eq ready)
  | doorbell =>
    obtain ⟨-, ⟨⟩⟩ := Option.ite_none_right_eq_some.mp move
    exact { invariant with
      published_le := le_refl _
      done_le := Nat.le_trans invariant.done_le invariant.published_le
      place := invariant.place }
  | lane =>
    cases place : qp.pc <;> simp only [Qp.step, lane, Steady, Fitting, place] at move steady short
    case poll =>
      cases move
      obtain ⟨running, notFull, position, count⟩ := steady
      exact invariant.pollTurn place running notFull position count
    case write =>
      cases move
      exact invariant.writeWqe place short
    case ring =>
      cases move
      exact invariant.finish place
    all_goals cases move
  | nic =>
    obtain ⟨enabled, ⟨⟩⟩ := Option.ite_none_right_eq_some.mp move
    exact invariant.complete enabled.1 enabled.2
  | stop =>
    cases move
    exact { invariant with place := invariant.place }

theorem Invariant.flowControlled (fitting : fits) : qp.FlowControlled := by
  refine ⟨invariant.intact fitting, fun quieted => ?_⟩
  have place := invariant.place
  simp only [Place, quieted] at place
  have published := invariant.published_le
  have done := invariant.done_le
  have taken := invariant.taken_le
  omega

end

end

/-- In every run of careful steps no request is overwritten before it is completed, and a quiet
returns only when all requests are. -/
theorem bnxt_flow_controlled (sqDepth inlineThreshold cqDepth : Nat)
    (positive : 0 < computeSq sqDepth 1 inlineThreshold) (labels : List Label) (qp : Qp)
    (reaches : run step (create sqDepth inlineThreshold cqDepth) labels = some qp)
    (careful : EveryStep step Careful (create sqDepth inlineThreshold cqDepth) labels) :
    qp.FlowControlled :=
  (run_invariant_of_everyStep (motive := Invariant True)
    (fun _ _ _ invariant careful move => invariant.step careful.1 (fun _ => careful.2) move)
    (create_invariant positive) careful reaches).flowControlled trivial

/-- A put of eight bytes with the default configuration, completed, and a quiet. -/
def onePut : List Label :=
  [.call (.rma 8 true true), .lane, .lane, .lane, .nic, .quiet, .lane, .lane]

theorem bnxt_flow_controlled_onePut :
    ∃ qp, run step (create 256 28 256) onePut = some qp ∧ qp.pc = .quieted ∧ qp.posted = 1 ∧
      qp.FlowControlled :=
  ⟨_, rfl, rfl, rfl, bnxt_flow_controlled 256 28 256 (by decide) onePut _ rfl (by decide)⟩

/-! ### A full ring -/

variable {qp : Qp}

theorem poll_finds {caller : Caller} (running : qp.stopFlag = false)
    (enough : qp.available ≥ qp.requested caller) :
    step { qp with pc := .poll caller qp.cqHead 0 false } .lane = some (qp.proceed caller) := by
  have turn : pollTurn { qp with pc := .poll caller qp.cqHead 0 false } caller qp.cqHead 0 false =
      proceed { qp with pc := .poll caller qp.cqHead 0 false } caller := by
    have unseen : ¬ (qp.stopFlag = true ∧ 0 % 100 = 0) := fun stopped =>
      Bool.false_ne_true (running.symm.trans stopped.1)
    rw [pollTurn, if_neg unseen, if_pos (by cases caller <;> exact enough),
      if_neg Bool.false_ne_true]
  refine (congrArg some turn).trans ?_
  cases caller <;> rfl

theorem post_at_once (op : Op) (idle : qp.pc = .idle) (running : qp.stopFlag = false)
    (enough : qp.available ≥ slotCount) :
    run step qp [.call op, .lane, .lane, .lane] =
      some (({ qp with pc := .write op }.writeWqe op).finish op) := by
  have first : qp.step (.call op) = some { qp with pc := .poll (.post op) qp.cqHead 0 false } := by
    simp only [step, ready, idle, decide_true, Bool.true_or, if_true]
  have second : step { qp with pc := .poll (.post op) qp.cqHead 0 false } .lane =
      some { qp with pc := .write op } := poll_finds running enough
  rw [run_cons_of_step first, run_cons_of_step second]
  rfl

/-- A queue pair of 768 slots after `count` requests, none of them completed. -/
structure Uncompleted (qp : Qp) (count : Nat) : Prop where
  depth : qp.depth = 768
  tail : qp.tail = 3 * count % 768
  head : qp.head = 0
  running : qp.stopFlag = false
  idle : qp.pc = .idle
  posted : qp.posted = count
  done : qp.done = 0

variable {count : Nat}

theorem Uncompleted.available_eq (waiting : qp.Uncompleted count) :
    qp.available = 768 - 3 * count % 768 := by
  have noWrap : (3 * count % 768 + 2 ^ 32 - 0 + 768) % 2 ^ 32 = 3 * count % 768 + 768 := by omega
  rw [available, waiting.depth, waiting.tail, waiting.head, noWrap, Nat.add_mod_right, Nat.mod_mod]

theorem Uncompleted.more (waiting : qp.Uncompleted count) (bound : count < 256) :
    ∃ next, run step qp [.call (.rma 8 false true), .lane, .lane, .lane] = some next ∧
      next.Uncompleted (count + 1) := by
  have enough : qp.available ≥ slotCount := by
    rw [waiting.available_eq, slotCount]
    omega
  refine ⟨_, post_at_once _ waiting.idle waiting.running enough, waiting.depth, ?_, waiting.head,
    waiting.running, rfl, congrArg (· + 1) waiting.posted, waiting.done⟩
  show qp.incrTail = 3 * (count + 1) % 768
  rw [incrTail, waiting.depth, waiting.tail, slotCount]
  split_ifs <;> omega

theorem uncompleted_all (count : Nat) (bound : count ≤ 256) :
    ∃ labels qp, run step (create 1 0 256) labels = some qp ∧ qp.Uncompleted count := by
  induction count with
  | zero => exact ⟨[], _, rfl, by decide, rfl, rfl, rfl, rfl, rfl, rfl⟩
  | succ count reachable =>
    obtain ⟨labels, qp, reaches, waiting⟩ := reachable (Nat.le_of_succ_le bound)
    obtain ⟨next, posts, again⟩ := waiting.more bound
    exact ⟨_, next, (run_append_of_run reaches).trans posts, again⟩

/-- With 768 slots, a quiet after 256 requests returns at once, though none is completed. -/
theorem bnxt_full_looks_empty : ∃ labels qp,
    run step (create 1 0 256) labels = some qp ∧ ¬ qp.FlowControlled := by
  obtain ⟨labels, full, reaches, waiting⟩ := uncompleted_all 256 (le_refl _)
  have enough : full.available ≥ full.requested .quiet := by
    rw [waiting.available_eq]
    show 768 ≥ full.depth
    rw [waiting.depth]
  have first : full.step .quiet = some { full with pc := .poll .quiet full.cqHead 0 false } := by
    simp only [step, ready, waiting.idle, decide_true, Bool.true_or, if_true]
  have second : step { full with pc := .poll .quiet full.cqHead 0 false } .lane =
      some { full with pc := .quieted } := poll_finds waiting.running enough
  refine ⟨labels ++ [.quiet, .lane], { full with pc := .quieted }, ?_, fun controlled => ?_⟩
  · rw [run_append_of_run reaches, run_cons_of_step first, run_cons_of_step second, run_nil]
  · have all : full.done = full.posted := controlled.quiet rfl
    rw [waiting.done, waiting.posted] at all
    exact absurd all (by decide)

end Qp

end RocmXio.Rdma.Bnxt
