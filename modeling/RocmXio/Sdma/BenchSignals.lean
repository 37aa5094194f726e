/-
The signals of the SDMA benchmarks.

A benchmark goes through a range of sizes by doubling. For each size it resets its signals and
launches a kernel, for a check of the data, to warm up and to measure. Every launch adds one to each
signal and waits for the value that the host expects. Two benchmarks start the expected value again
for every size, the latency benchmark only once: with a second size its kernels wait for a value
that no packet will ever make.
-/

import RocmXio.Lib.Run
import RocmXio.Sdma.Bandwidth

namespace RocmXio.Sdma

open Lib

/-! ### What the device sees -/

/-- The host sets the signals to zero, or launches a kernel that waits at some signals for the
expected value and whose packets add one to those listed. -/
inductive SignalEvent where
  | reset
  | launch (expected : Nat) (waiting increments : List Nat)

/-- The signals, and the number of launches since the last reset. -/
structure Signals where
  value : Nat → Nat
  launches : Nat

namespace Signals

def step (signals : Signals) : SignalEvent → Option Signals
  | .reset => some ⟨fun _ => 0, 0⟩
  | .launch _ _ increments =>
    some ⟨fun slot => signals.value slot + increments.count slot, signals.launches + 1⟩

/-- `waitSignal` returns for this value. -/
def waitSignal (value expected : Nat) : Prop := expected ≤ value

/-- A launch expects one more than there were launches, and each of its waits is over with
its own increment and not before. -/
def Expected (signals : Signals) : SignalEvent → Prop
  | .reset => True
  | .launch expected waiting increments =>
    expected = signals.launches + 1 ∧ ∀ slot ∈ waiting, increments.count slot = 1 ∧
      ¬waitSignal (signals.value slot) expected ∧ waitSignal (signals.value slot + 1) expected

/-- Every launch of a series is as expected, whatever the signals were before. -/
def Tracked (events : List SignalEvent) : Prop :=
  ∀ start : Signals, EveryStep step Expected start events

end Signals

/-! ### The benchmarks -/

def launchSeries (kernel : Nat → SignalEvent) : (count expected : Nat) → List SignalEvent
  | 0, _ => []
  | count + 1, expected => kernel expected :: launchSeries kernel count (expected + 1)

/-- One size: the events, and the expected value after them unless the check of the data fails
and ends the program. -/
def oneSize (kernel : Nat → SignalEvent) (verification passes : Bool)
    (warmup iterations expected : Nat) : List SignalEvent × Option Nat :=
  let verify := if verification then 1 else 0
  let first := .reset :: launchSeries kernel verify expected
  if verification && !passes then (first, none)
  else
    (first ++ launchSeries kernel warmup (expected + verify) ++
      launchSeries kernel iterations (expected + verify + warmup),
      some (expected + verify + warmup + iterations))

/-- `for (size_t size = min; size <= max; size *= 2)`, for as many sizes as `rounds` at most.
The body has the expected value before it. -/
def sweep (maxSize : Nat) (body : Nat → Nat → List SignalEvent × Option Nat) :
    (rounds size expected : Nat) → List SignalEvent
  | 0, _, _ => []
  | rounds + 1, size, expected =>
    if size ≤ maxSize then
      match body size expected with
      | (events, none) => events
      | (events, some expected) =>
        events ++ sweep maxSize body rounds (size * 2 % 2 ^ 64) expected
    else []

/-- The parameters of `sdma-ep-latency` that it accepts. -/
structure LatencyParams where
  minSize : Nat
  maxSize : Nat
  warmup : Nat
  iterations : Nat
  skipVerification : Bool
  minSize_pos : 0 < minSize
  maxSize_ge : minSize ≤ maxSize
  maxSize_lt : maxSize < 2 ^ 64
  iterations_pos : 0 < iterations

/-- The one warp of `sdmaLatencyKernel`. -/
def sdmaLatencyKernel (expected : Nat) : SignalEvent := .launch expected [0] [0]

/-- `run` of `sdma-ep-latency`. Whether the data of a size is found right is given. -/
def LatencyParams.run (params : LatencyParams) (verify : Nat → Bool) (rounds : Nat) :
    List SignalEvent :=
  sweep params.maxSize (fun size expected =>
    oneSize sdmaLatencyKernel (!params.skipVerification) (verify size) params.warmup
      params.iterations expected) rounds params.minSize 1

/-- The parameters of `sdma-ep-bw`, which accepts all. -/
structure BandwidthParams where
  minCopySize : Nat
  maxCopySize : Nat
  nWarmupIterations : Nat
  numIterations : Nat
  skipVerification : Bool
  deviceTriggered : Bool
  layout : ExperimentParams

/-- The kernel of a mode: `triggerMultiQueueSDMATransfer` after the host has programmed the
transfers, or `multiQueueSDMATransferQueueMapWG`. -/
def BandwidthParams.kernel (params : BandwidthParams) (copySize expectedSignal : Nat) :
    SignalEvent :=
  let layout := { params.layout with copySize := copySize }
  if params.deviceTriggered then
    .launch expectedSignal (List.range layout.totalNumWarps)
      (layout.preprogramTransfers.map WarpWork.signal)
  else
    .launch expectedSignal (layout.launch.map WarpWork.signal) (layout.launch.map WarpWork.signal)

/-- `runExperiment` of `sdma-ep-bw`. -/
def BandwidthParams.run (params : BandwidthParams) (verify : Nat → Bool) (rounds : Nat) :
    List SignalEvent :=
  sweep params.maxCopySize (fun copySize _ =>
    oneSize (params.kernel copySize) (!params.skipVerification) (verify copySize)
      params.nWarmupIterations params.numIterations 1) rounds params.minCopySize 1

inductive RateMode where
  | copy
  | pollCopy
  | copyAtomic
  | pollCopyAtomic
  | pollOnly
  | atomicOnly
deriving DecidableEq

def RateMode.hasCopy (mode : RateMode) : Bool :=
  mode = .copy || mode = .pollCopy || mode = .copyAtomic || mode = .pollCopyAtomic

/-- The parameters of `sdma-ep-rate` that it accepts. -/
structure RateParams where
  minCopySize : Nat
  maxCopySize : Nat
  warmup : Nat
  iterations : Nat
  numQueues : Nat
  skipVerification : Bool
  mode : RateMode
  minCopySize_pos : 0 < minCopySize
  maxCopySize_ge : minCopySize ≤ maxCopySize
  iterations_pos : 0 < iterations
  numQueues_pos : 0 < numQueues

/-- `sdmaRateKernel` with one warp and one signal for each queue. The atomics that are
measured go to other addresses. -/
def sdmaRateKernel (numQueues expectedSignal : Nat) : SignalEvent :=
  .launch expectedSignal (List.range numQueues) (List.range numQueues)

/-- `run` of `sdma-ep-rate`. -/
def RateParams.run (params : RateParams) (verify : Nat → Bool) (rounds : Nat) :
    List SignalEvent :=
  sweep params.maxCopySize (fun copySize _ =>
    oneSize (sdmaRateKernel params.numQueues) (!params.skipVerification && params.mode.hasCopy)
      (verify copySize) params.warmup params.iterations 1) rounds params.minCopySize 1

/-! ### Launches after a reset -/

variable (kernel : Nat → SignalEvent)

theorem launchSeries_add (first second expected : Nat) :
    launchSeries kernel (first + second) expected =
      launchSeries kernel first expected ++ launchSeries kernel second (expected + first) := by
  induction first generalizing expected with
  | zero => rw [Nat.zero_add]; rfl
  | succ first inductionHypothesis =>
    rw [Nat.succ_add, launchSeries, inductionHypothesis, launchSeries, List.cons_append,
      Nat.add_assoc, Nat.add_comm 1]

theorem oneSize_eq (verification passes : Bool) (warmup iterations expected : Nat) :
    oneSize kernel verification passes warmup iterations expected =
      let verify := if verification then 1 else 0
      if verification && !passes then (.reset :: launchSeries kernel verify expected, none)
      else (.reset :: launchSeries kernel (verify + warmup + iterations) expected,
        some (expected + (verify + warmup + iterations))) := by
  rw [oneSize]
  split
  · rfl
  · simp only [launchSeries_add, List.cons_append, List.append_assoc, Nat.add_assoc]

theorem exists_launchSeries (verification passes : Bool) (warmup iterations expected : Nat) :
    ∃ count, (oneSize kernel verification passes warmup iterations expected).1 =
      .reset :: launchSeries kernel count expected := by
  rw [oneSize_eq]
  dsimp only
  split
  · exact ⟨_, rfl⟩
  · exact ⟨_, rfl⟩

theorem sweep_of_lt {maxSize size : Nat} (large : maxSize < size)
    (body : Nat → Nat → List SignalEvent × Option Nat) (rounds expected : Nat) :
    sweep maxSize body rounds size expected = [] := by
  cases rounds with
  | zero => rfl
  | succ rounds => rw [sweep, if_neg (Nat.not_le.mpr large)]

namespace Signals

/-- All signals that are waited for have one increment for each launch. -/
def Level (waiting : List Nat) (signals : Signals) : Prop :=
  ∀ slot ∈ waiting, signals.value slot = signals.launches

section

variable {waiting increments : List Nat} {rest : List SignalEvent}
  (once : ∀ slot ∈ waiting, increments.count slot = 1)

include once

variable {count : Nat}

theorem everyStep_launchSeries {signals : Signals} (level : signals.Level waiting)
    (continues : ∀ state, EveryStep step Expected state rest) :
    EveryStep step Expected signals
      (launchSeries (SignalEvent.launch · waiting increments) count (signals.launches + 1) ++
        rest) := by
  induction count generalizing signals with
  | zero => exact continues signals
  | succ count inductionHypothesis =>
    have next : Level waiting ⟨fun slot => signals.value slot + increments.count slot,
        signals.launches + 1⟩ := by
      intro slot member
      simp only [once slot member, level slot member]
    refine ⟨⟨rfl, fun slot member => ⟨once slot member, ?_, ?_⟩⟩, inductionHypothesis next⟩
    · rw [waitSignal, level slot member]
      exact Nat.not_succ_le_self _
    · rw [waitSignal, level slot member]

theorem everyStep_reset (continues : ∀ state, EveryStep step Expected state rest)
    (start : Signals) :
    EveryStep step Expected start
      (.reset :: launchSeries (SignalEvent.launch · waiting increments) count 1 ++ rest) :=
  have level : Level waiting ⟨fun _ => 0, 0⟩ := fun _ _ => rfl
  ⟨trivial, everyStep_launchSeries once level continues⟩

end

theorem tracked_sweep {maxSize : Nat} {body : Nat → Nat → List SignalEvent × Option Nat}
    (fresh : ∀ size expected, ∃ waiting increments count,
      (∀ slot ∈ waiting, increments.count slot = 1) ∧ (body size expected).1 =
        .reset :: launchSeries (SignalEvent.launch · waiting increments) count 1)
    (rounds size expected : Nat) : Tracked (sweep maxSize body rounds size expected) := by
  induction rounds generalizing size expected with
  | zero => exact fun _ => trivial
  | succ rounds inductionHypothesis =>
    intro start
    obtain ⟨waiting, increments, count, once, events⟩ := fresh size expected
    rw [sweep]
    split
    case isFalse => exact trivial
    case isTrue =>
      split
      case h_1 first found =>
        simp only [found] at events
        rw [← List.append_nil first, events]
        refine everyStep_reset once (fun _ => ?_) start
        exact trivial
      case h_2 first next found =>
        simp only [found] at events
        rw [events]
        exact everyStep_reset once (inductionHypothesis _ _) start

theorem everyStep_of_append {first second : List SignalEvent} {start : Signals}
    (guarded : EveryStep step Expected start (first ++ second)) :
    ∃ state, EveryStep step Expected state second := by
  induction first generalizing start with
  | nil => exact ⟨start, guarded⟩
  | cons event rest inductionHypothesis =>
    cases event with
    | reset => exact inductionHypothesis guarded.2
    | launch expected waiting increments => exact inductionHypothesis guarded.2

end Signals

open Signals

theorem count_range {slot count : Nat} (member : slot ∈ List.range count) :
    (List.range count).count slot = 1 :=
  List.count_eq_one_of_mem List.nodup_range member

/-! ### The benchmarks that start again for every size -/

variable (params : BandwidthParams)

theorem BandwidthParams.kernel_eq (copySize : Nat) :
    params.kernel copySize = (SignalEvent.launch · (List.range params.layout.totalNumWarps)
      (List.range params.layout.totalNumWarps)) := by
  funext expectedSignal
  simp only [BandwidthParams.kernel, ExperimentParams.signals_launch,
    ExperimentParams.signals_preprogramTransfers, ite_self]
  rfl

theorem BandwidthParams.tracked_run (verify : Nat → Bool) (rounds : Nat) :
    Tracked (params.run verify rounds) := by
  refine tracked_sweep (fun size _ => ?_) rounds params.minCopySize 1
  rw [params.kernel_eq]
  obtain ⟨count, events⟩ := exists_launchSeries (SignalEvent.launch ·
    (List.range params.layout.totalNumWarps) (List.range params.layout.totalNumWarps))
    (!params.skipVerification) (verify size) params.nWarmupIterations params.numIterations 1
  exact ⟨_, _, count, fun slot => count_range, events⟩

theorem RateParams.tracked_run (params : RateParams) (verify : Nat → Bool) (rounds : Nat) :
    Tracked (params.run verify rounds) := by
  refine tracked_sweep (fun size _ => ?_) rounds params.minCopySize 1
  obtain ⟨count, events⟩ := exists_launchSeries (sdmaRateKernel params.numQueues)
    (!params.skipVerification && params.mode.hasCopy) (verify size) params.warmup
    params.iterations 1
  exact ⟨_, _, count, fun slot => count_range, events⟩

/-! ### The benchmark that does not -/

namespace LatencyParams

variable (params : LatencyParams)

def SingleSize : Prop := params.maxSize < params.minSize * 2 % 2 ^ 64

theorem tracked_of_singleSize (single : params.SingleSize) (verify : Nat → Bool)
    (rounds : Nat) : Tracked (params.run verify rounds) := by
  cases rounds with
  | zero => exact fun _ => trivial
  | succ rounds =>
    intro start
    have once : ∀ slot ∈ [0], [0].count slot = 1 := by decide
    obtain ⟨count, events⟩ := exists_launchSeries sdmaLatencyKernel (!params.skipVerification)
      (verify params.minSize) params.warmup params.iterations 1
    rw [LatencyParams.run, sweep, if_pos params.maxSize_ge]
    split
    case h_1 first found =>
      simp only [found] at events
      rw [← List.append_nil first, events]
      refine everyStep_reset once (fun _ => ?_) start
      exact trivial
    case h_2 first next found =>
      simp only [found] at events
      rw [sweep_of_lt single, events]
      refine everyStep_reset once (fun _ => ?_) start
      exact trivial

theorem singleSize_of_tracked
    (tracked : ∀ verify rounds, Tracked (params.run verify rounds)) : params.SingleSize := by
  by_contra several
  have again : params.minSize * 2 % 2 ^ 64 ≤ params.maxSize := Nat.not_lt.mp several
  have guarded := tracked (fun _ => true) 2 ⟨fun _ => 0, 0⟩
  obtain ⟨count, counts⟩ : ∃ count, (if (!params.skipVerification) = true then 1 else 0) +
      params.warmup + params.iterations = count + 1 :=
    Nat.exists_eq_add_one.mpr (Nat.add_pos_right _ params.iterations_pos)
  simp only [LatencyParams.run, sweep, oneSize_eq, if_pos params.maxSize_ge, if_pos again,
    Bool.not_true, Bool.and_false, Bool.false_eq_true, if_false, counts] at guarded
  obtain ⟨state, second⟩ := everyStep_of_append guarded
  have wrong : 1 + (count + 1) = 0 + 1 := second.2.1.1
  omega

end LatencyParams

/-! ### All three -/

inductive Benchmark where
  | latency (params : LatencyParams)
  | bandwidth (params : BandwidthParams)
  | rate (params : RateParams)

namespace Benchmark

/-- The resets and launches in the first `rounds` sizes. -/
def run (verify : Nat → Bool) (rounds : Nat) : Benchmark → List SignalEvent
  | .latency params => params.run verify rounds
  | .bandwidth params => params.run verify rounds
  | .rate params => params.run verify rounds

/-- Every launch of a benchmark expects what its own increment makes, except that the latency
benchmark does so only if it is run for one size. -/
theorem tracked_iff (benchmark : Benchmark) :
    (∀ verify rounds, Tracked (benchmark.run verify rounds)) ↔
      ∀ params, benchmark = .latency params → params.SingleSize := by
  cases benchmark with
  | latency params =>
    constructor
    · rintro tracked _ ⟨⟩
      exact params.singleSize_of_tracked tracked
    · intro single
      exact params.tracked_of_singleSize (single params rfl)
  | bandwidth params => exact iff_of_true params.tracked_run (fun _ same => by cases same)
  | rate params => exact iff_of_true params.tracked_run (fun _ same => by cases same)

end Benchmark

def twoSizes : LatencyParams where
  minSize := 256
  maxSize := 512
  warmup := 0
  iterations := 1
  skipVerification := true
  minSize_pos := Nat.two_pow_pos 8
  maxSize_ge := by decide
  maxSize_lt := by decide
  iterations_pos := Nat.one_pos

/-- The kernel of the second size waits for the value two at a signal that gets one
increment. -/
theorem twoSizes_untracked : (Benchmark.latency twoSizes).run (fun _ => true) 2 =
      [.reset, .launch 1 [0] [0], .reset, .launch 2 [0] [0]] ∧
      ¬Tracked ((Benchmark.latency twoSizes).run (fun _ => true) 2) := by
  have events : (Benchmark.latency twoSizes).run (fun _ => true) 2 =
      [.reset, .launch 1 [0] [0], .reset, .launch 2 [0] [0]] := rfl
  refine ⟨events, fun tracked => ?_⟩
  have guarded := tracked ⟨fun _ => 0, 0⟩
  exact absurd guarded.2.2.2.1.1 (by decide)

end RocmXio.Sdma
