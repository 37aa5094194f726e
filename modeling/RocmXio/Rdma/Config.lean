/-
The configuration of the RDMA endpoint.

`validateConfig` resolves the provider, normalises two fields and returns the message of the first
check that fails, or the empty string. The loopback flag is cleared only once the checks before it
have passed.
-/

import Mathlib.Tactic

namespace RocmXio.Rdma

inductive Provider where
  | bnxt
  | mlx5
  | ionic
  | rocmErnic
  | unknown
deriving DecidableEq, Repr

def providerName : Provider → String
  | .bnxt => "bnxt"
  | .mlx5 => "mlx5"
  | .ionic => "ionic"
  | .rocmErnic => "rocm-ernic"
  | .unknown => "unknown"

def providerFromString (name : String) : Provider :=
  if name = "bnxt" ∨ name = "bnxt_re" then .bnxt
  else if name = "mlx5" then .mlx5
  else if name = "ionic" ∨ name = "pensando" then .ionic
  else if name = "rocm_ernic" ∨ name = "ernic" ∨ name = "rocm-ernic" then .rocmErnic
  else .unknown

def providerAllowedNames : String :=
  providerName .bnxt ++ ", " ++ providerName .mlx5 ++ ", " ++ providerName .ionic ++ ", or " ++
    providerName .rocmErnic

/-- The fields of the configuration that `validateConfig` reads or writes, with their
defaults. -/
structure RdmaEpConfig where
  providerStr : String := "bnxt"
  provider : Provider := .bnxt
  iterations : Nat := 128
  sqDepth : Nat := 256
  transferSize : Nat := 4096
  loopback : Bool := true
  batchSize : Nat := 1
  numQueues : Nat := 1
  infiniteMode : Bool := false
  isServer : Bool := false
  isClient : Bool := false
  serverHost : String := ""
  ppSize : Nat := 64
deriving DecidableEq, Repr

def firstFailure : List (Bool × String) → String
  | [] => ""
  | (failed, message) :: rest => if failed then message else firstFailure rest

theorem firstFailure_eq_empty {checks : List (Bool × String)}
    (messages : ∀ check ∈ checks, check.2 ≠ "") (passed : firstFailure checks = "") :
    ∀ check ∈ checks, check.1 = false := by
  induction checks with
  | nil => exact fun _ member => absurd member List.not_mem_nil
  | cons first rest inductionHypothesis =>
    obtain ⟨failed, message⟩ := first
    rw [List.forall_mem_cons] at messages ⊢
    cases failed with
    | true => exact absurd passed messages.1
    | false => exact ⟨rfl, inductionHypothesis messages.2 passed⟩

namespace RdmaEpConfig

variable (config : RdmaEpConfig)

/-- The provider is resolved, and an infinite run has no iteration count. -/
def resolve : RdmaEpConfig :=
  { config with
    provider := providerFromString config.providerStr
    iterations := if providerFromString config.providerStr ≠ .unknown ∧ config.infiniteMode then 0
      else config.iterations }

def twoNode : Bool :=
  config.isServer || config.isClient

/-- The checks before the loopback flag is cleared. `maxBlock` is the largest number of threads
in a block of the device, zero when it is not known. -/
def queueChecks (maxBlock : Nat) : List (Bool × String) :=
  [(config.provider == .unknown, "Invalid provider. Must be: " ++ providerAllowedNames),
   (config.sqDepth == 0, "SQ depth must be > 0"),
   (config.transferSize == 0, "Transfer size must be > 0"),
   (decide (0 < config.batchSize ∧ config.sqDepth ≤ config.batchSize),
     "--batch-size must be < --sq-depth"),
   (decide (1 < config.batchSize) && !config.loopback, "--batch-size > 1 requires loopback mode"),
   (decide (1 < config.batchSize ∧ 0 < maxBlock ∧ maxBlock < (config.batchSize + 1) % 2 ^ 32),
     "--batch-size + 1 exceeds GPU max threads per block"),
   (decide (1 < config.numQueues) && !config.loopback, "--num-queues > 1 requires loopback mode"),
   (config.isServer && config.isClient, "--server and --client are mutually exclusive")]

def nodeChecks : List (Bool × String) :=
  [(!config.loopback && !config.isServer && !config.isClient,
     "--no-loopback requires --server or --client"),
   (config.isClient && config.serverHost.isEmpty, "--client requires --server-host"),
   (config.twoNode && decide (config.ppSize < 16),
     "Ping-pong size must be >= 16 bytes (8-byte seq header + payload)"),
   (config.twoNode && config.ppSize % 8 != 0,
     "Ping-pong size must be a multiple of 8 (PingPongBuf alignment)")]

def place : RdmaEpConfig :=
  if config.twoNode then { config with loopback := false } else config

/-- The configuration as `validateConfig` leaves it, and its message. -/
def validateConfig (maxBlock : Nat) : RdmaEpConfig × String :=
  if firstFailure (config.resolve.queueChecks maxBlock) ≠ "" then
    (config.resolve, firstFailure (config.resolve.queueChecks maxBlock))
  else (config.resolve.place, firstFailure config.resolve.place.nodeChecks)

structure Accepted (config : RdmaEpConfig) : Prop where
  known : config.provider ≠ .unknown
  depth_pos : 0 < config.sqDepth
  transfer_pos : 0 < config.transferSize
  batch_lt : config.batchSize < config.sqDepth
  oneRole : ¬ (config.isServer = true ∧ config.isClient = true)
  loopback : config.loopback = !config.twoNode
  pingPong : config.twoNode = true → 16 ≤ config.ppSize ∧ config.ppSize % 8 = 0

theorem queueChecks_messages (maxBlock : Nat) :
    ∀ check ∈ config.queueChecks maxBlock, check.2 ≠ "" := by
  simp only [queueChecks, List.forall_mem_cons]
  decide

theorem nodeChecks_messages : ∀ check ∈ config.nodeChecks, check.2 ≠ "" := by
  simp only [nodeChecks, List.forall_mem_cons]
  decide

theorem accepted_place {config : RdmaEpConfig} {maxBlock : Nat}
    (queues : firstFailure (config.queueChecks maxBlock) = "")
    (nodes : firstFailure config.place.nodeChecks = "") : config.place.Accepted := by
  have queuePassed := firstFailure_eq_empty (config.queueChecks_messages maxBlock) queues
  have nodePassed := firstFailure_eq_empty config.place.nodeChecks_messages nodes
  simp only [queueChecks, List.forall_mem_cons, beq_eq_false_iff_ne, decide_eq_false_iff_not]
    at queuePassed
  simp only [nodeChecks, List.forall_mem_cons] at nodePassed
  obtain ⟨known, depth, transfer, batch, -, -, -, roles, -⟩ := queuePassed
  obtain ⟨placed, -, longEnough, aligned, -⟩ := nodePassed
  have batchLt : config.batchSize < config.sqDepth := by omega
  have notBoth : ¬ (config.isServer = true ∧ config.isClient = true) := by
    rwa [← Bool.and_eq_true, Bool.not_eq_true]
  cases role : config.twoNode with
  | true =>
    have same : config.place = { config with loopback := false } := if_pos role
    rw [same] at longEnough aligned ⊢
    refine ⟨known, Nat.pos_of_ne_zero depth, Nat.pos_of_ne_zero transfer, batchLt, notBoth,
      congrArg not role.symm, fun paired => ?_⟩
    rw [paired, Bool.true_and] at longEnough aligned
    exact ⟨Nat.le_of_not_lt (of_decide_eq_false longEnough), by simpa using aligned⟩
  | false =>
    have same : config.place = config := if_neg (Bool.eq_false_iff.mp role)
    rw [same] at placed ⊢
    have looped : config.loopback = true := by
      rw [Bool.and_assoc, ← Bool.not_or, ← twoNode, role] at placed
      simpa using placed
    exact ⟨known, Nat.pos_of_ne_zero depth, Nat.pos_of_ne_zero transfer, batchLt, notBoth,
      by rw [looped, role]; rfl, fun paired => absurd (role.symm.trans paired) Bool.false_ne_true⟩

theorem validateConfig_accepted {config result : RdmaEpConfig} {maxBlock : Nat}
    (valid : config.validateConfig maxBlock = (result, "")) : result.Accepted := by
  unfold validateConfig at valid
  split_ifs at valid with failed
  · rw [Prod.mk.injEq] at valid
    exact absurd valid.2 failed
  · rw [Prod.mk.injEq] at valid
    rw [not_not] at failed
    exact valid.1 ▸ accepted_place failed valid.2

end RdmaEpConfig

end RocmXio.Rdma
