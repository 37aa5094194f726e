/-
The buffer of a run on two nodes.

A node registers one buffer with a region for a plain write and two for the messages of a ping-pong.
The offsets are sums in 32 bits of sizes that the user gives, and only the size of the messages is
checked for its alignment: the regions are sound exactly when the first size is a multiple of 8
and the sums do not overflow.
-/

import RocmXio.Rdma.Config

namespace RocmXio.Rdma

/-- `pp_send_offset`, `pp_recv_offset` and `total_reg_size`. -/
structure TwoNodeLayout where
  ppSendOffset : Nat
  ppRecvOffset : Nat
  totalRegSize : Nat

namespace RdmaEpConfig

/-- The layout of `run`: the sums are made in 32 bits. -/
def twoNodeLayout (config : RdmaEpConfig) : TwoNodeLayout where
  ppSendOffset := config.transferSize
  ppRecvOffset := (config.transferSize + config.ppSize) % 2 ^ 32
  totalRegSize := (config.transferSize + config.ppSize * 2 + 4096) % 2 ^ 32

/-- The regions for the write and for the messages in a buffer at `base` are apart and inside of it,
those for the messages are aligned, and a node with the same sizes has the same ones. -/
structure Laid (config : RdmaEpConfig) (base : Nat) : Prop where
  apart : [(0, config.transferSize), (config.twoNodeLayout.ppSendOffset, config.ppSize),
    (config.twoNodeLayout.ppRecvOffset, config.ppSize)].Pairwise fun first second =>
      ∀ byte, first.1 ≤ byte → byte < first.1 + first.2 →
        ¬ (second.1 ≤ byte ∧ byte < second.1 + second.2)
  inside : config.transferSize ≤ config.twoNodeLayout.totalRegSize ∧
    config.twoNodeLayout.ppSendOffset + config.ppSize ≤ config.twoNodeLayout.totalRegSize ∧
    config.twoNodeLayout.ppRecvOffset + config.ppSize ≤ config.twoNodeLayout.totalRegSize
  aligned : 8 ∣ base + config.twoNodeLayout.ppSendOffset ∧
    8 ∣ base + config.twoNodeLayout.ppRecvOffset
  same : ∀ peer : RdmaEpConfig, peer.transferSize = config.transferSize →
    peer.ppSize = config.ppSize → peer.twoNodeLayout = config.twoNodeLayout

/-- The layout of an accepted configuration is sound exactly when the region for the write keeps the
others aligned and the sums do not overflow. -/
theorem laid_iff (config result : RdmaEpConfig) (maxBlock base : Nat)
    (valid : config.validateConfig maxBlock = (result, "")) (paired : result.twoNode = true)
    (transferWord : result.transferSize < 2 ^ 32) (ppWord : result.ppSize < 2 ^ 32)
    (allocated : 8 ∣ base) :
    result.Laid base ↔
      8 ∣ result.transferSize ∧ result.transferSize + 2 * result.ppSize + 4096 < 2 ^ 32 := by
  obtain ⟨atLeast, multiple⟩ := (validateConfig_accepted valid).pingPong paired
  constructor
  · rintro ⟨-, inside, aligned, -⟩
    simp only [twoNodeLayout] at inside aligned
    omega
  · rintro ⟨divides, fits⟩
    have recv : (result.transferSize + result.ppSize) % 2 ^ 32 =
        result.transferSize + result.ppSize := Nat.mod_eq_of_lt (by omega)
    have total : (result.transferSize + result.ppSize * 2 + 4096) % 2 ^ 32 =
        result.transferSize + result.ppSize * 2 + 4096 := Nat.mod_eq_of_lt (by omega)
    refine ⟨?_, ?_, ?_, fun peer transfer pp => by rw [twoNodeLayout, twoNodeLayout, transfer, pp]⟩
    · simp only [twoNodeLayout, recv, List.pairwise_cons, List.mem_cons, List.not_mem_nil, or_false,
        forall_eq_or_imp, forall_eq, List.Pairwise.nil, and_true]
      refine ⟨⟨?_, ?_⟩, ?_, by simp⟩ <;> intros <;> omega
    · simp only [twoNodeLayout, recv, total]
      omega
    · simp only [twoNodeLayout, recv]
      omega

/-- The default sizes. -/
theorem laid_default : (RdmaEpConfig.resolve { isServer := true }).place.Laid 4096 :=
  (laid_iff { isServer := true } _ 0 4096 rfl rfl (by decide) (by decide) (by decide)).mpr
    (by decide)

/-- Writes of 4100 bytes leave the messages unaligned, and messages of 2 GiB make a sum overflow. -/
theorem not_laid : (validateConfig { isServer := true, transferSize := 4100 } 0).2 = "" ∧
      ¬ (validateConfig { isServer := true, transferSize := 4100 } 0).1.Laid 4096 ∧
      (validateConfig { isServer := true, ppSize := 2 ^ 31 } 0).2 = "" ∧
      ¬ (validateConfig { isServer := true, ppSize := 2 ^ 31 } 0).1.Laid 4096 := by
  refine ⟨rfl, fun laid => ?_, rfl, fun laid => ?_⟩
  · exact absurd laid.aligned.1 (by decide)
  · exact absurd laid.inside.2.1 (by decide)

end RdmaEpConfig

end RocmXio.Rdma
