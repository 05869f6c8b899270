import Fre.Core.Error

/-!
# Sharding and rate-limit configuration

The two configuration records of the tenant router, and the sharding check of
`PipelineConfig::Builder::validate`.
-/

namespace Fre

/-- `ShardingConfig`. -/
structure ShardingConfig where
  numCells : UInt32 := 16
  cellsPerTenant : UInt32 := 4
  threadCount : UInt32 := 0
  deriving DecidableEq, Repr

/-- `RateLimitConfig`. -/
structure RateLimitConfig where
  bucketCapacity : Int64 := 1000
  tokensPerSecond : Int64 := 500
  maxConcurrent : Int32 := 100
  deriving DecidableEq, Repr

namespace ShardingConfig

/-- The sharding check of `Builder::validate`: fewer cells per tenant than
cells. -/
def validate (config : ShardingConfig) : Option ConfigError :=
  if config.cellsPerTenant ≥ config.numCells then
    some
      { code := .invalidShardingConfig
        detail := "cells_per_tenant (" ++ toString config.cellsPerTenant.toNat ++
          ") must be < num_cells (" ++ toString config.numCells.toNat ++ ")" }
  else none

theorem validate_eq_none_iff (config : ShardingConfig) :
    config.validate = none ↔
      config.cellsPerTenant.toNat < config.numCells.toNat := by
  unfold validate
  split
  · next tooMany =>
      rw [ge_iff_le, UInt32.le_iff_toNat_le] at tooMany
      simp only [reduceCtorEq, false_iff]
      omega
  · next fewer =>
      rw [ge_iff_le, UInt32.le_iff_toNat_le] at fewer
      simp only [true_iff]
      omega

end ShardingConfig
end Fre
