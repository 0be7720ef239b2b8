import NinjaPlan.Plan.Basic

/-! # Valid targets

What targets must be like for a plan of them to exist, said of all of them at once and without
assembling anything. -/

namespace NinjaPlan

/-- The target owns the object of one of its sources, mapped as given. -/
def Target.Owns (t : Target) (mapper : ObjectMapper) (m : MappedSource) : Prop :=
  ∃ s ∈ t.sources, mapper.map s = .ok m

/-- Whether targets can be planned. -/
structure ValidTargets (mapper : ObjectMapper) (targets : List Target) : Prop where
  /-- No two targets have the same path. -/
  distinct : targets.Pairwise fun t u => ¬ t.spec.name ≈ u.spec.name
  /-- Every source has an object. -/
  mapped : ∀ t ∈ targets, ∀ s ∈ t.sources, ∃ m, mapper.map s = .ok m
  /-- An object comes from one source. -/
  injective : ∀ t ∈ targets, ∀ u ∈ targets, ∀ m n, t.Owns mapper m → u.Owns mapper n →
    m.object ≈ n.object → m.source ≈ n.source
  /-- A target reuses one before it. -/
  reused : ∀ before t after, targets = before ++ t :: after → ∀ name,
    t.spec.kind = .secondary name → ∃ u ∈ before, u.spec.name ≈ name
  /-- No target is an object. -/
  apart : ∀ t ∈ targets, ∀ u ∈ targets, ∀ m, u.Owns mapper m → ¬ t.spec.name ≈ m.object
  /-- There is something to build by default. -/
  primary : ∃ t ∈ targets, t.spec.kind = .primary

end NinjaPlan
