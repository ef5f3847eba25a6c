import AscCpp.Random.SparseStructure

/-!
# SparseSelection — the ordinals that `GenerateSparseStructure` selects

- `cutoffCandidate_spec`: the cutoff is the greatest of the first candidates.
- `mem_selectedOrdinals_iff`: the ordinals up to the cutoff are those of the first candidates.
- `generateSparseStructure_ok`: the output holds the smallest candidates in increasing order.
-/

namespace AscCpp
namespace Random

open AscCpp.Core Library AscCpp.Sparse

/-! ## The cutoff -/

theorem cutoffCandidate_spec {candidates : List SparseRandomStructureCandidate} {count : Nat}
    (hpos : 0 < count) (hcount : count ≤ candidates.length) :
    ∃ cutoff, cutoffCandidate candidates count = some cutoff ∧ cutoff ∈ candidates.take count ∧
      ∀ candidate ∈ candidates.take count, candidate.key ≤ cutoff.key := by
  have hfirst : ∃ first, candidates[0]? = some first :=
    ⟨_, List.getElem?_eq_getElem (by omega)⟩
  rcases hfirst with ⟨first, hfirst⟩
  -- On the length of the prefix, from the first candidate on.
  induction count, hpos using Nat.le_induction with
  | base =>
    have htake : candidates.take 1 = [first] := by
      rw [List.take_one, List.head?_eq_getElem?, hfirst]
      rfl
    refine ⟨first, ?_, ?_, ?_⟩
    · unfold cutoffCandidate
      rw [hfirst]
      rfl
    · rw [htake]
      exact List.mem_singleton_self _
    · intro candidate hmem
      rw [htake, List.mem_singleton] at hmem
      exact le_of_eq (congrArg _ hmem)
  | succ count hpos ih =>
    rcases ih (by omega) with ⟨cutoff, hcutoff, hmem, hgreatest⟩
    have hnext : candidates[count]? = some candidates[count] :=
      List.getElem?_eq_getElem (by omega)
    have htake : candidates.take (count + 1) = candidates.take count ++ [candidates[count]] := by
      rw [List.take_add_one, hnext]
      rfl
    have hrange : List.range' 1 (count + 1 - 1) = List.range' 1 (count - 1) ++ [count] := by
      obtain ⟨before, rfl⟩ : ∃ before, count = before + 1 := ⟨count - 1, by omega⟩
      rw [Nat.add_sub_cancel, Nat.add_sub_cancel, List.range'_1_concat, Nat.add_comm 1 before]
    -- One more candidate is compared with the cutoff so far.
    have hstep : cutoffCandidate candidates (count + 1) = some
        (if candidateLess cutoff candidates[count] then candidates[count] else cutoff) := by
      unfold cutoffCandidate at hcutoff ⊢
      rw [hfirst, Option.bind_eq_bind, Option.bind_some] at hcutoff ⊢
      rw [hrange, List.foldlM_append, hcutoff]
      simp [hnext]
    rw [hstep, htake]
    refine ⟨_, rfl, ?_, fun candidate hcandidate => ?_⟩
    · split
      · exact List.mem_append_right _ (List.mem_singleton_self _)
      · exact List.mem_append_left _ hmem
    · rcases List.mem_append.1 hcandidate with hold | hnew
      · have hle := hgreatest candidate hold
        split
        · rename_i hless
          exact hle.trans (candidateLess_iff.1 hless).le
        · exact hle
      · rw [List.mem_singleton.1 hnew]
        split
        · exact le_rfl
        · rename_i hless
          exact candidateLess_eq_false_iff.1 (Bool.eq_false_iff.2 hless)

/-! ## The ordinals up to the cutoff -/

section Selected

variable {priorities : Nat → BitVec 64} {cutoff : SparseRandomStructureCandidate}

/-- The ordinals of the candidates up to the cutoff. -/
def selectedOrdinals (priorities : Nat → BitVec 64) (cutoff : SparseRandomStructureCandidate)
    (logicalSize : Nat) : List Nat :=
  (List.range logicalSize).filter fun ordinal =>
    !candidateLess cutoff ⟨priorities ordinal, ordinal⟩

theorem mem_selectedOrdinals {logicalSize ordinal : Nat} :
    ordinal ∈ selectedOrdinals priorities cutoff logicalSize ↔
      ordinal < logicalSize ∧ candidateKey priorities ordinal ≤ cutoff.key := by
  unfold selectedOrdinals candidateKey
  rw [List.mem_filter, List.mem_range, Bool.not_eq_true', candidateLess_eq_false_iff]

theorem selectedOrdinals_pairwise (logicalSize : Nat) :
    (selectedOrdinals priorities cutoff logicalSize).Pairwise (· < ·) :=
  List.pairwise_lt_range.filter _

theorem selectedOrdinals_succ (logicalSize : Nat) :
    selectedOrdinals priorities cutoff (logicalSize + 1) =
      selectedOrdinals priorities cutoff logicalSize ++
        if candidateLess cutoff ⟨priorities logicalSize, logicalSize⟩ then []
        else [logicalSize] := by
  unfold selectedOrdinals
  rw [List.range_succ, List.filter_append, List.filter_cons, List.filter_nil]
  cases candidateLess cutoff ⟨priorities logicalSize, logicalSize⟩ <;> rfl

/-- The selected ordinals are written one behind the other, as long as the output has room. -/
theorem writeSelected_eq (logicalSize : Nat) {output : List Nat}
    (hroom : (selectedOrdinals priorities cutoff logicalSize).length ≤ output.length) :
    writeSelected priorities cutoff logicalSize output = some
      (selectedOrdinals priorities cutoff logicalSize ++
        output.drop (selectedOrdinals priorities cutoff logicalSize).length,
        (selectedOrdinals priorities cutoff logicalSize).length) := by
  induction logicalSize with
  | zero => rfl
  | succ logicalSize ih =>
    rw [selectedOrdinals_succ] at hroom ⊢
    rw [List.length_append] at hroom
    have hbefore := ih (by omega)
    unfold writeSelected at hbefore ⊢
    rw [List.range_succ, List.foldlM_append, hbefore, Option.bind_eq_bind, Option.bind_some,
      List.foldlM_cons]
    by_cases hless : candidateLess cutoff ⟨priorities logicalSize, logicalSize⟩ = true
    · rw [if_pos hless, if_pos hless, List.append_nil]
      rfl
    · rw [if_neg hless, List.length_singleton] at hroom
      rw [if_neg hless, if_neg hless, if_pos (by simp; omega)]
      -- The ordinal goes into the first cell behind those that were written.
      rw [List.length_append, List.length_singleton, List.append_assoc,
        List.set_append_right _ _ le_rfl, Nat.sub_self, List.drop_eq_getElem_cons (by omega),
        List.set_cons_zero]
      rfl

end Selected

/-! ## The partitioned workspace -/

/-- The candidates of all ordinals, the first ones not behind the others. -/
structure Partitioned (priorities : Nat → BitVec 64) (logicalSize count : Nat)
    (partitioned : List SparseRandomStructureCandidate) : Prop where
  perm : partitioned.Perm (structureCandidates priorities logicalSize)
  split : ∀ before ∈ partitioned.take count, ∀ behind ∈ partitioned.drop count,
    before.key ≤ behind.key

namespace Partitioned

variable {priorities : Nat → BitVec 64} {logicalSize count : Nat}
  {partitioned : List SparseRandomStructureCandidate}

theorem length_eq (h : Partitioned priorities logicalSize count partitioned) :
    partitioned.length = logicalSize := by
  rw [h.perm.length_eq, structureCandidates, List.length_map, List.length_range]

theorem mem_iff (h : Partitioned priorities logicalSize count partitioned)
    {candidate : SparseRandomStructureCandidate} :
    candidate ∈ partitioned ↔
      ∃ ordinal < logicalSize, candidate = ⟨priorities ordinal, ordinal⟩ := by
  rw [h.perm.mem_iff, structureCandidates, List.mem_map]
  simp only [List.mem_range, eq_comm]

theorem ordinals_nodup (h : Partitioned priorities logicalSize count partitioned) :
    (partitioned.map SparseRandomStructureCandidate.ordinal).Nodup := by
  have hall : (structureCandidates priorities logicalSize).map
      SparseRandomStructureCandidate.ordinal = List.range logicalSize := by
    rw [structureCandidates, List.map_map]
    exact List.map_id _
  rw [(h.perm.map _).nodup_iff, hall]
  exact List.nodup_range

/-- A candidate that is not among the first ones is behind each of them. -/
theorem key_lt (h : Partitioned priorities logicalSize count partitioned)
    {before : SparseRandomStructureCandidate} (hbefore : before ∈ partitioned.take count)
    {ordinal : Nat} (hordinal : ordinal < logicalSize)
    (hmissing : ordinal ∉
      (partitioned.take count).map SparseRandomStructureCandidate.ordinal) :
    before.key < candidateKey priorities ordinal := by
  have hbehind : ⟨priorities ordinal, ordinal⟩ ∈ partitioned.drop count := by
    have hmem : ⟨priorities ordinal, ordinal⟩ ∈ partitioned := h.mem_iff.2 ⟨ordinal, hordinal, rfl⟩
    rw [← List.take_append_drop count partitioned] at hmem
    rcases List.mem_append.1 hmem with hfirst | hlast
    · exact absurd (List.mem_map_of_mem hfirst) hmissing
    · exact hlast
  apply lt_of_le_of_ne (h.split before hbefore _ hbehind)
  intro heq
  -- Candidates of one key have one ordinal.
  have hsame : before.ordinal = ordinal := congrArg (fun key => (ofLex key).2) heq
  exact hmissing (hsame ▸ List.mem_map_of_mem hbefore)

variable {cutoff : SparseRandomStructureCandidate}

/-- The ordinals up to the cutoff are those of the first candidates. -/
theorem mem_selectedOrdinals_iff (h : Partitioned priorities logicalSize count partitioned)
    (hcutoff : cutoff ∈ partitioned.take count)
    (hgreatest : ∀ candidate ∈ partitioned.take count, candidate.key ≤ cutoff.key)
    {ordinal : Nat} :
    ordinal ∈ selectedOrdinals priorities cutoff logicalSize ↔
      ordinal ∈ (partitioned.take count).map SparseRandomStructureCandidate.ordinal := by
  rw [mem_selectedOrdinals]
  constructor
  · rintro ⟨hordinal, hle⟩
    -- What lies behind the partition point has a greater key than the cutoff.
    by_contra hmissing
    exact absurd hle (not_le.2 (h.key_lt hcutoff hordinal hmissing))
  · intro hmem
    rcases List.mem_map.1 hmem with ⟨candidate, hcandidate, rfl⟩
    rcases h.mem_iff.1 (List.mem_of_mem_take hcandidate) with ⟨ordinal, hordinal, rfl⟩
    exact ⟨hordinal, hgreatest _ hcandidate⟩

theorem length_selectedOrdinals (h : Partitioned priorities logicalSize count partitioned)
    (hcount : count ≤ logicalSize) (hcutoff : cutoff ∈ partitioned.take count)
    (hgreatest : ∀ candidate ∈ partitioned.take count, candidate.key ≤ cutoff.key) :
    (selectedOrdinals priorities cutoff logicalSize).length = count := by
  have hnodup : ((partitioned.take count).map SparseRandomStructureCandidate.ordinal).Nodup := by
    rw [List.map_take]
    exact h.ordinals_nodup.sublist (List.take_sublist _ _)
  have hperm := (List.perm_ext_iff_of_nodup
    ((selectedOrdinals_pairwise logicalSize).imp ne_of_lt) hnodup).2
    fun _ => h.mem_selectedOrdinals_iff hcutoff hgreatest
  rw [hperm.length_eq, List.length_map, List.length_take, h.length_eq, Nat.min_eq_left hcount]

/-- The selected ordinals are the smallest candidates. -/
theorem smallest_selectedOrdinals (h : Partitioned priorities logicalSize count partitioned)
    (hcount : count ≤ logicalSize) (hcutoff : cutoff ∈ partitioned.take count)
    (hgreatest : ∀ candidate ∈ partitioned.take count, candidate.key ≤ cutoff.key) :
    Smallest (candidateKey priorities) (Finset.range logicalSize) count
      (selectedOrdinals priorities cutoff logicalSize).toFinset where
  subset ordinal hmem :=
    Finset.mem_range.2 (mem_selectedOrdinals.1 (List.mem_toFinset.1 hmem)).1
  card_eq := by
    rw [List.toFinset_card_of_nodup ((selectedOrdinals_pairwise logicalSize).imp ne_of_lt)]
    exact h.length_selectedOrdinals hcount hcutoff hgreatest
  below ordinal hmem other hother hmissing := by
    rw [List.mem_toFinset, mem_selectedOrdinals] at hmem hmissing
    have hbehind : cutoff.key < candidateKey priorities other :=
      not_le.1 fun hle => hmissing ⟨Finset.mem_range.1 hother, hle⟩
    exact hmem.2.trans_lt hbehind

end Partitioned

/-- What `std::nth_element` leaves of the candidates; all of them are the first ones as they are. -/
theorem Partitions.partitioned
    {nthElement : Nat → List SparseRandomStructureCandidate → List SparseRandomStructureCandidate}
    (h : Partitions candidateLess nthElement) (priorities : Nat → BitVec 64)
    {logicalSize count : Nat} (hcount : count ≤ logicalSize) :
    Partitioned priorities logicalSize count
      (if count ≠ logicalSize then nthElement count (structureCandidates priorities logicalSize)
        else structureCandidates priorities logicalSize) := by
  have hlength : (structureCandidates priorities logicalSize).length = logicalSize := by
    rw [structureCandidates, List.length_map, List.length_range]
  split
  · rename_i hne
    refine ⟨h.perm _ _, fun before hbefore behind hbehind => ?_⟩
    exact candidateLess_eq_false_iff.1
      (h.split _ _ (by omega) before hbefore behind hbehind)
  · refine ⟨List.Perm.refl _, fun before _ behind hbehind => ?_⟩
    rw [List.drop_eq_nil_of_le (by omega)] at hbehind
    cases hbehind

/-! ## The structure -/

section Structure

variable {rank : Nat} {context : ExecutionContext} {extents : Extents rank} {exactCount : Int}
  {offset next : RandomOffset} {candidateWorkspace : Span SparseRandomStructureCandidate 16}
  {outputOrdinals : Span Nat 8}

/-- The offset behind the words of a structure. -/
def NextStructureOffset (extents : Extents rank) (exactCount : Int)
    (offset next : RandomOffset) : Prop :=
  advanceRandomOffset offset
    (BitVec.ofInt 64 (if exactCount = 0 then 0 else extents.logicalSize * 2)) = .ok next

theorem structureWords_ok {logicalSize count words : Int}
    (h : structureWords logicalSize count = .ok words) :
    words = if count = 0 then 0 else logicalSize * 2 := by
  unfold structureWords at h
  by_cases hzero : count = 0
  · rw [if_neg (not_not.2 hzero)] at h
    rw [if_pos hzero]
    exact (Except.ok.inj h).symm
  · rw [if_pos hzero] at h
    rw [if_neg hzero]
    exact checkedMultiply_ok_eq h

theorem structureSizes_ok {logicalSize count : Nat}
    (h : structureSizes context extents exactCount offset candidateWorkspace outputOrdinals =
      .ok (logicalSize, count, next)) :
    logicalSize = extents.logicalSize.toNat ∧ count = exactCount.toNat ∧ count ≤ logicalSize ∧
      outputOrdinals.items.length = count ∧ NextStructureOffset extents exactCount offset next := by
  simp only [structureSizes, Result.bind_eq_ok_iff] at h
  rcases h with ⟨-, -, -, -, ⟨⟩, hcount, size, hsize, converted, hconverted, ⟨⟩, houtput, -, -, -,
    -, words, hwords, after, hafter, hresult⟩
  rw [Result.failIf_eq_ok_iff] at hcount houtput
  rcases checkedCast_ok_eq hsize with ⟨rfl, -⟩
  rcases checkedCast_ok_eq hconverted with ⟨rfl, -⟩
  rw [structureWords_ok hwords] at hafter
  cases hresult
  exact ⟨rfl, rfl, by omega, not_not.1 houtput, hafter⟩

theorem structureSizes_avoids :
    Result.Avoids .internal
      (structureSizes context extents exactCount offset candidateWorkspace outputOrdinals) := by
  have hwords (logicalSize count : Int) :
      Result.Avoids .internal (structureWords logicalSize count) := by
    unfold structureWords
    split
    · exact checkedMultiply_avoids (by decide) _ _ _
    · exact .ok _ _
  have hadvance (wordCount : BitVec 64) :
      Result.Avoids .internal (advanceRandomOffset offset wordCount) := by
    unfold advanceRandomOffset
    split
    · exact .error (by decide)
    · exact .ok _ _
  -- Check by check: none of the statuses has the code of the internal failure.
  refine .bind (.failIf (by decide)) fun _ => .bind (.failIf (by decide)) fun _ => ?_
  refine .bind (.failIf (by decide)) fun _ => ?_
  refine .bind (checkedCast_avoids (by decide) _ _) fun _ => ?_
  refine .bind (checkedCast_avoids (by decide) _ _) fun _ => ?_
  refine .bind (.failIf (by decide)) fun _ => .bind (.failIf (by decide)) fun _ => ?_
  refine .bind (.failIf (by decide)) fun _ => .bind (hwords _ _) fun _ => ?_
  exact .bind (hadvance _) fun _ => .ok _ _

variable
  {nthElement : Nat → List SparseRandomStructureCandidate → List SparseRandomStructureCandidate}
  {stream : RandomStream} {subsequence : RandomSubsequence}

/-- What stands in the output after a successful run. -/
structure Selects (priorities : Nat → BitVec 64) (logicalSize count : Nat) (output : List Nat) :
    Prop where
  increasing : output.Pairwise (· < ·)
  smallest : Smallest (candidateKey priorities) (Finset.range logicalSize) count output.toFinset

/-- Past the checks the ordinals of the smallest candidates are written, as many as there is room
for. -/
theorem generateSparseStructure_ok (h : Partitions candidateLess nthElement)
    {logicalSize count : Nat}
    (hsizes : structureSizes context extents exactCount offset candidateWorkspace outputOrdinals =
      .ok (logicalSize, count, next)) :
    ∃ workspace output,
      generateSparseStructure context extents exactCount nthElement stream subsequence offset
          candidateWorkspace outputOrdinals = some (.ok next, workspace, output) ∧
        Selects (priorityOf stream subsequence offset) logicalSize count output := by
  rcases structureSizes_ok hsizes with ⟨-, -, hcount, hlength, -⟩
  unfold generateSparseStructure
  rw [hsizes]
  dsimp only
  by_cases hzero : count = 0
  · have hempty : outputOrdinals.items = [] := List.eq_nil_of_length_eq_zero (hlength.trans hzero)
    rw [if_pos hzero, hempty, hzero]
    exact ⟨_, [], rfl, .nil, .empty _⟩
  · have hpartitioned := h.partitioned (priorityOf stream subsequence offset) hcount
    rw [if_neg hzero]
    -- Whether the candidates were partitioned or all of them are taken, the same facts hold.
    generalize (if count ≠ logicalSize then _ else _) = partitioned at hpartitioned ⊢
    rcases cutoffCandidate_spec (Nat.pos_of_ne_zero hzero)
      (hcount.trans hpartitioned.length_eq.ge) with ⟨cutoff, hcutoff, hmem, hgreatest⟩
    -- As many are selected as were asked for, so the last check of the source passes.
    have hselected := hpartitioned.length_selectedOrdinals hcount hmem hgreatest
    have hwrite := @writeSelected_eq (priorityOf stream subsequence offset) cutoff logicalSize
      outputOrdinals.items (hselected.trans hlength.symm).le
    rw [hselected, ← hlength, List.drop_length, List.append_nil] at hwrite
    simp only [hcutoff, hwrite, Option.bind_eq_bind, Option.bind_some]
    rw [if_neg (not_not.2 rfl)]
    exact ⟨_, _, rfl, selectedOrdinals_pairwise logicalSize,
      hpartitioned.smallest_selectedOrdinals hcount hmem hgreatest⟩

/-- No run writes behind the output, and none ends with the wrong count. -/
theorem generateSparseStructure_total (h : Partitions candidateLess nthElement) :
    ∃ result workspace output,
      generateSparseStructure context extents exactCount nthElement stream subsequence offset
          candidateWorkspace outputOrdinals = some (result, workspace, output) ∧
        result ≠ .error wrongCount := by
  cases hsizes : structureSizes context extents exactCount offset candidateWorkspace
    outputOrdinals with
  | error status =>
    refine ⟨.error status, candidateWorkspace.items, outputOrdinals.items, ?_, fun heq => ?_⟩
    · unfold generateSparseStructure
      rw [hsizes]
    · cases heq
      exact structureSizes_avoids _ hsizes rfl
  | ok sizes =>
    rcases @generateSparseStructure_ok _ _ _ _ _ sizes.2.2 _ _ _ stream subsequence h _ _ hsizes with
      ⟨workspace, output, heq, -⟩
    exact ⟨_, workspace, output, heq, fun hfailed => nomatch hfailed⟩

end Structure

end Random
end AscCpp
