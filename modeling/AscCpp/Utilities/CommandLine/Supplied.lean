import AscCpp.Utilities.CommandLine.Tree

/-!
# Supplied — from the parsed options to a validated configuration

The part of `Parse` after the token loop, for the options an accepted parser can have collected
(`SuppliedOptions`):

* `buildTree_eq` — the tree and the origin map are two independent folds over the options;
* `SuppliedOptions.insertAll` — the tree fold succeeds, with `TreeInvariant` at its end;
* `SuppliedOptions.finishParse_ok_iff` — so only schema validation is left to fail.
-/

namespace AscCpp
namespace Utilities

open AscCpp.Core Library

/-! ## Destinations of an accepted parser -/

def destinationTokens (option : CommandLineOption) : List ByteString :=
  (parsePointer option.destination).toOption.getD []

namespace AcceptedParser

variable {parser : AcceptedParser} {option option' : CommandLineOption}

theorem parsePointer_destination (hmem : option ∈ parser.options) :
    parsePointer option.destination = .ok (destinationTokens option) := by
  rcases (parser.accepted.wellNamed option hmem).leaf with ⟨tokens, leaf, hpointer, -⟩
  simp [destinationTokens, hpointer, Except.toOption]

theorem canonicalPath_destination (hmem : option ∈ parser.options) :
    canonicalPath (destinationTokens option) = option.destination :=
  parsePointer_ok_iff.1 (parsePointer_destination hmem)

theorem findSchema_destination (hmem : option ∈ parser.options) :
    ∃ leaf, findSchema parser.schema (destinationTokens option) = .ok leaf ∧
      isSupportedLeaf leaf.type := by
  rcases (parser.accepted.wellNamed option hmem).leaf with
    ⟨tokens, leaf, hpointer, hschema, hleaf⟩
  rw [parsePointer_destination hmem] at hpointer
  cases hpointer
  exact ⟨leaf, hschema, hleaf⟩

/-- Accepted destinations are leaves, so one at or above another is the same destination. -/
theorem destination_eq_of_front (hmem : option ∈ parser.options)
    (hmem' : option' ∈ parser.options)
    (hfront : destinationTokens option <+: destinationTokens option') :
    option.destination = option'.destination := by
  rcases findSchema_destination hmem with ⟨leaf, hschema, hleaf⟩
  rcases findSchema_destination hmem' with ⟨leaf', hschema', -⟩
  rcases hfront with ⟨rest, hrest⟩
  rw [← hrest] at hschema'
  have hobject : leaf.type ≠ .object := by
    intro htype
    simp [htype, isSupportedLeaf] at hleaf
  have hnil := findSchema_leaf hschema hobject hschema'
  rw [hnil, List.append_nil] at hrest
  rw [← canonicalPath_destination hmem, ← canonicalPath_destination hmem', hrest]

theorem incomparable_destinations (hmem : option ∈ parser.options)
    (hmem' : option' ∈ parser.options) (hne : option.destination ≠ option'.destination) :
    Incomparable (destinationTokens option) (destinationTokens option') :=
  ⟨fun hfront => hne (destination_eq_of_front hmem hmem' hfront),
    fun hfront => hne (destination_eq_of_front hmem' hmem hfront).symm⟩

end AcceptedParser

/-! ## The two folds -/

def entryOf (parsed : ParsedOptionValue) : List ByteString × ConfigurationValue :=
  (destinationTokens parsed.option, parsed.value)

def insertEntry (tree : Result ConfigurationValue)
    (entry : List ByteString × ConfigurationValue) : Result ConfigurationValue :=
  tree.bind fun tree => insertValue tree entry.1 entry.2

/-- The origin recorded for an option token. -/
def tokenOrigin (tokenIndex : Nat) : ConfigurationOrigin :=
  .commandLine (some (text "argv")) (some (stdToString tokenIndex))

def recordOrigins (origins : ConfigurationOrigins) (parsed : List ParsedOptionValue) :
    ConfigurationOrigins :=
  parsed.foldl (fun origins parsed =>
    origins.insertOrAssign parsed.option.destination (tokenOrigin parsed.tokenIndex)) origins

theorem foldl_insertEntry_error (status : Status) (entries : Entries) :
    entries.foldl insertEntry (.error status) = .error status := by
  induction entries with
  | nil => rfl
  | cons entry rest ih => exact ih

theorem buildTree_eq {parser : AcceptedParser} {parsed : List ParsedOptionValue}
    (hmem : ∀ p ∈ parsed, p.option ∈ parser.options) (tree : ConfigurationValue)
    (origins : ConfigurationOrigins) :
    buildTree tree origins parsed =
      ((parsed.map entryOf).foldl insertEntry (.ok tree)).map
        fun tree => (tree, recordOrigins origins parsed) := by
  -- The origins are recorded beside the tree and do not influence it.
  induction parsed generalizing tree origins with
  | nil => rfl
  | cons p rest ih =>
      have hpointer := AcceptedParser.parsePointer_destination (hmem p List.mem_cons_self)
      have hrest : ∀ q ∈ rest, q.option ∈ parser.options :=
        fun q hq => hmem q (List.mem_cons_of_mem _ hq)
      simp only [buildTree, hpointer, List.map_cons, List.foldl_cons, insertEntry, Except.bind,
        entryOf]
      cases hinsert : insertValue tree (destinationTokens p.option) p.value with
      | error status =>
          simp only
          rw [foldl_insertEntry_error]
          rfl
      | ok inserted => exact ih hrest inserted _

theorem find_recordOrigins_of_ne {parsed : List ParsedOptionValue} {key : ByteString}
    (h : ∀ p ∈ parsed, p.option.destination ≠ key) (origins : ConfigurationOrigins) :
    (recordOrigins origins parsed).find key = origins.find key := by
  induction parsed generalizing origins with
  | nil => rfl
  | cons p rest ih =>
      have hstep := ih (fun q hq => h q (List.mem_cons_of_mem _ hq))
        (origins.insertOrAssign p.option.destination (tokenOrigin p.tokenIndex))
      rw [origins.find_insertOrAssign_of_ne (h p List.mem_cons_self).symm] at hstep
      exact hstep

theorem find_recordOrigins {parsed : List ParsedOptionValue}
    (hnodup : (parsed.map fun p => p.option.destination).Nodup) {p : ParsedOptionValue}
    (hp : p ∈ parsed) (origins : ConfigurationOrigins) :
    (recordOrigins origins parsed).find p.option.destination = some (tokenOrigin p.tokenIndex) := by
  induction parsed generalizing origins with
  | nil => cases hp
  | cons q rest ih =>
      rcases List.nodup_cons.1 hnodup with ⟨hnew, hrest⟩
      rcases List.mem_cons.1 hp with rfl | hp'
      · -- Later options have other destinations and leave the entry alone.
        have hlater : ∀ r ∈ rest, r.option.destination ≠ p.option.destination := by
          intro r hr heq
          exact hnew (List.mem_map.2 ⟨r, hr, heq⟩)
        have hkept := find_recordOrigins_of_ne hlater
          (origins.insertOrAssign p.option.destination (tokenOrigin p.tokenIndex))
        rw [origins.find_insertOrAssign_self] at hkept
        exact hkept
      · exact ih hrest hp' _

/-! ## Supplied options -/

/-- What the token loop of an accepted parser can have collected. -/
structure SuppliedOptions (parser : AcceptedParser) (parsed : List ParsedOptionValue) : Prop where
  mem : ∀ p ∈ parsed, p.option ∈ parser.options
  nodup : (parsed.map fun p => p.option.destination).Nodup
  scalar : ∀ p ∈ parsed, isSupportedLeaf p.value.type
  wellFormed : ∀ p ∈ parsed, p.value.WellFormed

theorem parseValue_scalar {extractDouble : DoubleExtraction} {source : ByteString}
    {type : ConfigurationValueType} {value : ConfigurationValue}
    (h : parseValue extractDouble source type = .ok value) :
    isSupportedLeaf value.type ∧ value.WellFormed := by
  unfold parseValue at h
  -- One case for each type of a leaf; a string is checked as UTF-8.
  split at h
  · split at h
    · cases h
      exact ⟨rfl, .bool _⟩
    · split at h
      · cases h
        exact ⟨rfl, .bool _⟩
      · cases h
  · split at h
    · cases h
      exact ⟨rfl, .signedInteger _⟩
    · cases h
  · split at h
    · cases h
      exact ⟨rfl, .unsignedInteger _⟩
    · cases h
  · split at h
    · cases h
      exact ⟨rfl, .double _⟩
    · cases h
  · refine ⟨?_, ConfigurationValue.utf8String_wellFormed h⟩
    unfold ConfigurationValue.utf8String at h
    split at h
    · cases h
      rfl
    · cases h
  · cases h

theorem SuppliedValue.convert_scalar {extractDouble : DoubleExtraction} {supplied : SuppliedValue}
    {type : ConfigurationValueType} {value : ConfigurationValue}
    (h : supplied.convert extractDouble type = .ok value) :
    isSupportedLeaf value.type ∧ value.WellFormed := by
  cases supplied with
  | source bytes => exact parseValue_scalar h
  | flag value =>
      cases h
      exact ⟨rfl, .bool _⟩

theorem OptionTokens.mem {parser : CommandLineParser} {tokens : List ByteString}
    {next : Option ByteString} {option : CommandLineOption} {supplied : SuppliedValue}
    (h : OptionTokens parser tokens next option supplied) : option ∈ parser.options := by
  cases h <;> assumption

theorem Grouping.occurrence_mem {parser : CommandLineParser} {recognizeOptions : Bool}
    {groups : List Group} (h : Grouping parser recognizeOptions groups) {index : Nat} :
    ∀ occurrence ∈ occurrences index groups, occurrence.option ∈ parser.options := by
  induction h generalizing index with
  | nil => simp [occurrences]
  | positional _ _ ih => exact ih
  | terminator _ ih => exact ih
  | trailing _ ih => exact ih
  | option htokens _ ih =>
      intro occurrence hmem
      rcases List.mem_cons.1 hmem with rfl | hrest
      · exact htokens.mem
      · exact ih occurrence hrest

theorem Reads.suppliedOptions {extractDouble : DoubleExtraction} {parser : AcceptedParser}
    {recognizeOptions : Bool} {index : Nat} {arguments : List ByteString} {groups : List Group}
    {parsed : List ParsedOptionValue}
    (h : Reads extractDouble parser.toCommandLineParser recognizeOptions index [] arguments groups
      parsed) : SuppliedOptions parser parsed := by
  -- Each parsed option comes from an occurrence in the groups.
  have hconverts : ∀ p ∈ parsed, ∃ occurrence ∈ occurrences index groups,
      Converts extractDouble parser.schema occurrence p := by
    intro p hp
    rcases List.mem_iff_getElem.1 hp with ⟨i, hi, rfl⟩
    have hlength := h.converts.length_eq
    exact ⟨_, List.getElem_mem (by omega), h.converts.get (by omega) hi⟩
  refine ⟨?_, h.fresh.1, ?_, ?_⟩
  · intro p hp
    rcases hconverts p hp with ⟨occurrence, hmem, hconvert⟩
    rw [hconvert.option]
    exact h.grouping.occurrence_mem occurrence hmem
  · intro p hp
    rcases hconverts p hp with ⟨occurrence, -, hconvert⟩
    rcases hconvert.value with ⟨type, -, hvalue⟩
    exact (SuppliedValue.convert_scalar hvalue).1
  · intro p hp
    rcases hconverts p hp with ⟨occurrence, -, hconvert⟩
    rcases hconvert.value with ⟨type, -, hvalue⟩
    exact (SuppliedValue.convert_scalar hvalue).2

namespace SuppliedOptions

variable {parser : AcceptedParser} {parsed parsed' : List ParsedOptionValue}

/-- The tree fold over further options succeeds from any tree of earlier ones. -/
theorem insertAll_from {done : List ParsedOptionValue} {tree : ConfigurationValue}
    (h : SuppliedOptions parser (done ++ parsed))
    (htree : TreeInvariant parser.schema (done.map entryOf) tree) :
    ∃ result, (parsed.map entryOf).foldl insertEntry (.ok tree) = .ok result ∧
      TreeInvariant parser.schema ((done ++ parsed).map entryOf) result := by
  -- The invariant speaks about the entries of `done`; one more is inserted each time.
  induction parsed generalizing done tree with
  | nil => exact ⟨tree, rfl, by simpa using htree⟩
  | cons p rest ih =>
      have hp : p ∈ done ++ p :: rest := by simp
      rcases AcceptedParser.findSchema_destination (h.mem p hp) with ⟨leaf, hschema, hleaf⟩
      -- The destinations are distinct leaves of the schema, so no path is in front of another.
      have hapart : ∀ entry ∈ done.map entryOf,
          Incomparable (destinationTokens p.option) entry.1 := by
        intro entry hentry
        rcases List.mem_map.1 hentry with ⟨q, hq, rfl⟩
        refine AcceptedParser.incomparable_destinations (h.mem p hp)
          (h.mem q (List.mem_append_left _ hq)) ?_
        have hnodup := h.nodup
        rw [List.map_append, List.nodup_append] at hnodup
        exact (hnodup.2.2 _ (List.mem_map_of_mem hq) _ (List.mem_map_of_mem List.mem_cons_self)).symm
      rcases htree.insert hschema hleaf (h.wellFormed p hp) (h.scalar p hp) hapart with
        ⟨inserted, hinsert, hinvariant⟩
      have happend : done ++ p :: rest = (done ++ [p]) ++ rest := by simp
      rw [happend] at h
      rcases ih h (by simpa [entryOf] using hinvariant) with ⟨result, hfold, hresult⟩
      refine ⟨result, ?_, by rwa [happend]⟩
      simpa [insertEntry, entryOf, Except.bind, hinsert] using hfold

/-- No insertion fails, whatever the order of the options. -/
theorem insertAll (h : SuppliedOptions parser parsed) :
    ∃ tree, (parsed.map entryOf).foldl insertEntry (.ok (initialTree parser.schema)) = .ok tree ∧
      TreeInvariant parser.schema (parsed.map entryOf) tree := by
  have hall : SuppliedOptions parser ([] ++ parsed) := h
  exact insertAll_from hall (TreeInvariant.initial parser.schema)

/-- The tree depends on the supplied values only, not on their order. -/
theorem insertAll_perm (h : SuppliedOptions parser parsed)
    (hperm : (parsed.map entryOf).Perm (parsed'.map entryOf)) (tree : Result ConfigurationValue) :
    (parsed.map entryOf).foldl insertEntry tree = (parsed'.map entryOf).foldl insertEntry tree := by
  refine hperm.foldl_eq' ?_ tree
  intro entry hentry entry' hentry' tree
  rcases List.mem_map.1 hentry with ⟨p, hp, rfl⟩
  rcases List.mem_map.1 hentry' with ⟨q, hq, rfl⟩
  by_cases hsame : p.option.destination = q.option.destination
  · rw [List.inj_on_of_nodup_map h.nodup hp hq hsame]
  · cases tree with
    | error status => rfl
    | ok tree =>
        exact insertValue_comm
          (AcceptedParser.incomparable_destinations (h.mem p hp) (h.mem q hq) hsame)

theorem buildTree (h : SuppliedOptions parser parsed) :
    ∃ tree, Utilities.buildTree (initialTree parser.schema) .empty parsed =
        .ok (tree, recordOrigins .empty parsed) ∧
      TreeInvariant parser.schema (parsed.map entryOf) tree := by
  rcases h.insertAll with ⟨tree, hfold, hinvariant⟩
  refine ⟨tree, ?_, hinvariant⟩
  rw [buildTree_eq h.mem, hfold]
  rfl

end SuppliedOptions

/-! ## Validation of the candidate tree -/

section Finish

variable {parser : AcceptedParser} {parsed : List ParsedOptionValue} {tree : ConfigurationValue}

/-- Every key of the origin map is the path of a node of the tree. -/
theorem TreeInvariant.origin_key
    (htree : TreeInvariant parser.schema (parsed.map entryOf) tree) {key : ByteString}
    (hkey : ((recordOrigins .empty parsed).find key).isSome) :
    ∃ p ∈ parsed, p.option.destination = key ∧ NodeAt tree (destinationTokens p.option) p.value := by
  by_contra hnone
  have hmissing : ∀ p ∈ parsed, p.option.destination ≠ key := by
    intro p hp heq
    exact hnone ⟨p, hp, heq, htree.supplied (entryOf p) (List.mem_map_of_mem hp)⟩
  rw [find_recordOrigins_of_ne hmissing] at hkey
  cases hkey

/-- The metadata of any run over the tree covers the origin map. -/
theorem TreeInvariant.contains_origin_key (h : SuppliedOptions parser parsed)
    (htree : TreeInvariant parser.schema (parsed.map entryOf) tree)
    {origin : ConfigurationOrigin} {origins : Option ConfigurationOrigins}
    {output : ConfigurationValue} {metadata : MetadataMap}
    (hrun : NodeRun parser.schema tree [] origin origins false .empty output metadata)
    {key : ByteString} (hkey : ((recordOrigins .empty parsed).find key).isSome) :
    metadata.contains key := by
  have hschema := parser.built.wellFormed
  rcases htree.origin_key hkey with ⟨p, hp, rfl, hnode⟩
  rcases (nodeRun_conforms_completes hschema hrun).2.nodeAt hnode with ⟨node, hnode', -⟩
  refine (contains_metadata_iff hschema htree.wellFormed hrun).2 ⟨_, node, hnode', ?_⟩
  exact AcceptedParser.canonicalPath_destination (h.mem p hp)

theorem finishParse_eq (h : SuppliedOptions parser parsed)
    (hbuild : buildTree (initialTree parser.schema) .empty parsed =
      .ok (tree, recordOrigins .empty parsed))
    (htree : TreeInvariant parser.schema (parsed.map entryOf) tree) {state : TokenState}
    (hstate : state.parsedOptions = parsed) {result : CommandLineParseResult} :
    finishParse parser.toCommandLineParser state = .ok result ↔
      NodeRun parser.schema tree [] (.programmatic none none)
        (some (recordOrigins .empty parsed)) false .empty result.configuration.value
        result.configuration.metadata ∧
      result.positionalArguments = state.positionalArguments := by
  -- Every recorded origin belongs to a node of the tree, so none is left over.
  have hvalidate : ∀ configuration, validateConfigurationWithOrigins parser.schema tree
      (recordOrigins .empty parsed) (.programmatic none none) = .ok configuration ↔
      NodeRun parser.schema tree [] (.programmatic none none)
        (some (recordOrigins .empty parsed)) false .empty configuration.value
        configuration.metadata := by
    intro configuration
    rw [validateConfigurationWithOrigins_ok_iff]
    exact ⟨fun hrun => hrun.1, fun hrun => ⟨hrun, fun key hkey =>
      htree.contains_origin_key h hrun hkey⟩⟩
  rw [← hvalidate, finishParse, hstate, hbuild]
  rcases result with ⟨configuration, positionalArguments⟩
  simp only
  generalize validateConfigurationWithOrigins parser.schema tree (recordOrigins .empty parsed)
    (.programmatic none none) = validated
  cases validated with
  | error status => simp
  | ok configuration' => simp [eq_comm]

end Finish

end Utilities
end AscCpp
