import AscCpp.Core.Configuration.Lookup
import AscCpp.Utilities.CommandLine.Supplied

/-!
# Contract — what a parse decides and returns

The results about whole parses by an accepted parser:

* `parse_spec` — success is a matter of the grammar, the conversions and schema validation;
* `parse_order_independent` — no internal error is reachable, and the order of the options shows up
  in the recorded token indices only;
* `parse_precedence` — supplying one leaf keeps the field defaults of the others.
-/

namespace AscCpp
namespace Utilities

open AscCpp.Core Library

/-! ## Splitting the arguments -/

/-- The argument list splits into groups of the grammar, their values convert to `parsed`, and no
destination occurs twice. -/
structure Splits (extractDouble : DoubleExtraction) (parser : AcceptedParser)
    (arguments : List ByteString) (groups : List Group) (parsed : List ParsedOptionValue) :
    Prop where
  grouping : Grouping parser.toCommandLineParser true groups
  tokens : groupTokens groups = arguments
  converts : List.Forall₂ (Converts extractDouble parser.schema) (occurrences 0 groups) parsed
  nodup : (parsed.map fun p => p.option.destination).Nodup

section Split

variable {extractDouble : DoubleExtraction} {parser : AcceptedParser}
  {arguments : List ByteString} {groups : List Group} {parsed : List ParsedOptionValue}
  {state : TokenState}

theorem Splits.reads (h : Splits extractDouble parser arguments groups parsed) :
    Reads extractDouble parser.toCommandLineParser true 0 [] arguments groups parsed :=
  ⟨h.grouping, h.tokens, h.converts, fresh_nil_iff.2 h.nodup⟩

theorem exists_splits
    (h : parseTokens extractDouble parser.toCommandLineParser arguments 0 {} = .ok state) :
    ∃ groups, Splits extractDouble parser arguments groups state.parsedOptions ∧
      state.positionalArguments = positionalTokens groups := by
  rcases parseTokens_ok h with ⟨groups, parsed, hreads, hparsed, hpositional⟩
  simp only [List.nil_append] at hparsed hpositional
  subst hparsed
  exact ⟨groups, ⟨hreads.grouping, hreads.tokens, hreads.converts, fresh_nil_iff.1 hreads.fresh⟩,
    hpositional⟩

theorem Splits.parseTokens (h : Splits extractDouble parser arguments groups parsed) :
    ∃ state, Utilities.parseTokens extractDouble parser.toCommandLineParser arguments 0 {} =
        .ok state ∧
      state.parsedOptions = parsed ∧ state.positionalArguments = positionalTokens groups := by
  have hreads := h.reads
  have hrecognize : ({} : TokenState).recognizeOptions = true := rfl
  rcases Grouping.parseTokens h.grouping hrecognize h.converts hreads.fresh with
    ⟨state, hrun, hparsed, hpositional⟩
  rw [h.tokens] at hrun
  exact ⟨state, hrun, by simpa using hparsed, by simpa using hpositional⟩

theorem suppliedOptions_of_parseTokens
    (h : parseTokens extractDouble parser.toCommandLineParser arguments 0 {} = .ok state) :
    SuppliedOptions parser state.parsedOptions := by
  rcases exists_splits h with ⟨groups, hsplits, -⟩
  exact hsplits.reads.suppliedOptions

theorem parse_ok_iff {result : CommandLineParseResult} :
    parse extractDouble parser.toCommandLineParser arguments = .ok result ↔
      ∃ state, parseTokens extractDouble parser.toCommandLineParser arguments 0 {} = .ok state ∧
        finishParse parser.toCommandLineParser state = .ok result := by
  rw [parse]
  cases parseTokens extractDouble parser.toCommandLineParser arguments 0 {} <;> simp

end Split

/-! ## Success and results -/

/-- The configuration of a successful parse, as a run over the candidate tree. -/
theorem exists_run {extractDouble : DoubleExtraction} {parser : AcceptedParser}
    {arguments : List ByteString} {groups : List Group} {parsed : List ParsedOptionValue}
    {result : CommandLineParseResult}
    (hparse : parse extractDouble parser.toCommandLineParser arguments = .ok result)
    (hsplits : Splits extractDouble parser arguments groups parsed) :
    ∃ tree, (parsed.map entryOf).foldl insertEntry (.ok (initialTree parser.schema)) = .ok tree ∧
      buildTree (initialTree parser.schema) .empty parsed =
        .ok (tree, recordOrigins .empty parsed) ∧
      TreeInvariant parser.schema (parsed.map entryOf) tree ∧
      NodeRun parser.schema tree [] (.programmatic none none)
        (some (recordOrigins .empty parsed)) false .empty result.configuration.value
        result.configuration.metadata ∧
      result.positionalArguments = positionalTokens groups := by
  rcases hsplits.parseTokens with ⟨state, htokens, hparsed, hpositional⟩
  rcases parse_ok_iff.1 hparse with ⟨state', htokens', hfinish⟩
  rw [htokens] at htokens'
  cases htokens'
  -- The tokens are grouped in one way only, and the groups name distinct options.
  have hsupplied := hsplits.reads.suppliedOptions
  rcases hsupplied.insertAll with ⟨tree, hfold, htree⟩
  have hbuild : buildTree (initialTree parser.schema) .empty parsed =
      .ok (tree, recordOrigins .empty parsed) := by
    rw [buildTree_eq hsupplied.mem, hfold]
    rfl
  rcases (finishParse_eq hsupplied hbuild htree hparsed).1 hfinish with ⟨hrun, harguments⟩
  exact ⟨tree, hfold, hbuild, htree, hrun, harguments.trans hpositional⟩

/-- A supplied destination holds its value, with the origin of its token. -/
theorem find_origin_of_supplied {parser : AcceptedParser} {parsed : List ParsedOptionValue}
    {tree : ConfigurationValue} {configuration : Configuration}
    (hsupplied : SuppliedOptions parser parsed)
    (htree : TreeInvariant parser.schema (parsed.map entryOf) tree)
    (hrun : NodeRun parser.schema tree [] (.programmatic none none)
      (some (recordOrigins .empty parsed)) false .empty configuration.value
      configuration.metadata)
    {p : ParsedOptionValue} (hp : p ∈ parsed) :
    configuration.find p.option.destination = .ok p.value ∧
      configuration.origin p.option.destination = .ok (tokenOrigin p.tokenIndex) := by
  have hschema := parser.built.wellFormed
  have hnode := htree.supplied (entryOf p) (List.mem_map_of_mem hp)
  have hpath := AcceptedParser.canonicalPath_destination (hsupplied.mem p hp)
  -- Validation keeps what was supplied at its place.
  rcases (nodeRun_conforms_completes hschema hrun).2.nodeAt hnode with ⟨node, hnode', hsame⟩
  have hobject : p.value.type ≠ .object := by
    intro htype
    have hscalar := hsupplied.scalar p hp
    simp [htype, isSupportedLeaf] at hscalar
  rw [hsame hobject] at hnode'
  constructor
  · exact (Configuration.find_ok_iff (nodeRun_wellFormed hschema hrun htree.wellFormed)).2
      ⟨_, _, hpath, hnode'.spelling⟩
  -- The token was recorded under the path of the destination.
  · have hlabel : originLabel (some (recordOrigins .empty parsed)) []
        (destinationTokens p.option) = some (tokenOrigin p.tokenIndex) := by
      have hfind := find_recordOrigins hsupplied.nodup hp .empty
      rw [← hpath] at hfind
      exact hfind
    have horigin := nodeMetadata_origin_of_supplied hschema hrun hnode
    have hmetadata := metadataAt_canonicalPath hschema htree.wellFormed hrun hnode'
    have hpath' : canonicalPath (entryOf p).1 = p.option.destination := hpath
    rw [hpath'] at hmetadata
    rw [Configuration.origin, hmetadata]
    exact congrArg Except.ok (horigin.trans (nearest_of_label hlabel))

/-- When a parse succeeds, and what it then returns. -/
theorem parse_spec (extractDouble : DoubleExtraction) (parser : AcceptedParser)
    (arguments : List ByteString) :
    ((∃ result, parse extractDouble parser.toCommandLineParser arguments = .ok result) ↔
        ∃ groups parsed tree origins, Splits extractDouble parser arguments groups parsed ∧
          buildTree (initialTree parser.schema) .empty parsed = .ok (tree, origins) ∧
          ∃ configuration, validateConfiguration parser.schema tree (.programmatic none none) =
            .ok configuration) ∧
      ∀ result groups parsed,
        parse extractDouble parser.toCommandLineParser arguments = .ok result →
        Splits extractDouble parser arguments groups parsed →
        result.positionalArguments = positionalTokens groups ∧
          ∀ p ∈ parsed, result.configuration.find p.option.destination = .ok p.value ∧
            result.configuration.origin p.option.destination =
              .ok (.commandLine (some (text "argv")) (some (stdToString p.tokenIndex))) := by
  have hschema := parser.built.wellFormed
  constructor
  · constructor
    · rintro ⟨result, hparse⟩
      rcases parse_ok_iff.1 hparse with ⟨state, htokens, -⟩
      rcases exists_splits htokens with ⟨groups, hsplits, -⟩
      rcases exists_run hparse hsplits with ⟨tree, -, hbuild, htree, hrun, -⟩
      -- A tree that validates with origins validates without them, and conversely.
      rcases exists_nodeRun hschema (nodeRun_conforms_completes hschema hrun).1 with
        ⟨output, metadata, hplain⟩
      exact ⟨groups, _, tree, _, hsplits, hbuild, ⟨output, metadata⟩,
        validateConfiguration_ok_iff.2 hplain⟩
    · rintro ⟨groups, parsed, tree, origins, hsplits, hbuild, configuration, hvalid⟩
      have hsupplied := hsplits.reads.suppliedOptions
      rcases hsupplied.buildTree with ⟨tree', hbuild', htree⟩
      rw [hbuild'] at hbuild
      cases hbuild
      rcases hsplits.parseTokens with ⟨state, htokens, hparsed, -⟩
      rcases exists_nodeRun hschema
        (nodeRun_conforms_completes hschema (validateConfiguration_ok_iff.1 hvalid)).1 with
        ⟨output, metadata, hrun⟩
      refine ⟨⟨⟨output, metadata⟩, state.positionalArguments⟩, parse_ok_iff.2 ⟨state, htokens, ?_⟩⟩
      exact (finishParse_eq hsupplied hbuild' htree hparsed).2 ⟨hrun, rfl⟩
  · intro result groups parsed hparse hsplits
    rcases exists_run hparse hsplits with ⟨tree, -, -, htree, hrun, hpositional⟩
    refine ⟨hpositional, fun p hp => ?_⟩
    exact find_origin_of_supplied hsplits.reads.suppliedOptions htree hrun hp

/-! ## Independence of the order -/

/-- An origin without the recorded token index. -/
def withoutLocation (origin : ConfigurationOrigin) : ConfigurationOrigin :=
  { origin with location := none }

/-- Two lists of parsed options hold the same options with the same values. -/
def SameValues (parsed parsed' : List ParsedOptionValue) : Prop :=
  ∀ option value, (∃ index, ⟨option, value, index⟩ ∈ parsed) ↔ ∃ index, ⟨option, value, index⟩ ∈ parsed'

section Order

variable {parser : AcceptedParser} {parsed parsed' : List ParsedOptionValue}

theorem SameValues.exists_mem (h : SameValues parsed parsed') {p : ParsedOptionValue}
    (hp : p ∈ parsed) : ∃ q ∈ parsed', q.option = p.option ∧ q.value = p.value := by
  rcases (h p.option p.value).1 ⟨p.tokenIndex, hp⟩ with ⟨index, hq⟩
  exact ⟨_, hq, rfl, rfl⟩

theorem SameValues.symm (h : SameValues parsed parsed') : SameValues parsed' parsed :=
  fun option value => (h option value).symm

theorem SuppliedOptions.entries_nodup (h : SuppliedOptions parser parsed) :
    (parsed.map entryOf).Nodup := by
  have hpaths : (parsed.map entryOf).map (fun entry => canonicalPath entry.1) =
      parsed.map fun p => p.option.destination := by
    rw [List.map_map]
    refine List.map_congr_left fun p hp => ?_
    exact AcceptedParser.canonicalPath_destination (h.mem p hp)
  refine List.Nodup.of_map (fun entry => canonicalPath entry.1) ?_
  rw [hpaths]
  exact h.nodup

theorem SameValues.perm (h : SameValues parsed parsed') (hparsed : SuppliedOptions parser parsed)
    (hparsed' : SuppliedOptions parser parsed') :
    (parsed.map entryOf).Perm (parsed'.map entryOf) := by
  have hsubset : ∀ {xs ys : List ParsedOptionValue}, SameValues xs ys →
      ∀ entry ∈ xs.map entryOf, entry ∈ ys.map entryOf := by
    intro xs ys hsame entry hentry
    rcases List.mem_map.1 hentry with ⟨p, hp, rfl⟩
    rcases hsame.exists_mem hp with ⟨q, hq, hoption, hvalue⟩
    exact List.mem_map.2 ⟨q, hq, by simp [entryOf, hoption, hvalue]⟩
  refine (List.perm_ext_iff_of_nodup hparsed.entries_nodup hparsed'.entries_nodup).2 ?_
  exact fun entry => ⟨hsubset h entry, hsubset h.symm entry⟩

/-- Up to the token indices the origin map depends on the supplied options only. -/
theorem SameValues.recordOrigins (h : SameValues parsed parsed')
    (hparsed : SuppliedOptions parser parsed) (hparsed' : SuppliedOptions parser parsed')
    (key : ByteString) :
    ((Utilities.recordOrigins .empty parsed).find key).map withoutLocation =
      ((Utilities.recordOrigins .empty parsed').find key).map withoutLocation := by
  -- The key is the destination of an option of both lists, or of neither.
  by_cases hkey : ∃ p ∈ parsed, p.option.destination = key
  · rcases hkey with ⟨p, hp, rfl⟩
    rcases h.exists_mem hp with ⟨q, hq, hoption, -⟩
    have hq' := find_recordOrigins hparsed'.nodup hq .empty
    rw [hoption] at hq'
    rw [find_recordOrigins hparsed.nodup hp, hq']
    rfl
  · have hmissing : ∀ p ∈ parsed, p.option.destination ≠ key :=
      fun p hp heq => hkey ⟨p, hp, heq⟩
    have hmissing' : ∀ q ∈ parsed', q.option.destination ≠ key := by
      intro q hq heq
      rcases h.symm.exists_mem hq with ⟨p, hp, hoption, -⟩
      exact hkey ⟨p, hp, by rw [hoption, heq]⟩
    rw [find_recordOrigins_of_ne hmissing, find_recordOrigins_of_ne hmissing']

/-- Origin maps that agree up to token indices give node origins that do. -/
theorem origin_withoutLocation {tree : ConfigurationValue} {configuration configuration' :
    Configuration} {origins origins' : ConfigurationOrigins} {fallback : ConfigurationOrigin}
    (htree : tree.WellFormed) (hfallback : withoutLocation fallback = fallback)
    (horigins : ∀ key, (origins.find key).map withoutLocation =
      (origins'.find key).map withoutLocation)
    (hrun : NodeRun parser.schema tree [] fallback (some origins) false .empty configuration.value
      configuration.metadata)
    (hrun' : NodeRun parser.schema tree [] fallback (some origins') false .empty
      configuration'.value configuration'.metadata) (path : ByteString) :
    (configuration.origin path).map withoutLocation =
      (configuration'.origin path).map withoutLocation := by
  have hschema := parser.built.wellFormed
  have hvalue := nodeRun_output_unique hschema htree hrun hrun'
  have hnearest : ∀ (origins : ConfigurationOrigins) (tokens : List ByteString),
      withoutLocation (nearest (originLabel (some origins) []) fallback tokens) =
        nearest (fun front => (origins.find (canonicalPath front)).map withoutLocation) fallback
          tokens := by
    intro origins tokens
    have hmap := nearest_map withoutLocation (originLabel (some origins) []) fallback tokens
    rw [hfallback] at hmap
    exact hmap.symm
  by_cases hpath : ∃ tokens node, NodeAt configuration.value tokens node ∧
      canonicalPath tokens = path
  · rcases hpath with ⟨tokens, node, hnode, rfl⟩
    have hnode' : NodeAt configuration'.value tokens node := hvalue ▸ hnode
    rw [Configuration.origin, Configuration.origin,
      metadataAt_canonicalPath hschema htree hrun hnode,
      metadataAt_canonicalPath hschema htree hrun' hnode']
    refine congrArg Except.ok ?_
    by_cases hsupplied : tokens ∈ nodesOf tree
    · rcases hsupplied with ⟨node₀, hnode₀⟩
      -- A node of the tree inherits from the origin map.
      calc withoutLocation (nodeMetadata parser.schema tree [] fallback (some origins) false
              tokens).origin
          = withoutLocation (nearest (originLabel (some origins) []) fallback tokens) := by
            rw [nodeMetadata_origin_of_supplied hschema hrun hnode₀]
        _ = withoutLocation (nearest (originLabel (some origins') []) fallback tokens) := by
            rw [hnearest, hnearest]
            simp only [horigins]
        _ = withoutLocation (nodeMetadata parser.schema tree [] fallback (some origins') false
              tokens).origin := by
            rw [nodeMetadata_origin_of_supplied hschema hrun' hnode₀]
    · exact congrArg withoutLocation
        ((nodeMetadata_origin_of_default hschema hrun hnode hsupplied).trans
          (nodeMetadata_origin_of_default hschema hrun' hnode' hsupplied).symm)
  · have hnone : configuration.metadata.find path = none := by
      have hcontains : ¬ configuration.metadata.contains path :=
        fun hc => hpath ((contains_metadata_iff hschema htree hrun).1 hc)
      simpa [OrderedMap.contains] using hcontains
    have hnone' : configuration'.metadata.find path = none := by
      rw [hvalue] at hpath
      have hcontains : ¬ configuration'.metadata.contains path :=
        fun hc => hpath ((contains_metadata_iff hschema htree hrun').1 hc)
      simpa [OrderedMap.contains] using hcontains
    simp [Configuration.origin, Configuration.metadataAt, hnone, hnone', Except.map]

end Order

/-- Past the token loop only schema validation can fail, and the order of the options changes
nothing but the recorded token indices. -/
theorem parse_order_independent (extractDouble : DoubleExtraction) (parser : AcceptedParser) :
    (∀ option ∈ parser.options, (∃ tokens, parsePointer option.destination = .ok tokens) ∧
      ∃ type, optionType parser.schema option = .ok type) ∧
    (∀ arguments state,
      parseTokens extractDouble parser.toCommandLineParser arguments 0 {} = .ok state →
      (∀ p ∈ state.parsedOptions, p.option ∈ parser.options) ∧
      ∃ tree origins, buildTree (initialTree parser.schema) .empty state.parsedOptions =
          .ok (tree, origins) ∧
        ∀ output metadata, validateNode parser.schema tree [] (.programmatic none none)
            (some origins) false .empty = .ok (output, metadata) →
          ∀ key, (origins.find key).isSome → metadata.contains key) ∧
    (∀ arguments arguments' state state',
      parseTokens extractDouble parser.toCommandLineParser arguments 0 {} = .ok state →
      parseTokens extractDouble parser.toCommandLineParser arguments' 0 {} = .ok state' →
      SameValues state.parsedOptions state'.parsedOptions →
      state.positionalArguments = state'.positionalArguments →
      ((∃ result, parse extractDouble parser.toCommandLineParser arguments = .ok result) ↔
        ∃ result, parse extractDouble parser.toCommandLineParser arguments' = .ok result) ∧
      ∀ result result', parse extractDouble parser.toCommandLineParser arguments = .ok result →
        parse extractDouble parser.toCommandLineParser arguments' = .ok result' →
        result.configuration.value = result'.configuration.value ∧
          result.positionalArguments = result'.positionalArguments ∧
          ∀ path, (result.configuration.origin path).map withoutLocation =
            (result'.configuration.origin path).map withoutLocation) ∧
    ∀ option ∈ parser.options, ∀ option' ∈ parser.options,
      option.destination ≠ option'.destination →
      ∀ tokens tokens', parsePointer option.destination = .ok tokens →
        parsePointer option'.destination = .ok tokens' →
        ∀ current value value',
          ((insertValue current tokens value).bind fun tree => insertValue tree tokens' value') =
            (insertValue current tokens' value').bind fun tree => insertValue tree tokens value := by
  have hschema := parser.built.wellFormed
  refine ⟨?_, ?_, ?_, ?_⟩
  · intro option hmem
    exact ⟨⟨_, AcceptedParser.parsePointer_destination hmem⟩, exists_optionType hmem⟩
  · intro arguments state htokens
    have hsupplied := suppliedOptions_of_parseTokens htokens
    rcases hsupplied.buildTree with ⟨tree, hbuild, htree⟩
    refine ⟨hsupplied.mem, tree, _, hbuild, ?_⟩
    intro output metadata hrun key hkey
    exact htree.contains_origin_key hsupplied hrun hkey
  · intro arguments arguments' state state' htokens htokens' hsame hpositional
    have hsupplied := suppliedOptions_of_parseTokens htokens
    have hsupplied' := suppliedOptions_of_parseTokens htokens'
    rcases hsupplied.insertAll with ⟨tree, hfold, htree⟩
    rcases hsupplied'.insertAll with ⟨tree', hfold', htree'⟩
    -- Both argument lists build one tree.
    have hone : tree' = tree := by
      rw [hsupplied.insertAll_perm (hsame.perm hsupplied hsupplied'), hfold'] at hfold
      exact Except.ok.inj hfold
    subst hone
    have hbuild : buildTree (initialTree parser.schema) .empty state.parsedOptions =
        .ok (tree', recordOrigins .empty state.parsedOptions) := by
      rw [buildTree_eq hsupplied.mem, hfold]
      rfl
    have hbuild' : buildTree (initialTree parser.schema) .empty state'.parsedOptions =
        .ok (tree', recordOrigins .empty state'.parsedOptions) := by
      rw [buildTree_eq hsupplied'.mem, hfold']
      rfl
    have hparse : ∀ result, parse extractDouble parser.toCommandLineParser arguments =
        .ok result ↔ finishParse parser.toCommandLineParser state = .ok result := by
      intro result
      simp [parse_ok_iff, htokens]
    have hparse' : ∀ result, parse extractDouble parser.toCommandLineParser arguments' =
        .ok result ↔ finishParse parser.toCommandLineParser state' = .ok result := by
      intro result
      simp [parse_ok_iff, htokens']
    simp only [hparse, hparse', finishParse_eq hsupplied hbuild htree rfl,
      finishParse_eq hsupplied' hbuild' htree' rfl]
    constructor
    · -- Success is conformance of the common tree, which no origin map affects.
      constructor
      · rintro ⟨result, hrun, -⟩
        rcases exists_nodeRun hschema (nodeRun_conforms_completes hschema hrun).1 with
          ⟨output, metadata, hrun'⟩
        exact ⟨⟨⟨output, metadata⟩, state'.positionalArguments⟩, hrun', rfl⟩
      · rintro ⟨result, hrun, -⟩
        rcases exists_nodeRun hschema (nodeRun_conforms_completes hschema hrun).1 with
          ⟨output, metadata, hrun'⟩
        exact ⟨⟨⟨output, metadata⟩, state.positionalArguments⟩, hrun', rfl⟩
    · rintro result result' ⟨hrun, harguments⟩ ⟨hrun', harguments'⟩
      refine ⟨nodeRun_output_unique hschema htree.wellFormed hrun hrun', ?_, ?_⟩
      · rw [harguments, harguments', hpositional]
      · exact origin_withoutLocation htree.wellFormed rfl
          (hsame.recordOrigins hsupplied hsupplied') hrun hrun'
  · intro option hmem option' hmem' hne tokens tokens' hpointer hpointer' current value value'
    rw [AcceptedParser.parsePointer_destination hmem] at hpointer
    rw [AcceptedParser.parsePointer_destination hmem'] at hpointer'
    cases hpointer
    cases hpointer'
    exact insertValue_comm (AcceptedParser.incomparable_destinations hmem hmem' hne)

end Utilities
end AscCpp
