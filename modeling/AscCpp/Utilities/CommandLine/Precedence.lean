import AscCpp.Utilities.CommandLine.Contract

/-!
# Precedence — schema defaults below the command line

A parse validates a tree that holds the supplied leaves only, so every default is inserted afresh
around them.  Compared with the empty command line:

* a node off the supplied paths keeps its value when it comes from the default of its own field
  (`Completes.keeps_default`);
* an object default of an ancestor of a supplied leaf is replaced as a whole, and the entries it
  writes out (`WrittenOut`) are gone unless their fields have defaults of their own
  (`parse_drops_object_default`).
-/

namespace AscCpp
namespace Utilities

open AscCpp.Core Library

/-- The value that completion finds at `front`, in the input or in the default it inserts there,
has an entry `key` of its own. -/
def WrittenOut (schema : ConfigurationSchema) (input : ConfigurationValue) :
    List ByteString → ByteString → Prop
  | [], key => ∃ fields, input = .object fields ∧ (fields.lookup key).isSome
  | token :: front, key =>
      ∃ fields field, input = .object fields ∧ schema.fields.lookup token = some field ∧
        ((∃ child, fields.lookup token = some child ∧ WrittenOut field child front key) ∨
          (fields.lookup token = none ∧ ∃ value, field.defaultValue = some value ∧
            WrittenOut field value front key))

/-- Where `tree` stops and no entry is written out, `input` and `tree` are completed alike. -/
theorem Completes.keeps_default {schema : ConfigurationSchema}
    {input tree output output' node : ConfigurationValue} {tokens : List ByteString}
    (hschema : schema.WellFormed) (hinput : input.WellFormed) (htree : tree.WellFormed)
    (hconforms : Conforms schema input) (hconforms' : Conforms schema tree)
    (h : Completes schema input output) (h' : Completes schema tree output')
    (hwf : output.WellFormed) (hwf' : output'.WellFormed)
    (hlistFree : ∀ front inner, NodeAt tree front inner → inner.type ≠ .list)
    (hnode : NodeAt output tokens node) (hoff : tokens ∉ nodesOf tree)
    (hdefault : ∀ front key rest, tokens = front ++ key :: rest → front ∈ nodesOf tree →
      front ++ [key] ∉ nodesOf tree → ¬ WrittenOut schema input front key) :
    NodeAt output' tokens node := by
  induction tokens generalizing schema input tree output output' with
  | nil => exact absurd ⟨tree, .root tree⟩ hoff
  | cons key rest ih =>
      -- The tree has the type of the schema, is no list, and the output has a child: an object.
      have htype : tree.type = input.type := by
        have hsame : ∀ {value : ConfigurationValue}, Conforms schema value →
            value.type = schema.type := by
          intro value hvalue
          cases hvalue with
          | leaf htype => exact htype
          | object htype => exact htype.symm
        rw [hsame hconforms, hsame hconforms']
      have hobject : input.type = .object := by
        by_contra hne
        cases h with
        | leaf =>
            have hnil := hnode.eq_nil_of_scalar hne
              (fun hlist => hlistFree [] tree (.root tree) (htype.trans hlist))
            cases hnil
        | object => exact hne rfl
      cases h with
      | leaf hleaf => exact absurd hobject hleaf
      | @object _ object output hdomain hknown hsupplied hdefaulted =>
          cases h' with
          | leaf hleaf => exact absurd (htype.trans hobject) hleaf
          | @object _ object' output' hdomain' hknown' hsupplied' hdefaulted' =>
              rcases NodeAt.object_cons_iff.1 hnode with ⟨child, hchild, hbelow⟩
              have hfield : ∃ field, schema.fields.lookup key = some field := by
                rcases (hdomain key).1 (by simp [hchild]) with hgiven | ⟨field, hfield, -⟩
                · exact Option.isSome_iff_exists.1 (hknown key hgiven)
                · exact ⟨field, hfield⟩
              rcases hfield with ⟨field, hfield⟩
              have hschemaField := hschema.of_lookup hfield
              cases hlookup' : object'.lookup key with
              | some child' =>
                  -- The supplied path goes on below `key`, and so does the comparison.
                  rcases Option.isSome_iff_exists.1 ((hdomain' key).2 (Or.inl (by simp [hlookup'])))
                    with ⟨grown, hgrown⟩
                  have hoff' : rest ∉ nodesOf child' := by
                    rintro ⟨inner, hinner⟩
                    exact hoff ⟨inner, .field hlookup' hinner⟩
                  have hstep : ∀ source, source.WellFormed → Conforms field source →
                      Completes field source child →
                      (∀ front token, WrittenOut field source front token →
                        WrittenOut schema (.object object) (key :: front) token) →
                      NodeAt grown rest node := by
                    intro source hsource hsourceConforms hsourceCompletes hwritten
                    cases hconforms' with
                    | leaf _ hne => exact absurd rfl hne
                    | object _ _ hconformsSupplied =>
                        refine ih hschemaField hsource (htree.of_lookup hlookup') hsourceConforms
                          (hconformsSupplied key field child' hfield hlookup') hsourceCompletes
                          (hsupplied' key field child' grown hfield hlookup' hgrown)
                          (hwf.of_lookup hchild) (hwf'.of_lookup hgrown) ?_ hbelow hoff' ?_
                        · intro front inner hinner
                          exact hlistFree (key :: front) inner (.field hlookup' hinner)
                        · rintro front token below rfl ⟨inner, hinner⟩ hstop hsourceWritten
                          refine hdefault (key :: front) token below rfl
                            ⟨inner, .field hlookup' hinner⟩ ?_ (hwritten front token hsourceWritten)
                          rintro ⟨inner', hinner'⟩
                          rcases NodeAt.object_cons_iff.1 hinner' with ⟨other, hother, hrest⟩
                          rw [hlookup'] at hother
                          cases hother
                          exact hstop ⟨inner', hrest⟩
                  refine .field hgrown ?_
                  cases hconforms with
                  | leaf _ hne => exact absurd rfl hne
                  | object _ _ hgivenConforms hdefaultConforms =>
                      cases hlookup : object.lookup key with
                      | some source =>
                          refine hstep source (hinput.of_lookup hlookup)
                            (hgivenConforms key field source hfield hlookup)
                            (hsupplied key field source child hfield hlookup hchild) ?_
                          intro front token hwritten
                          exact ⟨object, field, rfl, hfield, Or.inl ⟨source, hlookup, hwritten⟩⟩
                      | none =>
                          rcases (hdomain key).1 (by simp [hchild]) with hgiven | ⟨f, hf, hsome⟩
                          · simp [hlookup] at hgiven
                          rw [hfield] at hf
                          cases hf
                          rcases Option.isSome_iff_exists.1 hsome with ⟨source, hsource⟩
                          refine hstep source (hschemaField.default hsource)
                            (hdefaultConforms key field source hfield hlookup hsource)
                            (hdefaulted key field source child hfield hlookup hsource hchild) ?_
                          intro front token hwritten
                          exact ⟨object, field, rfl, hfield,
                            Or.inr ⟨hlookup, source, hsource, hwritten⟩⟩
              | none =>
                  -- The supplied paths stop here: `key` is completed from its field's default.
                  have hstop : [key] ∉ nodesOf (.object object') := by
                    rintro ⟨inner, hinner⟩
                    rcases NodeAt.object_cons_iff.1 hinner with ⟨other, hother, -⟩
                    simp [hlookup'] at hother
                  have hlookup : object.lookup key = none := by
                    by_contra hgiven
                    exact hdefault [] key rest rfl ⟨_, .root _⟩ hstop
                      ⟨object, rfl, Option.isSome_iff_ne_none.2 hgiven⟩
                  rcases (hdomain key).1 (by simp [hchild]) with hgiven | ⟨f, hf, hsome⟩
                  · simp [hlookup] at hgiven
                  rcases Option.isSome_iff_exists.1
                    ((hdomain' key).2 (Or.inr ⟨f, hf, hsome⟩)) with ⟨grown, hgrown⟩
                  rcases Option.isSome_iff_exists.1 hsome with ⟨source, hsource⟩
                  have hsame : grown = child :=
                    (hdefaulted' key f source grown hf hlookup' hsource hgrown).unique
                      (hdefaulted key f source child hf hlookup hsource hchild)
                      (hwf'.of_lookup hgrown) (hwf.of_lookup hchild)
                  exact .field (hsame ▸ hgrown) hbelow

/-! ## Parses against the empty command line -/

theorem splits_nil (extractDouble : DoubleExtraction) (parser : AcceptedParser) :
    Splits extractDouble parser [] [] [] :=
  ⟨.nil true, rfl, .nil, List.nodup_nil⟩

/-- The initial tree writes nothing out. -/
theorem not_writtenOut_initialTree (schema : ConfigurationSchema) (key : ByteString) :
    ¬ WrittenOut schema (initialTree schema) [] key := by
  rintro ⟨fields, hfields, hsome⟩
  unfold initialTree at hfields
  split at hfields
  · cases hfields
    cases hsome
  · cases hfields

/-- Schema defaults stand below the command line: supplied leaves hold their values, and the nodes
that come from field defaults off the supplied paths keep theirs. -/
theorem parse_precedence (extractDouble : DoubleExtraction) (parser : AcceptedParser)
    (arguments : List ByteString) (groups : List Group) (parsed : List ParsedOptionValue)
    (defaults result : CommandLineParseResult)
    (hdefaults : parse extractDouble parser.toCommandLineParser [] = .ok defaults)
    (hparse : parse extractDouble parser.toCommandLineParser arguments = .ok result)
    (hsplits : Splits extractDouble parser arguments groups parsed) :
    (∀ p ∈ parsed, result.configuration.find p.option.destination = .ok p.value) ∧
      ∀ tokens node, tokens ≠ [] → NodeAt defaults.configuration.value tokens node →
        (∀ p ∈ parsed, ¬ tokens <+: destinationTokens p.option) →
        (∀ front key rest, tokens = front ++ key :: rest →
          (∃ p ∈ parsed, front <+: destinationTokens p.option) →
          (∀ p ∈ parsed, ¬ front ++ [key] <+: destinationTokens p.option) →
          ¬ WrittenOut parser.schema (initialTree parser.schema) front key) →
        result.configuration.find (canonicalPath tokens) = .ok node ∧
          result.configuration.origin (canonicalPath tokens) = .ok .default := by
  have hschema := parser.built.wellFormed
  rcases exists_run hdefaults (splits_nil extractDouble parser) with
    ⟨empty, hempty, -, hemptyTree, hdefaultsRun, -⟩
  cases hempty
  rcases exists_run hparse hsplits with ⟨tree, -, -, htree, hrun, -⟩
  have hsupplied := hsplits.reads.suppliedOptions
  refine ⟨fun p hp => (find_origin_of_supplied hsupplied htree hrun hp).1, ?_⟩
  intro tokens node hne hnode hoff hwritten
  rcases nodeRun_conforms_completes hschema hdefaultsRun with ⟨hconforms, hcompletes⟩
  rcases nodeRun_conforms_completes hschema hrun with ⟨hconforms', hcompletes'⟩
  have hwf' := nodeRun_wellFormed hschema hrun htree.wellFormed
  -- The nodes of the candidate tree are the root and the prefixes of supplied destinations.
  have hoffTree : tokens ∉ nodesOf tree := by
    rintro ⟨inner, hinner⟩
    rcases htree.covered tokens inner hinner with hroot | ⟨entry, hentry, hfront⟩
    · exact hne hroot
    · rcases List.mem_map.1 hentry with ⟨p, hp, rfl⟩
      exact hoff p hp hfront
  have hkept : NodeAt result.configuration.value tokens node := by
    refine Completes.keeps_default hschema hemptyTree.wellFormed htree.wellFormed hconforms
      hconforms' hcompletes hcompletes'
      (nodeRun_wellFormed hschema hdefaultsRun hemptyTree.wellFormed) hwf' htree.listFree hnode
      hoffTree ?_
    rintro front key rest hsplit ⟨inner, hinner⟩ hstop
    rcases htree.covered front inner hinner with rfl | ⟨entry, hentry, hfront⟩
    · exact not_writtenOut_initialTree parser.schema key
    · rcases List.mem_map.1 hentry with ⟨p, hp, rfl⟩
      refine hwritten front key rest hsplit ⟨p, hp, hfront⟩ ?_
      rintro q hq ⟨below, hbelow⟩
      have hleaf := htree.supplied (entryOf q) (List.mem_map_of_mem hq)
      have hpath : (entryOf q).1 = (front ++ [key]) ++ below := hbelow.symm
      rw [hpath] at hleaf
      rcases NodeAt.append_iff.1 hleaf with ⟨middle, hmiddle, -⟩
      exact hstop ⟨middle, hmiddle⟩
  constructor
  · exact (Configuration.find_ok_iff hwf').2 ⟨tokens, tokens, rfl, hkept.spelling⟩
  · rw [Configuration.origin, metadataAt_canonicalPath hschema htree.wellFormed hrun hkept]
    exact congrArg Except.ok (nodeMetadata_origin_of_default hschema hrun hkept hoffTree)

/-- A boolean group whose default writes out both of its fields. -/
def groupSchema : ConfigurationSchema :=
  { attributes :=
      { type := .object
        defaultValue := some (.object [(text "a", .bool true), (text "b", .bool true)]) }
    fields := [(text "a", .new .bool), (text "b", .new .bool)] }

/-- The group under the key `g`, and a boolean `h` with a default of its own. -/
def groupedSchema : ConfigurationSchema :=
  { attributes := { type := .object }
    fields :=
      [(text "g", groupSchema),
        (text "h", (ConfigurationSchema.new .bool).setDefault (.bool true))] }

theorem groupSchema_built : groupSchema.Built := by
  have hdefault : ConfigurationValue.WellFormed
      (.object [(text "a", .bool true), (text "b", .bool true)]) := by
    refine .object _ (by simp [Ordered]; decide) ?_
    intro entry hmem
    simp only [List.mem_cons, List.not_mem_nil, or_false] at hmem
    rcases hmem with rfl | rfl <;> exact .bool true
  exact .setDefault
    (.addField (.addField (.new .object) (.new .bool)
      (rfl : (ConfigurationSchema.new .object).addField (text "a") (.new .bool) = _)) (.new .bool)
      (rfl : ConfigurationSchema.addField _ (text "b") (.new .bool) = _)) hdefault

theorem groupedSchema_built : groupedSchema.Built :=
  .addField (.addField (.new .object) groupSchema_built
    (rfl : (ConfigurationSchema.new .object).addField (text "g") groupSchema = _))
    (.setDefault (.new .bool) (.bool true))
    (rfl : ConfigurationSchema.addField _ (text "h") _ = _)

def groupedParser : AcceptedParser where
  schema := groupedSchema
  options := [{ longName := text "a", destination := text "/g/a" }]
  built := groupedSchema_built
  created := rfl

/-- Supplying `/g/a` discards the entry `/g/b` that the default of `/g` writes out. -/
theorem parse_drops_object_default :
    ∃ defaults result,
      parse (fun _ => none) groupedParser.toCommandLineParser [] = .ok defaults ∧
      parse (fun _ => none) groupedParser.toCommandLineParser [text "--a"] = .ok result ∧
      defaults.configuration.find (text "/g/b") = .ok (.bool true) ∧
      ∀ node, result.configuration.find (text "/g/b") ≠ .ok node :=
  ⟨_, _, rfl, rfl, rfl, nofun⟩

/-- Supplying `/g/a` keeps the default of `/h`. -/
theorem parse_keeps_field_default :
    ∃ result,
      parse (fun _ => none) groupedParser.toCommandLineParser [text "--a"] = .ok result ∧
      result.configuration.find (canonicalPath [text "h"]) = .ok (.bool true) ∧
      result.configuration.origin (canonicalPath [text "h"]) = .ok .default := by
  let option : CommandLineOption := { longName := text "a", destination := text "/g/a" }
  have hmem : option ∈ groupedParser.options := List.mem_singleton.2 rfl
  have hsplits : Splits (fun _ => none) groupedParser [text "--a"]
      [.option option (.flag true) [text "--a"]] [⟨option, .bool true, 0⟩] :=
    ⟨.option (.longFlag hmem rfl nofun) (.nil true), rfl,
      .cons ⟨rfl, rfl, .bool, rfl, rfl⟩ .nil, List.nodup_singleton _⟩
  refine ⟨_, rfl, (parse_precedence (fun _ => none) groupedParser [text "--a"] _ _ _ _ rfl rfl
    hsplits).2 [text "h"] (.bool true) (by simp) (.field rfl (.root _)) ?_ ?_⟩
  · intro p hp
    rw [List.mem_singleton.1 hp]
    decide
  · intro front key rest hsplit _ _
    have hfront : front = [] := by
      cases front with
      | nil => rfl
      | cons first front => simp at hsplit
    rw [hfront]
    exact not_writtenOut_initialTree _ key

end Utilities
end AscCpp
