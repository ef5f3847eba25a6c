import AscCpp.Core.Configuration.Metadata

/-!
# Lookup — resolving a path string against the value tree

`Configuration.find` re-parses its path: it splits at `/`, unescapes every piece and decodes list
indices digit by digit.  `NodeSpelling value spelled tokens node` is the walk it performs: `spelled`
are the unescaped pieces, `tokens` the canonical token list of the node they reach.  The two differ
only where a list index is written with leading zeros.

* `Configuration.find_ok_iff` — `find` succeeds exactly along spellings;
* `find_iff_metadata` — a path resolves exactly when it carries metadata, unless it is such a padded
  spelling.
-/

namespace AscCpp
namespace Core

open Library

/-! ## The lookup loop -/

/-- `std::numeric_limits<std::size_t>::max()`. -/
def sizeMaximum : Nat :=
  2 ^ 64 - 1

/-- The digit loop of a list token, with the index read so far. -/
def decodeListIndex (index : Nat) : ByteString → Result Nat
  | [] => .ok index
  | character :: rest =>
      if character < byte '0' ∨ byte '9' < character then
        .error { code := .invalidArgument
                 message := "A list path token must be a decimal index" }
      else
        let digit := character.val - (byte '0').val
        if index > (sizeMaximum - digit) / 10 then
          .error { code := .overflow, message := "Configuration list index overflows size_t" }
        else
          decodeListIndex (index * 10 + digit) rest

/-- One turn of the lookup loop, after unescaping. -/
def findChild (current : ConfigurationValue) (token : ByteString) : Result ConfigurationValue :=
  match current with
  | .object fields =>
      match fields.lookup token with
      | none => .error { code := .configuration, message := "Configuration path does not exist" }
      | some child => .ok child
  | .list items =>
      if token.isEmpty then
        .error { code := .invalidArgument, message := "A list path token must be an index" }
      else
        match decodeListIndex 0 token with
        | .error status => .error status
        | .ok index =>
            match items[index]? with
            | none =>
                .error { code := .index, message := "Configuration list index is out of range" }
            | some child => .ok child
  | _ =>
      .error { code := .configuration, message := "Configuration path traverses a scalar value" }

def findFrom (current : ConfigurationValue) : List ByteString → Result ConfigurationValue
  | [] => .ok current
  | encodedToken :: rest =>
      match unescapePathToken encodedToken with
      | .error status => .error status
      | .ok token =>
          match findChild current token with
          | .error status => .error status
          | .ok child => findFrom child rest

def Configuration.find (configuration : Configuration) (path : ByteString) :
    Result ConfigurationValue :=
  match path with
  | [] => .ok configuration.value
  | first :: rest =>
      if first ≠ byte '/' then
        .error { code := .invalidArgument
                 message := "A non-empty configuration path must begin with '/'" }
      else
        findFrom configuration.value (rest.splitOn (byte '/'))

/-! ## Spellings -/

/-- The walk of `find`: `spelled` reaches `node`, whose canonical token list is `tokens`. -/
inductive NodeSpelling :
    ConfigurationValue → List ByteString → List ByteString → ConfigurationValue → Prop where
  | root (value : ConfigurationValue) : NodeSpelling value [] [] value
  | field {fields : ConfigurationObject} {key : ByteString} {child node : ConfigurationValue}
      {spelled tokens : List ByteString} (hlookup : fields.lookup key = some child)
      (h : NodeSpelling child spelled tokens node) :
      NodeSpelling (.object fields) (key :: spelled) (key :: tokens) node
  | item {items : List ConfigurationValue} {index : Nat} {child node : ConfigurationValue}
      {spelled tokens : List ByteString} (zeros : Nat) (hget : items[index]? = some child)
      (h : NodeSpelling child spelled tokens node) :
      NodeSpelling (.list items)
        ((List.replicate zeros (byte '0') ++ stdToString index) :: spelled)
        (stdToString index :: tokens) node

/-- The path names a node of the value, but with superfluous zeros in some list index. -/
def PaddedSpelling (value : ConfigurationValue) (path : ByteString) : Prop :=
  ∃ spelled tokens node, NodeSpelling value spelled tokens node ∧ spelled ≠ tokens ∧
    canonicalPath spelled = path

theorem NodeAt.spelling {value node : ConfigurationValue} {tokens : List ByteString}
    (h : NodeAt value tokens node) : NodeSpelling value tokens tokens node := by
  induction h with
  | root value => exact .root value
  | field hlookup _ ih => exact .field hlookup ih
  | item hget _ ih => exact .item 0 hget ih

theorem NodeSpelling.nodeAt {value node : ConfigurationValue} {spelled tokens : List ByteString}
    (h : NodeSpelling value spelled tokens node) : NodeAt value tokens node := by
  induction h with
  | root value => exact .root value
  | field hlookup _ ih => exact .field hlookup ih
  | item _ hget _ ih => exact .item hget ih

theorem decimalValue_replicate_append (zeros : Nat) (digits : ByteString) :
    decimalValue (List.replicate zeros (byte '0') ++ digits) = decimalValue digits := by
  induction zeros with
  | zero => rfl
  | succ zeros ih => exact ih

/-- A spelling that is itself a token list of a node is the canonical one. -/
theorem NodeSpelling.eq_of_nodeAt {value node node' : ConfigurationValue}
    {spelled tokens : List ByteString} (h : NodeSpelling value spelled tokens node)
    (h' : NodeAt value spelled node') : spelled = tokens := by
  induction h with
  | root => rfl
  | field hlookup _ ih =>
      obtain ⟨child, hchild, hbelow⟩ := NodeAt.object_cons_iff.1 h'
      rw [hlookup] at hchild
      cases hchild
      rw [ih hbelow]
  | @item items index child _ _ _ zeros hget _ ih =>
      obtain ⟨index', child', htoken, hget', hbelow⟩ := NodeAt.list_cons_iff.1 h'
      have hindex : index = index' := by
        have hvalue := congrArg decimalValue htoken
        simpa [decimalValue_replicate_append, decimalValue_stdToString] using hvalue
      subst hindex
      rw [hget] at hget'
      cases hget'
      rw [htoken, ih hbelow]

/-! ## The lookup loop walks spellings -/

theorem isDigitByte_iff {b : Byte} : isDigitByte b ↔ ¬ (b < byte '0' ∨ byte '9' < b) := by
  have hzero : (byte '0').val = 48 := rfl
  have hnine : (byte '9').val = 57 := rfl
  rw [isDigitByte, Fin.lt_def, Fin.lt_def, hzero, hnine]
  omega

theorem decodeListIndex_ok_iff {start index : Nat} {digits : ByteString} (hstart : start < 2 ^ 64) :
    decodeListIndex start digits = .ok index ↔
      (∀ b ∈ digits, isDigitByte b) ∧ decimalValueFrom start digits = index ∧ index < 2 ^ 64 := by
  induction digits generalizing start with
  | nil =>
      simp only [decodeListIndex, Except.ok.injEq, List.not_mem_nil, false_implies, implies_true,
        true_and, decimalValueFrom, List.foldl_nil]
      constructor
      · rintro rfl
        exact ⟨rfl, hstart⟩
      · exact fun h => h.1
  | cons b rest ih =>
      rw [decodeListIndex]
      by_cases hdigit : isDigitByte b
      · rw [if_neg (isDigitByte_iff.1 hdigit)]
        have hval : b.val - (byte '0').val = b.val - 48 := rfl
        have hfrom : decimalValueFrom start (b :: rest) =
            decimalValueFrom (start * 10 + (b.val - 48)) rest := rfl
        obtain ⟨hlow, hhigh⟩ := hdigit
        simp only [hval, hfrom, List.forall_mem_cons, sizeMaximum]
        split
        -- The bound is tested before the multiplication; what comes after can only grow.
        · rename_i hover
          simp only [reduceCtorEq, false_iff]
          rintro ⟨-, rfl, hlt⟩
          have hle := le_decimalValueFrom (start * 10 + (b.val - 48)) rest
          omega
        · rename_i hfits
          rw [ih (by omega)]
          simp [isDigitByte, hlow, hhigh]
      · rw [if_pos (by_contra fun h => hdigit (isDigitByte_iff.2 h))]
        simp [hdigit]

theorem findChild_list_ok_iff {items : List ConfigurationValue} {token : ByteString}
    {child : ConfigurationValue} (hsize : items.length < 2 ^ 64) :
    findChild (.list items) token = .ok child ↔
      ∃ zeros index, token = List.replicate zeros (byte '0') ++ stdToString index ∧
        items[index]? = some child := by
  constructor
  · intro h
    rw [findChild] at h
    split at h
    · cases h
    · rename_i hempty
      split at h
      · cases h
      · rename_i index hindex
        split at h
        · cases h
        · rename_i child' hget
          cases h
          obtain ⟨hdigits, hvalue, -⟩ := (decodeListIndex_ok_iff (by decide)).1 hindex
          -- A string of digits is the numeral of its value behind some zeros.
          obtain ⟨zeros, hzeros⟩ :=
            eq_replicate_append_stdToString (by simpa using hempty) hdigits
          have hindex' : decimalValue token = index := hvalue
          rw [hindex'] at hzeros
          exact ⟨zeros, index, hzeros, hget⟩
  · rintro ⟨zeros, index, rfl, hget⟩
    have hlt : index < items.length := (List.getElem?_eq_some_iff.1 hget).1
    have hdecode : decodeListIndex 0 (List.replicate zeros (byte '0') ++ stdToString index) =
        .ok index := by
      refine (decodeListIndex_ok_iff (by decide)).2 ⟨?_, ?_, by omega⟩
      · intro b hb
        rcases List.mem_append.1 hb with hzero | hnumeral
        · rw [List.eq_of_mem_replicate hzero]
          decide
        · exact isDigitByte_of_mem_stdToString hnumeral
      · exact (decimalValue_replicate_append zeros _).trans (decimalValue_stdToString index)
    have hne : (List.replicate zeros (byte '0') ++ stdToString index).isEmpty = false := by
      simp [stdToString_ne_nil]
    simp [findChild, hne, hdecode, hget]

theorem findFrom_ok_iff {value node : ConfigurationValue} {pieces : List ByteString}
    (hvalue : value.WellFormed) :
    findFrom value pieces = .ok node ↔
      ∃ spelled tokens, pieces.mapM pointerCodec.unescape = some spelled ∧
        NodeSpelling value spelled tokens node := by
  induction pieces generalizing value with
  | nil =>
      constructor
      · intro h
        cases h
        exact ⟨[], [], rfl, .root _⟩
      · rintro ⟨spelled, tokens, hspelled, hwalk⟩
        cases hspelled
        cases hwalk
        rfl
  | cons piece rest ih =>
      -- The first piece is unescaped apart from the rest, as in the loop.
      have hsplit : ∀ spelled, (piece :: rest).mapM pointerCodec.unescape = some spelled ↔
          ∃ token below, unescapePathToken piece = .ok token ∧
            rest.mapM pointerCodec.unescape = some below ∧ token :: below = spelled := by
        intro spelled
        simp [List.mapM_cons, Option.bind_eq_some_iff, unescapePathToken, unescapeToken_eq_ok_iff]
      simp only [hsplit]
      rw [findFrom]
      cases htoken : unescapePathToken piece with
      | error status => simp
      | ok token =>
          simp only [Except.ok.injEq]
          cases value with
          | object fields =>
              cases hlookup : fields.lookup token with
              | none =>
                  simp only [findChild, hlookup, reduceCtorEq, false_iff]
                  rintro ⟨_, tokens, ⟨_, below, rfl, _, rfl⟩, hwalk⟩
                  cases hwalk with
                  | field hlookup' => simp [hlookup] at hlookup'
              | some child =>
                  simp only [findChild, hlookup]
                  rw [ih (hvalue.of_lookup hlookup)]
                  constructor
                  · rintro ⟨below, tokens, hbelow, hwalk⟩
                    exact ⟨_, _, ⟨token, below, rfl, hbelow, rfl⟩, .field hlookup hwalk⟩
                  · rintro ⟨_, tokens, ⟨_, below, rfl, hbelow, rfl⟩, hwalk⟩
                    cases hwalk with
                    | field hlookup' h =>
                        rw [hlookup] at hlookup'
                        cases hlookup'
                        exact ⟨below, _, hbelow, h⟩
          -- Only here may the spelling differ from the token, by zeros in front of the index.
          | list items =>
              obtain ⟨hsize, hitems⟩ : items.length < 2 ^ 64 ∧ ∀ item ∈ items, item.WellFormed := by
                cases hvalue with
                | list _ hsize hitems => exact ⟨hsize, hitems⟩
              cases hchild : findChild (.list items) token with
              | error status =>
                  simp only [reduceCtorEq, false_iff]
                  rintro ⟨_, tokens, ⟨_, below, rfl, _, rfl⟩, hwalk⟩
                  cases hwalk with
                  | item zeros hget =>
                      simp [(findChild_list_ok_iff hsize).2 ⟨zeros, _, rfl, hget⟩] at hchild
              | ok child =>
                  obtain ⟨zeros, index, rfl, hget⟩ := (findChild_list_ok_iff hsize).1 hchild
                  simp only
                  rw [ih (hitems child (List.mem_of_getElem? hget))]
                  constructor
                  · rintro ⟨below, tokens, hbelow, hwalk⟩
                    exact ⟨_, _, ⟨_, below, rfl, hbelow, rfl⟩, .item zeros hget hwalk⟩
                  · rintro ⟨_, tokens, ⟨token, below, rfl, hbelow, rfl⟩, hwalk⟩
                    generalize htok : List.replicate zeros (byte '0') ++ stdToString index = token
                      at hwalk
                    cases hwalk with
                    | @item _ index' child' _ _ _ zeros' hget' h =>
                        have hvalue := congrArg decimalValue htok
                        simp only [decimalValue_replicate_append, decimalValue_stdToString]
                          at hvalue
                        subst hvalue
                        rw [hget] at hget'
                        cases hget'
                        exact ⟨below, _, hbelow, h⟩
          | _ =>
              simp only [findChild, reduceCtorEq, false_iff]
              rintro ⟨_, tokens, ⟨_, below, rfl, _, rfl⟩, hwalk⟩
              cases hwalk

theorem Configuration.find_ok_iff {configuration : Configuration} {path : ByteString}
    {node : ConfigurationValue} (hvalue : configuration.value.WellFormed) :
    configuration.find path = .ok node ↔
      ∃ spelled tokens, canonicalPath spelled = path ∧
        NodeSpelling configuration.value spelled tokens node := by
  -- The codec of the pointers turns the path into the tokens it spells.
  have hdecode : ∀ spelled, canonicalPath spelled = path ↔
      pointerCodec.decode path = some spelled := by
    intro spelled
    rw [pointerCodec.decode_eq_some_iff, canonicalPath_eq_encode, eq_comm]
  simp only [hdecode]
  obtain ⟨value, metadata⟩ := configuration
  cases path with
  | nil =>
      constructor
      · intro h
        cases h
        exact ⟨[], [], rfl, .root _⟩
      · rintro ⟨spelled, tokens, hspelled, hwalk⟩
        cases hspelled
        cases hwalk
        rfl
  | cons first rest =>
      rw [Configuration.find, EscapeCodec.decode]
      by_cases hfirst : first = byte '/'
      · rw [if_neg (not_not.2 hfirst), pointerCodec_separator, if_pos hfirst]
        exact findFrom_ok_iff hvalue
      · simp [hfirst]

/-! ## Lookup against metadata -/

/-- A path resolves to a node exactly when it carries metadata, as long as no list index in it is
padded with zeros; a padded path resolves and carries none. -/
theorem find_iff_metadata (schema : BuiltSchema) (value : ValidValue)
    (configuration : Configuration) (h : Validates schema value configuration)
    (path : ByteString) :
    ((∃ node, configuration.find path = .ok node) ↔
        (∃ origin, configuration.origin path = .ok origin) ∧
          (∃ sensitive, configuration.isSensitive path = .ok sensitive) ∧
          ∃ deprecated, configuration.isDeprecated path = .ok deprecated) ↔
      ¬ PaddedSpelling configuration.value path := by
  obtain ⟨origin, origins, hrun⟩ := h.nodeRun
  have hschema := schema.2.wellFormed
  have hwf := nodeRun_wellFormed hschema hrun value.2
  -- The three queries of the metadata succeed together, at the canonical paths.
  have hmetadata : ((∃ origin, configuration.origin path = .ok origin) ∧
      (∃ sensitive, configuration.isSensitive path = .ok sensitive) ∧
      ∃ deprecated, configuration.isDeprecated path = .ok deprecated) ↔
      ∃ tokens node, NodeAt configuration.value tokens node ∧ canonicalPath tokens = path := by
    rw [← contains_metadata_iff hschema value.2 hrun]
    simp only [Configuration.origin, Configuration.isSensitive, Configuration.isDeprecated,
      Configuration.metadataAt, OrderedMap.contains]
    cases configuration.metadata.find path <;> simp [Except.map]
  rw [hmetadata]
  simp only [Configuration.find_ok_iff hwf]
  constructor
  · rintro hiff ⟨spelled, tokens, node, hwalk, hne, rfl⟩
    obtain ⟨tokens', node', hnode', hpath⟩ := hiff.1 ⟨node, spelled, tokens, rfl, hwalk⟩
    rw [canonicalPath_injective hpath] at hnode'
    exact hne (hwalk.eq_of_nodeAt hnode')
  -- Without a padded spelling, what a path finds is found at its canonical path.
  · intro hcanonical
    constructor
    · rintro ⟨node, spelled, tokens, rfl, hwalk⟩
      have heq : spelled = tokens := by
        by_contra hne
        exact hcanonical ⟨spelled, tokens, node, hwalk, hne, rfl⟩
      exact ⟨tokens, node, hwalk.nodeAt, by rw [heq]⟩
    · rintro ⟨tokens, node, hnode, rfl⟩
      exact ⟨node, tokens, tokens, rfl, hnode.spelling⟩

/-- One element, two spellings of its index: `/00` resolves and has no metadata. -/
theorem find_padded_index :
    (ConfigurationSchema.new .list).Built ∧ ConfigurationValue.WellFormed (.list [.null]) ∧
      ∃ configuration, validateConfiguration (.new .list) (.list [.null])
          (.programmatic none none) = .ok configuration ∧
        configuration.find (text "/00") = .ok .null ∧
        configuration.origin (text "/00") = .error Configuration.metadataPathMissing ∧
        configuration.isSensitive (text "/00") = .error Configuration.metadataPathMissing := by
  exact ⟨.new .list, wellFormed_list_null, _, rfl, rfl, rfl, rfl⟩

/-- On the canonical spelling of the same element both lookups agree. -/
theorem find_iff_metadata_item :
    ∃ configuration, validateConfiguration (.new .list) (.list [.null])
          (.programmatic none none) = .ok configuration ∧
      (((∃ node, configuration.find (text "/0") = .ok node) ↔
        (∃ origin, configuration.origin (text "/0") = .ok origin) ∧
          (∃ sensitive, configuration.isSensitive (text "/0") = .ok sensitive) ∧
          ∃ deprecated, configuration.isDeprecated (text "/0") = .ok deprecated) ↔
      ¬ PaddedSpelling configuration.value (text "/0")) := by
  exact ⟨_, rfl, find_iff_metadata ⟨_, .new .list⟩ ⟨_, wellFormed_list_null⟩ _
    (Or.inl ⟨_, rfl⟩) _⟩
end Core
end AscCpp
