import AscCpp.Core.Configuration.Path
import AscCpp.Core.Configuration.Schema

/-!
# Options — command-line options and the parsers that accept them

`CommandLineParser::Create` checks a list of options against a schema.  The sets of names it fills
are kept as lists, read only by membership.

* `parsePointer` — the destination decoder, inverse to `canonicalPath` (`parsePointer_ok_iff`);
* `create` — the checks in source order, and `Accepted`, what they establish (`create_ok_iff`);
* `AcceptedParser` — a parser with the proof that `create` accepted it.
-/

namespace AscCpp
namespace Utilities

open AscCpp.Core Library

/-! ## Destinations -/

def commandLineError (message : String) : Status :=
  { code := .invalidArgument, message := message }

def parsePointerTokens : List ByteString → Result (List ByteString)
  | [] => .ok []
  | encoded :: rest =>
      match unescapeToken
          (commandLineError "A command-line destination has an incomplete JSON Pointer escape")
          (commandLineError "A command-line destination has an invalid JSON Pointer escape")
          encoded with
      | .error status => .error status
      | .ok token => (parsePointerTokens rest).map (token :: ·)

def parsePointer (path : ByteString) : Result (List ByteString) :=
  match path with
  | [] => .ok []
  | first :: rest =>
      if first ≠ byte '/' then
        .error (commandLineError "A command-line destination must be a JSON Pointer")
      else
        parsePointerTokens (rest.splitOn (byte '/'))

def findSchema (schema : ConfigurationSchema) :
    List ByteString → Result ConfigurationSchema
  | [] => .ok schema
  | token :: rest =>
      if schema.type ≠ .object then
        .error (commandLineError "A command-line destination traverses a non-object schema")
      else
        match schema.fields.lookup token with
        | none =>
            .error (commandLineError "A command-line destination is not present in the schema")
        | some field => findSchema field rest

def isSupportedLeaf : ConfigurationValueType → Bool
  | .bool | .signedInteger | .unsignedInteger | .double | .string => true
  | .null | .list | .object => false

theorem parsePointerTokens_ok_iff {pieces tokens : List ByteString} :
    parsePointerTokens pieces = .ok tokens ↔
      pieces.mapM pointerCodec.unescape = some tokens := by
  induction pieces generalizing tokens with
  | nil => simp [parsePointerTokens]
  | cons piece rest ih =>
      rw [parsePointerTokens]
      split
      · rename_i status herror
        have hnone : pointerCodec.unescape piece = none :=
          toOption_unescapeToken _ _ piece ▸ congrArg Except.toOption herror
        simp [hnone]
      · rename_i token htoken
        have hsome := unescapeToken_eq_ok_iff.1 htoken
        -- The remaining pieces succeed or fail together on both sides.
        cases hrest : parsePointerTokens rest with
        | error status =>
            have hfail : rest.mapM pointerCodec.unescape = none := by
              cases hmap : rest.mapM pointerCodec.unescape with
              | none => rfl
              | some below => simp [ih.2 hmap] at hrest
            simp [Except.map, hsome, hfail]
        | ok below =>
            simp [Except.map, hsome, ih.1 hrest]

/-- Decoding a destination inverts the canonical path of its token list. -/
theorem parsePointer_ok_iff {path : ByteString} {tokens : List ByteString} :
    parsePointer path = .ok tokens ↔ canonicalPath tokens = path := by
  have hdecode : canonicalPath tokens = path ↔ pointerCodec.decode path = some tokens := by
    rw [pointerCodec.decode_eq_some_iff, canonicalPath_eq_encode, eq_comm]
  rw [hdecode]
  cases path with
  | nil => simp [parsePointer, EscapeCodec.decode]
  | cons first rest =>
      by_cases hfirst : first = byte '/'
      · simpa [parsePointer, EscapeCodec.decode, hfirst] using parsePointerTokens_ok_iff
      · simp [parsePointer, EscapeCodec.decode, hfirst]

theorem findSchema_append {schema middle : ConfigurationSchema} {front rest : List ByteString}
    (h : findSchema schema front = .ok middle) :
    findSchema schema (front ++ rest) = findSchema middle rest := by
  -- Down the front, one field for each token.
  induction front generalizing schema with
  | nil =>
      cases h
      rfl
  | cons token front ih =>
      simp only [findSchema, List.cons_append] at h ⊢
      split
      · rename_i htype
        simp [htype] at h
      · rename_i htype
        rw [if_neg htype] at h
        cases hfield : schema.fields.lookup token with
        | none => simp [hfield] at h
        | some field =>
            simp only [hfield] at h ⊢
            exact ih h

/-- Nothing lies below a schema node that is not an object. -/
theorem findSchema_leaf {schema leaf leaf' : ConfigurationSchema} {front rest : List ByteString}
    (h : findSchema schema front = .ok leaf) (hleaf : leaf.type ≠ .object)
    (h' : findSchema schema (front ++ rest) = .ok leaf') : rest = [] := by
  rw [findSchema_append h] at h'
  cases rest with
  | nil => rfl
  | cons token rest => simp [findSchema, hleaf] at h'

/-! ## Options -/

structure CommandLineOption where
  longName : ByteString
  shortName : Option Byte := none
  destination : ByteString
  deriving DecidableEq

/-- `std::isalnum` on an ASCII byte. -/
def isAsciiAlphanumeric (character : Byte) : Bool :=
  (byte '0' ≤ character && character ≤ byte '9') ||
    (byte 'A' ≤ character && character ≤ byte 'Z') ||
    (byte 'a' ≤ character && character ≤ byte 'z')

def isAsciiName (name : ByteString) : Bool :=
  match name with
  | [] => false
  | first :: _ =>
      if first = byte '-' then
        false
      else
        name.all fun character =>
          character ≤ 0x7f && (isAsciiAlphanumeric character || character = byte '-' ||
            character = byte '_')

def isAsciiShortName (name : Byte) : Bool :=
  name ≤ 0x7f && isAsciiAlphanumeric name

def findLongOption (options : List CommandLineOption) (name : ByteString) :
    Option CommandLineOption :=
  options.find? fun option => option.longName = name

def findShortOption (options : List CommandLineOption) (name : Byte) :
    Option CommandLineOption :=
  options.find? fun option => option.shortName = some name

def optionType (schema : ConfigurationSchema) (option : CommandLineOption) :
    Result ConfigurationValueType :=
  match parsePointer option.destination with
  | .error status => .error status
  | .ok tokens =>
      match findSchema schema tokens with
      | .error status => .error status
      | .ok destination => .ok destination.type

/-! ## Creation -/

/-- The first loop of `Create`, with the names and destinations seen so far. -/
def checkOptions (schema : ConfigurationSchema) (longNames : List ByteString)
    (shortNames : List Byte) (destinations : List ByteString) :
    List CommandLineOption → Result Unit
  | [] => .ok ()
  | option :: rest =>
      if !isAsciiName option.longName then
        .error (commandLineError
          ("A long option name must contain only ASCII letters, digits, '-' and '_', without a " ++
            "leading dash"))
      else if option.longName ∈ longNames then
        .error (commandLineError "Long option names must be unique")
      else if option.shortName.any fun name => !isAsciiShortName name then
        .error (commandLineError "A short option name must be one ASCII letter or digit")
      else if option.shortName.any fun name => name ∈ shortNames then
        .error (commandLineError "Short option names must be unique")
      else if option.destination ∈ destinations then
        .error (commandLineError "Command-line destination paths must be unique")
      else
        match parsePointer option.destination with
        | .error status => .error status
        | .ok path =>
            match findSchema schema path with
            | .error status => .error status
            | .ok destination =>
                if !isSupportedLeaf destination.type then
                  .error { code := .unsupported
                           message := "A command-line destination must be a supported scalar " ++
                             "schema leaf" }
                else
                  checkOptions schema (option.longName :: longNames)
                    (option.shortName.toList ++ shortNames) (option.destination :: destinations)
                    rest

/-- The second loop of `Create`: no explicit name is the negation of a boolean option. -/
def checkNegations (schema : ConfigurationSchema) (options : List CommandLineOption) :
    List CommandLineOption → Result Unit
  | [] => .ok ()
  | option :: rest =>
      if (findLongOption options (text "no-" ++ option.longName)).isSome then
        match optionType schema option with
        | .error status => .error status
        | .ok type =>
            if type = .bool then
              .error (commandLineError
                "An explicit long option collides with a boolean negation name")
            else
              checkNegations schema options rest
      else
        checkNegations schema options rest

structure CommandLineParser where
  schema : ConfigurationSchema
  options : List CommandLineOption

def create (schema : ConfigurationSchema) (options : List CommandLineOption) :
    Result CommandLineParser :=
  match checkOptions schema [] [] [] options with
  | .error status => .error status
  | .ok () =>
      match checkNegations schema options options with
      | .error status => .error status
      | .ok () => .ok { schema := schema, options := options }

/-! ## What `create` establishes -/

/-- The destination names a supported leaf of the schema. -/
def IsLeafDestination (schema : ConfigurationSchema) (destination : ByteString) : Prop :=
  ∃ tokens leaf, parsePointer destination = .ok tokens ∧ findSchema schema tokens = .ok leaf ∧
    isSupportedLeaf leaf.type

/-- What the first loop checks of a single option. -/
structure WellNamed (schema : ConfigurationSchema) (option : CommandLineOption) : Prop where
  longName_ascii : isAsciiName option.longName
  shortName_ascii : ∀ name, option.shortName = some name → isAsciiShortName name
  leaf : IsLeafDestination schema option.destination

/-- The checks of `create`, as one statement about the list of options. -/
structure Accepted (schema : ConfigurationSchema) (options : List CommandLineOption) : Prop where
  wellNamed : ∀ option ∈ options, WellNamed schema option
  longNames_nodup : (options.map CommandLineOption.longName).Nodup
  shortNames_nodup : (options.filterMap CommandLineOption.shortName).Nodup
  destinations_nodup : (options.map CommandLineOption.destination).Nodup
  negation : ∀ option ∈ options,
    (findLongOption options (text "no-" ++ option.longName)).isSome →
    optionType schema option ≠ .ok .bool

/-- The names are pairwise distinct and none of them was seen before. -/
def Fresh {α : Type} (names seen : List α) : Prop :=
  names.Nodup ∧ ∀ name ∈ names, name ∉ seen

theorem fresh_nil_iff {α : Type} {names : List α} : Fresh names [] ↔ names.Nodup := by
  simp [Fresh]

theorem fresh_cons_iff {α : Type} {name : α} {names seen : List α} :
    Fresh (name :: names) seen ↔ name ∉ seen ∧ Fresh names (name :: seen) := by
  rw [Fresh, Fresh, List.nodup_cons, List.forall_mem_cons]
  simp only [List.mem_cons, not_or]
  constructor
  · rintro ⟨⟨hnew, hnodup⟩, hname, hseen⟩
    refine ⟨hname, hnodup, fun other hmem => ⟨?_, hseen other hmem⟩⟩
    rintro rfl
    exact hnew hmem
  · rintro ⟨hname, hnodup, hseen⟩
    exact ⟨⟨fun hmem => (hseen name hmem).1 rfl, hnodup⟩, hname,
      fun other hmem => (hseen other hmem).2⟩

theorem fresh_filterMap_cons_iff {α β : Type} {f : α → Option β} {x : α} {rest : List α}
    {seen : List β} :
    Fresh ((x :: rest).filterMap f) seen ↔
      (∀ name, f x = some name → name ∉ seen) ∧
        Fresh (rest.filterMap f) ((f x).toList ++ seen) := by
  cases hname : f x with
  | none => simp [List.filterMap_cons_none hname]
  | some name => simp [List.filterMap_cons_some hname, fresh_cons_iff]

theorem optionType_ok_iff {schema : ConfigurationSchema} {option : CommandLineOption}
    {type : ConfigurationValueType} :
    optionType schema option = .ok type ↔
      ∃ tokens destination, parsePointer option.destination = .ok tokens ∧
        findSchema schema tokens = .ok destination ∧ destination.type = type := by
  rw [optionType]
  cases parsePointer option.destination with
  | error status => simp
  | ok tokens => cases hschema : findSchema schema tokens <;> simp [hschema]

/-- One turn of the first loop: the checks on this option, then the remaining turns. -/
theorem checkOptions_cons_ok_iff {schema : ConfigurationSchema} {longNames : List ByteString}
    {shortNames : List Byte} {destinations : List ByteString} {option : CommandLineOption}
    {rest : List CommandLineOption} :
    checkOptions schema longNames shortNames destinations (option :: rest) = .ok () ↔
      WellNamed schema option ∧ option.longName ∉ longNames ∧
        (∀ name, option.shortName = some name → name ∉ shortNames) ∧
        option.destination ∉ destinations ∧
        checkOptions schema (option.longName :: longNames)
          (option.shortName.toList ++ shortNames) (option.destination :: destinations) rest =
          .ok () := by
  -- An option without a short name passes both checks on it.
  have hshort : (option.shortName.any fun name => !isAsciiShortName name) = false ↔
      ∀ name, option.shortName = some name → isAsciiShortName name := by
    cases option.shortName <;> simp
  have hseen : (option.shortName.any fun name => decide (name ∈ shortNames)) = false ↔
      ∀ name, option.shortName = some name → name ∉ shortNames := by
    cases option.shortName <;> simp
  rw [checkOptions, ← hseen]
  constructor
  · intro h
    split at h
    · cases h
    rename_i hlong
    split at h
    · cases h
    rename_i hlongNew
    split at h
    · cases h
    rename_i hascii
    split at h
    · cases h
    rename_i hshortNew
    split at h
    · cases h
    rename_i hdestination
    split at h
    · cases h
    rename_i tokens hpointer
    split at h
    · cases h
    rename_i leaf hschema
    split at h
    · cases h
    rename_i hleaf
    exact ⟨⟨by simpa using hlong, hshort.1 (by simpa using hascii), tokens, leaf, hpointer,
      hschema, by simpa using hleaf⟩, hlongNew, by simpa using hshortNew, hdestination, h⟩
  · rintro ⟨⟨hlong, hascii, tokens, leaf, hpointer, hschema, hleaf⟩, hlongNew, hshortNew,
      hdestination, h⟩
    simp only [hlong, Bool.not_true, Bool.false_eq_true, if_false, hlongNew, hshort.2 hascii,
      hshortNew, hdestination, hpointer, hschema, hleaf]
    exact h

/-- The first loop, relative to the names and destinations seen before it. -/
theorem checkOptions_ok_iff {schema : ConfigurationSchema} {longNames : List ByteString}
    {shortNames : List Byte} {destinations : List ByteString}
    {options : List CommandLineOption} :
    checkOptions schema longNames shortNames destinations options = .ok () ↔
      (∀ option ∈ options, WellNamed schema option) ∧
        Fresh (options.map CommandLineOption.longName) longNames ∧
        Fresh (options.filterMap CommandLineOption.shortName) shortNames ∧
        Fresh (options.map CommandLineOption.destination) destinations := by
  induction options generalizing longNames shortNames destinations with
  | nil => simp [checkOptions, Fresh]
  | cons option rest ih =>
      rw [checkOptions_cons_ok_iff, ih, List.forall_mem_cons, List.map_cons, List.map_cons,
        fresh_cons_iff, fresh_cons_iff, fresh_filterMap_cons_iff]
      tauto

theorem checkNegations_ok_iff {schema : ConfigurationSchema}
    {options checked : List CommandLineOption}
    (hnamed : ∀ option ∈ checked, WellNamed schema option) :
    checkNegations schema options checked = .ok () ↔
      ∀ option ∈ checked, (findLongOption options (text "no-" ++ option.longName)).isSome →
        optionType schema option ≠ .ok .bool := by
  induction checked with
  | nil => simp [checkNegations]
  | cons option rest ih =>
      have hrest := ih fun other hmem => hnamed other (List.mem_cons_of_mem _ hmem)
      rcases (hnamed option List.mem_cons_self).leaf with ⟨tokens, leaf, hpointer, hschema, -⟩
      have htype : optionType schema option = .ok leaf.type :=
        optionType_ok_iff.2 ⟨tokens, leaf, hpointer, hschema, rfl⟩
      rw [checkNegations, List.forall_mem_cons, ← hrest]
      -- Only a boolean option is refused for a name that its negation would shadow.
      by_cases hfound : (findLongOption options (text "no-" ++ option.longName)).isSome
      · by_cases hbool : leaf.type = .bool <;> simp [hfound, htype, hbool]
      · simp [hfound]

theorem create_ok_iff {schema : ConfigurationSchema} {options : List CommandLineOption}
    {parser : CommandLineParser} :
    create schema options = .ok parser ↔
      parser = { schema := schema, options := options } ∧ Accepted schema options := by
  have hchecks : Accepted schema options ↔ checkOptions schema [] [] [] options = .ok () ∧
      checkNegations schema options options = .ok () := by
    rw [checkOptions_ok_iff, fresh_nil_iff, fresh_nil_iff, fresh_nil_iff]
    constructor
    · rintro ⟨hnamed, hlong, hshort, hdestinations, hnegation⟩
      exact ⟨⟨hnamed, hlong, hshort, hdestinations⟩, (checkNegations_ok_iff hnamed).2 hnegation⟩
    · rintro ⟨⟨hnamed, hlong, hshort, hdestinations⟩, hnegation⟩
      exact ⟨hnamed, hlong, hshort, hdestinations, (checkNegations_ok_iff hnamed).1 hnegation⟩
  rw [create, hchecks]
  cases checkOptions schema [] [] [] options with
  | error status => simp
  | ok =>
      cases checkNegations schema options options with
      | error status => simp
      | ok => simp [eq_comm]

/-- A parser that `create` returned for a schema of the program. -/
structure AcceptedParser extends CommandLineParser where
  built : schema.Built
  created : create schema options = .ok { schema := schema, options := options }

namespace AcceptedParser

theorem accepted (parser : AcceptedParser) : Accepted parser.schema parser.options :=
  (create_ok_iff.1 parser.created).2

end AcceptedParser

end Utilities
end AscCpp
