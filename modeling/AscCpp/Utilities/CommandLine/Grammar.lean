import AscCpp.Utilities.CommandLine.Parse
import Mathlib.Data.List.Nodup

/-!
# Grammar — what the token loop accepts

The accepted command lines, stated without the loop: `Grouping` splits an argument list into
positional tokens, the terminator and option groups, where `OptionTokens` lists the spellings of an
option.  The loop is connected to it in two steps:

* `parseTokens_cons_ok_iff` — one turn of the loop consumes one group;
* `parseTokens_ok` and `Grouping.parseTokens` — a whole run consumes a grouping, and conversely.
-/

namespace AscCpp
namespace Utilities

open AscCpp.Core Library

/-! ## Groups -/

/-- What an option group says about its value: a text to convert, or a flag. -/
inductive SuppliedValue where
  | source (bytes : ByteString)
  | flag (value : Bool)

def SuppliedValue.convert (extractDouble : DoubleExtraction) (type : ConfigurationValueType) :
    SuppliedValue → Result ConfigurationValue
  | .source bytes => parseValue extractDouble bytes type
  | .flag value => .ok (.bool value)

inductive Group where
  | positional (token : ByteString)
  | terminator
  | option (option : CommandLineOption) (supplied : SuppliedValue) (tokens : List ByteString)

def Group.tokens : Group → List ByteString
  | .positional token => [token]
  | .terminator => [text "--"]
  | .option _ _ tokens => tokens

/-- The argument list a list of groups stands for. -/
def groupTokens (groups : List Group) : List ByteString :=
  groups.flatMap Group.tokens

def isFlagText (token : ByteString) : Prop :=
  token = text "true" ∨ token = text "false"

/-- The spellings of an option; `next` is the token that follows the group. -/
inductive OptionTokens (parser : CommandLineParser) :
    List ByteString → Option ByteString → CommandLineOption → SuppliedValue → Prop where
  | longAttached {option : CommandLineOption} {next : Option ByteString}
      {type : ConfigurationValueType} (hmem : option ∈ parser.options)
      (htype : optionType parser.schema option = .ok type) (bytes : ByteString) :
      OptionTokens parser [text "--" ++ option.longName ++ byte '=' :: bytes] next option
        (.source bytes)
  | longSeparated {option : CommandLineOption} {next : Option ByteString}
      {type : ConfigurationValueType} (hmem : option ∈ parser.options)
      (htype : optionType parser.schema option = .ok type) (hbool : type ≠ .bool)
      (bytes : ByteString) :
      OptionTokens parser [text "--" ++ option.longName, bytes] next option (.source bytes)
  | negated {option : CommandLineOption} {next : Option ByteString}
      (hmem : option ∈ parser.options) (htype : optionType parser.schema option = .ok .bool) :
      OptionTokens parser [text "--" ++ (text "no-" ++ option.longName)] next option (.flag false)
  | longFlagValue {option : CommandLineOption} {next : Option ByteString}
      (hmem : option ∈ parser.options) (htype : optionType parser.schema option = .ok .bool)
      (bytes : ByteString) (hbytes : isFlagText bytes) :
      OptionTokens parser [text "--" ++ option.longName, bytes] next option (.source bytes)
  | longFlag {option : CommandLineOption} {next : Option ByteString}
      (hmem : option ∈ parser.options) (htype : optionType parser.schema option = .ok .bool)
      (hnext : ∀ token, next = some token → ¬ isFlagText token) :
      OptionTokens parser [text "--" ++ option.longName] next option (.flag true)
  | shortSeparated {option : CommandLineOption} {next : Option ByteString}
      {type : ConfigurationValueType} {name : Byte} (hmem : option ∈ parser.options)
      (hname : option.shortName = some name)
      (htype : optionType parser.schema option = .ok type) (hbool : type ≠ .bool)
      (bytes : ByteString) :
      OptionTokens parser [[byte '-', name], bytes] next option (.source bytes)
  | shortFlag {option : CommandLineOption} {next : Option ByteString} {name : Byte}
      (hmem : option ∈ parser.options) (hname : option.shortName = some name)
      (htype : optionType parser.schema option = .ok .bool) :
      OptionTokens parser [[byte '-', name]] next option (.flag true)

/-- The groups follow the grammar; options are recognized up to the terminator. -/
inductive Grouping (parser : CommandLineParser) : Bool → List Group → Prop where
  | nil (recognizeOptions : Bool) : Grouping parser recognizeOptions []
  | positional {token : ByteString} {rest : List Group} (hplain : isPlainToken token)
      (hrest : Grouping parser true rest) : Grouping parser true (.positional token :: rest)
  | terminator {rest : List Group} (hrest : Grouping parser false rest) :
      Grouping parser true (.terminator :: rest)
  | trailing {token : ByteString} {rest : List Group} (hrest : Grouping parser false rest) :
      Grouping parser false (.positional token :: rest)
  | option {option : CommandLineOption} {supplied : SuppliedValue} {tokens : List ByteString}
      {rest : List Group}
      (htokens : OptionTokens parser tokens (groupTokens rest).head? option supplied)
      (hrest : Grouping parser true rest) :
      Grouping parser true (.option option supplied tokens :: rest)

/-- An option group with the number of its option token in the argument list. -/
structure Occurrence where
  option : CommandLineOption
  supplied : SuppliedValue
  tokenIndex : Nat

def occurrences (index : Nat) : List Group → List Occurrence
  | [] => []
  | .option option supplied tokens :: rest =>
      ⟨option, supplied, index⟩ :: occurrences (index + tokens.length) rest
  | .positional _ :: rest => occurrences (index + 1) rest
  | .terminator :: rest => occurrences (index + 1) rest

def positionalTokens : List Group → List ByteString
  | [] => []
  | .positional token :: rest => token :: positionalTokens rest
  | _ :: rest => positionalTokens rest

/-- The value of an option group converts to the type of its destination. -/
structure Converts (extractDouble : DoubleExtraction) (schema : ConfigurationSchema)
    (occurrence : Occurrence) (parsed : ParsedOptionValue) : Prop where
  option : parsed.option = occurrence.option
  tokenIndex : parsed.tokenIndex = occurrence.tokenIndex
  value : ∃ type, optionType schema occurrence.option = .ok type ∧
    occurrence.supplied.convert extractDouble type = .ok parsed.value

/-! ## Option names -/

/-- Distinct images determine their preimages. -/
theorem eq_of_nodup_filterMap {α β : Type} {f : α → Option β} {xs : List α}
    (h : (xs.filterMap f).Nodup) {x y : α} (hx : x ∈ xs) (hy : y ∈ xs) {name : β}
    (hfx : f x = some name) (hfy : f y = some name) : x = y := by
  induction xs with
  | nil => cases hx
  | cons z rest ih =>
      have hfresh := fresh_filterMap_cons_iff.1 (fresh_nil_iff.2 h)
      have hrest : ∀ w ∈ rest, f z = some name → f w ≠ some name := by
        intro w hw hz hfw
        exact hfresh.2.2 name (List.mem_filterMap.2 ⟨w, hw, hfw⟩) (by simp [hz])
      -- The head, or one of the rest; the name of the head does not come again.
      rcases List.mem_cons.1 hx with rfl | hx'
      · rcases List.mem_cons.1 hy with rfl | hy'
        · rfl
        · exact absurd hfy (hrest y hy' hfx)
      · rcases List.mem_cons.1 hy with rfl | hy'
        · exact absurd hfx (hrest x hx' hfy)
        · have htail : (rest.filterMap f).Nodup := hfresh.2.1
          exact ih htail hx' hy'

section Names

theorem findLongOption_some_iff {parser : AcceptedParser} {name : ByteString}
    {option : CommandLineOption} :
    findLongOption parser.options name = some option ↔
      option ∈ parser.options ∧ option.longName = name := by
  constructor
  · intro h
    exact ⟨List.mem_of_find?_eq_some h, by simpa using List.find?_some h⟩
  · rintro ⟨hmem, rfl⟩
    cases hfind : findLongOption parser.options option.longName with
    | none => simpa using List.find?_eq_none.1 hfind option hmem
    | some found =>
        -- Long names are distinct, so the first option of that name is the one.
        have hname : found.longName = option.longName := by simpa using List.find?_some hfind
        rw [List.inj_on_of_nodup_map parser.accepted.longNames_nodup
          (List.mem_of_find?_eq_some hfind) hmem hname]

theorem findShortOption_some_iff {parser : AcceptedParser} {name : Byte}
    {option : CommandLineOption} :
    findShortOption parser.options name = some option ↔
      option ∈ parser.options ∧ option.shortName = some name := by
  constructor
  · intro h
    exact ⟨List.mem_of_find?_eq_some h, by simpa using List.find?_some h⟩
  · rintro ⟨hmem, hname⟩
    cases hfind : findShortOption parser.options name with
    | none => simpa [hname] using List.find?_eq_none.1 hfind option hmem
    | some found =>
        have hfound : found.shortName = some name := by simpa using List.find?_some hfind
        rw [eq_of_nodup_filterMap parser.accepted.shortNames_nodup
          (List.mem_of_find?_eq_some hfind) hmem hfound hname]

theorem longName_ne_nil {parser : AcceptedParser} {option : CommandLineOption}
    (hmem : option ∈ parser.options) : option.longName ≠ [] := by
  intro hnil
  have hascii := (parser.accepted.wellNamed option hmem).longName_ascii
  simp [hnil, isAsciiName] at hascii

theorem equals_not_mem_longName {parser : AcceptedParser} {option : CommandLineOption}
    (hmem : option ∈ parser.options) : byte '=' ∉ option.longName := by
  intro hequals
  have hascii := (parser.accepted.wellNamed option hmem).longName_ascii
  unfold isAsciiName at hascii
  split at hascii
  · cases hascii
  · split at hascii
    · cases hascii
    · have hcharacter := List.all_eq_true.1 hascii (byte '=') hequals
      revert hcharacter
      decide

theorem shortName_ne_dash {parser : AcceptedParser} {option : CommandLineOption} {name : Byte}
    (hmem : option ∈ parser.options) (hname : option.shortName = some name) :
    name ≠ byte '-' := by
  rintro rfl
  have hascii := (parser.accepted.wellNamed option hmem).shortName_ascii _ hname
  revert hascii
  decide

theorem exists_optionType {parser : AcceptedParser} {option : CommandLineOption}
    (hmem : option ∈ parser.options) : ∃ type, optionType parser.schema option = .ok type := by
  rcases (parser.accepted.wellNamed option hmem).leaf with ⟨tokens, leaf, hpointer, hschema, -⟩
  exact ⟨leaf.type, optionType_ok_iff.2 ⟨tokens, leaf, hpointer, hschema, rfl⟩⟩

theorem resolveLongName_some_iff {parser : AcceptedParser} {name : ByteString}
    {option : CommandLineOption} {negated : Bool} :
    resolveLongName parser.toCommandLineParser name = .ok (some (option, negated)) ↔
      option ∈ parser.options ∧
        ((name = option.longName ∧ negated = false) ∨
          (name = text "no-" ++ option.longName ∧
            optionType parser.schema option = .ok .bool ∧ negated = true)) := by
  constructor
  · intro h
    unfold resolveLongName at h
    -- The name itself is looked up before the prefix is taken off.
    split at h
    · rename_i found hfound
      simp only [Except.ok.injEq, Option.some.injEq, Prod.mk.injEq] at h
      rcases h with ⟨rfl, rfl⟩
      rcases findLongOption_some_iff.1 hfound with ⟨hmem, rfl⟩
      exact ⟨hmem, Or.inl ⟨rfl, rfl⟩⟩
    · split at h
      · rename_i hno
        rcases List.isPrefixOf_iff_prefix.1 hno with ⟨base, rfl⟩
        split at h
        · cases h
        · rename_i found hfound
          rcases findLongOption_some_iff.1 hfound with ⟨hmem, hname⟩
          split at h
          · cases h
          · rename_i type htype
            by_cases hbool : type = .bool
            · simp only [hbool, if_true, Except.ok.injEq, Option.some.injEq, Prod.mk.injEq] at h
              rcases h with ⟨rfl, rfl⟩
              exact ⟨hmem, Or.inr ⟨by rw [hname]; rfl, hbool ▸ htype, rfl⟩⟩
            · simp [hbool] at h
      · cases h
  · rintro ⟨hmem, ⟨rfl, rfl⟩ | ⟨rfl, htype, rfl⟩⟩
    · simp [resolveLongName, findLongOption_some_iff.2 ⟨hmem, rfl⟩]
    · -- An explicit option of that name would have been refused by `create`.
      have hnone : findLongOption parser.options (text "no-" ++ option.longName) = none := by
        by_contra hsome
        exact parser.accepted.negation option hmem (Option.isSome_iff_ne_none.2 hsome) htype
      have hno : (text "no-").isPrefixOf (text "no-" ++ option.longName) :=
        List.isPrefixOf_iff_prefix.2 (List.prefix_append _ _)
      have hdrop : (text "no-" ++ option.longName).drop 3 = option.longName := rfl
      simp [resolveLongName, hnone, hno, hdrop, findLongOption_some_iff.2 ⟨hmem, rfl⟩, htype]

end Names

/-! ## Option tokens -/

/-- The text after a long option name. -/
def attachedText : Option ByteString → ByteString
  | none => []
  | some bytes => byte '=' :: bytes

def longToken (name : ByteString) (inlineValue : Option ByteString) : ByteString :=
  text "--" ++ (name ++ attachedText inlineValue)

theorem splitAtEquals_append {name : ByteString} (hname : byte '=' ∉ name)
    (inlineValue : Option ByteString) :
    splitAtEquals (name ++ attachedText inlineValue) = (name, inlineValue) := by
  have htake : (name ++ attachedText inlineValue).takeWhile
      (fun character => decide (character ≠ byte '=')) = name := by
    rw [List.takeWhile_append_of_pos]
    · cases inlineValue <;> simp [attachedText]
    · intro character hmem
      have hne : character ≠ byte '=' := by
        rintro rfl
        exact hname hmem
      simpa using hne
  rw [splitAtEquals, htake]
  cases inlineValue <;> simp [attachedText]

theorem splitAtEquals_spec (nameAndValue : ByteString) :
    ∃ name inlineValue, splitAtEquals nameAndValue = (name, inlineValue) ∧
      nameAndValue = name ++ attachedText inlineValue := by
  refine ⟨_, _, rfl, ?_⟩
  generalize hname : nameAndValue.takeWhile (fun character => decide (character ≠ byte '=')) = name
  have hsplit := List.takeWhile_append_dropWhile
    (p := fun character : Byte => decide (character ≠ byte '=')) (l := nameAndValue)
  rw [hname] at hsplit
  have hdrop : nameAndValue.drop name.length =
      nameAndValue.dropWhile fun character => decide (character ≠ byte '=') := by
    conv_lhs => rw [← hsplit]
    exact List.drop_left
  rw [hdrop]
  cases htail : nameAndValue.dropWhile (fun character => decide (character ≠ byte '=')) with
  | nil =>
      rw [htail, List.append_nil] at hsplit
      simpa [attachedText] using hsplit.symm
  | cons character rest =>
      -- The first character that is kept is the equals sign itself.
      have hhead := List.head?_dropWhile_not (fun c : Byte => decide (c ≠ byte '=')) nameAndValue
      rw [htail] at hhead
      have hequals : character = byte '=' := by simpa using hhead
      rw [htail, hequals] at hsplit
      simpa [attachedText] using hsplit.symm

/-- The option tokens and what they resolve to. -/
inductive Resolves (parser : CommandLineParser) : ByteString → ResolvedOption → Prop where
  | long {option : CommandLineOption} (hmem : option ∈ parser.options)
      (inlineValue : Option ByteString) :
      Resolves parser (longToken option.longName inlineValue)
        { option := option, inlineValue := inlineValue, negated := false }
  | negated {option : CommandLineOption} (hmem : option ∈ parser.options)
      (htype : optionType parser.schema option = .ok .bool) :
      Resolves parser (longToken (text "no-" ++ option.longName) none)
        { option := option, inlineValue := none, negated := true }
  | short {option : CommandLineOption} {name : Byte} (hmem : option ∈ parser.options)
      (hname : option.shortName = some name) :
      Resolves parser [byte '-', name] { option := option, inlineValue := none, negated := false }

theorem isPrefixOf_longToken (name : ByteString) (inlineValue : Option ByteString) :
    (text "--").isPrefixOf (longToken name inlineValue) :=
  List.isPrefixOf_iff_prefix.2 (List.prefix_append _ _)

theorem resolveOption_long {parser : CommandLineParser} {name : ByteString}
    (hne : name ≠ []) (hequals : byte '=' ∉ name) (inlineValue : Option ByteString) :
    resolveOption parser (longToken name inlineValue) =
      match resolveLongName parser name with
      | .error status => .error status
      | .ok none => .error (commandLineError "An unknown long option was supplied")
      | .ok (some (option, negated)) =>
          if negated && inlineValue.isSome then
            .error (commandLineError "A negated boolean option does not accept an attached value")
          else
            .ok { option := option, inlineValue := inlineValue, negated := negated } := by
  have hdrop : (longToken name inlineValue).drop 2 = name ++ attachedText inlineValue := rfl
  have hempty : (name ++ attachedText inlineValue).isEmpty = false := by
    cases name with
    | nil => exact absurd rfl hne
    | cons => rfl
  have hname : name.isEmpty = false := by
    cases name with
    | nil => exact absurd rfl hne
    | cons => rfl
  rcases hresolve : resolveLongName parser name with status | found
  · simp only [resolveOption, isPrefixOf_longToken, if_true, hdrop, hempty, Bool.false_eq_true,
      if_false, splitAtEquals_append hequals, hname, hresolve]
  · rcases found with _ | ⟨option, negated⟩ <;>
      simp only [resolveOption, isPrefixOf_longToken, if_true, hdrop, hempty, Bool.false_eq_true,
        if_false, splitAtEquals_append hequals, hname, hresolve]

theorem equals_not_mem_negated {parser : AcceptedParser} {option : CommandLineOption}
    (hmem : option ∈ parser.options) : byte '=' ∉ text "no-" ++ option.longName := by
  intro hequals
  rcases List.mem_append.1 hequals with hno | hname
  · revert hno
    decide
  · exact equals_not_mem_longName hmem hname

/-- The tokens an accepted parser resolves, among those that reach the option branch. -/
theorem resolveOption_ok_iff {parser : AcceptedParser} {token : ByteString}
    {resolved : ResolvedOption} (hdash : token.head? = some (byte '-')) :
    resolveOption parser.toCommandLineParser token = .ok resolved ↔
      Resolves parser.toCommandLineParser token resolved := by
  constructor
  · intro h
    -- Two dashes begin a long name, one dash a name of a single byte.
    by_cases hlong : (text "--").isPrefixOf token
    · rcases List.isPrefixOf_iff_prefix.1 hlong with ⟨nameAndValue, rfl⟩
      rcases splitAtEquals_spec nameAndValue with ⟨name, inlineValue, hsplit, hsource⟩
      have hdrop : (text "--" ++ nameAndValue).drop 2 = nameAndValue := rfl
      simp only [resolveOption, hlong, if_true, hdrop, hsplit] at h
      split at h
      · cases h
      split at h
      · cases h
      split at h
      · cases h
      · cases h
      rename_i option negated hresolve
      split at h
      · cases h
      rename_i hattached
      cases h
      rcases resolveLongName_some_iff.1 hresolve with ⟨hmem, ⟨rfl, rfl⟩ | ⟨rfl, htype, rfl⟩⟩
      · rw [hsource]
        exact .long hmem inlineValue
      · have hnone : inlineValue = none := by simpa using hattached
        subst hnone
        rw [hsource]
        exact .negated hmem htype
    · simp only [resolveOption, hlong, if_false, Bool.false_eq_true] at h
      split at h
      · rename_i first name
        split at h
        · cases h
        · rename_i option hfound
          cases h
          rcases findShortOption_some_iff.1 hfound with ⟨hmem, hname⟩
          simp only [List.head?_cons, Option.some.injEq] at hdash
          subst hdash
          exact .short hmem hname
      · cases h
  · intro h
    cases h with
    | long hmem inlineValue =>
        rw [resolveOption_long (longName_ne_nil hmem) (equals_not_mem_longName hmem),
          resolveLongName_some_iff.2 ⟨hmem, Or.inl ⟨rfl, rfl⟩⟩]
        rfl
    | negated hmem htype =>
        rw [resolveOption_long (by simp [text]) (equals_not_mem_negated hmem),
          resolveLongName_some_iff.2 ⟨hmem, Or.inr ⟨rfl, htype, rfl⟩⟩]
        rfl
    | @short option name hmem hname =>
        have hlong : (text "--").isPrefixOf [byte '-', name] = false := by
          have hne := shortName_ne_dash hmem hname
          simp [text, List.isPrefixOf, Ne.symm hne]
        simp [resolveOption, hlong, findShortOption_some_iff.2 ⟨hmem, hname⟩]

/-! ## Option groups -/

/-- What an option says about its value when it does not take the next token. -/
def ownSupplied (type : ConfigurationValueType) (resolved : ResolvedOption) : SuppliedValue :=
  if type = .bool ∧ resolved.negated then
    .flag false
  else
    match resolved.inlineValue with
    | some source => .source source
    | none => .flag true

theorem ownValue_eq (extractDouble : DoubleExtraction) (type : ConfigurationValueType)
    (resolved : ResolvedOption) :
    ownValue extractDouble type resolved =
      (ownSupplied type resolved).convert extractDouble type := by
  unfold ownValue ownSupplied
  split
  · rfl
  · cases resolved.inlineValue <;> rfl

theorem isPrefixOf_shortToken {parser : AcceptedParser} {option : CommandLineOption} {name : Byte}
    (hmem : option ∈ parser.options) (hname : option.shortName = some name) :
    (text "--").isPrefixOf [byte '-', name] = false := by
  simp [text, List.isPrefixOf, (shortName_ne_dash hmem hname).symm]

/-- An option group is an option token, followed by the next token when it takes that one. -/
inductive OptionGroup (parser : CommandLineParser) :
    List ByteString → Option ByteString → CommandLineOption → SuppliedValue → Prop where
  | next {token value : ByteString} {next : Option ByteString} {resolved : ResolvedOption}
      {type : ConfigurationValueType} (hresolves : Resolves parser token resolved)
      (htype : optionType parser.schema resolved.option = .ok type)
      (htakes : takesNextToken type token resolved (some value) = true) :
      OptionGroup parser [token, value] next resolved.option (.source value)
  | own {token : ByteString} {next : Option ByteString} {resolved : ResolvedOption}
      {type : ConfigurationValueType} (hresolves : Resolves parser token resolved)
      (htype : optionType parser.schema resolved.option = .ok type)
      (htakes : takesNextToken type token resolved next = false) :
      OptionGroup parser [token] next resolved.option (ownSupplied type resolved)

theorem OptionTokens.optionGroup {parser : AcceptedParser} {tokens : List ByteString}
    {next : Option ByteString} {option : CommandLineOption} {supplied : SuppliedValue}
    (h : OptionTokens parser.toCommandLineParser tokens next option supplied) :
    OptionGroup parser.toCommandLineParser tokens next option supplied := by
  have hplain : ∀ name : ByteString, text "--" ++ name = longToken name none := by
    simp [longToken, attachedText]
  -- Each form of an option either takes the next token or makes do with its own.
  cases h with
  | @longAttached option next type hmem htype bytes =>
      have htoken : text "--" ++ option.longName ++ byte '=' :: bytes =
          longToken option.longName (some bytes) := by
        simp [longToken, attachedText]
      rw [htoken]
      have hown : ownSupplied type { option := option, inlineValue := some bytes } =
          .source bytes := by
        simp [ownSupplied]
      rw [← hown]
      exact .own (.long hmem (some bytes)) htype (by simp [takesNextToken])
  | longSeparated hmem htype hbool bytes =>
      rw [hplain]
      exact .next (.long hmem none) htype (by simp [takesNextToken, hbool])
  | negated hmem htype =>
      rw [hplain]
      exact .own (.negated hmem htype) htype (by simp [takesNextToken])
  | longFlagValue hmem htype bytes hbytes =>
      rw [hplain]
      refine .next (.long hmem none) htype ?_
      simpa [takesNextToken, isFlagText, isPrefixOf_longToken] using hbytes
  | longFlag hmem htype hnext =>
      rw [hplain]
      refine .own (.long hmem none) htype ?_
      cases next with
      | none => simp [takesNextToken]
      | some token =>
          have hflag := hnext token rfl
          simpa [takesNextToken, isFlagText, isPrefixOf_longToken] using hflag
  | shortSeparated hmem hname htype hbool bytes =>
      exact .next (.short hmem hname) htype (by simp [takesNextToken, hbool])
  | shortFlag hmem hname htype =>
      refine .own (.short hmem hname) htype ?_
      simp [takesNextToken, isPrefixOf_shortToken hmem hname]

theorem OptionGroup.optionTokens {parser : AcceptedParser} {tokens : List ByteString}
    {next : Option ByteString} {option : CommandLineOption} {supplied : SuppliedValue}
    (h : OptionGroup parser.toCommandLineParser tokens next option supplied) :
    OptionTokens parser.toCommandLineParser tokens next option supplied := by
  have hplain : ∀ name : ByteString, longToken name none = text "--" ++ name := by
    simp [longToken, attachedText]
  cases h with
  | @next token value _ resolved type hresolves htype htakes =>
      cases hresolves with
      | long hmem inlineValue =>
          cases inlineValue with
          | some bytes => simp [takesNextToken] at htakes
          | none =>
              rw [hplain]
              by_cases hbool : type = .bool
              · subst hbool
                refine .longFlagValue hmem htype value ?_
                simpa [takesNextToken, isFlagText, isPrefixOf_longToken] using htakes
              · exact .longSeparated hmem htype hbool value
      | negated hmem hbool =>
          rw [hbool] at htype
          cases htype
          simp [takesNextToken] at htakes
      | short hmem hname =>
          by_cases hbool : type = .bool
          · simp [takesNextToken, hbool, isPrefixOf_shortToken hmem hname] at htakes
          · exact .shortSeparated hmem hname htype hbool value
  | @own token _ resolved type hresolves htype htakes =>
      cases hresolves with
      | @long option hmem inlineValue =>
          cases inlineValue with
          | some bytes =>
              have htoken : longToken option.longName (some bytes) =
                  text "--" ++ option.longName ++ byte '=' :: bytes := by
                simp [longToken, attachedText]
              rw [htoken]
              simpa [ownSupplied] using OptionTokens.longAttached hmem htype bytes
          | none =>
              -- A non-boolean option would have taken the next token.
              have hbool : type = .bool := by
                by_contra hne
                simp [takesNextToken, hne] at htakes
              subst hbool
              rw [hplain]
              refine .longFlag hmem htype ?_
              rintro token rfl
              simpa [takesNextToken, isFlagText, isPrefixOf_longToken] using htakes
      | negated hmem hbool =>
          rw [hbool] at htype
          cases htype
          rw [hplain]
          exact .negated hmem hbool
      | short hmem hname =>
          have hbool : type = .bool := by
            by_contra hne
            simp [takesNextToken, hne] at htakes
          subst hbool
          exact .shortFlag hmem hname htype

/-! ## One turn of the loop -/

theorem OptionTokens.token {parser : AcceptedParser} {token : ByteString}
    {consumed : List ByteString} {next : Option ByteString} {option : CommandLineOption}
    {supplied : SuppliedValue}
    (h : OptionTokens parser.toCommandLineParser (token :: consumed) next option supplied) :
    isPlainToken token = false ∧ token ≠ text "--" := by
  have hlong : ∀ name : ByteString, name ≠ [] →
      isPlainToken (text "--" ++ name) = false ∧ text "--" ++ name ≠ text "--" := by
    intro name hne
    constructor
    · simp [isPlainToken, text]
    · simpa using hne
  have hshort : ∀ name : Byte, isPlainToken [byte '-', name] = false := by
    simp [isPlainToken, text]
  cases h with
  | longAttached hmem htype bytes =>
      rw [List.append_assoc]
      exact hlong _ (by simp)
  | longSeparated hmem => exact hlong _ (longName_ne_nil hmem)
  | negated => exact hlong _ (by simp [text])
  | longFlagValue hmem => exact hlong _ (longName_ne_nil hmem)
  | longFlag hmem => exact hlong _ (longName_ne_nil hmem)
  | shortSeparated hmem hname =>
      refine ⟨hshort _, ?_⟩
      have hne := shortName_ne_dash hmem hname
      simpa [text] using hne
  | shortFlag hmem hname =>
      refine ⟨hshort _, ?_⟩
      have hne := shortName_ne_dash hmem hname
      simpa [text] using hne

/-- A turn of the loop that starts an option consumes exactly one option group. -/
theorem parseTokens_option_iff {extractDouble : DoubleExtraction} {parser : AcceptedParser}
    {token : ByteString} {rest : List ByteString} {index : Nat} {state state' : TokenState}
    (hrecognize : state.recognizeOptions = true) (hterminator : token ≠ text "--")
    (hplain : isPlainToken token = false) :
    parseTokens extractDouble parser.toCommandLineParser (token :: rest) index state =
        .ok state' ↔
      ∃ option supplied consumed remaining value, rest = consumed ++ remaining ∧
        OptionTokens parser.toCommandLineParser (token :: consumed) remaining.head? option
          supplied ∧
        option.destination ∉ state.suppliedDestinations ∧
        (∃ type, optionType parser.schema option = .ok type ∧
          supplied.convert extractDouble type = .ok value) ∧
        parseTokens extractDouble parser.toCommandLineParser remaining
          (index + (token :: consumed).length) (state.pushOption ⟨option, value, index⟩) =
          .ok state' := by
  have hdash : token.head? = some (byte '-') := by
    simp only [isPlainToken, Bool.or_eq_false_iff] at hplain
    simpa using hplain.1
  rw [parseTokens, if_neg (by simp [hterminator]), if_neg (by simp [hrecognize, hplain])]
  constructor
  · intro h
    split at h
    · cases h
    rename_i resolved hresolve
    split at h
    · cases h
    rename_i hnew
    split at h
    · cases h
    rename_i type htype
    have hresolves := (resolveOption_ok_iff hdash).1 hresolve
    split at h
    · rename_i next remaining htakes
      split at h
      · cases h
      rename_i value hvalue
      have hgroup : OptionGroup _ _ remaining.head? _ _ := .next hresolves htype htakes
      exact ⟨_, _, [next], remaining, value, rfl, hgroup.optionTokens, hnew,
        ⟨type, htype, hvalue⟩, h⟩
    · cases h
    · rename_i htakes
      split at h
      · cases h
      rename_i value hvalue
      rw [ownValue_eq] at hvalue
      have hgroup := OptionGroup.own hresolves htype htakes
      exact ⟨_, _, [], _, value, rfl, hgroup.optionTokens, hnew, ⟨type, htype, hvalue⟩, h⟩
  -- Conversely, the group says which branch the loop takes.
  · rintro ⟨option, supplied, consumed, remaining, value, rfl, hgroup, hnew,
      ⟨type, htype, hvalue⟩, h⟩
    generalize htokens : token :: consumed = tokens at hgroup
    cases hgroup.optionGroup with
    | @next _ bytes _ resolved type' hresolves htype' htakes =>
        rw [htype'] at htype
        cases htype
        cases htokens
        simp only [(resolveOption_ok_iff hdash).2 hresolves, hnew, if_false, htype',
          List.singleton_append, List.head?_cons, htakes]
        simp only [SuppliedValue.convert] at hvalue
        simpa [hvalue] using h
    | @own _ _ resolved type' hresolves htype' htakes =>
        rw [htype'] at htype
        cases htype
        cases htokens
        simp only [(resolveOption_ok_iff hdash).2 hresolves, hnew, if_false, htype',
          List.nil_append, htakes, ownValue_eq, hvalue]
        exact h

/-! ## Whole runs -/

/-- The groups split the arguments by the grammar, their values convert to `parsed`, and no
destination occurs twice or was supplied before. -/
structure Reads (extractDouble : DoubleExtraction) (parser : CommandLineParser)
    (recognizeOptions : Bool) (index : Nat) (suppliedDestinations : List ByteString)
    (arguments : List ByteString) (groups : List Group) (parsed : List ParsedOptionValue) :
    Prop where
  grouping : Grouping parser recognizeOptions groups
  tokens : groupTokens groups = arguments
  converts : List.Forall₂ (Converts extractDouble parser.schema) (occurrences index groups) parsed
  fresh : Fresh (parsed.map fun parsed => parsed.option.destination) suppliedDestinations

section Runs

variable {extractDouble : DoubleExtraction} {parser : AcceptedParser}

theorem parseTokens_ok {arguments : List ByteString} {index : Nat} {state state' : TokenState}
    (h : parseTokens extractDouble parser.toCommandLineParser arguments index state = .ok state') :
    ∃ groups parsed, Reads extractDouble parser.toCommandLineParser state.recognizeOptions index
        state.suppliedDestinations arguments groups parsed ∧
      state'.parsedOptions = state.parsedOptions ++ parsed ∧
      state'.positionalArguments = state.positionalArguments ++ positionalTokens groups := by
  -- On the number of tokens, since an option may take two of them.
  induction hlength : arguments.length using Nat.strong_induction_on
    generalizing arguments index state with
  | _ length ih =>
      cases arguments with
      | nil =>
          cases h
          exact ⟨[], [], ⟨.nil _, rfl, .nil, by simp [Fresh]⟩, by simp, by simp [positionalTokens]⟩
      | cons token rest =>
          have hrest : rest.length < length := by simp [← hlength]
          by_cases hterminator : state.recognizeOptions = true ∧ token = text "--"
          · -- The terminator: the rest is read without option recognition.
            rw [parseTokens, if_pos hterminator] at h
            rcases ih _ hrest h rfl with ⟨groups, parsed, hreads, hparsed, hpositional⟩
            rcases hterminator with ⟨hrecognize, rfl⟩
            refine ⟨.terminator :: groups, parsed, ⟨?_, ?_, hreads.converts, hreads.fresh⟩, hparsed,
              hpositional⟩
            · rw [hrecognize]
              exact .terminator hreads.grouping
            · simpa [groupTokens, Group.tokens] using hreads.tokens
          -- A positional token, or anything behind the terminator.
          by_cases hpositionalToken : state.recognizeOptions = false ∨ isPlainToken token = true
          · rw [parseTokens, if_neg hterminator, if_pos hpositionalToken] at h
            rcases ih _ hrest h rfl with ⟨groups, parsed, hreads, hparsed, hpositional⟩
            refine ⟨.positional token :: groups, parsed,
              ⟨?_, ?_, hreads.converts, hreads.fresh⟩, hparsed, ?_⟩
            · have hgrouping := hreads.grouping
              simp only [TokenState.pushPositional] at hgrouping
              cases hrecognize : state.recognizeOptions with
              | false =>
                  rw [hrecognize] at hgrouping
                  exact .trailing hgrouping
              | true =>
                  rw [hrecognize] at hgrouping
                  exact .positional (by simpa [hrecognize] using hpositionalToken) hgrouping
            · simpa [groupTokens, Group.tokens] using hreads.tokens
            · simpa [TokenState.pushPositional, positionalTokens] using hpositional
          · rw [not_or] at hpositionalToken
            have hrecognize : state.recognizeOptions = true := by
              simpa using hpositionalToken.1
            have hnotTerminator : token ≠ text "--" := fun htoken =>
              hterminator ⟨hrecognize, htoken⟩
            rcases (parseTokens_option_iff hrecognize hnotTerminator
              (by simpa using hpositionalToken.2)).1 h with
              ⟨option, supplied, consumed, remaining, value, rfl, hgroup, hnew,
                ⟨type, htype, hvalue⟩, hrun⟩
            have hremaining : remaining.length < length := by
              simp only [← hlength, List.length_cons, List.length_append]
              omega
            rcases ih _ hremaining hrun rfl with ⟨groups, parsed, hreads, hparsed, hpositional⟩
            refine ⟨.option option supplied (token :: consumed) :: groups,
              ⟨option, value, index⟩ :: parsed, ⟨?_, ?_, ?_, ?_⟩, ?_, hpositional⟩
            · have hgrouping := hreads.grouping
              simp only [TokenState.pushOption, hrecognize] at hgrouping ⊢
              refine .option ?_ hgrouping
              rw [hreads.tokens]
              exact hgroup
            · simpa [groupTokens, Group.tokens] using hreads.tokens
            · exact .cons ⟨rfl, rfl, type, htype, hvalue⟩ hreads.converts
            · exact fresh_cons_iff.2 ⟨hnew, hreads.fresh⟩
            · simpa [TokenState.pushOption] using hparsed

theorem Grouping.parseTokens {recognizeOptions : Bool} {groups : List Group}
    (hgrouping : Grouping parser.toCommandLineParser recognizeOptions groups)
    {index : Nat} {parsed : List ParsedOptionValue} {state : TokenState}
    (hrecognize : state.recognizeOptions = recognizeOptions)
    (hconverts : List.Forall₂ (Converts extractDouble parser.schema) (occurrences index groups)
      parsed)
    (hfresh : Fresh (parsed.map fun parsed => parsed.option.destination)
      state.suppliedDestinations) :
    ∃ state', Utilities.parseTokens extractDouble parser.toCommandLineParser (groupTokens groups)
        index state = .ok state' ∧
      state'.parsedOptions = state.parsedOptions ++ parsed ∧
      state'.positionalArguments = state.positionalArguments ++ positionalTokens groups := by
  -- By induction over the grouping, one turn of the loop for each group.
  induction hgrouping generalizing index parsed state with
  | nil =>
      cases hconverts
      exact ⟨state, rfl, by simp, by simp [positionalTokens]⟩
  | @positional token rest hplain _ ih =>
      rcases @ih _ parsed (state.pushPositional token) hrecognize hconverts hfresh with
        ⟨state', hrun, hparsed, hpositional⟩
      have hterminator : token ≠ text "--" := by
        rintro rfl
        revert hplain
        decide
      refine ⟨state', ?_, hparsed, ?_⟩
      · rw [groupTokens, List.flatMap_cons, Group.tokens, List.singleton_append,
          Utilities.parseTokens, if_neg (by simp [hterminator]), if_pos (Or.inr hplain)]
        exact hrun
      · simpa [TokenState.pushPositional, positionalTokens] using hpositional
  | @terminator rest _ ih =>
      rcases @ih _ parsed { state with recognizeOptions := false } rfl hconverts hfresh with
        ⟨state', hrun, hparsed, hpositional⟩
      refine ⟨state', ?_, hparsed, hpositional⟩
      rw [groupTokens, List.flatMap_cons, Group.tokens, List.singleton_append,
        Utilities.parseTokens, if_pos ⟨hrecognize, rfl⟩]
      exact hrun
  | @trailing token rest _ ih =>
      rcases @ih _ parsed (state.pushPositional token) hrecognize hconverts hfresh with
        ⟨state', hrun, hparsed, hpositional⟩
      refine ⟨state', ?_, hparsed, ?_⟩
      · rw [groupTokens, List.flatMap_cons, Group.tokens, List.singleton_append,
          Utilities.parseTokens, if_neg (by simp [hrecognize]), if_pos (Or.inl hrecognize)]
        exact hrun
      · simpa [TokenState.pushPositional, positionalTokens] using hpositional
  | @option option supplied tokens rest htokens _ ih =>
      cases hconverts with
      | @cons _ first _ parsed hfirst hconverts =>
          rcases hfirst with ⟨hoption, hindex, type, htype, hvalue⟩
          cases first with
          | mk firstOption value tokenIndex =>
              cases hoption
              cases hindex
              rcases fresh_cons_iff.1 hfresh with ⟨hnew, hfresh⟩
              rcases @ih _ parsed (state.pushOption ⟨option, value, index⟩) hrecognize hconverts hfresh
                with ⟨state', hrun, hparsed, hpositional⟩
              cases tokens with
              | nil => cases htokens
              | cons token consumed =>
                  refine ⟨state', ?_, by simpa [TokenState.pushOption] using hparsed, hpositional⟩
                  have htoken := htokens.token
                  exact (parseTokens_option_iff hrecognize htoken.2 htoken.1).2
                    ⟨_, supplied, consumed, groupTokens rest, value, rfl, htokens, hnew,
                      ⟨type, htype, hvalue⟩, hrun⟩

end Runs

end Utilities
end AscCpp
