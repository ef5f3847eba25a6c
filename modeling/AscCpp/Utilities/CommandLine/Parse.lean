import AscCpp.Core.Configuration.Validate
import AscCpp.Utilities.CommandLine.Options

/-!
# Parse — the command-line parser

`CommandLineParser::Parse`: a loop over the argument tokens, which collects option values and
positional arguments, then a fresh value tree built by `insertValue`, then validation.

The one conversion taken as given is the extraction of a double from a string stream in the classic
locale (`DoubleExtraction`); integers are read by `std::from_chars` in base ten, written out below.
-/

namespace AscCpp
namespace Utilities

open AscCpp.Core Library

/-! ## Conversions -/

/-- `input >> std::noskipws >> value` on a fresh stream: nothing when the stream fails, else the
value and whether the end of the text was reached. -/
abbrev DoubleExtraction := ByteString → Option (Double × Bool)

def hasNonzeroDecimalSignificand (source : ByteString) : Bool :=
  (source.takeWhile fun character => character ≠ byte 'e' && character ≠ byte 'E').any
    fun character => byte '1' ≤ character && character ≤ byte '9'

def parseDouble (extractDouble : DoubleExtraction) (source : ByteString) : Option Double :=
  match source with
  | [] => none
  | first :: rest =>
      if first = byte '+' then
        none
      else
        let magnitude := if first = byte '-' then rest else source
        if (text "0x").isPrefixOf magnitude || (text "0X").isPrefixOf magnitude then
          none
        else
          match extractDouble source with
          | none => none
          | some (value, atEnd) =>
              if !atEnd then
                none
              -- A value that rounds to zero from nonzero digits is refused as well.
              else if value.isZero && hasNonzeroDecimalSignificand source then
                none
              else
                some value

/-- The digits at the front of a text, with their value. -/
def leadingDecimal (source : ByteString) : Option (Nat × ByteString) :=
  let digits := source.takeWhile fun b => decide (isDigitByte b)
  if digits.isEmpty then none else some (decimalValue digits, source.drop digits.length)

/-- `std::from_chars` for `std::uint64_t`: the value read and the unread rest, nothing on an error
code. -/
def fromCharsUnsigned (source : ByteString) : Option (UInt64 × ByteString) :=
  match leadingDecimal source with
  | none => none
  | some (value, rest) => if value < 2 ^ 64 then some (UInt64.ofNat value, rest) else none

/-- `std::from_chars` for `std::int64_t`, which also reads a minus sign. -/
def fromCharsSigned (source : ByteString) : Option (Int64 × ByteString) :=
  match source with
  | [] => none
  | first :: rest =>
      if first = byte '-' then
        match leadingDecimal rest with
        | none => none
        | some (value, unread) =>
            if value ≤ 2 ^ 63 then some (Int64.ofInt (-(value : Int)), unread) else none
      else
        match leadingDecimal source with
        | none => none
        | some (value, unread) =>
            if value < 2 ^ 63 then some (Int64.ofInt value, unread) else none

def parseValue (extractDouble : DoubleExtraction) (source : ByteString)
    (type : ConfigurationValueType) : Result ConfigurationValue :=
  match type with
  | .bool =>
      if source = text "true" then
        .ok (.bool true)
      else if source = text "false" then
        .ok (.bool false)
      else
        .error (commandLineError "A boolean command-line value must be 'true' or 'false'")
  | .signedInteger =>
      match fromCharsSigned source with
      | some (value, []) => .ok (.signedInteger value)
      | _ =>
          .error (commandLineError "A signed command-line value is not an exact 64-bit integer")
  | .unsignedInteger =>
      match fromCharsUnsigned source with
      | some (value, []) => .ok (.unsignedInteger value)
      | _ =>
          .error (commandLineError "An unsigned command-line value is not an exact 64-bit integer")
  | .double =>
      match parseDouble extractDouble source with
      | some value => .ok (.double value)
      | none => .error (commandLineError "A double command-line value is not an exact number")
  | .string => ConfigurationValue.utf8String source
  | _ =>
      .error { code := .unsupported
               message := "The command-line destination type is unsupported" }

/-! ## The token loop -/

structure ParsedOptionValue where
  option : CommandLineOption
  value : ConfigurationValue
  tokenIndex : Nat

/-- An option token, resolved: `inlineValue` is the text after `=`. -/
structure ResolvedOption where
  option : CommandLineOption
  inlineValue : Option ByteString := none
  negated : Bool := false

/-- The part of a long option token before and, if there is one, after the first `=`. -/
def splitAtEquals (nameAndValue : ByteString) : ByteString × Option ByteString :=
  let name := nameAndValue.takeWhile fun character => character ≠ byte '='
  (name, (nameAndValue.drop name.length).tail?)

/-- The option a long name stands for, and whether it is negated. -/
def resolveLongName (parser : CommandLineParser) (name : ByteString) :
    Result (Option (CommandLineOption × Bool)) :=
  match findLongOption parser.options name with
  | some option => .ok (some (option, false))
  | none =>
      if (text "no-").isPrefixOf name then
        match findLongOption parser.options (name.drop 3) with
        | none => .ok none
        | some option =>
            match optionType parser.schema option with
            | .error status => .error status
            | .ok type => .ok (if type = .bool then some (option, true) else none)
      else
        .ok none

/-- The option a token names; the token starts with a dash and is neither `-` nor `--`. -/
def resolveOption (parser : CommandLineParser) (token : ByteString) : Result ResolvedOption :=
  if (text "--").isPrefixOf token then
    let nameAndValue := token.drop 2
    if nameAndValue.isEmpty then
      .error (commandLineError "A long option name cannot be empty")
    else
      let (name, inlineValue) := splitAtEquals nameAndValue
      if name.isEmpty then
        .error (commandLineError "A long option name cannot be empty")
      else
        match resolveLongName parser name with
        | .error status => .error status
        | .ok none => .error (commandLineError "An unknown long option was supplied")
        | .ok (some (option, negated)) =>
            if negated && inlineValue.isSome then
              .error (commandLineError
                "A negated boolean option does not accept an attached value")
            else
              .ok { option := option, inlineValue := inlineValue, negated := negated }
  else
    match token with
    | [_, name] =>
        match findShortOption parser.options name with
        | none => .error (commandLineError "An unknown short option was supplied")
        -- A short flag is never negated.
        | some option => .ok { option := option }
    | _ =>
        .error { code := .unsupported
                 message := "Short option clusters and attached short values are unsupported" }

/-- Whether the value of the option is the next token: always for a non-boolean option without
attached value, and for a plain long boolean option before exactly `true` or `false`. -/
def takesNextToken (type : ConfigurationValueType) (token : ByteString)
    (resolved : ResolvedOption) (next : Option ByteString) : Bool :=
  if type = .bool then
    !resolved.negated && resolved.inlineValue.isNone && (text "--").isPrefixOf token &&
      (next = some (text "true") || next = some (text "false"))
  else
    resolved.inlineValue.isNone

/-- The value of an option that does not take the next token. -/
def ownValue (extractDouble : DoubleExtraction) (type : ConfigurationValueType)
    (resolved : ResolvedOption) : Result ConfigurationValue :=
  if type = .bool ∧ resolved.negated then
    .ok (.bool false)
  else
    match resolved.inlineValue with
    | some source => parseValue extractDouble source type
    | none => .ok (.bool true)

/-- The locals of the token loop.  `std::set` is a list here, read by membership only. -/
structure TokenState where
  parsedOptions : List ParsedOptionValue := []
  positionalArguments : List ByteString := []
  suppliedDestinations : List ByteString := []
  recognizeOptions : Bool := true

namespace TokenState

def pushPositional (state : TokenState) (token : ByteString) : TokenState :=
  { state with positionalArguments := state.positionalArguments ++ [token] }

def pushOption (state : TokenState) (parsed : ParsedOptionValue) : TokenState :=
  { state with
    parsedOptions := state.parsedOptions ++ [parsed]
    suppliedDestinations := parsed.option.destination :: state.suppliedDestinations }

end TokenState

/-- A token that is positional while options are recognized. -/
def isPlainToken (token : ByteString) : Bool :=
  token.head? ≠ some (byte '-') || token = text "-"

/-- The loop over `arguments` from the token number `index` on. -/
def parseTokens (extractDouble : DoubleExtraction) (parser : CommandLineParser)
    (arguments : List ByteString) (index : Nat) (state : TokenState) : Result TokenState :=
  match arguments with
  | [] => .ok state
  | token :: rest =>
      if state.recognizeOptions = true ∧ token = text "--" then
        parseTokens extractDouble parser rest (index + 1)
          { state with recognizeOptions := false }
      -- Behind the terminator every token is positional.
      else if state.recognizeOptions = false ∨ isPlainToken token = true then
        parseTokens extractDouble parser rest (index + 1) (state.pushPositional token)
      else
        match resolveOption parser token with
        | .error status => .error status
        | .ok resolved =>
            -- Duplicates are refused before the value is looked at.
            if resolved.option.destination ∈ state.suppliedDestinations then
              .error { code := .configuration
                       message := "A command-line destination was supplied more than once" }
            else
              match optionType parser.schema resolved.option with
              | .error status => .error status
              | .ok type =>
                  match rest, takesNextToken type token resolved rest.head? with
                  | next :: rest', true =>
                      match parseValue extractDouble next type with
                      | .error status => .error status
                      | .ok value =>
                          parseTokens extractDouble parser rest' (index + 2)
                            (state.pushOption ⟨resolved.option, value, index⟩)
                  | [], true =>
                      .error (commandLineError "A command-line option is missing its value")
                  | rest, false =>
                      match ownValue extractDouble type resolved with
                      | .error status => .error status
                      | .ok value =>
                          parseTokens extractDouble parser rest (index + 1)
                            (state.pushOption ⟨resolved.option, value, index⟩)

/-! ## The candidate tree -/

def destinationsOverlap : Status :=
  { code := .configuration, message := "Command-line destinations overlap" }

/-- The object that `InsertValue` extends: null stands for a tree that is still missing. -/
def openObject : ConfigurationValue → Option ConfigurationObject
  | .object fields => some fields
  | .null => some []
  | _ => none

def insertValue (current : ConfigurationValue) (path : List ByteString)
    (value : ConfigurationValue) : Result ConfigurationValue :=
  match path with
  | [] => .ok value
  | key :: rest =>
      match openObject current with
      | none => .error destinationsOverlap
      | some object =>
          match insertValue ((object.lookup key).getD .null) rest value with
          | .error status => .error status
          | .ok inserted => .ok (.object (insertOrAssign key inserted object))

/-- The loop over the parsed options, which fills the tree and the origin map. -/
def buildTree (tree : ConfigurationValue) (origins : ConfigurationOrigins) :
    List ParsedOptionValue → Result (ConfigurationValue × ConfigurationOrigins)
  | [] => .ok (tree, origins)
  | parsed :: rest =>
      match parsePointer parsed.option.destination with
      | .error status => .error status
      | .ok path =>
          match insertValue tree path parsed.value with
          | .error status => .error status
          | .ok inserted =>
              buildTree inserted
                (origins.insertOrAssign parsed.option.destination
                  (.commandLine (some (text "argv")) (some (stdToString parsed.tokenIndex)))) rest

def initialTree (schema : ConfigurationSchema) : ConfigurationValue :=
  if schema.type = .object then .object [] else .null

/-! ## Parsing -/

structure CommandLineParseResult where
  configuration : Configuration
  positionalArguments : List ByteString

/-- The part of `Parse` after the token loop. -/
def finishParse (parser : CommandLineParser) (state : TokenState) :
    Result CommandLineParseResult :=
  match buildTree (initialTree parser.schema) .empty state.parsedOptions with
  | .error status => .error status
  | .ok (tree, origins) =>
      match validateConfigurationWithOrigins parser.schema tree origins
          (.programmatic none none) with
      | .error status => .error status
      | .ok configuration =>
          .ok { configuration := configuration
                positionalArguments := state.positionalArguments }

def parse (extractDouble : DoubleExtraction) (parser : CommandLineParser)
    (arguments : List ByteString) : Result CommandLineParseResult :=
  match parseTokens extractDouble parser arguments 0 {} with
  | .error status => .error status
  | .ok state => finishParse parser state

end Utilities
end AscCpp
