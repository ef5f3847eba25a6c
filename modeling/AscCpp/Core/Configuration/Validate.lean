import AscCpp.Core.Configuration.Path
import AscCpp.Core.Configuration.Schema

/-!
# Validate — schema validation with default insertion and per-path metadata

The validator of the core module: `validateBounds`, `recordDescendantMetadata`, `validateNode` and
the two entry points.  The metadata map that the C++ functions fill by reference is threaded
through as a state; a failing validation discards it, as its callers do.

The recursion of `validateNode` is on the schema (both a supplied field and an inserted default are
validated against a field schema), that of `recordDescendantMetadata` on the value.
-/

namespace AscCpp
namespace Core

open Library

/-! ## Origins and metadata -/

inductive ConfigurationOriginKind where
  | default
  | programmatic
  | commandLine
  deriving DecidableEq, Repr

structure ConfigurationOrigin where
  kind : ConfigurationOriginKind := .programmatic
  sourceLabel : Option ByteString := none
  location : Option ByteString := none
  deriving DecidableEq, Repr

namespace ConfigurationOrigin

def default : ConfigurationOrigin :=
  { kind := .default, sourceLabel := none, location := none }

def programmatic (sourceLabel location : Option ByteString) : ConfigurationOrigin :=
  { kind := .programmatic, sourceLabel := sourceLabel, location := location }

def commandLine (sourceLabel location : Option ByteString) : ConfigurationOrigin :=
  { kind := .commandLine, sourceLabel := sourceLabel, location := location }

end ConfigurationOrigin

abbrev ConfigurationOrigins := OrderedMap ByteString ConfigurationOrigin

structure ConfigurationMetadata where
  origin : ConfigurationOrigin
  sensitive : Bool := false
  deprecated : Bool := false
  deriving DecidableEq, Repr

abbrev MetadataMap := OrderedMap ByteString ConfigurationMetadata

/-- The origin of a node: its own entry in the map when there is a map and an entry, else the
inherited one. -/
def effectiveOrigin (origins : Option ConfigurationOrigins) (path : ByteString)
    (inheritedOrigin : ConfigurationOrigin) : ConfigurationOrigin :=
  match origins with
  | some origins => (origins.find path).getD inheritedOrigin
  | none => inheritedOrigin

/-! ## Bounds -/

def configurationError (path : ByteString) (message : String) : Status :=
  let renderedPath := if path.isEmpty then "<root>" else quoteDiagnosticBytes path
  { code := .configuration, message := renderedPath ++ ": " ++ message }

/-- `number` is below a present minimum or above a present maximum. -/
def outsideBounds {α : Type} (less : α → α → Bool) (number : α) (minimum maximum : Option α) :
    Bool :=
  minimum.any (fun bound => less number bound) || maximum.any (fun bound => less bound number)

def sizeOutsideBounds (attributes : SchemaAttributes) (size : Nat) : Bool :=
  outsideBounds (fun x y => decide (x < y)) size attributes.sizeMinimum attributes.sizeMaximum

/-- The numeric half of `ValidateBounds`. -/
def validateNumericBounds (attributes : SchemaAttributes) (value : ConfigurationValue)
    (path : ByteString) : Result Unit :=
  match attributes.type with
  | .signedInteger => do
      let number ← value.asSignedInteger
      if outsideBounds (fun x y => decide (x < y)) number attributes.signedMinimum
          attributes.signedMaximum then
        .error (configurationError path "signed integer is outside its bounds")
      else
        .ok ()
  | .unsignedInteger => do
      let number ← value.asUnsignedInteger
      if outsideBounds (fun x y => decide (x < y)) number attributes.unsignedMinimum
          attributes.unsignedMaximum then
        .error (configurationError path "unsigned integer is outside its bounds")
      else
        .ok ()
  -- A bound rejects NaN; without bounds it passes.
  | .double => do
      let number ← value.asDouble
      if (attributes.doubleMinimum.isSome || attributes.doubleMaximum.isSome) &&
          number.isNaN then
        .error (configurationError path "NaN does not satisfy numeric bounds")
      else if outsideBounds Double.less number attributes.doubleMinimum
          attributes.doubleMaximum then
        .error (configurationError path "double is outside its bounds")
      else
        .ok ()
  | _ => .ok ()

/-- The size `ValidateBounds` checks: of strings and lists, not of objects. -/
def boundedSize (attributes : SchemaAttributes) (value : ConfigurationValue) :
    Result (Option Nat) :=
  match attributes.type with
  | .string => value.asString.map fun bytes => some bytes.length
  | .list => value.asList.map fun items => some items.length
  | _ => .ok none

def validateBounds (attributes : SchemaAttributes) (value : ConfigurationValue)
    (path : ByteString) : Result Unit := do
  validateNumericBounds attributes value path
  let size ← boundedSize attributes value
  if size.any (sizeOutsideBounds attributes) then
    .error (configurationError path "value size is outside its bounds")
  else
    .ok ()

/-! ## Descendants of schema lists -/

mutual

def recordDescendantMetadata (value : ConfigurationValue) (path : ByteString)
    (inheritedMetadata : ConfigurationMetadata) (origins : Option ConfigurationOrigins)
    (metadataMap : MetadataMap) : MetadataMap :=
  let metadata :=
    { inheritedMetadata with
      origin := effectiveOrigin origins path inheritedMetadata.origin }
  let metadataMap := metadataMap.insertOrAssign path metadata
  match value with
  | .list items => recordItems items 0 path metadata origins metadataMap
  | .object fields => recordEntries fields path metadata origins metadataMap
  | _ => metadataMap

/-- The loop over the elements of a list, from `index` on. -/
def recordItems (items : List ConfigurationValue) (index : Nat) (path : ByteString)
    (metadata : ConfigurationMetadata) (origins : Option ConfigurationOrigins)
    (metadataMap : MetadataMap) : MetadataMap :=
  match items with
  | [] => metadataMap
  | item :: rest =>
      let metadataMap :=
        recordDescendantMetadata item (childPathOfIndex path index) metadata origins metadataMap
      recordItems rest (index + 1) path metadata origins metadataMap

/-- The loop over the entries of an object. -/
def recordEntries (fields : ConfigurationObject) (path : ByteString)
    (metadata : ConfigurationMetadata) (origins : Option ConfigurationOrigins)
    (metadataMap : MetadataMap) : MetadataMap :=
  match fields with
  | [] => metadataMap
  | (key, child) :: rest =>
      let metadataMap :=
        recordDescendantMetadata child (childPath path key) metadata origins metadataMap
      recordEntries rest path metadata origins metadataMap

end

/-! ## Nodes -/

mutual

def validateNode (schema : ConfigurationSchema) (input : ConfigurationValue) (path : ByteString)
    (inheritedOrigin : ConfigurationOrigin) (origins : Option ConfigurationOrigins)
    (inheritedSensitive : Bool) (metadataMap : MetadataMap) :
    Result (ConfigurationValue × MetadataMap) :=
  match schema with
  | ⟨attributes, fields⟩ =>
    let origin := effectiveOrigin origins path inheritedOrigin
    if input.type ≠ attributes.type then
      .error (configurationError path
        ("expected " ++ configurationValueTypeName attributes.type ++ ", received " ++
          configurationValueTypeName input.type))
    else
      match validateBounds attributes input path with
      | .error status => .error status
      | .ok () =>
        let sensitive := inheritedSensitive || attributes.sensitive
        let metadata : ConfigurationMetadata :=
          { origin := origin, sensitive := sensitive, deprecated := attributes.deprecated }
        let metadataMap := metadataMap.insertOrAssign path metadata
        -- The input has the schema's type here, so its constructor decides the branch.
        match input with
        | .object inputObject =>
            match inputObject.find? (fun entry => (fields.lookup entry.1).isNone) with
            | some entry => .error (configurationError (childPath path entry.1) "unknown key")
            | none =>
              match validateFields fields inputObject path origin origins sensitive metadataMap
                  [] with
              | .error status => .error status
              | .ok (outputObject, metadataMap) =>
                  if sizeOutsideBounds attributes outputObject.length then
                    .error (configurationError path "value size is outside its bounds")
                  else
                    .ok (.object outputObject, metadataMap)
        | .list items => .ok (input, recordItems items 0 path metadata origins metadataMap)
        | _ => .ok (input, metadataMap)

/-- The loop over the schema's fields, with the output object built so far. -/
def validateFields (fields : SchemaFields) (inputObject : ConfigurationObject)
    (path : ByteString) (origin : ConfigurationOrigin) (origins : Option ConfigurationOrigins)
    (sensitive : Bool) (metadataMap : MetadataMap) (outputObject : ConfigurationObject) :
    Result (ConfigurationObject × MetadataMap) :=
  match fields with
  | [] => .ok (outputObject, metadataMap)
  | (key, fieldSchema) :: rest =>
      match inputObject.lookup key with
      | some child =>
          match validateNode fieldSchema child (childPath path key) origin origins sensitive
              metadataMap with
          | .error status => .error status
          | .ok (validated, metadataMap) =>
              validateFields rest inputObject path origin origins sensitive metadataMap
                (emplace key validated outputObject)
      -- A default is validated with its own origin and without the map of origins.
      | none =>
          match fieldSchema.defaultValue with
          | some defaultValue =>
              match validateNode fieldSchema defaultValue (childPath path key)
                  ConfigurationOrigin.default none sensitive metadataMap with
              | .error status =>
                  .error (configurationError (childPath path key)
                    ("schema default is invalid: " ++ status.toString))
              | .ok (validated, metadataMap) =>
                  validateFields rest inputObject path origin origins sensitive metadataMap
                    (emplace key validated outputObject)
          | none =>
              if fieldSchema.required then
                .error (configurationError (childPath path key) "required key is missing")
              else
                validateFields rest inputObject path origin origins sensitive metadataMap
                  outputObject

end

/-! ## Entry points -/

/-- `Configuration`: a validated tree with the metadata of its paths. -/
structure Configuration where
  value : ConfigurationValue
  metadata : MetadataMap

def validateConfiguration (schema : ConfigurationSchema) (value : ConfigurationValue)
    (origin : ConfigurationOrigin) : Result Configuration :=
  match validateNode schema value [] origin none false .empty with
  | .error status => .error status
  | .ok (validated, metadata) => .ok { value := validated, metadata := metadata }

def originPathMissing : Status :=
  { code := .configuration, message := "Configuration origin path does not exist" }

def validateConfigurationWithOrigins (schema : ConfigurationSchema) (value : ConfigurationValue)
    (origins : ConfigurationOrigins) (fallbackOrigin : ConfigurationOrigin) :
    Result Configuration :=
  match validateNode schema value [] fallbackOrigin (some origins) false .empty with
  | .error status => .error status
  | .ok (validated, metadata) =>
      if origins.entries.any (fun entry => !metadata.contains entry.1) then
        .error originPathMissing
      else
        .ok { value := validated, metadata := metadata }

namespace Configuration

def metadataPathMissing : Status :=
  { code := .configuration, message := "Configuration metadata path does not exist" }

/-- The lookup that `Origin`, `IsSensitive` and `IsDeprecated` share. -/
def metadataAt (configuration : Configuration) (path : ByteString) :
    Result ConfigurationMetadata :=
  match configuration.metadata.find path with
  | none => .error metadataPathMissing
  | some metadata => .ok metadata

def origin (configuration : Configuration) (path : ByteString) : Result ConfigurationOrigin :=
  (configuration.metadataAt path).map (·.origin)

def isSensitive (configuration : Configuration) (path : ByteString) : Result Bool :=
  (configuration.metadataAt path).map (·.sensitive)

def isDeprecated (configuration : Configuration) (path : ByteString) : Result Bool :=
  (configuration.metadataAt path).map (·.deprecated)

end Configuration

end Core
end AscCpp
