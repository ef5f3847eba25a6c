import AscCpp.Core.Configuration.Value

/-!
# Schema — recursive configuration schemas and their setters

`ConfigurationSchema` keeps the members of the C++ class: everything but the nested fields in one
record (`SchemaAttributes`), and the nested fields as a key-ordered entry list.  The constructor is
private in spirit: a schema of the program is one reached from `ConfigurationSchema.new` by the
setters, which is what `ConfigurationSchema.Built` says.  `Built.wellFormed` extracts from it the
container invariants the validator relies on.
-/

namespace AscCpp
namespace Core

open Library

/-- The non-recursive members of `ConfigurationSchema`. -/
structure SchemaAttributes where
  type : ConfigurationValueType
  required : Bool := false
  deprecated : Bool := false
  sensitive : Bool := false
  defaultValue : Option ConfigurationValue := none
  signedMinimum : Option Int64 := none
  signedMaximum : Option Int64 := none
  unsignedMinimum : Option UInt64 := none
  unsignedMaximum : Option UInt64 := none
  doubleMinimum : Option Double := none
  doubleMaximum : Option Double := none
  sizeMinimum : Option Nat := none
  sizeMaximum : Option Nat := none

structure ConfigurationSchema where
  attributes : SchemaAttributes
  fields : List (ByteString × ConfigurationSchema)

/-- `ConfigurationSchema::Fields`. -/
abbrev SchemaFields := List (ByteString × ConfigurationSchema)

/-- Whether both bounds are present with the lower one above the upper one. -/
def minimumExceedsMaximum {α : Type} (less : α → α → Bool) : Option α → Option α → Bool
  | some minimum, some maximum => less maximum minimum
  | _, _ => false

namespace ConfigurationSchema

def type (schema : ConfigurationSchema) : ConfigurationValueType :=
  schema.attributes.type

def required (schema : ConfigurationSchema) : Bool :=
  schema.attributes.required

def deprecated (schema : ConfigurationSchema) : Bool :=
  schema.attributes.deprecated

def sensitive (schema : ConfigurationSchema) : Bool :=
  schema.attributes.sensitive

def defaultValue (schema : ConfigurationSchema) : Option ConfigurationValue :=
  schema.attributes.defaultValue

def new (type : ConfigurationValueType) : ConfigurationSchema :=
  { attributes := { type := type }, fields := [] }

/-! ## Setters -/

def setRequired (schema : ConfigurationSchema) (required : Bool) : ConfigurationSchema :=
  { schema with attributes := { schema.attributes with required := required } }

def setDeprecated (schema : ConfigurationSchema) (deprecated : Bool) : ConfigurationSchema :=
  { schema with attributes := { schema.attributes with deprecated := deprecated } }

def setSensitive (schema : ConfigurationSchema) (sensitive : Bool) : ConfigurationSchema :=
  { schema with attributes := { schema.attributes with sensitive := sensitive } }

def setDefault (schema : ConfigurationSchema) (value : ConfigurationValue) :
    ConfigurationSchema :=
  { schema with attributes := { schema.attributes with defaultValue := some value } }

def setSignedBounds (schema : ConfigurationSchema) (minimum maximum : Option Int64) :
    Result ConfigurationSchema :=
  if schema.type ≠ .signedInteger then
    .error { code := .invalidArgument
             message := "Signed bounds require a signed-integer schema" }
  else if minimumExceedsMaximum (fun x y => decide (x < y)) minimum maximum then
    .error { code := .invalidArgument, message := "Signed minimum exceeds maximum" }
  else
    .ok { schema with attributes :=
            { schema.attributes with signedMinimum := minimum, signedMaximum := maximum } }

def setUnsignedBounds (schema : ConfigurationSchema) (minimum maximum : Option UInt64) :
    Result ConfigurationSchema :=
  if schema.type ≠ .unsignedInteger then
    .error { code := .invalidArgument
             message := "Unsigned bounds require an unsigned-integer schema" }
  else if minimumExceedsMaximum (fun x y => decide (x < y)) minimum maximum then
    .error { code := .invalidArgument, message := "Unsigned minimum exceeds maximum" }
  else
    .ok { schema with attributes :=
            { schema.attributes with unsignedMinimum := minimum, unsignedMaximum := maximum } }

def setDoubleBounds (schema : ConfigurationSchema) (minimum maximum : Option Double) :
    Result ConfigurationSchema :=
  if schema.type ≠ .double then
    .error { code := .invalidArgument, message := "Double bounds require a double schema" }
  else if minimum.any Double.isNaN || maximum.any Double.isNaN then
    .error { code := .invalidArgument, message := "Double bounds cannot be NaN" }
  else if minimumExceedsMaximum Double.less minimum maximum then
    .error { code := .invalidArgument, message := "Double minimum exceeds maximum" }
  else
    .ok { schema with attributes :=
            { schema.attributes with doubleMinimum := minimum, doubleMaximum := maximum } }

def setSizeBounds (schema : ConfigurationSchema) (minimum maximum : Option Nat) :
    Result ConfigurationSchema :=
  if schema.type ≠ .string ∧ schema.type ≠ .list ∧ schema.type ≠ .object then
    .error { code := .invalidArgument
             message := "Size bounds require a string, list, or object schema" }
  else if minimumExceedsMaximum (fun x y => decide (x < y)) minimum maximum then
    .error { code := .invalidArgument, message := "Size minimum exceeds maximum" }
  else
    .ok { schema with attributes :=
            { schema.attributes with sizeMinimum := minimum, sizeMaximum := maximum } }

def addField (schema : ConfigurationSchema) (name : ByteString) (field : ConfigurationSchema) :
    Result ConfigurationSchema :=
  if schema.type ≠ .object then
    .error { code := .invalidArgument, message := "Nested fields require an object schema" }
  else if (schema.fields.lookup name).isSome then
    .error { code := .invalidArgument
             message := "Configuration schema field already exists" }
  else
    .ok { schema with fields := emplace name field schema.fields }

/-! ## Schemas of the program -/

/-- Reached from a fresh schema by the setters. -/
inductive Built : ConfigurationSchema → Prop where
  | new (type : ConfigurationValueType) : Built (.new type)
  | setRequired {schema : ConfigurationSchema} (h : Built schema) (required : Bool) :
      Built (schema.setRequired required)
  | setDeprecated {schema : ConfigurationSchema} (h : Built schema) (deprecated : Bool) :
      Built (schema.setDeprecated deprecated)
  | setSensitive {schema : ConfigurationSchema} (h : Built schema) (sensitive : Bool) :
      Built (schema.setSensitive sensitive)
  | setDefault {schema : ConfigurationSchema} (h : Built schema) {value : ConfigurationValue}
      (hvalue : value.WellFormed) : Built (schema.setDefault value)
  | setSignedBounds {schema schema' : ConfigurationSchema} (h : Built schema)
      {minimum maximum : Option Int64}
      (hok : schema.setSignedBounds minimum maximum = .ok schema') : Built schema'
  | setUnsignedBounds {schema schema' : ConfigurationSchema} (h : Built schema)
      {minimum maximum : Option UInt64}
      (hok : schema.setUnsignedBounds minimum maximum = .ok schema') : Built schema'
  | setDoubleBounds {schema schema' : ConfigurationSchema} (h : Built schema)
      {minimum maximum : Option Double}
      (hok : schema.setDoubleBounds minimum maximum = .ok schema') : Built schema'
  | setSizeBounds {schema schema' : ConfigurationSchema} (h : Built schema)
      {minimum maximum : Option Nat}
      (hok : schema.setSizeBounds minimum maximum = .ok schema') : Built schema'
  | addField {schema schema' field : ConfigurationSchema} (h : Built schema)
      (hfield : Built field) {name : ByteString}
      (hok : schema.addField name field = .ok schema') : Built schema'

/-- The container invariants of a schema: ordered fields, at object schemas only, and defaults
that are values of the program. -/
inductive WellFormed : ConfigurationSchema → Prop where
  | mk (attributes : SchemaAttributes) (fields : SchemaFields)
      (hdefault : ∀ value, attributes.defaultValue = some value → value.WellFormed)
      (hobject : attributes.type ≠ .object → fields = [])
      (hordered : Ordered fields)
      (hfields : ∀ entry ∈ fields, WellFormed entry.2) : WellFormed ⟨attributes, fields⟩

namespace WellFormed

theorem ordered {schema : ConfigurationSchema} (h : WellFormed schema) :
    Ordered schema.fields := by
  cases h with
  | mk _ _ _ _ hordered _ => exact hordered

theorem of_mem {schema : ConfigurationSchema} (h : WellFormed schema)
    {entry : ByteString × ConfigurationSchema} (hmem : entry ∈ schema.fields) :
    WellFormed entry.2 := by
  cases h with
  | mk _ _ _ _ _ hfields => exact hfields entry hmem

theorem of_lookup {schema field : ConfigurationSchema} (h : WellFormed schema)
    {key : ByteString} (hlookup : schema.fields.lookup key = some field) : WellFormed field :=
  h.of_mem (mem_of_lookup hlookup)

theorem default {schema : ConfigurationSchema} (h : WellFormed schema)
    {value : ConfigurationValue} (hdefault : schema.defaultValue = some value) :
    value.WellFormed := by
  cases h with
  | mk _ _ hdefault' _ _ _ => exact hdefault' value hdefault

theorem fields_eq_nil {schema : ConfigurationSchema} (h : WellFormed schema)
    (htype : schema.type ≠ .object) : schema.fields = [] := by
  cases h with
  | mk _ _ _ hobject _ _ => exact hobject htype

/-- A change of attributes other than the type keeps the invariants. -/
theorem withAttributes {schema : ConfigurationSchema} (h : WellFormed schema)
    {attributes : SchemaAttributes} (htype : attributes.type = schema.attributes.type)
    (hdefault : ∀ value, attributes.defaultValue = some value → value.WellFormed) :
    WellFormed { schema with attributes := attributes } := by
  cases h with
  | mk _ _ _ hobject hordered hfields =>
      refine WellFormed.mk _ _ hdefault ?_ hordered hfields
      rw [htype]
      exact hobject

end WellFormed

theorem Built.wellFormed {schema : ConfigurationSchema} (h : Built schema) :
    schema.WellFormed := by
  -- A setter changes the attributes and keeps the fields; the bounds are left as they are given.
  induction h with
  | new type =>
      refine WellFormed.mk _ _ ?_ (fun _ => rfl) Ordered.nil ?_
      · intro value hvalue
        cases hvalue
      · intro entry hmem
        cases hmem
  | setRequired _ required ih =>
      exact ih.withAttributes rfl fun _ hvalue => ih.default hvalue
  | setDeprecated _ deprecated ih =>
      exact ih.withAttributes rfl fun _ hvalue => ih.default hvalue
  | setSensitive _ sensitive ih =>
      exact ih.withAttributes rfl fun _ hvalue => ih.default hvalue
  | setDefault _ hvalue ih =>
      refine ih.withAttributes rfl ?_
      intro value hsome
      cases hsome
      exact hvalue
  | setSignedBounds _ hok ih =>
      simp only [ConfigurationSchema.setSignedBounds] at hok
      split at hok
      · cases hok
      · split at hok
        · cases hok
        · cases hok
          exact ih.withAttributes rfl fun _ hvalue => ih.default hvalue
  | setUnsignedBounds _ hok ih =>
      simp only [ConfigurationSchema.setUnsignedBounds] at hok
      split at hok
      · cases hok
      · split at hok
        · cases hok
        · cases hok
          exact ih.withAttributes rfl fun _ hvalue => ih.default hvalue
  | setDoubleBounds _ hok ih =>
      simp only [ConfigurationSchema.setDoubleBounds] at hok
      split at hok
      · cases hok
      · split at hok
        · cases hok
        · split at hok
          · cases hok
          · cases hok
            exact ih.withAttributes rfl fun _ hvalue => ih.default hvalue
  | setSizeBounds _ hok ih =>
      simp only [ConfigurationSchema.setSizeBounds] at hok
      split at hok
      · cases hok
      · split at hok
        · cases hok
        · cases hok
          exact ih.withAttributes rfl fun _ hvalue => ih.default hvalue
  -- The name is new, so the fields stay ordered.
  | addField _ _ hok ih ihfield =>
      simp only [ConfigurationSchema.addField] at hok
      split at hok
      · cases hok
      · rename_i htype
        split at hok
        · cases hok
        · rename_i hnew
          cases hok
          refine WellFormed.mk _ _ (fun _ hvalue => ih.default hvalue)
            (fun hne => absurd hne htype) (ih.ordered.emplace _ _) ?_
          exact forall_mem_emplace ihfield fun entry hmem => ih.of_mem hmem

end ConfigurationSchema

/-- A schema that a C++ program can build. -/
abbrev BuiltSchema := { schema : ConfigurationSchema // schema.Built }

end Core
end AscCpp
