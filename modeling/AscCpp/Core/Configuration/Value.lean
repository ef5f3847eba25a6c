import AscCpp.Core.Status
import AscCpp.Core.Text
import AscCpp.Library.OrderedMap

/-!
# Value — the configuration value variant

`ConfigurationValue` is the recursive variant of the core module, alternatives in storage order.
`std::map<std::string, ConfigurationValue, std::less<>>` is the key-ordered entry list of
`Library.OrderedMap`; `ConfigurationValue.WellFormed` states what the C++ containers guarantee of
such a tree (key order at every object, list sizes that fit `std::size_t`, UTF-8 in every string),
and `ValidValue` packages a tree with that proof.

Doubles are the IEEE 754 bit patterns, with the two observations validation makes of them.
-/

namespace AscCpp
namespace Core

open Library

/-! ## Doubles -/

/-- A `double` by its 64 bits. -/
structure Double where
  bits : BitVec 64
  deriving DecidableEq, Repr

namespace Double

def isNegative (x : Double) : Bool :=
  x.bits.toNat / 2 ^ 63 = 1

/-- Exponent and fraction bits as one number. -/
def magnitude (x : Double) : Nat :=
  x.bits.toNat % 2 ^ 63

/-- `std::isnan`: all exponent bits set and a nonzero fraction. -/
def isNaN (x : Double) : Bool :=
  0x7ff0000000000000 < x.magnitude

/-- Signed magnitude: on non-NaN patterns it orders doubles as their values do, with both zeros
at `0`. -/
def rank (x : Double) : Int :=
  if x.isNegative then -(x.magnitude : Int) else x.magnitude

/-- The C++ operator `<`: false as soon as one side is NaN. -/
def less (x y : Double) : Bool :=
  !x.isNaN && !y.isNaN && decide (x.rank < y.rank)

/-- The C++ comparison `x == 0.0`. -/
def isZero (x : Double) : Bool :=
  x.magnitude = 0

end Double

/-! ## UTF-8 -/

def isContinuationByte (b : Byte) : Bool :=
  0x80 ≤ b && b ≤ 0xbf

def isValidSecondOfThree (first second : Byte) : Bool :=
  (first = 0xe0 && 0xa0 ≤ second && second ≤ 0xbf) ||
    (first = 0xed && 0x80 ≤ second && second ≤ 0x9f) ||
    (((0xe1 ≤ first && first ≤ 0xec) || (0xee ≤ first && first ≤ 0xef)) &&
      isContinuationByte second)

def isValidSecondOfFour (first second : Byte) : Bool :=
  (first = 0xf0 && 0x90 ≤ second && second ≤ 0xbf) ||
    (first = 0xf4 && 0x80 ≤ second && second ≤ 0x8f) ||
    (0xf1 ≤ first && first ≤ 0xf3 && isContinuationByte second)

/-- The index loop of `IsValidUtf8`, on the bytes from the current index on. -/
def isValidUtf8 : ByteString → Bool
  | [] => true
  | first :: rest =>
      if first ≤ 0x7f then
        isValidUtf8 rest
      else if 0xc2 ≤ first ∧ first ≤ 0xdf then
        match rest with
        | second :: rest' => isContinuationByte second && isValidUtf8 rest'
        | _ => false
      else if 0xe0 ≤ first ∧ first ≤ 0xef then
        match rest with
        | second :: third :: rest' =>
            isValidSecondOfThree first second && isContinuationByte third && isValidUtf8 rest'
        | _ => false
      else if 0xf0 ≤ first ∧ first ≤ 0xf4 then
        match rest with
        | second :: third :: fourth :: rest' =>
            isValidSecondOfFour first second && isContinuationByte third &&
              isContinuationByte fourth && isValidUtf8 rest'
        | _ => false
      else
        false

/-! ## Values -/

inductive ConfigurationValueType where
  | null
  | bool
  | signedInteger
  | unsignedInteger
  | double
  | string
  | list
  | object
  deriving DecidableEq, Repr

def configurationValueTypeName : ConfigurationValueType → String
  | .null => "null"
  | .bool => "bool"
  | .signedInteger => "signed integer"
  | .unsignedInteger => "unsigned integer"
  | .double => "double"
  | .string => "string"
  | .list => "list"
  | .object => "object"

inductive ConfigurationValue where
  | null
  | bool (value : Bool)
  | signedInteger (value : Int64)
  | unsignedInteger (value : UInt64)
  | double (value : Double)
  | string (value : ByteString)
  | list (items : List ConfigurationValue)
  | object (fields : List (ByteString × ConfigurationValue))

/-- `ConfigurationValue::Object`. -/
abbrev ConfigurationObject := List (ByteString × ConfigurationValue)

def typeMismatch (expected actual : ConfigurationValueType) : Status :=
  { code := .configuration
    message := "Configuration value type is " ++ configurationValueTypeName actual ++ ", not " ++
      configurationValueTypeName expected }

namespace ConfigurationValue

def type : ConfigurationValue → ConfigurationValueType
  | .null => .null
  | .bool _ => .bool
  | .signedInteger _ => .signedInteger
  | .unsignedInteger _ => .unsignedInteger
  | .double _ => .double
  | .string _ => .string
  | .list _ => .list
  | .object _ => .object

def isNull (value : ConfigurationValue) : Bool :=
  value.type = .null

def asSignedInteger : ConfigurationValue → Result Int64
  | .signedInteger number => .ok number
  | value => .error (typeMismatch .signedInteger value.type)

def asUnsignedInteger : ConfigurationValue → Result UInt64
  | .unsignedInteger number => .ok number
  | value => .error (typeMismatch .unsignedInteger value.type)

def asDouble : ConfigurationValue → Result Double
  | .double number => .ok number
  | value => .error (typeMismatch .double value.type)

def asString : ConfigurationValue → Result ByteString
  | .string bytes => .ok bytes
  | value => .error (typeMismatch .string value.type)

def asList : ConfigurationValue → Result (List ConfigurationValue)
  | .list items => .ok items
  | value => .error (typeMismatch .list value.type)

def asObject : ConfigurationValue → Result ConfigurationObject
  | .object fields => .ok fields
  | value => .error (typeMismatch .object value.type)

/-- The only way to a string value: the bytes are checked first. -/
def utf8String (bytes : ByteString) : Result ConfigurationValue :=
  if isValidUtf8 bytes then
    .ok (.string bytes)
  else
    .error { code := .encoding, message := "Configuration string is not well-formed UTF-8" }

/-- What the C++ containers guarantee of every value tree. -/
inductive WellFormed : ConfigurationValue → Prop where
  | null : WellFormed .null
  | bool (value : Bool) : WellFormed (.bool value)
  | signedInteger (value : Int64) : WellFormed (.signedInteger value)
  | unsignedInteger (value : UInt64) : WellFormed (.unsignedInteger value)
  | double (value : Double) : WellFormed (.double value)
  | string (bytes : ByteString) (hutf8 : isValidUtf8 bytes) : WellFormed (.string bytes)
  | list (items : List ConfigurationValue) (hsize : items.length < 2 ^ 64)
      (hitems : ∀ item ∈ items, WellFormed item) : WellFormed (.list items)
  | object (fields : ConfigurationObject) (hordered : Ordered fields)
      (hfields : ∀ entry ∈ fields, WellFormed entry.2) : WellFormed (.object fields)

theorem WellFormed.of_lookup {fields : ConfigurationObject} {key : ByteString}
    {child : ConfigurationValue} (h : WellFormed (.object fields))
    (hlookup : fields.lookup key = some child) : child.WellFormed := by
  cases h with
  | object _ _ hfields => exact hfields _ (mem_of_lookup hlookup)

theorem WellFormed.ordered {fields : ConfigurationObject} (h : WellFormed (.object fields)) :
    Ordered fields := by
  cases h with
  | object _ hordered _ => exact hordered

theorem utf8String_wellFormed {bytes : ByteString} {value : ConfigurationValue}
    (h : utf8String bytes = .ok value) : value.WellFormed := by
  unfold utf8String at h
  split at h
  · rename_i hutf8
    cases h
    exact WellFormed.string bytes hutf8
  · cases h

end ConfigurationValue

/-- A value tree that a C++ program can hold. -/
abbrev ValidValue := { value : ConfigurationValue // value.WellFormed }

end Core
end AscCpp
