import AscCpp.Core.Configuration.Value
import AscCpp.Library.EscapedPath

/-!
# Path — JSON Pointer paths and the nodes they name

The path helpers of the core module (`EscapePathToken`, `UnescapePathToken`, `ChildPath`), tied to
the generic `Library.EscapeCodec` through `pointerCodec`, and the abstract notion they serve:

* `canonicalPath tokens` — the path string the validators build for a token list;
* `NodeAt value tokens node` — walking `tokens` down `value` ends at `node`, where a list element
  is named by the decimal numeral of its index.

Distinct token lists have distinct canonical paths (`canonicalPath_injective`), and within one tree
a token list names at most one node (`NodeAt.functional`).
-/

namespace AscCpp
namespace Core

open Library

/-! ## Tokens -/

/-- The JSON Pointer escapes: `~0` for `~` and `~1` for `/`. -/
def pointerCodec : EscapeCodec Byte where
  separator := byte '/'
  marker := byte '~'
  markerCode := byte '0'
  separatorCode := byte '1'
  marker_ne_separator := by decide
  markerCode_ne_separator := by decide
  separatorCode_ne_separator := by decide
  markerCode_ne_separatorCode := by decide

def escapePathToken : ByteString → ByteString
  | [] => []
  | character :: rest =>
      if character = byte '~' then
        text "~0" ++ escapePathToken rest
      else if character = byte '/' then
        text "~1" ++ escapePathToken rest
      else
        character :: escapePathToken rest

/-- The unescaping loop, with the two diagnostics its callers word differently. -/
def unescapeToken (incomplete invalid : Status) : ByteString → Result ByteString
  | [] => .ok []
  | [character] => if character = byte '~' then .error incomplete else .ok [character]
  | character :: code :: rest =>
      if character = byte '~' then
        if code = byte '0' then
          (unescapeToken incomplete invalid rest).map (byte '~' :: ·)
        else if code = byte '1' then
          (unescapeToken incomplete invalid rest).map (byte '/' :: ·)
        else
          .error invalid
      else
        (unescapeToken incomplete invalid (code :: rest)).map (character :: ·)

def unescapePathToken (token : ByteString) : Result ByteString :=
  unescapeToken
    { code := .invalidArgument, message := "Configuration path has an incomplete escape" }
    { code := .invalidArgument, message := "Configuration path has an invalid escape" } token

/-- `ChildPath` for an object key. -/
def childPath (path key : ByteString) : ByteString :=
  path ++ byte '/' :: escapePathToken key

/-- `ChildPath` for a list index. -/
def childPathOfIndex (path : ByteString) (index : Nat) : ByteString :=
  path ++ byte '/' :: stdToString index

@[simp]
theorem pointerCodec_separator : pointerCodec.separator = byte '/' := rfl

@[simp]
theorem pointerCodec_marker : pointerCodec.marker = byte '~' := rfl

@[simp]
theorem pointerCodec_markerCode : pointerCodec.markerCode = byte '0' := rfl

@[simp]
theorem pointerCodec_separatorCode : pointerCodec.separatorCode = byte '1' := rfl

theorem escapePathToken_eq (token : ByteString) :
    escapePathToken token = pointerCodec.escape token := by
  induction token with
  | nil => rfl
  | cons c rest ih =>
      simp only [escapePathToken, EscapeCodec.escape, ih, pointerCodec_marker,
        pointerCodec_separator, pointerCodec_markerCode, pointerCodec_separatorCode]
      rfl

theorem toOption_map {α β : Type} (f : α → β) (result : Result α) :
    (result.map f).toOption = result.toOption.map f := by
  cases result <;> rfl

theorem toOption_eq_some_iff {α : Type} {result : Result α} {value : α} :
    result.toOption = some value ↔ result = .ok value := by
  cases result <;> simp [Except.toOption]

/-- Up to its diagnostics the loop is the codec's `unescape`. -/
theorem toOption_unescapeToken (incomplete invalid : Status) (piece : ByteString) :
    (unescapeToken incomplete invalid piece).toOption = pointerCodec.unescape piece := by
  induction piece using unescapeToken.induct with
  | case1 => rfl
  | case2 => rfl
  | case3 c hc =>
      simp [unescapeToken, EscapeCodec.unescape, hc, Except.toOption]
  | case4 rest ih =>
      simp [unescapeToken, EscapeCodec.unescape, toOption_map, ih]
  | case5 rest hcode ih =>
      simp [unescapeToken, EscapeCodec.unescape, toOption_map, ih, hcode]
  | case6 d rest hm hs =>
      simp [unescapeToken, EscapeCodec.unescape, hm, hs, Except.toOption]
  | case7 c d rest hc ih =>
      simp [unescapeToken, EscapeCodec.unescape, hc, toOption_map, ih]

theorem unescapeToken_eq_ok_iff {incomplete invalid : Status} {piece token : ByteString} :
    unescapeToken incomplete invalid piece = .ok token ↔
      pointerCodec.unescape piece = some token := by
  rw [← toOption_unescapeToken incomplete invalid, toOption_eq_some_iff]

/-! ## Paths -/

/-- The path string of a token list, built from the root by `childPath`. -/
def canonicalPath (tokens : List ByteString) : ByteString :=
  tokens.foldl childPath []

theorem foldl_childPath (path : ByteString) (tokens : List ByteString) :
    tokens.foldl childPath path = path ++ pointerCodec.encode tokens := by
  induction tokens generalizing path with
  | nil => simp
  | cons token tokens ih =>
      simp [List.foldl_cons, ih, childPath, escapePathToken_eq, EscapeCodec.encode_cons]

theorem canonicalPath_eq_encode (tokens : List ByteString) :
    canonicalPath tokens = pointerCodec.encode tokens := by
  simp [canonicalPath, foldl_childPath]

theorem canonicalPath_injective : Function.Injective canonicalPath := by
  intro tokens tokens' h
  rw [canonicalPath_eq_encode, canonicalPath_eq_encode] at h
  exact pointerCodec.encode_injective h

@[simp]
theorem canonicalPath_nil : canonicalPath [] = [] := rfl

theorem escapePathToken_of_plain {token : ByteString}
    (h : ∀ b ∈ token, b ≠ byte '~' ∧ b ≠ byte '/') : escapePathToken token = token := by
  induction token with
  | nil => rfl
  | cons c rest ih =>
      obtain ⟨hm, hs⟩ := h c List.mem_cons_self
      have hrest := ih fun b hb => h b (List.mem_cons_of_mem _ hb)
      simp [escapePathToken, hm, hs, hrest]

/-- Decimal numerals need no escaping, so an index path is the key path of its numeral. -/
theorem childPathOfIndex_eq (path : ByteString) (index : Nat) :
    childPathOfIndex path index = childPath path (stdToString index) := by
  have hplain : ∀ b ∈ stdToString index, b ≠ byte '~' ∧ b ≠ byte '/' := by
    intro b hb
    obtain ⟨hlow, hhigh⟩ := isDigitByte_of_mem_stdToString hb
    constructor <;> rintro rfl <;> revert hlow hhigh <;> decide
  rw [childPathOfIndex, childPath, escapePathToken_of_plain hplain]

/-! ## Nodes -/

/-- Walking `tokens` down from `value` ends at `node`. -/
inductive NodeAt : ConfigurationValue → List ByteString → ConfigurationValue → Prop where
  | root (value : ConfigurationValue) : NodeAt value [] value
  | field {fields : ConfigurationObject} {key : ByteString} {child node : ConfigurationValue}
      {tokens : List ByteString} (hlookup : fields.lookup key = some child)
      (h : NodeAt child tokens node) : NodeAt (.object fields) (key :: tokens) node
  | item {items : List ConfigurationValue} {index : Nat} {child node : ConfigurationValue}
      {tokens : List ByteString} (hget : items[index]? = some child)
      (h : NodeAt child tokens node) :
      NodeAt (.list items) (stdToString index :: tokens) node

namespace NodeAt

variable {value node node' : ConfigurationValue} {tokens tokens' : List ByteString}

@[simp]
theorem nil_iff : NodeAt value [] node ↔ node = value := by
  constructor
  · intro h
    cases h
    rfl
  · rintro rfl
    exact root node

theorem object_cons_iff {fields : ConfigurationObject} {token : ByteString} :
    NodeAt (.object fields) (token :: tokens) node ↔
      ∃ child, fields.lookup token = some child ∧ NodeAt child tokens node := by
  constructor
  · intro h
    cases h with
    | field hlookup h => exact ⟨_, hlookup, h⟩
  · rintro ⟨child, hlookup, h⟩
    exact field hlookup h

theorem list_cons_iff {items : List ConfigurationValue} {token : ByteString} :
    NodeAt (.list items) (token :: tokens) node ↔
      ∃ index child, token = stdToString index ∧ items[index]? = some child ∧
        NodeAt child tokens node := by
  constructor
  · intro h
    cases h with
    | item hget h => exact ⟨_, _, rfl, hget, h⟩
  · rintro ⟨index, child, rfl, hget, h⟩
    exact item hget h

/-- Scalars have no nodes below themselves. -/
theorem eq_nil_of_scalar (hobject : value.type ≠ .object) (hlist : value.type ≠ .list)
    (h : NodeAt value tokens node) : tokens = [] := by
  cases h with
  | root => rfl
  | field => exact absurd rfl hobject
  | item => exact absurd rfl hlist

theorem functional (h : NodeAt value tokens node) (h' : NodeAt value tokens node') :
    node = node' := by
  induction h with
  | root value =>
      exact (nil_iff.1 h').symm
  | field hlookup _ ih =>
      obtain ⟨child', hlookup', hchild'⟩ := object_cons_iff.1 h'
      rw [hlookup] at hlookup'
      cases hlookup'
      exact ih hchild'
  | item hget _ ih =>
      obtain ⟨index', child', htoken, hget', hchild'⟩ := list_cons_iff.1 h'
      have hindex := stdToString_injective htoken
      subst hindex
      rw [hget] at hget'
      cases hget'
      exact ih hchild'

theorem append_iff :
    NodeAt value (tokens ++ tokens') node ↔
      ∃ middle, NodeAt value tokens middle ∧ NodeAt middle tokens' node := by
  constructor
  · intro h
    induction tokens generalizing value with
    | nil =>
        exact ⟨value, root value, h⟩
    | cons token tokens ih =>
        rw [List.cons_append] at h
        cases h with
        | field hlookup h =>
            obtain ⟨middle, hmiddle, hnode⟩ := ih h
            exact ⟨middle, field hlookup hmiddle, hnode⟩
        | item hget h =>
            obtain ⟨middle, hmiddle, hnode⟩ := ih h
            exact ⟨middle, item hget hmiddle, hnode⟩
  · rintro ⟨middle, hmiddle, hnode⟩
    induction hmiddle with
    | root => exact hnode
    | field hlookup _ ih => exact field hlookup (ih hnode)
    | item hget _ ih => exact item hget (ih hnode)

end NodeAt

end Core
end AscCpp
