import AscCpp.Core.Configuration.Runs

/-!
# Conformance — what validation decides and what it returns

The purpose of the validator, stated without reference to its code:

* `Conforms schema value` — exact types, bounds, no unknown key, every missing field either
  defaulted by a conforming default or not required, object sizes counted after default insertion;
* `Completes schema value output` — `output` is `value` with exactly the missing defaults inserted.

Completion is single-valued (`Completes.unique`) and idempotent (`Completes.completes_self`), and
conformance survives it (`Conforms.of_completes`).  `nodeRun_conforms`, `nodeRun_completes` and
`exists_nodeRun` connect both notions to `validateNode`.
-/

namespace AscCpp
namespace Core

open Library

/-! ## Declarative conformance -/

def SizeMet (attributes : SchemaAttributes) (size : Nat) : Prop :=
  (∀ minimum, attributes.sizeMinimum = some minimum → minimum ≤ size) ∧
    (∀ maximum, attributes.sizeMaximum = some maximum → size ≤ maximum)

/-- The bounds on a value itself; the size of an object is a matter of its completion. -/
def BoundsMet (attributes : SchemaAttributes) : ConfigurationValue → Prop
  | .signedInteger number =>
      (∀ minimum, attributes.signedMinimum = some minimum → minimum ≤ number) ∧
        (∀ maximum, attributes.signedMaximum = some maximum → number ≤ maximum)
  | .unsignedInteger number =>
      (∀ minimum, attributes.unsignedMinimum = some minimum → minimum ≤ number) ∧
        (∀ maximum, attributes.unsignedMaximum = some maximum → number ≤ maximum)
  | .double number =>
      ((attributes.doubleMinimum.isSome ∨ attributes.doubleMaximum.isSome) →
          number.isNaN = false) ∧
        (∀ minimum, attributes.doubleMinimum = some minimum → number.less minimum = false) ∧
        (∀ maximum, attributes.doubleMaximum = some maximum → maximum.less number = false)
  | .string bytes => SizeMet attributes bytes.length
  | .list items => SizeMet attributes items.length
  | _ => True

/-- The number of fields an object has once missing defaults are inserted. -/
def completedSize (fields : SchemaFields) (object : ConfigurationObject) : Nat :=
  (fields.filter fun entry =>
    (object.lookup entry.1).isSome || entry.2.defaultValue.isSome).length

/-- The value conforms to the schema.  A missing field with a default stands for that default, so
it is only a field without one that must be optional. -/
inductive Conforms : ConfigurationSchema → ConfigurationValue → Prop where
  | leaf {schema : ConfigurationSchema} {value : ConfigurationValue}
      (htype : value.type = schema.type) (hobject : value.type ≠ .object)
      (hbounds : BoundsMet schema.attributes value) : Conforms schema value
  | object {schema : ConfigurationSchema} {object : ConfigurationObject}
      (htype : schema.type = .object)
      (hknown : ∀ key value, object.lookup key = some value →
        ∃ field, schema.fields.lookup key = some field)
      (hsupplied : ∀ key field value, schema.fields.lookup key = some field →
        object.lookup key = some value → Conforms field value)
      (hdefaulted : ∀ key field value, schema.fields.lookup key = some field →
        object.lookup key = none → field.defaultValue = some value → Conforms field value)
      (hoptional : ∀ key field, schema.fields.lookup key = some field →
        object.lookup key = none → field.defaultValue = none → field.required = false)
      (hsize : SizeMet schema.attributes (completedSize schema.fields object)) :
      Conforms schema (.object object)

/-- `output` is the input with exactly the defaults of the missing defaulted fields inserted. -/
inductive Completes : ConfigurationSchema → ConfigurationValue → ConfigurationValue → Prop where
  | leaf {schema : ConfigurationSchema} {value : ConfigurationValue}
      (hobject : value.type ≠ .object) : Completes schema value value
  | object {schema : ConfigurationSchema} {object output : ConfigurationObject}
      (hdomain : ∀ key, (output.lookup key).isSome ↔
        (object.lookup key).isSome ∨
          ∃ field, schema.fields.lookup key = some field ∧ field.defaultValue.isSome)
      (hknown : ∀ key, (object.lookup key).isSome → (schema.fields.lookup key).isSome)
      (hsupplied : ∀ key field value value', schema.fields.lookup key = some field →
        object.lookup key = some value → output.lookup key = some value' →
        Completes field value value')
      (hdefaulted : ∀ key field value value', schema.fields.lookup key = some field →
        object.lookup key = none → field.defaultValue = some value →
        output.lookup key = some value' → Completes field value value') :
      Completes schema (.object object) (.object output)

/-! ## Completion on its own terms -/

/-- A field of a completed object was supplied, or it is the default of a field that was not. -/
theorem supplied_or_defaulted {schema : ConfigurationSchema}
    {object output : ConfigurationObject} {key : ByteString} {child : ConfigurationValue}
    (hdomain : (output.lookup key).isSome ↔ (object.lookup key).isSome ∨
      ∃ field, schema.fields.lookup key = some field ∧ field.defaultValue.isSome)
    (hchild : output.lookup key = some child) :
    (∃ value, object.lookup key = some value) ∨
      object.lookup key = none ∧ ∃ field value, schema.fields.lookup key = some field ∧
        field.defaultValue = some value := by
  cases hobject : object.lookup key with
  | some value => exact Or.inl ⟨value, rfl⟩
  | none =>
      rcases hdomain.1 (by simp [hchild]) with hsupplied | ⟨field, hfield, hsome⟩
      · simp [hobject] at hsupplied
      · rcases Option.isSome_iff_exists.1 hsome with ⟨value, hvalue⟩
        exact Or.inr ⟨rfl, field, value, hfield, hvalue⟩

namespace Completes

variable {schema : ConfigurationSchema} {value output output' : ConfigurationValue}

/-- Completion is single-valued. -/
theorem unique (h : Completes schema value output) (h' : Completes schema value output')
    (hwf : output.WellFormed) (hwf' : output'.WellFormed) : output = output' := by
  induction h generalizing output' with
  | leaf hobject =>
      cases h' with
      | leaf => rfl
      | object => exact absurd rfl hobject
  | @object schema object out hdomain hknown hsupplied hdefaulted ihs ihd =>
      cases h' with
      | leaf hobject => exact absurd rfl hobject
      | @object _ _ out' hdomain' _ hsupplied' hdefaulted' =>
          congr 1
          -- The fields of an object are compared key by key, and both outputs have the same keys.
          refine hwf.ordered.ext hwf'.ordered ?_
          intro key
          have hsame : (out.lookup key).isSome ↔ (out'.lookup key).isSome := by
            rw [hdomain, hdomain']
          cases hout : out.lookup key with
          | none =>
              cases hout' : out'.lookup key with
              | none => rfl
              | some child' => simp [hout, hout'] at hsame
          | some child =>
              cases hout' : out'.lookup key with
              | none => simp [hout, hout'] at hsame
              | some child' =>
                  have hchild := hwf.of_lookup hout
                  have hchild' := hwf'.of_lookup hout'
                  -- A child completes a supplied value or a default, the same one for both outputs.
                  rcases supplied_or_defaulted (hdomain key) hout with
                    ⟨x, hobj⟩ | ⟨hobj, field, d, hfield, hd⟩
                  · obtain ⟨field, hfield⟩ :=
                      Option.isSome_iff_exists.1 (hknown key (by simp [hobj]))
                    rw [ihs key field x child hfield hobj hout
                      (hsupplied' key field x child' hfield hobj hout') hchild hchild']
                  · rw [ihd key field d child hfield hobj hd hout
                      (hdefaulted' key field d child' hfield hobj hd hout') hchild hchild']

/-- A completed value is its own completion. -/
theorem completes_self (h : Completes schema value output) : Completes schema output output := by
  induction h with
  | leaf hobject => exact leaf hobject
  | @object schema object out hdomain hknown _ _ ihs ihd =>
      refine Completes.object ?_ ?_ ?_ ?_
      · intro key
        constructor
        · exact Or.inl
        · rintro (hsome | hdef)
          · exact hsome
          · exact (hdomain key).2 (Or.inr hdef)
      · intro key hsome
        rcases (hdomain key).1 hsome with hobj | ⟨field, hfield, -⟩
        · exact hknown key hobj
        · simp [hfield]
      · intro key field child child' hfield hchild hchild'
        rw [hchild] at hchild'
        cases hchild'
        -- A child of the output is supplied now; it was supplied before, or it was a default.
        rcases supplied_or_defaulted (hdomain key) hchild with
          ⟨x, hobj⟩ | ⟨hobj, field', d, hfield', hd⟩
        · exact ihs key field x child hfield hobj hchild
        · rw [hfield] at hfield'
          cases hfield'
          exact ihd key field d child hfield hobj hd hchild
      · intro key field d child hfield hnone hd hchild
        rw [hnone] at hchild
        cases hchild

/-- Completion keeps the nodes of the input; only objects among them can grow. -/
theorem nodeAt (h : Completes schema value output) {tokens : List ByteString}
    {node : ConfigurationValue} (hnode : NodeAt value tokens node) :
    ∃ node', NodeAt output tokens node' ∧ (node.type ≠ .object → node' = node) := by
  induction h generalizing tokens with
  | leaf => exact ⟨node, hnode, fun _ => rfl⟩
  | @object schema object out hdomain hknown _ _ ihs _ =>
      cases tokens with
      | nil =>
          rw [NodeAt.nil_iff.1 hnode]
          exact ⟨_, .root _, fun hobject => absurd rfl hobject⟩
      | cons key rest =>
          rcases NodeAt.object_cons_iff.1 hnode with ⟨child, hchild, hbelow⟩
          rcases Option.isSome_iff_exists.1 (hknown key (by simp [hchild])) with ⟨field, hfield⟩
          have hkept := (hdomain key).2 (Or.inl (by simp [hchild]))
          rcases Option.isSome_iff_exists.1 hkept with ⟨child', hchild'⟩
          rcases ihs key field child child' hfield hchild hchild' hbelow with
            ⟨node', hnode', hsame⟩
          exact ⟨node', .field hchild' hnode', hsame⟩

end Completes

/-- A completed value conforms when the value did. -/
theorem Conforms.of_completes {schema : ConfigurationSchema} {value output : ConfigurationValue}
    (hconforms : Conforms schema value) (h : Completes schema value output)
    (hschema : schema.WellFormed) : Conforms schema output := by
  induction h with
  | leaf => exact hconforms
  | @object schema object out hdomain _ _ _ ihs ihd =>
      cases hconforms with
      | leaf _ hobject => exact absurd rfl hobject
      | object htype hknown hsupplied hdefaulted hoptional hsize =>
          refine Conforms.object htype ?_ ?_ ?_ ?_ ?_
          · intro key child hchild
            rcases (hdomain key).1 (by simp [hchild]) with hobj | ⟨field, hfield, -⟩
            · obtain ⟨x, hx⟩ := Option.isSome_iff_exists.1 hobj
              exact hknown key x hx
            · exact ⟨field, hfield⟩
          · intro key field child hfield hchild
            have hwf := hschema.of_lookup hfield
            rcases supplied_or_defaulted (hdomain key) hchild with
              ⟨x, hobj⟩ | ⟨hobj, field', d, hfield', hd⟩
            · exact ihs key field x child hfield hobj hchild
                (hsupplied key field x hfield hobj) hwf
            · rw [hfield] at hfield'
              cases hfield'
              exact ihd key field d child hfield hobj hd hchild
                (hdefaulted key field d hfield hobj hd) hwf
          · intro key field d hfield hnone hd
            have hsome := (hdomain key).2 (Or.inr ⟨field, hfield, by simp [hd]⟩)
            simp [hnone] at hsome
          · intro key field hfield hnone hd
            refine hoptional key field hfield ?_ hd
            by_contra hobj
            have hsome := (hdomain key).2 (Or.inl (Option.isSome_iff_ne_none.2 hobj))
            simp [hnone] at hsome
          -- The bounds of the size count the completed fields, which completing does not change.
          · have hcount : completedSize schema.fields out = completedSize schema.fields object := by
              unfold completedSize
              congr 1
              refine List.filter_congr ?_
              intro entry hmem
              have hfield := hschema.ordered.lookup_of_mem hmem
              rw [Bool.eq_iff_iff]
              simp only [Bool.or_eq_true, hdomain entry.1, hfield, Option.some.injEq,
                exists_eq_left', or_assoc, or_self]
            rw [hcount]
            exact hsize

/-! ## Bounds -/

theorem outsideBounds_eq_false_iff {α : Type} {less : α → α → Bool} {number : α}
    {minimum maximum : Option α} :
    outsideBounds less number minimum maximum = false ↔
      (∀ bound, minimum = some bound → less number bound = false) ∧
        (∀ bound, maximum = some bound → less bound number = false) := by
  simp [outsideBounds, Option.any_eq_false]

theorem sizeOutsideBounds_eq_false_iff {attributes : SchemaAttributes} {size : Nat} :
    sizeOutsideBounds attributes size = false ↔ SizeMet attributes size := by
  simp [sizeOutsideBounds, outsideBounds_eq_false_iff, SizeMet]

/-- A check that reports its status when the test holds. -/
theorem ite_error_eq_ok_iff {test : Bool} {status : Status} :
    (if test = true then (.error status : Result Unit) else .ok ()) = .ok () ↔ test = false := by
  cases test <;> simp

theorem validateNumericBounds_ok_iff {attributes : SchemaAttributes} {value : ConfigurationValue}
    (path : ByteString) (htype : value.type = attributes.type)
    (hstring : value.type ≠ .string) (hlist : value.type ≠ .list) :
    validateNumericBounds attributes value path = .ok () ↔ BoundsMet attributes value := by
  rw [validateNumericBounds, ← htype]
  cases value with
  | string => exact absurd rfl hstring
  | list => exact absurd rfl hlist
  | signedInteger number =>
      refine ite_error_eq_ok_iff.trans (outsideBounds_eq_false_iff.trans ?_)
      simp [BoundsMet, Int64.not_lt]
  | unsignedInteger number =>
      refine ite_error_eq_ok_iff.trans (outsideBounds_eq_false_iff.trans ?_)
      simp [BoundsMet, UInt64.not_lt]
  | double number =>
      simp only [ConfigurationValue.type, ConfigurationValue.asDouble, bind, Except.bind,
        BoundsMet, ← outsideBounds_eq_false_iff]
      by_cases hbounded : attributes.doubleMinimum.isSome ∨ attributes.doubleMaximum.isSome
      · cases hnan : number.isNaN <;> simp [hbounded]
      · simp [hbounded]
  | _ => simp [ConfigurationValue.type, BoundsMet]

theorem validateBounds_ok_iff {attributes : SchemaAttributes} {value : ConfigurationValue}
    {path : ByteString} (htype : value.type = attributes.type) :
    validateBounds attributes value path = .ok () ↔ BoundsMet attributes value := by
  have hnumeric := validateNumericBounds_ok_iff path htype
  cases value with
  | string bytes =>
      have hskip : validateNumericBounds attributes (.string bytes) path = .ok () := by
        rw [validateNumericBounds, ← htype]
        rfl
      simp [validateBounds, hskip, boundedSize, ← htype, ConfigurationValue.type,
        ConfigurationValue.asString, bind, Except.bind, Except.map, BoundsMet,
        sizeOutsideBounds_eq_false_iff]
  | list items =>
      have hskip : validateNumericBounds attributes (.list items) path = .ok () := by
        rw [validateNumericBounds, ← htype]
        rfl
      simp [validateBounds, hskip, boundedSize, ← htype, ConfigurationValue.type,
        ConfigurationValue.asList, bind, Except.bind, Except.map, BoundsMet,
        sizeOutsideBounds_eq_false_iff]
  | _ =>
      rw [← hnumeric (by simp [ConfigurationValue.type]) (by simp [ConfigurationValue.type])]
      simp only [validateBounds, boundedSize, ← htype, ConfigurationValue.type, bind, Except.bind]
      generalize validateNumericBounds attributes _ path = result
      cases result <;> simp

/-! ## Runs conform and complete -/

theorem FieldsRun.length_output {R : NodeRelation} {inputObject output : ConfigurationObject}
    {path : ByteString} {origin : ConfigurationOrigin} {origins : Option ConfigurationOrigins}
    {sensitive : Bool} {fields : SchemaFields} {metadataMap metadataMap' : MetadataMap}
    (h : FieldsRun R inputObject path origin origins sensitive fields metadataMap output
      metadataMap') : output.length = completedSize fields inputObject := by
  induction h with
  | nil => rfl
  | supplied hlookup _ _ ih => simpa [completedSize, hlookup] using ih
  | defaulted _ hdefault _ _ ih => simpa [completedSize, hdefault] using ih
  | absent hlookup hdefault _ _ ih => simpa [completedSize, hlookup, hdefault] using ih

/-- A field loop over conforming and completing nodes, as statements about one object. -/
theorem FieldsRun.conforms_completes {schema : ConfigurationSchema}
    {inputObject output : ConfigurationObject} {path : ByteString} {origin : ConfigurationOrigin}
    {origins : Option ConfigurationOrigins} {sensitive : Bool}
    {metadataMap metadataMap' : MetadataMap} (hordered : Ordered schema.fields)
    (htype : schema.type = .object)
    (hknown : ∀ entry ∈ inputObject, (schema.fields.lookup entry.1).isSome)
    (hrun : FieldsRun (fun schema input _ _ _ _ _ output _ =>
        Conforms schema input ∧ Completes schema input output)
      inputObject path origin origins sensitive schema.fields metadataMap output metadataMap')
    (hsize : sizeOutsideBounds schema.attributes output.length = false) :
    Conforms schema (.object inputObject) ∧ Completes schema (.object inputObject)
      (.object output) := by
  have hfield : ∀ key value, inputObject.lookup key = some value →
      ∃ field, schema.fields.lookup key = some field := by
    intro key value hlookup
    exact Option.isSome_iff_exists.1 (hknown _ (mem_of_lookup hlookup))
  -- Every clause about a key is read off the outcome of that key in the loop.
  constructor
  · refine Conforms.object htype hfield ?_ ?_ ?_ ?_
    · intro key field value hschema hlookup
      rcases (hrun.lookup_field hordered hschema).of_supplied hlookup with ⟨_, _, _, -, hnode⟩
      exact hnode.1
    · intro key field value hschema hlookup hdefault
      rcases (hrun.lookup_field hordered hschema).of_defaulted hlookup hdefault with
        ⟨_, _, _, -, hnode⟩
      exact hnode.1
    · intro key field hschema hlookup hdefault
      exact (hrun.lookup_field hordered hschema).of_absent hlookup hdefault
    · rw [← hrun.length_output]
      exact sizeOutsideBounds_eq_false_iff.1 hsize
  · refine Completes.object ?_ ?_ ?_ ?_
    · intro key
      cases hschema : schema.fields.lookup key with
      | none =>
          have hinput : inputObject.lookup key = none := by
            by_contra hsome
            obtain ⟨value, hvalue⟩ := Option.ne_none_iff_exists'.1 hsome
            obtain ⟨field, hfield⟩ := hfield key value hvalue
            simp [hschema] at hfield
          simp [hrun.lookup_output hschema, hinput]
      | some field =>
          have houtcome := hrun.lookup_field hordered hschema
          generalize output.lookup key = result at houtcome ⊢
          cases houtcome with
          | supplied hlookup => simp [hlookup]
          | defaulted _ hdefault => simp [hdefault]
          | absent hlookup hdefault => simp [hlookup, hdefault]
    · intro key hsome
      obtain ⟨value, hvalue⟩ := Option.isSome_iff_exists.1 hsome
      exact hknown _ (mem_of_lookup hvalue)
    · intro key field value value' hschema hlookup hout
      rcases (hrun.lookup_field hordered hschema).of_supplied hlookup with
        ⟨validated, _, _, hvalidated, hnode⟩
      rw [hout, Option.some.injEq] at hvalidated
      exact hvalidated ▸ hnode.2
    · intro key field value value' hschema hlookup hdefault hout
      rcases (hrun.lookup_field hordered hschema).of_defaulted hlookup hdefault with
        ⟨validated, _, _, hvalidated, hnode⟩
      rw [hout, Option.some.injEq] at hvalidated
      exact hvalidated ▸ hnode.2

section NodeRuns

variable {schema : ConfigurationSchema} {input output : ConfigurationValue} {path : ByteString}
  {inheritedOrigin : ConfigurationOrigin} {origins : Option ConfigurationOrigins}
  {inheritedSensitive : Bool} {metadataMap metadataMap' : MetadataMap}

theorem nodeRun_conforms_completes (hschema : schema.WellFormed)
    (h : NodeRun schema input path inheritedOrigin origins inheritedSensitive metadataMap output
      metadataMap') :
    Conforms schema input ∧ Completes schema input output := by
  refine validateNode_induction (P := fun schema input _ _ _ _ _ output _ =>
    Conforms schema input ∧ Completes schema input output) ?_ hschema h
  intro schema input output path _ origins _ metadataMap metadataMap' hschema htype hbounds hshape
  have hmet := (validateBounds_ok_iff htype).1 hbounds
  cases hshape with
  | object hknown hrun hsize =>
      exact hrun.conforms_completes hschema.ordered htype.symm hknown hsize
  | list items =>
      exact ⟨.leaf htype (by simp [ConfigurationValue.type]) hmet,
        .leaf (by simp [ConfigurationValue.type])⟩
  | scalar _ hobject =>
      exact ⟨.leaf htype hobject hmet, .leaf hobject⟩

/-- Validation keeps the container invariants. -/
theorem nodeRun_wellFormed (hschema : schema.WellFormed)
    (h : NodeRun schema input path inheritedOrigin origins inheritedSensitive metadataMap output
      metadataMap') (hinput : input.WellFormed) : output.WellFormed := by
  refine validateNode_induction (P := fun _ input _ _ _ _ _ output _ =>
    input.WellFormed → output.WellFormed) ?_ hschema h hinput
  intro schema input output path _ origins _ metadataMap metadataMap' hschema _ _ hshape hinput
  cases hshape with
  | @object inputObject outputObject _ _ hknown hrun hsize =>
      have hordered := hrun.ordered hschema.ordered
      refine .object _ hordered ?_
      rintro ⟨key, value⟩ hmem
      have hlookup := hordered.lookup_of_mem hmem
      cases hfield : schema.fields.lookup key with
      | none => simp [hrun.lookup_output hfield] at hlookup
      | some field =>
          have houtcome := hrun.lookup_field hschema.ordered hfield
          rw [hlookup] at houtcome
          cases houtcome with
          | supplied hsupplied hnode => exact hnode (hinput.of_lookup hsupplied)
          | defaulted _ hdefault hnode =>
              exact hnode ((hschema.of_lookup hfield).default hdefault)
  | list => exact hinput
  | scalar => exact hinput

/-- The loop runs when every field of a list of entries has a run. -/
theorem exists_fieldsRun {R : NodeRelation} {inputObject : ConfigurationObject}
    {path : ByteString} {origin : ConfigurationOrigin} {origins : Option ConfigurationOrigins}
    {sensitive : Bool} {fields : SchemaFields} (metadataMap : MetadataMap)
    (hsupplied : ∀ entry ∈ fields, ∀ value, inputObject.lookup entry.1 = some value →
      ∀ metadataMap, ∃ validated metadataMap', R entry.2 value (childPath path entry.1) origin
        origins sensitive metadataMap validated metadataMap')
    (hdefaulted : ∀ entry ∈ fields, ∀ value, inputObject.lookup entry.1 = none →
      entry.2.defaultValue = some value →
      ∀ metadataMap, ∃ validated metadataMap', R entry.2 value (childPath path entry.1) .default
        none sensitive metadataMap validated metadataMap')
    (hoptional : ∀ entry ∈ fields, inputObject.lookup entry.1 = none →
      entry.2.defaultValue = none → entry.2.required = false) :
    ∃ output metadataMap', FieldsRun R inputObject path origin origins sensitive fields metadataMap
      output metadataMap' := by
  induction fields generalizing metadataMap with
  | nil =>
      exact ⟨[], metadataMap, .nil metadataMap⟩
  | cons entry rest ih =>
      obtain ⟨key, field⟩ := entry
      have hrest := fun metadataMap => ih metadataMap
        (fun other hmem => hsupplied other (List.mem_cons_of_mem _ hmem))
        (fun other hmem => hdefaulted other (List.mem_cons_of_mem _ hmem))
        (fun other hmem => hoptional other (List.mem_cons_of_mem _ hmem))
      -- One constructor of the run for each branch of the loop; the map is passed along.
      cases hlookup : inputObject.lookup key with
      | some value =>
          obtain ⟨validated, metadataMap₁, hnode⟩ :=
            hsupplied (key, field) List.mem_cons_self value hlookup metadataMap
          obtain ⟨output, metadataMap₂, hrun⟩ := hrest metadataMap₁
          exact ⟨_, _, .supplied hlookup hnode hrun⟩
      | none =>
          cases hdefault : field.defaultValue with
          | some value =>
              obtain ⟨validated, metadataMap₁, hnode⟩ :=
                hdefaulted (key, field) List.mem_cons_self value hlookup hdefault metadataMap
              obtain ⟨output, metadataMap₂, hrun⟩ := hrest metadataMap₁
              exact ⟨_, _, .defaulted hlookup hdefault hnode hrun⟩
          | none =>
              obtain ⟨output, metadataMap₂, hrun⟩ := hrest metadataMap
              exact ⟨_, _, .absent hlookup hdefault
                (hoptional (key, field) List.mem_cons_self hlookup hdefault) hrun⟩

/-- Validation succeeds on every conforming value, whatever the path, origins and map. -/
theorem exists_nodeRun (hschema : schema.WellFormed) (h : Conforms schema input) :
    ∃ output metadataMap', NodeRun schema input path inheritedOrigin origins inheritedSensitive
      metadataMap output metadataMap' := by
  induction h generalizing path inheritedOrigin origins inheritedSensitive metadataMap with
  | @leaf schema value htype hobject hbounds =>
      simp only [validateNode_ok_iff hschema.ordered, (validateBounds_ok_iff htype).2 hbounds,
        htype, true_and]
      cases value with
      | object => exact absurd rfl hobject
      | list items => exact ⟨_, _, .list items _⟩
      | _ =>
          exact ⟨_, _, .scalar _ (by simp [ConfigurationValue.type])
            (by simp [ConfigurationValue.type])⟩
  | @object schema object htype hknown _ _ hoptional hsize ihs ihd =>
      have hlookup : ∀ entry ∈ schema.fields, schema.fields.lookup entry.1 = some entry.2 :=
        fun entry hmem => hschema.ordered.lookup_of_mem hmem
      let metadata :=
        ownMetadata schema.attributes path inheritedOrigin origins inheritedSensitive
      -- The runs of the children, from the hypotheses of the induction, make the run of the loop.
      obtain ⟨output, metadataMap', hrun⟩ : ∃ output metadataMap', FieldsRun NodeRun object path
          metadata.origin origins metadata.sensitive schema.fields
          (metadataMap.insertOrAssign path metadata) output metadataMap' := by
        refine exists_fieldsRun _ ?_ ?_ ?_
        · intro entry hmem value hvalue _
          exact ihs entry.1 entry.2 value (hlookup entry hmem) hvalue (hschema.of_mem hmem)
        · intro entry hmem value hnone hdefault _
          exact ihd entry.1 entry.2 value (hlookup entry hmem) hnone hdefault
            (hschema.of_mem hmem)
        · intro entry hmem hnone hdefault
          exact hoptional entry.1 entry.2 (hlookup entry hmem) hnone hdefault
      refine ⟨.object output, metadataMap', (validateNode_ok_iff hschema.ordered).2 ?_⟩
      have htype' : (ConfigurationValue.object object).type = schema.attributes.type := htype.symm
      have hbounds : validateBounds schema.attributes (.object object) path = .ok () :=
        (validateBounds_ok_iff htype').2 trivial
      refine ⟨htype.symm, hbounds, .object ?_ hrun ?_⟩
      · rintro ⟨key, value⟩ hmem
        obtain ⟨value', hvalue⟩ := Option.isSome_iff_exists.1
          (lookup_isSome_iff_mem_keys.2 (List.mem_map_of_mem hmem))
        exact Option.isSome_iff_exists.2 (hknown key value' hvalue)
      · rw [hrun.length_output, sizeOutsideBounds_eq_false_iff]
        exact hsize

end NodeRuns

/-! ## The entry point -/

theorem validateConfiguration_ok_iff {schema : ConfigurationSchema} {value : ConfigurationValue}
    {origin : ConfigurationOrigin} {configuration : Configuration} :
    validateConfiguration schema value origin = .ok configuration ↔
      NodeRun schema value [] origin none false .empty configuration.value
        configuration.metadata := by
  obtain ⟨output, metadata⟩ := configuration
  rw [validateConfiguration, NodeRun]
  generalize validateNode schema value [] origin none false .empty = result
  rcases result with status | ⟨output', metadata'⟩ <;> simp

/-- Validation decides conformance, returns the completion, and is idempotent. -/
theorem validateConfiguration_correct (schema : BuiltSchema) (value : ValidValue)
    (origin : ConfigurationOrigin) :
    ((∃ configuration, validateConfiguration schema.1 value.1 origin = .ok configuration) ↔
        Conforms schema.1 value.1) ∧
      ∀ configuration, validateConfiguration schema.1 value.1 origin = .ok configuration →
        Completes schema.1 value.1 configuration.value ∧
        (∀ output : ValidValue, Completes schema.1 value.1 output.1 →
          output.1 = configuration.value) ∧
        ∀ origin', ∃ configuration',
          validateConfiguration schema.1 configuration.value origin' = .ok configuration' ∧
          configuration'.value = configuration.value := by
  have hschema := schema.2.wellFormed
  constructor
  · constructor
    · rintro ⟨configuration, h⟩
      exact (nodeRun_conforms_completes hschema (validateConfiguration_ok_iff.1 h)).1
    · intro h
      obtain ⟨output, metadata, hrun⟩ := exists_nodeRun hschema h
      exact ⟨⟨output, metadata⟩, validateConfiguration_ok_iff.2 hrun⟩
  · intro configuration h
    have hrun := validateConfiguration_ok_iff.1 h
    obtain ⟨hconforms, hcompletes⟩ := nodeRun_conforms_completes hschema hrun
    have hwf := nodeRun_wellFormed hschema hrun value.2
    refine ⟨hcompletes, fun output hout => hout.unique hcompletes output.2 hwf, ?_⟩
    intro origin'
    obtain ⟨output, metadata, hagain⟩ :=
      exists_nodeRun hschema (hconforms.of_completes hcompletes hschema)
    have hcompletes' := (nodeRun_conforms_completes hschema hagain).2
    have hwf' := nodeRun_wellFormed hschema hagain hwf
    exact ⟨⟨output, metadata⟩, validateConfiguration_ok_iff.2 hagain,
      hcompletes'.unique hcompletes.completes_self hwf' hwf⟩

/-! ## Optional fields with a default -/

/-- Conformance with the defaults of optional fields left out of account: a missing field is
optional, or has a default that conforms. -/
inductive ConformsUpToOptional : ConfigurationSchema → ConfigurationValue → Prop where
  | leaf {schema : ConfigurationSchema} {value : ConfigurationValue}
      (htype : value.type = schema.type) (hobject : value.type ≠ .object)
      (hbounds : BoundsMet schema.attributes value) : ConformsUpToOptional schema value
  | object {schema : ConfigurationSchema} {object : ConfigurationObject}
      (htype : schema.type = .object)
      (hknown : ∀ key value, object.lookup key = some value →
        ∃ field, schema.fields.lookup key = some field)
      (hsupplied : ∀ key field value, schema.fields.lookup key = some field →
        object.lookup key = some value → ConformsUpToOptional field value)
      (hmissing : ∀ key field, schema.fields.lookup key = some field →
        object.lookup key = none → field.required = false ∨ field.defaultValue.isSome)
      (hdefaulted : ∀ key field value, schema.fields.lookup key = some field →
        object.lookup key = none → field.required = true → field.defaultValue = some value →
        ConformsUpToOptional field value)
      (hsize : SizeMet schema.attributes (completedSize schema.fields object)) :
      ConformsUpToOptional schema (.object object)

/-- An object schema with one optional integer field whose default is a boolean. -/
def invalidDefaultSchema : ConfigurationSchema :=
  { attributes := { type := .object }
    fields := [(text "field", (ConfigurationSchema.new .signedInteger).setDefault (.bool true))] }

theorem invalidDefaultSchema_built : invalidDefaultSchema.Built :=
  .addField (.new .object) (.setDefault (.new .signedInteger) (.bool true))
    (rfl : (ConfigurationSchema.new .object).addField (text "field") _ = _)

theorem lookup_invalidDefaultSchema : invalidDefaultSchema.fields.lookup (text "field") =
    some ((ConfigurationSchema.new .signedInteger).setDefault (.bool true)) := by
  simp only [invalidDefaultSchema, List.lookup_cons_self]

/-- The default of a missing field is validated even when the field is optional. -/
theorem validateConfiguration_invalid_optional_default :
    invalidDefaultSchema.Built ∧ ConformsUpToOptional invalidDefaultSchema (.object []) ∧
      ∀ configuration, validateConfiguration invalidDefaultSchema (.object [])
        (.programmatic none none) ≠ .ok configuration := by
  refine ⟨invalidDefaultSchema_built, ?_, ?_⟩
  · refine .object rfl ?_ ?_ ?_ ?_ ⟨nofun, nofun⟩
    · intro key value hlookup
      simp at hlookup
    · intro key field value _ hlookup
      simp at hlookup
    · intro key field hfield _
      have hmem := mem_of_lookup hfield
      simp only [invalidDefaultSchema, List.mem_singleton, Prod.mk.injEq] at hmem
      exact Or.inl (by rw [hmem.2]; rfl)
    · intro key field value hfield _ hrequired
      have hmem := mem_of_lookup hfield
      simp only [invalidDefaultSchema, List.mem_singleton, Prod.mk.injEq] at hmem
      rw [hmem.2] at hrequired
      cases hrequired
  · intro configuration h
    have hrun := validateConfiguration_ok_iff.1 h
    have hconforms := (nodeRun_conforms_completes invalidDefaultSchema_built.wellFormed hrun).1
    cases hconforms with
    | leaf _ hobject => exact hobject rfl
    | object _ _ _ hdefaulted _ _ =>
        have hfield := hdefaulted (text "field") _ _ lookup_invalidDefaultSchema rfl rfl
        cases hfield with
        | leaf htype => cases htype

end Core
end AscCpp
