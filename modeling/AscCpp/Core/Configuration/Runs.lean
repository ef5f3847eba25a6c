import AscCpp.Core.Configuration.Validate

/-!
# Runs — what a successful validation can do

The successful runs of `validateNode`, inverted once.  The field loop of an object schema is the
list-level relation `FieldsRun`, over any relation for the single nodes; every later result about
validation is an instance of

* `validateNode_ok_iff` — a node run, by the three shapes of its input (object, list, scalar);
* `validateNode_induction` — a property of all node runs follows from its three cases;
* `FieldsRun.lookup_field`, `FieldsRun.lookup_output` — the outcome of one field.
-/

namespace AscCpp
namespace Core

open Library

/-- A relation between the arguments of `validateNode` and the value and metadata map it returns. -/
abbrev NodeRelation :=
  ConfigurationSchema → ConfigurationValue → ByteString → ConfigurationOrigin →
    Option ConfigurationOrigins → Bool → MetadataMap → ConfigurationValue → MetadataMap → Prop

/-- The relation of the successful calls. -/
def NodeRun : NodeRelation :=
  fun schema input path origin origins sensitive metadataMap output metadataMap' =>
    validateNode schema input path origin origins sensitive metadataMap =
      .ok (output, metadataMap')

/-- The field loop: every field is supplied, defaulted or absent, in schema order. -/
inductive FieldsRun (R : NodeRelation) (inputObject : ConfigurationObject) (path : ByteString)
    (origin : ConfigurationOrigin) (origins : Option ConfigurationOrigins) (sensitive : Bool) :
    SchemaFields → MetadataMap → ConfigurationObject → MetadataMap → Prop where
  | nil (metadataMap : MetadataMap) :
      FieldsRun R inputObject path origin origins sensitive [] metadataMap [] metadataMap
  | supplied {key : ByteString} {field : ConfigurationSchema} {child validated : ConfigurationValue}
      {rest : SchemaFields} {output : ConfigurationObject}
      {metadataMap metadataMap₁ metadataMap₂ : MetadataMap}
      (hlookup : inputObject.lookup key = some child)
      (hnode : R field child (childPath path key) origin origins sensitive metadataMap validated
        metadataMap₁)
      (hrest : FieldsRun R inputObject path origin origins sensitive rest metadataMap₁ output
        metadataMap₂) :
      FieldsRun R inputObject path origin origins sensitive ((key, field) :: rest) metadataMap
        ((key, validated) :: output) metadataMap₂
  | defaulted {key : ByteString} {field : ConfigurationSchema}
      {value validated : ConfigurationValue} {rest : SchemaFields} {output : ConfigurationObject}
      {metadataMap metadataMap₁ metadataMap₂ : MetadataMap}
      (hlookup : inputObject.lookup key = none) (hdefault : field.defaultValue = some value)
      (hnode : R field value (childPath path key) .default none sensitive metadataMap validated
        metadataMap₁)
      (hrest : FieldsRun R inputObject path origin origins sensitive rest metadataMap₁ output
        metadataMap₂) :
      FieldsRun R inputObject path origin origins sensitive ((key, field) :: rest) metadataMap
        ((key, validated) :: output) metadataMap₂
  | absent {key : ByteString} {field : ConfigurationSchema} {rest : SchemaFields}
      {output : ConfigurationObject} {metadataMap metadataMap₂ : MetadataMap}
      (hlookup : inputObject.lookup key = none) (hdefault : field.defaultValue = none)
      (hrequired : field.required = false)
      (hrest : FieldsRun R inputObject path origin origins sensitive rest metadataMap output
        metadataMap₂) :
      FieldsRun R inputObject path origin origins sensitive ((key, field) :: rest) metadataMap
        output metadataMap₂

namespace FieldsRun

variable {R R' : NodeRelation} {inputObject output : ConfigurationObject} {path : ByteString}
  {origin : ConfigurationOrigin} {origins : Option ConfigurationOrigins} {sensitive : Bool}
  {fields : SchemaFields} {metadataMap metadataMap' : MetadataMap}

theorem imp (h : FieldsRun R inputObject path origin origins sensitive fields metadataMap output
      metadataMap')
    (himp : ∀ entry ∈ fields, ∀ input childPath origin origins sensitive metadataMap output
      metadataMap', R entry.2 input childPath origin origins sensitive metadataMap output
        metadataMap' → R' entry.2 input childPath origin origins sensitive metadataMap output
        metadataMap') :
    FieldsRun R' inputObject path origin origins sensitive fields metadataMap output
      metadataMap' := by
  induction h with
  | nil metadataMap =>
      exact nil metadataMap
  | supplied hlookup hnode _ ih =>
      exact supplied hlookup (himp _ List.mem_cons_self _ _ _ _ _ _ _ _ hnode)
        (ih fun entry hmem => himp entry (List.mem_cons_of_mem _ hmem))
  | defaulted hlookup hdefault hnode _ ih =>
      exact defaulted hlookup hdefault (himp _ List.mem_cons_self _ _ _ _ _ _ _ _ hnode)
        (ih fun entry hmem => himp entry (List.mem_cons_of_mem _ hmem))
  | absent hlookup hdefault hrequired _ ih =>
      exact absent hlookup hdefault hrequired
        (ih fun entry hmem => himp entry (List.mem_cons_of_mem _ hmem))

/-- The output's keys are field keys. -/
theorem keys_sublist (h : FieldsRun R inputObject path origin origins sensitive fields metadataMap
      output metadataMap') :
    (output.map Prod.fst).Sublist (fields.map Prod.fst) := by
  induction h with
  | nil => exact List.Sublist.slnil
  | supplied _ _ _ ih => exact ih.cons_cons _
  | defaulted _ _ _ _ ih => exact ih.cons_cons _
  | absent _ _ _ _ ih => exact ih.cons _

theorem ordered (h : FieldsRun R inputObject path origin origins sensitive fields metadataMap
      output metadataMap') (hfields : Ordered fields) : Ordered output :=
  hfields.sublist h.keys_sublist

/-- The outcome of one field. -/
inductive Outcome (R : NodeRelation) (inputObject : ConfigurationObject) (path : ByteString)
    (origin : ConfigurationOrigin) (origins : Option ConfigurationOrigins) (sensitive : Bool)
    (key : ByteString) (field : ConfigurationSchema) : Option ConfigurationValue → Prop where
  | supplied {child validated : ConfigurationValue} {metadataMap metadataMap' : MetadataMap}
      (hlookup : inputObject.lookup key = some child)
      (hnode : R field child (childPath path key) origin origins sensitive metadataMap validated
        metadataMap') :
      Outcome R inputObject path origin origins sensitive key field (some validated)
  | defaulted {value validated : ConfigurationValue} {metadataMap metadataMap' : MetadataMap}
      (hlookup : inputObject.lookup key = none) (hdefault : field.defaultValue = some value)
      (hnode : R field value (childPath path key) .default none sensitive metadataMap validated
        metadataMap') :
      Outcome R inputObject path origin origins sensitive key field (some validated)
  | absent (hlookup : inputObject.lookup key = none) (hdefault : field.defaultValue = none)
      (hrequired : field.required = false) :
      Outcome R inputObject path origin origins sensitive key field none

namespace Outcome

variable {key : ByteString} {field : ConfigurationSchema} {result : Option ConfigurationValue}
  {value : ConfigurationValue}

/-- A supplied field was validated as it is. -/
theorem of_supplied (h : Outcome R inputObject path origin origins sensitive key field result)
    (hlookup : inputObject.lookup key = some value) :
    ∃ validated metadataMap metadataMap', result = some validated ∧
      R field value (childPath path key) origin origins sensitive metadataMap validated
        metadataMap' := by
  cases h with
  | supplied hlookup' hnode =>
      rw [hlookup] at hlookup'
      cases hlookup'
      exact ⟨_, _, _, rfl, hnode⟩
  | defaulted hlookup' => simp [hlookup] at hlookup'
  | absent hlookup' => simp [hlookup] at hlookup'

/-- A missing field with a default had the default validated. -/
theorem of_defaulted (h : Outcome R inputObject path origin origins sensitive key field result)
    (hlookup : inputObject.lookup key = none) (hdefault : field.defaultValue = some value) :
    ∃ validated metadataMap metadataMap', result = some validated ∧
      R field value (childPath path key) .default none sensitive metadataMap validated
        metadataMap' := by
  cases h with
  | supplied hlookup' => simp [hlookup] at hlookup'
  | defaulted _ hdefault' hnode =>
      rw [hdefault] at hdefault'
      cases hdefault'
      exact ⟨_, _, _, rfl, hnode⟩
  | absent _ hdefault' => simp [hdefault] at hdefault'

/-- A missing field without a default is an optional one. -/
theorem of_absent (h : Outcome R inputObject path origin origins sensitive key field result)
    (hlookup : inputObject.lookup key = none) (hdefault : field.defaultValue = none) :
    field.required = false := by
  cases h with
  | supplied hlookup' => simp [hlookup] at hlookup'
  | defaulted _ hdefault' => simp [hdefault] at hdefault'
  | absent _ _ hrequired => exact hrequired

end Outcome

theorem lookup_output (h : FieldsRun R inputObject path origin origins sensitive fields metadataMap
      output metadataMap') {key : ByteString} (hnone : fields.lookup key = none) :
    output.lookup key = none := by
  by_contra hsome
  have hmem : key ∈ output.map Prod.fst :=
    lookup_isSome_iff_mem_keys.1 (Option.isSome_iff_ne_none.2 hsome)
  have hfield := lookup_isSome_iff_mem_keys.2 (h.keys_sublist.subset hmem)
  simp [hnone] at hfield

theorem lookup_field (h : FieldsRun R inputObject path origin origins sensitive fields metadataMap
      output metadataMap') (hfields : Ordered fields) {key : ByteString}
    {field : ConfigurationSchema} (hfield : fields.lookup key = some field) :
    Outcome R inputObject path origin origins sensitive key field (output.lookup key) := by
  -- The key stands once in the schema, so the loop meets it at one field.
  induction h with
  | nil =>
      cases hfield
  | @supplied k f _ _ rest _ _ _ _ hlookup hnode _ ih =>
      by_cases hk : key = k
      · subst hk
        simp only [List.lookup_cons_self, Option.some.injEq] at hfield ⊢
        exact hfield ▸ Outcome.supplied hlookup hnode
      · rw [lookup_cons_of_ne hk] at hfield ⊢
        exact ih hfields.tail hfield
  | @defaulted k f _ _ rest _ _ _ _ hlookup hdefault hnode _ ih =>
      by_cases hk : key = k
      · subst hk
        simp only [List.lookup_cons_self, Option.some.injEq] at hfield ⊢
        subst hfield
        exact Outcome.defaulted hlookup hdefault hnode
      · rw [lookup_cons_of_ne hk] at hfield ⊢
        exact ih hfields.tail hfield
  | @absent k f rest output _ _ hlookup hdefault hrequired hrest ih =>
      by_cases hk : key = k
      · subst hk
        simp only [List.lookup_cons_self, Option.some.injEq] at hfield
        subst hfield
        -- The rest of the loop does not add the key either.
        rw [hrest.lookup_output (hfields.lookup_tail_of_le le_rfl)]
        exact Outcome.absent hlookup hdefault hrequired
      · rw [lookup_cons_of_ne hk] at hfield
        exact ih hfields.tail hfield

end FieldsRun

/-! ## The field loop is a run -/

theorem validateFields_ok_iff {inputObject accumulated result : ConfigurationObject}
    {path : ByteString} {origin : ConfigurationOrigin} {origins : Option ConfigurationOrigins}
    {sensitive : Bool} {fields : SchemaFields} {metadataMap metadataMap' : MetadataMap}
    (hfields : Ordered fields)
    (hbefore : ∀ entry ∈ accumulated, ∀ field ∈ fields, entry.1 < field.1) :
    validateFields fields inputObject path origin origins sensitive metadataMap accumulated =
        .ok (result, metadataMap') ↔
      ∃ output, result = accumulated ++ output ∧
        FieldsRun NodeRun inputObject path origin origins sensitive fields metadataMap output
          metadataMap' := by
  induction fields generalizing accumulated metadataMap with
  | nil =>
      simp only [validateFields, Except.ok.injEq, Prod.mk.injEq]
      constructor
      · rintro ⟨rfl, rfl⟩
        exact ⟨[], by simp, FieldsRun.nil _⟩
      · rintro ⟨output, rfl, hrun⟩
        cases hrun
        simp
  | cons entry rest ih =>
      obtain ⟨key, field⟩ := entry
      have hlast : ∀ other ∈ accumulated, other.1 < key :=
        fun other hmem => hbefore other hmem _ List.mem_cons_self
      have hskip : ∀ other ∈ accumulated, ∀ field ∈ rest, other.1 < field.1 :=
        fun other hmem field hfield => hbefore other hmem field (List.mem_cons_of_mem _ hfield)
      -- Appending the entry of `key` keeps the accumulated keys below the remaining ones.
      have hpush : ∀ validated : ConfigurationValue,
          ∀ other ∈ accumulated ++ [(key, validated)], ∀ field ∈ rest, other.1 < field.1 := by
        intro validated other hmem field hfield
        rcases List.mem_append.1 hmem with hold | hnew
        · exact hskip other hold field hfield
        · rw [List.mem_singleton.1 hnew]
          exact hfields.head_lt hfield
      rw [validateFields]
      cases hlookup : inputObject.lookup key with
      | some child =>
          simp only
          constructor
          · intro h
            split at h
            · cases h
            · rename_i validated metadataMap₁ hnode
              rw [emplace_eq_append hlast, ih hfields.tail (hpush validated)] at h
              obtain ⟨output, rfl, hrun⟩ := h
              exact ⟨(key, validated) :: output, by simp, .supplied hlookup hnode hrun⟩
          · rintro ⟨output, rfl, hrun⟩
            cases hrun with
            | @supplied _ _ _ validated _ output _ _ _ hlookup' hnode hrest =>
                rw [hlookup] at hlookup'
                cases hlookup'
                rw [NodeRun] at hnode
                simp only [hnode]
                rw [emplace_eq_append hlast, ih hfields.tail (hpush validated)]
                exact ⟨output, by simp, hrest⟩
            | defaulted hlookup' => simp [hlookup] at hlookup'
            | absent hlookup' => simp [hlookup] at hlookup'
      | none =>
          simp only
          cases hdefault : field.defaultValue with
          | some value =>
              simp only
              constructor
              · intro h
                split at h
                · cases h
                · rename_i validated metadataMap₁ hnode
                  rw [emplace_eq_append hlast, ih hfields.tail (hpush validated)] at h
                  obtain ⟨output, rfl, hrun⟩ := h
                  exact ⟨(key, validated) :: output, by simp,
                    .defaulted hlookup hdefault hnode hrun⟩
              · rintro ⟨output, rfl, hrun⟩
                cases hrun with
                | supplied hlookup' => simp [hlookup] at hlookup'
                | @defaulted _ _ _ validated _ output _ _ _ _ hdefault' hnode hrest =>
                    rw [hdefault] at hdefault'
                    cases hdefault'
                    rw [NodeRun] at hnode
                    simp only [hnode]
                    rw [emplace_eq_append hlast, ih hfields.tail (hpush validated)]
                    exact ⟨output, by simp, hrest⟩
                | absent _ hdefault' => simp [hdefault] at hdefault'
          | none =>
              simp only
              constructor
              · intro h
                split at h
                · cases h
                · rename_i hrequired
                  rw [ih hfields.tail hskip] at h
                  obtain ⟨output, rfl, hrun⟩ := h
                  exact ⟨output, rfl,
                    .absent hlookup hdefault (by simpa using hrequired) hrun⟩
              · rintro ⟨output, rfl, hrun⟩
                cases hrun with
                | supplied hlookup' => simp [hlookup] at hlookup'
                | defaulted _ hdefault' => simp [hdefault] at hdefault'
                | absent _ _ hrequired hrest =>
                    simp only [hrequired, Bool.false_eq_true, if_false]
                    exact (ih hfields.tail hskip).2 ⟨output, rfl, hrest⟩

/-! ## Node runs -/

/-- The metadata a schema node writes for its own path. -/
def ownMetadata (attributes : SchemaAttributes) (path : ByteString)
    (inheritedOrigin : ConfigurationOrigin) (origins : Option ConfigurationOrigins)
    (inheritedSensitive : Bool) : ConfigurationMetadata :=
  { origin := effectiveOrigin origins path inheritedOrigin
    sensitive := inheritedSensitive || attributes.sensitive
    deprecated := attributes.deprecated }

/-- The part of a node run after its own metadata is written, by the shape of the input. -/
inductive NodeShape (R : NodeRelation) (schema : ConfigurationSchema) (path : ByteString)
    (metadata : ConfigurationMetadata) (origins : Option ConfigurationOrigins) :
    ConfigurationValue → MetadataMap → ConfigurationValue → MetadataMap → Prop where
  | object {inputObject output : ConfigurationObject} {metadataMap metadataMap' : MetadataMap}
      (hknown : ∀ entry ∈ inputObject, (schema.fields.lookup entry.1).isSome)
      (hrun : FieldsRun R inputObject path metadata.origin origins metadata.sensitive
        schema.fields metadataMap output metadataMap')
      (hsize : sizeOutsideBounds schema.attributes output.length = false) :
      NodeShape R schema path metadata origins (.object inputObject) metadataMap (.object output)
        metadataMap'
  | list (items : List ConfigurationValue) (metadataMap : MetadataMap) :
      NodeShape R schema path metadata origins (.list items) metadataMap (.list items)
        (recordItems items 0 path metadata origins metadataMap)
  | scalar {input : ConfigurationValue} (metadataMap : MetadataMap)
      (hobject : input.type ≠ .object) (hlist : input.type ≠ .list) :
      NodeShape R schema path metadata origins input metadataMap input metadataMap

theorem find_unknown_eq_none_iff {inputObject : ConfigurationObject} {fields : SchemaFields} :
    inputObject.find? (fun entry => (fields.lookup entry.1).isNone) = none ↔
      ∀ entry ∈ inputObject, (fields.lookup entry.1).isSome := by
  simp [List.find?_eq_none, Option.isSome_iff_ne_none]

/-- A successful node run, inverted. -/
theorem validateNode_ok_iff {schema : ConfigurationSchema} {input output : ConfigurationValue}
    {path : ByteString} {inheritedOrigin : ConfigurationOrigin}
    {origins : Option ConfigurationOrigins} {inheritedSensitive : Bool}
    {metadataMap metadataMap' : MetadataMap} (hfields : Ordered schema.fields) :
    NodeRun schema input path inheritedOrigin origins inheritedSensitive metadataMap output
        metadataMap' ↔
      input.type = schema.type ∧ validateBounds schema.attributes input path = .ok () ∧
        let metadata :=
          ownMetadata schema.attributes path inheritedOrigin origins inheritedSensitive
        NodeShape NodeRun schema path metadata origins input
          (metadataMap.insertOrAssign path metadata) output metadataMap' := by
  obtain ⟨attributes, fields⟩ := schema
  rw [NodeRun, validateNode]
  -- The tests are inverted in the order of the source: type, bounds, unknown keys, fields, size.
  by_cases htype : input.type = attributes.type
  swap
  · simp [htype, ConfigurationSchema.type]
  cases hbounds : validateBounds attributes input path with
  | error status =>
      simp [htype]
  | ok =>
      simp only [htype, ne_eq, not_true_eq_false, if_false, ConfigurationSchema.type, true_and]
      cases input with
      | object inputObject =>
          cases hfind : inputObject.find? (fun entry => (fields.lookup entry.1).isNone) with
          | some entry =>
              simp only [hfind, reduceCtorEq, false_iff]
              intro hshape
              cases hshape with
              | object hknown =>
                  rw [find_unknown_eq_none_iff.2 hknown] at hfind
                  cases hfind
              | scalar _ hobject => exact hobject rfl
          | none =>
              have hknown := find_unknown_eq_none_iff.1 hfind
              simp only [hfind]
              constructor
              · intro h
                split at h
                · cases h
                · rename_i outputObject metadataMap₁ hloop
                  obtain ⟨fieldOutput, rfl, hrun⟩ :=
                    (validateFields_ok_iff hfields (by simp)).1 hloop
                  split at h
                  · cases h
                  · rename_i hsize
                    cases h
                    exact .object hknown hrun (by simpa using hsize)
              · intro hshape
                cases hshape with
                | @object _ fieldOutput _ _ _ hrun hsize =>
                    have hloop := (validateFields_ok_iff hfields (by simp)).2
                      ⟨fieldOutput, (List.nil_append fieldOutput).symm, hrun⟩
                    simp only [ownMetadata] at hloop
                    simp [hloop, hsize]
                | scalar _ hobject => exact absurd rfl hobject
      | list items =>
          simp only [Except.ok.injEq, Prod.mk.injEq]
          constructor
          · rintro ⟨rfl, rfl⟩
            exact .list items _
          · intro hshape
            cases hshape with
            | list => exact ⟨rfl, rfl⟩
            | scalar _ _ hlist => exact absurd rfl hlist
      | _ =>
          simp only [Except.ok.injEq, Prod.mk.injEq]
          constructor
          · rintro ⟨rfl, rfl⟩
            exact .scalar _ (by simp [ConfigurationValue.type]) (by simp [ConfigurationValue.type])
          · intro hshape
            cases hshape
            exact ⟨rfl, rfl⟩

theorem NodeShape.imp {R R' : NodeRelation} {schema : ConfigurationSchema}
    {input output : ConfigurationValue} {path : ByteString} {metadata : ConfigurationMetadata}
    {origins : Option ConfigurationOrigins} {metadataMap metadataMap' : MetadataMap}
    (h : NodeShape R schema path metadata origins input metadataMap output metadataMap')
    (himp : ∀ entry ∈ schema.fields, ∀ input childPath origin origins sensitive metadataMap output
      metadataMap', R entry.2 input childPath origin origins sensitive metadataMap output
        metadataMap' → R' entry.2 input childPath origin origins sensitive metadataMap output
        metadataMap') :
    NodeShape R' schema path metadata origins input metadataMap output metadataMap' := by
  cases h with
  | object hknown hrun hsize => exact .object hknown (hrun.imp himp) hsize
  | list items metadataMap => exact .list items metadataMap
  | scalar metadataMap hobject hlist => exact .scalar metadataMap hobject hlist

/-- Induction over successful runs: a property of the fields' runs gives the node's. -/
theorem validateNode_induction {P : NodeRelation}
    (step : ∀ (schema : ConfigurationSchema) (input output : ConfigurationValue)
      (path : ByteString) (inheritedOrigin : ConfigurationOrigin)
      (origins : Option ConfigurationOrigins) (inheritedSensitive : Bool)
      (metadataMap metadataMap' : MetadataMap), schema.WellFormed →
      input.type = schema.type → validateBounds schema.attributes input path = .ok () →
      (let metadata :=
        ownMetadata schema.attributes path inheritedOrigin origins inheritedSensitive
      NodeShape P schema path metadata origins input (metadataMap.insertOrAssign path metadata)
        output metadataMap') →
      P schema input path inheritedOrigin origins inheritedSensitive metadataMap output
        metadataMap')
    {schema : ConfigurationSchema} (hschema : schema.WellFormed)
    {input output : ConfigurationValue} {path : ByteString}
    {inheritedOrigin : ConfigurationOrigin} {origins : Option ConfigurationOrigins}
    {inheritedSensitive : Bool} {metadataMap metadataMap' : MetadataMap}
    (h : NodeRun schema input path inheritedOrigin origins inheritedSensitive metadataMap output
      metadataMap') :
    P schema input path inheritedOrigin origins inheritedSensitive metadataMap output
      metadataMap' := by
  induction hschema generalizing input output path inheritedOrigin origins inheritedSensitive
    metadataMap metadataMap' with
  | mk attributes fields hdefault hobject hordered hfields ih =>
      obtain ⟨htype, hbounds, hshape⟩ := (validateNode_ok_iff hordered).1 h
      refine step _ _ _ _ _ _ _ _ _ (.mk attributes fields hdefault hobject hordered hfields)
        htype hbounds ?_
      exact hshape.imp fun entry hmem _ _ _ _ _ _ _ _ hnode => ih entry hmem hnode

end Core
end AscCpp
