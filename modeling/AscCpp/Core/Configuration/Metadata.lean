import AscCpp.Core.Configuration.Conformance
import AscCpp.Library.MapWrites
import AscCpp.Library.NearestPrefix

/-!
# Metadata — the metadata map of a validated tree

The net effect of the metadata writes of a run, node by node:

* `nodeMetadata schema input … tokens` — the metadata of the node at `tokens` of the output;
* `nodeRun_writes` — a run writes exactly that, at exactly the nodes of its output;
* `nodeMetadata_sensitive`, `nodeMetadata_origin_of_supplied`, `nodeMetadata_origin_of_default` —
  its sensitivity is that of the governing chain of schema nodes, its origin that of the nearest
  origin entry, or the default origin inside inserted defaults.

The entry points follow: `isSensitive_eq_governingChain` and `validateConfigurationWithOrigins_spec`.
-/

namespace AscCpp
namespace Core

open Library

/-! ## The nodes of a value -/

/-- The token lists that name a node of the value. -/
def nodesOf (value : ConfigurationValue) : Set (List ByteString) :=
  {tokens | ∃ node, NodeAt value tokens node}

/-- The nodes below the entries of an object. -/
def entryNodes (fields : ConfigurationObject) : Set (List ByteString) :=
  {tokens | ∃ entry ∈ fields, ∃ below ∈ nodesOf entry.2, entry.1 :: below = tokens}

/-- The nodes below the elements of a list whose first element has number `index`. -/
def itemNodes (items : List ConfigurationValue) (index : Nat) : Set (List ByteString) :=
  {tokens | ∃ offset child, items[offset]? = some child ∧
    ∃ below ∈ nodesOf child, stdToString (index + offset) :: below = tokens}

@[simp]
theorem entryNodes_nil : entryNodes [] = ∅ := by
  simp [entryNodes]

theorem entryNodes_cons (entry : ByteString × ConfigurationValue) (rest : ConfigurationObject) :
    entryNodes (entry :: rest) =
      Set.image (entry.1 :: ·) (nodesOf entry.2) ∪ entryNodes rest := by
  ext tokens
  simp [entryNodes]

@[simp]
theorem itemNodes_nil (index : Nat) : itemNodes [] index = ∅ := by
  simp [itemNodes]

theorem itemNodes_cons (item : ConfigurationValue) (rest : List ConfigurationValue)
    (index : Nat) :
    itemNodes (item :: rest) index =
      Set.image (stdToString index :: ·) (nodesOf item) ∪ itemNodes rest (index + 1) := by
  ext tokens
  constructor
  · rintro ⟨offset, child, hget, below, hbelow, rfl⟩
    cases offset with
    | zero =>
        cases hget
        exact Or.inl ⟨below, hbelow, rfl⟩
    | succ offset =>
        refine Or.inr ⟨offset, child, by simpa using hget, below, hbelow, ?_⟩
        rw [Nat.add_assoc, Nat.add_comm 1 offset]
  · rintro (⟨below, hbelow, rfl⟩ | ⟨offset, child, hget, below, hbelow, rfl⟩)
    · exact ⟨0, item, rfl, below, hbelow, rfl⟩
    · refine ⟨offset + 1, child, by simpa using hget, below, hbelow, ?_⟩
      rw [Nat.add_assoc, Nat.add_comm 1 offset]

theorem nodesOf_object {fields : ConfigurationObject} (hordered : Ordered fields) :
    nodesOf (.object fields) = {[]} ∪ entryNodes fields := by
  ext tokens
  constructor
  · rintro ⟨node, hnode⟩
    cases hnode with
    | root => exact Or.inl rfl
    | field hlookup h => exact Or.inr ⟨_, mem_of_lookup hlookup, _, ⟨node, h⟩, rfl⟩
  · rintro (rfl | ⟨⟨key, child⟩, hmem, below, ⟨node, hnode⟩, rfl⟩)
    · exact ⟨_, .root _⟩
    · exact ⟨node, .field (hordered.lookup_of_mem hmem) hnode⟩

theorem nodesOf_list (items : List ConfigurationValue) :
    nodesOf (.list items) = {[]} ∪ itemNodes items 0 := by
  ext tokens
  constructor
  · rintro ⟨node, hnode⟩
    cases hnode with
    | root => exact Or.inl rfl
    | @item _ index _ _ _ hget h =>
        exact Or.inr ⟨index, _, hget, _, ⟨node, h⟩, by rw [Nat.zero_add]⟩
  · rintro (rfl | ⟨offset, child, hget, below, ⟨node, hnode⟩, rfl⟩)
    · exact ⟨_, .root _⟩
    · rw [Nat.zero_add]
      exact ⟨node, .item hget hnode⟩

theorem nodesOf_scalar {value : ConfigurationValue} (hobject : value.type ≠ .object)
    (hlist : value.type ≠ .list) : nodesOf value = {[]} := by
  ext tokens
  constructor
  · rintro ⟨node, hnode⟩
    exact hnode.eq_nil_of_scalar hobject hlist
  · rintro rfl
    exact ⟨_, .root _⟩

theorem foldl_childPath_injective (path : ByteString) :
    Function.Injective fun tokens => List.foldl childPath path tokens := by
  intro tokens tokens' h
  simp only [foldl_childPath, List.append_cancel_left_eq] at h
  exact pointerCodec.encode_injective h

/-! ## Descendants of schema lists -/

/-- The metadata of the node at `tokens` below a node with the given metadata. -/
def belowMetadata (path : ByteString) (metadata : ConfigurationMetadata)
    (origins : Option ConfigurationOrigins) : List ByteString → ConfigurationMetadata
  | [] => metadata
  | token :: rest =>
      belowMetadata (childPath path token)
        { metadata with
          origin := effectiveOrigin origins (childPath path token) metadata.origin } origins rest

/-- A recorder of the value writes the metadata of all its nodes. -/
def RecordsBelow (value : ConfigurationValue) : Prop :=
  ∀ path metadata origins metadataMap,
    Writes (List.foldl childPath path)
      (belowMetadata path
        { metadata with origin := effectiveOrigin origins path metadata.origin } origins)
      (nodesOf value) metadataMap
      (recordDescendantMetadata value path metadata origins metadataMap)

theorem recordItems_writes {items : List ConfigurationValue} (path : ByteString)
    (metadata : ConfigurationMetadata) (origins : Option ConfigurationOrigins)
    (hitems : ∀ item ∈ items, RecordsBelow item) (index : Nat) (metadataMap : MetadataMap) :
    Writes (List.foldl childPath path) (belowMetadata path metadata origins)
      (itemNodes items index) metadataMap
      (recordItems items index path metadata origins metadataMap) := by
  induction items generalizing index metadataMap with
  | nil =>
      rw [itemNodes_nil, recordItems]
      exact .empty
  | cons item rest ih =>
      rw [itemNodes_cons, recordItems, childPathOfIndex_eq]
      have hitem := hitems item List.mem_cons_self (childPath path (stdToString index)) metadata
        origins metadataMap
      have hrest := ih (fun other hmem => hitems other (List.mem_cons_of_mem _ hmem)) (index + 1)
        (recordDescendantMetadata item (childPath path (stdToString index)) metadata origins
          metadataMap)
      exact (Writes.image (stdToString index :: ·) hitem).union (foldl_childPath_injective path)
        hrest

theorem recordEntries_writes {fields : ConfigurationObject} (path : ByteString)
    (metadata : ConfigurationMetadata) (origins : Option ConfigurationOrigins)
    (hfields : ∀ entry ∈ fields, RecordsBelow entry.2) (metadataMap : MetadataMap) :
    Writes (List.foldl childPath path) (belowMetadata path metadata origins)
      (entryNodes fields) metadataMap
      (recordEntries fields path metadata origins metadataMap) := by
  induction fields generalizing metadataMap with
  | nil =>
      rw [entryNodes_nil, recordEntries]
      exact .empty
  | cons entry rest ih =>
      obtain ⟨key, child⟩ := entry
      rw [entryNodes_cons, recordEntries]
      have hchild := hfields (key, child) List.mem_cons_self (childPath path key) metadata origins
        metadataMap
      have hrest := ih (fun other hmem => hfields other (List.mem_cons_of_mem _ hmem))
        (recordDescendantMetadata child (childPath path key) metadata origins metadataMap)
      exact (Writes.image (key :: ·) hchild).union (foldl_childPath_injective path) hrest

theorem recordDescendantMetadata_writes {value : ConfigurationValue} (hvalue : value.WellFormed) :
    RecordsBelow value := by
  induction hvalue with
  | list items _ _ ih =>
      intro path metadata origins metadataMap
      rw [nodesOf_list, recordDescendantMetadata]
      exact (Writes.single []).union (foldl_childPath_injective path)
        (recordItems_writes path _ origins ih 0 _)
  | object fields hordered _ ih =>
      intro path metadata origins metadataMap
      rw [nodesOf_object hordered, recordDescendantMetadata]
      exact (Writes.single []).union (foldl_childPath_injective path)
        (recordEntries_writes path _ origins ih _)
  | _ =>
      intro path metadata origins metadataMap
      rw [nodesOf_scalar (by simp [ConfigurationValue.type]) (by simp [ConfigurationValue.type])]
      exact Writes.single []

/-! ## Nodes of a validated tree -/

/-- The metadata of the node at `tokens` of the output, read off schema and input. -/
def nodeMetadata (schema : ConfigurationSchema) (input : ConfigurationValue) (path : ByteString)
    (inheritedOrigin : ConfigurationOrigin) (origins : Option ConfigurationOrigins)
    (inheritedSensitive : Bool) (tokens : List ByteString) : ConfigurationMetadata :=
  let metadata := ownMetadata schema.attributes path inheritedOrigin origins inheritedSensitive
  match tokens with
  | [] => metadata
  | key :: rest =>
      match input with
      | .object inputObject =>
          match schema.fields.lookup key with
          | none => metadata
          | some field =>
              match inputObject.lookup key with
              | some child =>
                  nodeMetadata field child (childPath path key) metadata.origin origins
                    metadata.sensitive rest
              | none =>
                  match field.defaultValue with
                  | some value =>
                      nodeMetadata field value (childPath path key) .default none
                        metadata.sensitive rest
                  | none => metadata
      | _ => belowMetadata path metadata origins (key :: rest)

/-- The relation that the field loop lifts from nodes to objects. -/
def NodeWrites : NodeRelation :=
  fun schema input path inheritedOrigin origins inheritedSensitive metadataMap output
      metadataMap' =>
    input.WellFormed →
      Writes (List.foldl childPath path)
        (nodeMetadata schema input path inheritedOrigin origins inheritedSensitive)
        (nodesOf output) metadataMap metadataMap'

theorem FieldsRun.writes {inputObject output : ConfigurationObject} {path : ByteString}
    {origin : ConfigurationOrigin} {origins : Option ConfigurationOrigins} {sensitive : Bool}
    {fields : SchemaFields} {metadataMap metadataMap' : MetadataMap}
    {metadataOf : List ByteString → ConfigurationMetadata}
    (h : FieldsRun NodeWrites inputObject path origin origins sensitive fields metadataMap output
      metadataMap')
    (hinput : ConfigurationValue.WellFormed (.object inputObject))
    (hdefault : ∀ entry ∈ fields, ∀ value, entry.2.defaultValue = some value → value.WellFormed)
    (hsuppliedOf : ∀ entry ∈ fields, ∀ child, inputObject.lookup entry.1 = some child →
      ∀ below, metadataOf (entry.1 :: below) =
        nodeMetadata entry.2 child (childPath path entry.1) origin origins sensitive below)
    (hdefaultOf : ∀ entry ∈ fields, ∀ value, inputObject.lookup entry.1 = none →
      entry.2.defaultValue = some value → ∀ below, metadataOf (entry.1 :: below) =
        nodeMetadata entry.2 value (childPath path entry.1) .default none sensitive below) :
    Writes (List.foldl childPath path) metadataOf (entryNodes output) metadataMap
      metadataMap' := by
  induction h with
  | nil metadataMap =>
      rw [entryNodes_nil]
      exact .empty
  | @supplied key field child validated rest _ _ _ _ hlookup hnode _ ih =>
      have hhead := (hnode (hinput.of_lookup hlookup)).congr rfl
        fun below _ => hsuppliedOf (key, field) List.mem_cons_self child hlookup below
      rw [entryNodes_cons]
      refine (Writes.image (key :: ·) hhead).union (foldl_childPath_injective path) (ih ?_ ?_ ?_)
      · exact fun entry hmem => hdefault entry (List.mem_cons_of_mem _ hmem)
      · exact fun entry hmem => hsuppliedOf entry (List.mem_cons_of_mem _ hmem)
      · exact fun entry hmem => hdefaultOf entry (List.mem_cons_of_mem _ hmem)
  | @defaulted key field value validated rest _ _ _ _ hlookup hvalue hnode _ ih =>
      have hwf := hdefault (key, field) List.mem_cons_self value hvalue
      have hhead := (hnode hwf).congr rfl
        fun below _ => hdefaultOf (key, field) List.mem_cons_self value hlookup hvalue below
      rw [entryNodes_cons]
      refine (Writes.image (key :: ·) hhead).union (foldl_childPath_injective path) (ih ?_ ?_ ?_)
      · exact fun entry hmem => hdefault entry (List.mem_cons_of_mem _ hmem)
      · exact fun entry hmem => hsuppliedOf entry (List.mem_cons_of_mem _ hmem)
      · exact fun entry hmem => hdefaultOf entry (List.mem_cons_of_mem _ hmem)
  | absent _ _ _ _ ih =>
      refine ih ?_ ?_ ?_
      · exact fun entry hmem => hdefault entry (List.mem_cons_of_mem _ hmem)
      · exact fun entry hmem => hsuppliedOf entry (List.mem_cons_of_mem _ hmem)
      · exact fun entry hmem => hdefaultOf entry (List.mem_cons_of_mem _ hmem)

section NodeRuns

variable {schema : ConfigurationSchema} {input output : ConfigurationValue} {path : ByteString}
  {inheritedOrigin : ConfigurationOrigin} {origins : Option ConfigurationOrigins}
  {inheritedSensitive : Bool} {metadataMap metadataMap' : MetadataMap}

/-- A run writes the metadata of its output's nodes and nothing else. -/
theorem nodeRun_writes (hschema : schema.WellFormed)
    (h : NodeRun schema input path inheritedOrigin origins inheritedSensitive metadataMap output
      metadataMap') (hinput : input.WellFormed) :
    Writes (List.foldl childPath path)
      (nodeMetadata schema input path inheritedOrigin origins inheritedSensitive)
      (nodesOf output) metadataMap metadataMap' := by
  -- By induction over the run: a node writes its own entry, then those below it.
  refine validateNode_induction (P := NodeWrites) ?_ hschema h hinput
  intro schema input output path inheritedOrigin origins inheritedSensitive metadataMap
    metadataMap' hschema _ _ hshape hinput
  cases hshape with
  | @object inputObject outputObject _ _ hknown hrun hsize =>
      rw [nodesOf_object (hrun.ordered hschema.ordered)]
      refine (Writes.single []).union (foldl_childPath_injective path)
        (hrun.writes hinput ?_ ?_ ?_)
      · exact fun entry hmem value hvalue => (hschema.of_mem hmem).default hvalue
      · intro entry hmem child hlookup below
        simp only [nodeMetadata, hschema.ordered.lookup_of_mem hmem, hlookup]
      · intro entry hmem value hlookup hvalue below
        simp only [nodeMetadata, hschema.ordered.lookup_of_mem hmem, hlookup, hvalue]
  | list items =>
      rw [nodesOf_list]
      have hitems := recordItems_writes path
        (ownMetadata schema.attributes path inheritedOrigin origins inheritedSensitive) origins
        (fun item hmem => by
          cases hinput with
          | list _ _ hwf => exact recordDescendantMetadata_writes (hwf item hmem)) 0
        (metadataMap.insertOrAssign path
          (ownMetadata schema.attributes path inheritedOrigin origins inheritedSensitive))
      refine (Writes.single []).union (foldl_childPath_injective path) (hitems.congr rfl ?_)
      rintro _ ⟨offset, child, _, below, _, rfl⟩
      rfl
  | scalar _ hobject hlist =>
      rw [nodesOf_scalar hobject hlist]
      exact Writes.single []

end NodeRuns

/-! ## Sensitivity -/

/-- The schema nodes from the root to the deepest one that governs the node at `tokens`: below a
list, and at every scalar, there is no further schema node. -/
def governingChain (schema : ConfigurationSchema) : List ByteString → List ConfigurationSchema
  | [] => [schema]
  | key :: rest =>
      match schema.fields.lookup key with
      | some field => schema :: governingChain field rest
      | none => [schema]

@[simp]
theorem belowMetadata_sensitive (path : ByteString) (metadata : ConfigurationMetadata)
    (origins : Option ConfigurationOrigins) (tokens : List ByteString) :
    (belowMetadata path metadata origins tokens).sensitive = metadata.sensitive := by
  induction tokens generalizing path metadata with
  | nil => rfl
  | cons token rest ih =>
      rw [belowMetadata, ih]

section NodeRuns

variable {schema : ConfigurationSchema} {input output : ConfigurationValue} {path : ByteString}
  {inheritedOrigin : ConfigurationOrigin} {origins : Option ConfigurationOrigins}
  {inheritedSensitive : Bool} {metadataMap metadataMap' : MetadataMap}

theorem nodeMetadata_sensitive (hschema : schema.WellFormed)
    (h : NodeRun schema input path inheritedOrigin origins inheritedSensitive metadataMap output
      metadataMap') {tokens : List ByteString} {node : ConfigurationValue}
    (hnode : NodeAt output tokens node) :
    (nodeMetadata schema input path inheritedOrigin origins inheritedSensitive tokens).sensitive =
      (inheritedSensitive || (governingChain schema tokens).any ConfigurationSchema.sensitive) := by
  refine validateNode_induction (P := fun schema input path inheritedOrigin origins
    inheritedSensitive _ output _ => ∀ tokens node, NodeAt output tokens node →
      (nodeMetadata schema input path inheritedOrigin origins inheritedSensitive
        tokens).sensitive = (inheritedSensitive ||
          (governingChain schema tokens).any ConfigurationSchema.sensitive))
    ?_ hschema h tokens node hnode
  intro schema input output path inheritedOrigin origins inheritedSensitive metadataMap
    metadataMap' hschema htype _ hshape tokens node hnode
  -- The path is followed downwards, one schema of the chain for each token.
  cases tokens with
  | nil => simp [nodeMetadata, ownMetadata, governingChain, ConfigurationSchema.sensitive]
  | cons key rest =>
      cases hshape with
      | @object inputObject outputObject _ _ _ hrun _ =>
          obtain ⟨child, hchild, hbelow⟩ := NodeAt.object_cons_iff.1 hnode
          cases hfield : schema.fields.lookup key with
          | none => simp [hrun.lookup_output hfield] at hchild
          | some field =>
              have houtcome := hrun.lookup_field hschema.ordered hfield
              rw [hchild] at houtcome
              cases houtcome with
              | supplied hlookup hrest =>
                  simp only [nodeMetadata, governingChain, hfield, hlookup, List.any_cons]
                  rw [hrest rest node hbelow]
                  exact Bool.or_assoc _ _ _
              | defaulted hlookup hdefault hrest =>
                  simp only [nodeMetadata, governingChain, hfield, hlookup, hdefault,
                    List.any_cons]
                  rw [hrest rest node hbelow]
                  exact Bool.or_assoc _ _ _
      -- A list has no fields below it, so the chain ends here.
      | list items =>
          have hfields := hschema.fields_eq_nil (by simp [← htype, ConfigurationValue.type])
          simp [nodeMetadata, governingChain, hfields, ownMetadata,
            ConfigurationSchema.sensitive]
      | scalar _ hobject hlist =>
          cases hnode.eq_nil_of_scalar hobject hlist

end NodeRuns

/-! ## Origins -/

/-- The node lies in the default that was inserted for a field its object lacks. -/
def InsideInsertedDefault (input : ConfigurationValue) (tokens : List ByteString) : Prop :=
  ∃ front key rest fields, tokens = front ++ key :: rest ∧ NodeAt input front (.object fields) ∧
    fields.lookup key = none

/-- A node of the completed value is one of the input unless it lies in an inserted default. -/
theorem Completes.insideInsertedDefault_iff {schema : ConfigurationSchema}
    {value output node : ConfigurationValue} (h : Completes schema value output)
    {tokens : List ByteString} (hnode : NodeAt output tokens node) :
    InsideInsertedDefault value tokens ↔ tokens ∉ nodesOf value := by
  constructor
  · rintro ⟨front, key, rest, fields, rfl, hfront, hlookup⟩ ⟨node', hnode'⟩
    obtain ⟨middle, hmiddle, hrest⟩ := NodeAt.append_iff.1 hnode'
    cases hfront.functional hmiddle
    obtain ⟨child, hchild, -⟩ := NodeAt.object_cons_iff.1 hrest
    simp [hlookup] at hchild
  · intro hmissing
    -- The first token that the input lacks names the field that was defaulted.
    induction h generalizing tokens with
    | leaf => exact absurd ⟨node, hnode⟩ hmissing
    | @object schema object out _ hknown _ _ ihs _ =>
        cases tokens with
        | nil => exact absurd ⟨_, .root _⟩ hmissing
        | cons key rest =>
            obtain ⟨child, hchild, hbelow⟩ := NodeAt.object_cons_iff.1 hnode
            cases hlookup : object.lookup key with
            | none => exact ⟨[], key, rest, object, rfl, .root _, hlookup⟩
            | some x =>
                obtain ⟨field, hfield⟩ :=
                  Option.isSome_iff_exists.1 (hknown key (by simp [hlookup]))
                obtain ⟨front, token, below, fields, rfl, hfront, hnone⟩ :=
                  ihs key field x child hfield hlookup hchild hbelow
                    fun ⟨node', hnode'⟩ => hmissing ⟨node', .field hlookup hnode'⟩
                exact ⟨key :: front, token, below, fields, rfl, .field hlookup hfront, hnone⟩

/-- The origin entry of the node at `tokens` below `path`. -/
def originLabel (origins : Option ConfigurationOrigins) (path : ByteString)
    (tokens : List ByteString) : Option ConfigurationOrigin :=
  origins.bind fun origins => origins.find (tokens.foldl childPath path)

theorem effectiveOrigin_eq (origins : Option ConfigurationOrigins) (path : ByteString)
    (inheritedOrigin : ConfigurationOrigin) :
    effectiveOrigin origins path inheritedOrigin =
      (originLabel origins path []).getD inheritedOrigin := by
  cases origins <;> rfl

theorem belowMetadata_origin (path : ByteString) (metadata : ConfigurationMetadata)
    (origins : Option ConfigurationOrigins) (token : ByteString) (rest : List ByteString) :
    (belowMetadata path metadata origins (token :: rest)).origin =
      nearest (fun below => originLabel origins path (token :: below)) metadata.origin rest := by
  induction rest generalizing path metadata token with
  | nil => exact effectiveOrigin_eq origins (childPath path token) metadata.origin
  | cons next rest ih =>
      rw [belowMetadata, ih, nearest, effectiveOrigin_eq]
      rfl

theorem belowMetadata_origin_of_none (path : ByteString) (metadata : ConfigurationMetadata)
    (tokens : List ByteString) :
    (belowMetadata path metadata none tokens).origin = metadata.origin := by
  induction tokens generalizing path metadata with
  | nil => rfl
  | cons token rest ih =>
      rw [belowMetadata, ih]
      rfl

/-- Without an origin map the default origin reaches every node. -/
theorem nodeMetadata_origin_of_none (schema : ConfigurationSchema) (input : ConfigurationValue)
    (path : ByteString) (sensitive : Bool) (tokens : List ByteString) :
    (nodeMetadata schema input path .default none sensitive tokens).origin = .default := by
  induction tokens generalizing schema input path sensitive with
  | nil => rfl
  | cons key rest ih =>
      cases input with
      | object inputObject =>
          simp only [nodeMetadata]
          split
          · rfl
          · split
            · exact ih _ _ _ _
            · split
              · exact ih _ _ _ _
              · rfl
      | _ => exact belowMetadata_origin_of_none _ _ _

section NodeRuns

variable {schema : ConfigurationSchema} {input output : ConfigurationValue} {path : ByteString}
  {inheritedOrigin : ConfigurationOrigin} {origins : Option ConfigurationOrigins}
  {inheritedSensitive : Bool} {metadataMap metadataMap' : MetadataMap}

/-- Nodes of the input keep the origin of their nearest origin entry. -/
theorem nodeMetadata_origin_of_supplied (hschema : schema.WellFormed)
    (h : NodeRun schema input path inheritedOrigin origins inheritedSensitive metadataMap output
      metadataMap') {tokens : List ByteString} {node : ConfigurationValue}
    (hnode : NodeAt input tokens node) :
    (nodeMetadata schema input path inheritedOrigin origins inheritedSensitive tokens).origin =
      nearest (originLabel origins path) inheritedOrigin tokens := by
  refine validateNode_induction (P := fun schema input path inheritedOrigin origins
    inheritedSensitive _ _ _ => ∀ tokens node, NodeAt input tokens node →
      (nodeMetadata schema input path inheritedOrigin origins inheritedSensitive
        tokens).origin = nearest (originLabel origins path) inheritedOrigin tokens)
    ?_ hschema h tokens node hnode
  intro schema input output path inheritedOrigin origins inheritedSensitive metadataMap
    metadataMap' hschema _ _ hshape tokens node hnode
  -- Each token on the way moves the nearest entry to the child when it has one.
  cases tokens with
  | nil => exact effectiveOrigin_eq origins path inheritedOrigin
  | cons key rest =>
      rw [nearest, ← effectiveOrigin_eq]
      cases hshape with
      | @object inputObject outputObject _ _ hknown hrun _ =>
          obtain ⟨child, hchild, hbelow⟩ := NodeAt.object_cons_iff.1 hnode
          obtain ⟨field, hfield⟩ := Option.isSome_iff_exists.1 (hknown _ (mem_of_lookup hchild))
          rcases (hrun.lookup_field hschema.ordered hfield).of_supplied hchild with
            ⟨_, _, _, -, hrest⟩
          simp only [nodeMetadata, hfield, hchild]
          exact hrest rest node hbelow
      | list items => exact belowMetadata_origin _ _ _ _ _
      | scalar _ hobject hlist => cases hnode.eq_nil_of_scalar hobject hlist

/-- Nodes of inserted defaults have the default origin, whatever the origin map says. -/
theorem nodeMetadata_origin_of_default (hschema : schema.WellFormed)
    (h : NodeRun schema input path inheritedOrigin origins inheritedSensitive metadataMap output
      metadataMap') {tokens : List ByteString} {node : ConfigurationValue}
    (hnode : NodeAt output tokens node) (hmissing : tokens ∉ nodesOf input) :
    (nodeMetadata schema input path inheritedOrigin origins inheritedSensitive tokens).origin =
      .default := by
  refine validateNode_induction (P := fun schema input path inheritedOrigin origins
    inheritedSensitive _ output _ => ∀ tokens node, NodeAt output tokens node →
      tokens ∉ nodesOf input → (nodeMetadata schema input path inheritedOrigin origins
        inheritedSensitive tokens).origin = .default) ?_ hschema h tokens node hnode hmissing
  intro schema input output path inheritedOrigin origins inheritedSensitive metadataMap
    metadataMap' hschema _ _ hshape tokens node hnode hmissing
  cases hshape with
  | @object inputObject outputObject _ _ _ hrun _ =>
      cases tokens with
      | nil => exact absurd ⟨_, .root _⟩ hmissing
      | cons key rest =>
          obtain ⟨child, hchild, hbelow⟩ := NodeAt.object_cons_iff.1 hnode
          cases hfield : schema.fields.lookup key with
          | none => simp [hrun.lookup_output hfield] at hchild
          | some field =>
              have houtcome := hrun.lookup_field hschema.ordered hfield
              rw [hchild] at houtcome
              cases houtcome with
              -- The default lies further below.
              | supplied hlookup hrest =>
                  simp only [nodeMetadata, hfield, hlookup]
                  refine hrest rest node hbelow ?_
                  rintro ⟨node', hnode'⟩
                  exact hmissing ⟨node', .field hlookup hnode'⟩
              -- The default begins here, and is validated without the map of origins.
              | defaulted hlookup hdefault hrest =>
                  simp only [nodeMetadata, hfield, hlookup, hdefault]
                  exact nodeMetadata_origin_of_none _ _ _ _ _
  | list items => exact absurd ⟨node, hnode⟩ hmissing
  | scalar => exact absurd ⟨node, hnode⟩ hmissing

end NodeRuns

/-! ## The entry points -/

theorem validateConfigurationWithOrigins_ok_iff {schema : ConfigurationSchema}
    {value : ConfigurationValue} {origins : ConfigurationOrigins}
    {fallbackOrigin : ConfigurationOrigin} {configuration : Configuration} :
    validateConfigurationWithOrigins schema value origins fallbackOrigin = .ok configuration ↔
      NodeRun schema value [] fallbackOrigin (some origins) false .empty configuration.value
        configuration.metadata ∧
      ∀ key, (origins.find key).isSome → configuration.metadata.contains key := by
  obtain ⟨output, metadata⟩ := configuration
  rw [validateConfigurationWithOrigins, NodeRun]
  generalize validateNode schema value [] fallbackOrigin (some origins) false .empty = result
  -- The test for entries that name no node is about the keys of the metadata.
  have hany : ∀ metadata : MetadataMap,
      origins.entries.any (fun entry => !metadata.contains entry.1) = false ↔
        ∀ key, (origins.find key).isSome → metadata.contains key := by
    intro metadata
    simp only [List.any_eq_false, Bool.not_eq_true', Bool.not_eq_false]
    constructor
    · intro h key hsome
      obtain ⟨origin, horigin⟩ := Option.isSome_iff_exists.1 hsome
      exact h _ (origins.mem_entries_iff.2 horigin)
    · intro h entry hmem
      exact h entry.1 (by simp [origins.mem_entries_iff.1 hmem])
  rcases result with status | ⟨output', metadata'⟩
  · simp
  · simp only [Except.ok.injEq, Prod.mk.injEq]
    rw [← hany]
    split
    · rename_i htest
      simp only [reduceCtorEq, false_iff]
      rintro ⟨⟨rfl, rfl⟩, hfalse⟩
      simp [htest] at hfalse
    · rename_i htest
      simp only [Except.ok.injEq, Configuration.mk.injEq]
      constructor
      · rintro ⟨rfl, rfl⟩
        exact ⟨⟨rfl, rfl⟩, by simpa using htest⟩
      · exact fun h => h.1

/-- The output does not depend on path, origins, sensitivity or the map so far. -/
theorem nodeRun_output_unique {schema : ConfigurationSchema}
    {input output output' : ConfigurationValue} {path path' : ByteString}
    {origin origin' : ConfigurationOrigin} {origins origins' : Option ConfigurationOrigins}
    {sensitive sensitive' : Bool} {m₁ m₂ m₁' m₂' : MetadataMap} (hschema : schema.WellFormed)
    (hinput : input.WellFormed)
    (h : NodeRun schema input path origin origins sensitive m₁ output m₂)
    (h' : NodeRun schema input path' origin' origins' sensitive' m₁' output' m₂') :
    output = output' :=
  (nodeRun_conforms_completes hschema h).2.unique (nodeRun_conforms_completes hschema h').2
    (nodeRun_wellFormed hschema h hinput) (nodeRun_wellFormed hschema h' hinput)

/-- The metadata of a whole run, at a canonical node path. -/
theorem metadataAt_canonicalPath {schema : ConfigurationSchema} {value : ConfigurationValue}
    {origin : ConfigurationOrigin} {origins : Option ConfigurationOrigins}
    {configuration : Configuration} (hschema : schema.WellFormed) (hvalue : value.WellFormed)
    (h : NodeRun schema value [] origin origins false .empty configuration.value
      configuration.metadata)
    {tokens : List ByteString} {node : ConfigurationValue}
    (hnode : NodeAt configuration.value tokens node) :
    configuration.metadataAt (canonicalPath tokens) =
      .ok (nodeMetadata schema value [] origin origins false tokens) := by
  have hfind := (nodeRun_writes hschema h hvalue).written tokens ⟨node, hnode⟩
  rw [Configuration.metadataAt, canonicalPath, hfind]

/-- The paths with metadata are the canonical paths of the nodes. -/
theorem contains_metadata_iff {schema : ConfigurationSchema} {value output : ConfigurationValue}
    {origin : ConfigurationOrigin} {origins : Option ConfigurationOrigins}
    {metadata : MetadataMap} (hschema : schema.WellFormed) (hvalue : value.WellFormed)
    (h : NodeRun schema value [] origin origins false .empty output metadata)
    {path : ByteString} :
    metadata.contains path ↔
      ∃ tokens node, NodeAt output tokens node ∧ canonicalPath tokens = path := by
  rw [(nodeRun_writes hschema h hvalue).contains_iff]
  constructor
  · rintro ⟨tokens, ⟨node, hnode⟩, rfl⟩
    exact ⟨tokens, node, hnode, rfl⟩
  · rintro ⟨tokens, node, hnode, rfl⟩
    exact ⟨tokens, ⟨node, hnode⟩, rfl⟩

/-- The configurations the two entry points return for a schema and a value. -/
def Validates (schema : BuiltSchema) (value : ValidValue) (configuration : Configuration) : Prop :=
  (∃ origin, validateConfiguration schema.1 value.1 origin = .ok configuration) ∨
    ∃ origins fallbackOrigin,
      validateConfigurationWithOrigins schema.1 value.1 origins fallbackOrigin = .ok configuration

theorem Validates.nodeRun {schema : BuiltSchema} {value : ValidValue}
    {configuration : Configuration} (h : Validates schema value configuration) :
    ∃ origin origins, NodeRun schema.1 value.1 [] origin origins false .empty configuration.value
      configuration.metadata := by
  rcases h with ⟨origin, h⟩ | ⟨origins, origin, h⟩
  · exact ⟨origin, none, validateConfiguration_ok_iff.1 h⟩
  · exact ⟨origin, some origins, (validateConfigurationWithOrigins_ok_iff.1 h).1⟩

/-- A node is sensitive exactly when some schema node of its governing chain is. -/
theorem isSensitive_eq_governingChain (schema : BuiltSchema) (value : ValidValue)
    (configuration : Configuration) (h : Validates schema value configuration)
    (tokens : List ByteString) (node : ConfigurationValue)
    (hnode : NodeAt configuration.value tokens node) :
    configuration.isSensitive (canonicalPath tokens) =
      .ok ((governingChain schema.1 tokens).any ConfigurationSchema.sensitive) := by
  obtain ⟨origin, origins, hrun⟩ := h.nodeRun
  have hschema := schema.2.wellFormed
  rw [Configuration.isSensitive, metadataAt_canonicalPath hschema value.2 hrun hnode]
  simp [Except.map, nodeMetadata_sensitive hschema hrun hnode]

theorem wellFormed_list_null : ConfigurationValue.WellFormed (.list [.null]) := by
  refine .list _ (by decide) ?_
  intro item hmem
  rw [List.mem_singleton.1 hmem]
  exact .null

/-- The element of a sensitive list is sensitive. -/
theorem isSensitive_list_item :
    ∃ configuration, validateConfiguration ((ConfigurationSchema.new .list).setSensitive true)
        (.list [.null]) (.programmatic none none) = .ok configuration ∧
      configuration.isSensitive (canonicalPath [stdToString 0]) = .ok true :=
  ⟨_, rfl, isSensitive_eq_governingChain ⟨_, .setSensitive (.new .list) true⟩
    ⟨_, wellFormed_list_null⟩ _ (Or.inl ⟨_, rfl⟩) [stdToString 0] .null (.item rfl (.root _))⟩

/-- Validation with origins: when it succeeds, and the origin of every node. -/
theorem validateConfigurationWithOrigins_spec (schema : BuiltSchema) (value : ValidValue)
    (origins : ConfigurationOrigins) (origin fallbackOrigin : ConfigurationOrigin) :
    ((∃ configuration, validateConfigurationWithOrigins schema.1 value.1 origins fallbackOrigin =
          .ok configuration) ↔
        ∃ configuration, validateConfiguration schema.1 value.1 origin = .ok configuration ∧
          ∀ key, (origins.find key).isSome →
            ∃ tokens node, NodeAt configuration.value tokens node ∧ canonicalPath tokens = key) ∧
      ∀ configuration, validateConfigurationWithOrigins schema.1 value.1 origins fallbackOrigin =
          .ok configuration →
        ∀ tokens node, NodeAt configuration.value tokens node →
          (InsideInsertedDefault value.1 tokens →
            configuration.origin (canonicalPath tokens) = .ok .default) ∧
          (¬ InsideInsertedDefault value.1 tokens →
            ∃ nodeOrigin, configuration.origin (canonicalPath tokens) = .ok nodeOrigin ∧
              IsNearest (fun ancestor => origins.find (canonicalPath ancestor)) fallbackOrigin
                tokens nodeOrigin) := by
  have hschema := schema.2.wellFormed
  constructor
  · constructor
    -- The output does not depend on the origins, so the two runs have the same nodes.
    · rintro ⟨configuration, h⟩
      obtain ⟨hrun, hkeys⟩ := validateConfigurationWithOrigins_ok_iff.1 h
      obtain ⟨output, metadata, hplain⟩ :=
        exists_nodeRun hschema (nodeRun_conforms_completes hschema hrun).1
      refine ⟨⟨output, metadata⟩, validateConfiguration_ok_iff.2 hplain, ?_⟩
      rw [nodeRun_output_unique hschema value.2 hplain hrun]
      intro key hkey
      exact (contains_metadata_iff hschema value.2 hrun).1 (hkeys key hkey)
    · rintro ⟨configuration, h, hkeys⟩
      have hplain := validateConfiguration_ok_iff.1 h
      obtain ⟨output, metadata, hrun⟩ :=
        exists_nodeRun hschema (nodeRun_conforms_completes hschema hplain).1
      refine ⟨⟨output, metadata⟩, validateConfigurationWithOrigins_ok_iff.2 ⟨hrun, ?_⟩⟩
      intro key hkey
      refine (contains_metadata_iff hschema value.2 hrun).2 ?_
      rw [nodeRun_output_unique hschema value.2 hrun hplain]
      exact hkeys key hkey
  · intro configuration h tokens node hnode
    have hrun := (validateConfigurationWithOrigins_ok_iff.1 h).1
    -- A node is inside an inserted default exactly when the input lacks it.
    have hinside :=
      (nodeRun_conforms_completes hschema hrun).2.insideInsertedDefault_iff hnode
    rw [Configuration.origin, metadataAt_canonicalPath hschema value.2 hrun hnode, hinside]
    constructor
    · intro hmissing
      simp [Except.map, nodeMetadata_origin_of_default hschema hrun hnode hmissing]
    · intro hpresent
      obtain ⟨node', hnode'⟩ := not_not.1 hpresent
      have horigin := nodeMetadata_origin_of_supplied hschema hrun hnode'
      exact ⟨_, congrArg Except.ok horigin, nearest_isNearest _ _ _⟩

end Core
end AscCpp
