import AscCpp.Core.Configuration.Metadata
import AscCpp.Utilities.CommandLine.Grammar

/-!
# Tree — the candidate tree of the supplied values

`InsertValue` grows the tree one destination at a time.  Its effect on nodes is stated once, and
from it the two facts that make the tree independent of the argument order:

* `insertValue_comm` — insertions at incomparable paths commute;
* `TreeInvariant` — what holds of the tree after any number of insertions at accepted destinations,
  kept by every further one (`TreeInvariant.insert`), so that no insertion fails.
-/

namespace AscCpp
namespace Utilities

open AscCpp.Core Library

/-- Neither path is at or above the other. -/
def Incomparable (path path' : List ByteString) : Prop :=
  ¬ path <+: path' ∧ ¬ path' <+: path

theorem incomparable_cons_iff {key : ByteString} {path path' : List ByteString} :
    Incomparable (key :: path) (key :: path') ↔ Incomparable path path' := by
  simp [Incomparable]

/-! ## One insertion -/

section Insert

variable {current result value value' : ConfigurationValue} {path path' : List ByteString}

/-- The only way an insertion fails. -/
theorem insertValue_error {status : Status} (h : insertValue current path value = .error status) :
    status = destinationsOverlap := by
  induction path generalizing current with
  | nil => cases h
  | cons key rest ih =>
      rw [insertValue] at h
      split at h
      · cases h
        rfl
      · split at h
        · rename_i herror
          cases h
          exact ih herror
        · cases h

theorem insertValue_cons_ok_iff {key : ByteString} {rest : List ByteString} :
    insertValue current (key :: rest) value = .ok result ↔
      ∃ object inserted, openObject current = some object ∧
        insertValue ((object.lookup key).getD .null) rest value = .ok inserted ∧
        result = .object (insertOrAssign key inserted object) := by
  rw [insertValue]
  cases hopen : openObject current with
  | none => simp
  | some object =>
      cases hinsert : insertValue ((object.lookup key).getD .null) rest value with
      | error status => simp [hinsert]
      | ok inserted => simp [hinsert, eq_comm]

/-- Two insertions below one key are insertions into its child. -/
theorem insertValue_bind_cons (key : ByteString) (rest rest' : List ByteString)
    {object : ConfigurationObject} (hopen : openObject current = some object) :
    ((insertValue current (key :: rest) value).bind fun tree =>
        insertValue tree (key :: rest') value') =
      ((insertValue ((object.lookup key).getD .null) rest value).bind fun child =>
        insertValue child rest' value').map
          fun child => .object (insertOrAssign key child object) := by
  simp only [insertValue, hopen]
  cases hfirst : insertValue ((object.lookup key).getD .null) rest value with
  | error status => rfl
  | ok inserted =>
      simp only [Except.bind, openObject, lookup_insertOrAssign_self, Option.getD_some]
      cases insertValue inserted rest' value' with
      | error status => rfl
      | ok inserted' => simp [Except.map, insertOrAssign_insertOrAssign_self]

/-- Insertions at incomparable paths commute, on any tree. -/
theorem insertValue_comm (h : Incomparable path path') :
    ((insertValue current path value).bind fun tree => insertValue tree path' value') =
      (insertValue current path' value').bind fun tree => insertValue tree path value := by
  -- Down both paths as long as they agree.
  induction path generalizing path' current with
  | nil => exact absurd List.nil_prefix h.1
  | cons key rest ih =>
      cases path' with
      | nil => exact absurd List.nil_prefix h.2
      | cons key' rest' =>
          cases hopen : openObject current with
          | none => simp [insertValue, hopen, Except.bind]
          | some object =>
              by_cases hkey : key = key'
              · subst hkey
                rw [insertValue_bind_cons key rest rest' hopen,
                  insertValue_bind_cons key rest' rest hopen, ih (incomparable_cons_iff.1 h)]
              · -- Different keys: the two children are independent.
                have hkey' : key' ≠ key := fun heq => hkey heq.symm
                simp only [insertValue, hopen]
                cases hfirst : insertValue ((object.lookup key).getD .null) rest value with
                | error status =>
                    cases hsecond : insertValue ((object.lookup key').getD .null) rest' value' with
                    | error status' =>
                        simp [Except.bind, insertValue_error hfirst, insertValue_error hsecond]
                    | ok inserted' =>
                        simp [Except.bind, openObject, lookup_insertOrAssign_of_ne hkey, hfirst]
                | ok inserted =>
                    cases hsecond : insertValue ((object.lookup key').getD .null) rest' value' with
                    | error status' =>
                        simp [Except.bind, openObject, lookup_insertOrAssign_of_ne hkey', hsecond]
                    | ok inserted' =>
                        simp [Except.bind, openObject, lookup_insertOrAssign_of_ne hkey,
                          lookup_insertOrAssign_of_ne hkey', hfirst, hsecond,
                          insertOrAssign_comm hkey]

theorem nodeAt_insertValue (h : insertValue current path value = .ok result) :
    NodeAt result path value := by
  induction path generalizing current result with
  | nil =>
      cases h
      exact .root _
  | cons key rest ih =>
      rcases insertValue_cons_ok_iff.1 h with ⟨object, inserted, -, hinsert, rfl⟩
      exact .field (lookup_insertOrAssign_self key inserted object) (ih hinsert)

/-- A child of the object an insertion extends is a child of the tree itself. -/
theorem nodeAt_of_openObject {object : ConfigurationObject} {key : ByteString}
    {child node : ConfigurationValue} {tokens : List ByteString}
    (hopen : openObject current = some object) (hlookup : object.lookup key = some child)
    (hnode : NodeAt child tokens node) : NodeAt current (key :: tokens) node := by
  cases current <;> simp only [openObject, Option.some.injEq, reduceCtorEq] at hopen
  · subst hopen
    cases hlookup
  · subst hopen
    exact .field hlookup hnode

/-- The nodes of the grown tree: objects above the path, the value at it, and old nodes. -/
theorem nodeAt_insertValue_cases (h : insertValue current path value = .ok result)
    {tokens : List ByteString} {node : ConfigurationValue} (hnode : NodeAt result tokens node) :
    (tokens <+: path ∧ node.type = .object) ∨
      (∃ below, tokens = path ++ below ∧ NodeAt value below node) ∨
      NodeAt current tokens node := by
  induction path generalizing current result tokens with
  | nil =>
      cases h
      exact Or.inr (Or.inl ⟨tokens, rfl, hnode⟩)
  | cons key rest ih =>
      rcases insertValue_cons_ok_iff.1 h with ⟨object, inserted, hopen, hinsert, rfl⟩
      cases tokens with
      | nil =>
          rw [NodeAt.nil_iff.1 hnode]
          exact Or.inl ⟨List.nil_prefix, rfl⟩
      | cons token tokens =>
          rcases NodeAt.object_cons_iff.1 hnode with ⟨child, hchild, hbelow⟩
          rw [lookup_insertOrAssign] at hchild
          by_cases htoken : token = key
          · subst htoken
            simp only [if_true, Option.some.injEq] at hchild
            subst hchild
            rcases ih hinsert hbelow with ⟨hfront, htype⟩ | ⟨below, rfl, hvalue⟩ | hold
            · exact Or.inl ⟨List.cons_prefix_cons.2 ⟨rfl, hfront⟩, htype⟩
            · exact Or.inr (Or.inl ⟨below, rfl, hvalue⟩)
            · cases hlookup : object.lookup token with
              | some child =>
                  rw [hlookup] at hold
                  exact Or.inr (Or.inr (nodeAt_of_openObject hopen hlookup hold))
              | none =>
                  -- The child was missing: only its root can be an old node, and it is gone.
                  rw [hlookup] at hold hinsert
                  have htokens := NodeAt.eq_nil_of_scalar (by simp [ConfigurationValue.type])
                    (by simp [ConfigurationValue.type]) hold
                  subst htokens
                  rw [NodeAt.nil_iff] at hbelow
                  subst hbelow
                  cases rest with
                  | nil =>
                      cases hinsert
                      exact Or.inr (Or.inl ⟨[], by simp, .root _⟩)
                  | cons =>
                      rcases insertValue_cons_ok_iff.1 hinsert with ⟨_, _, _, _, rfl⟩
                      exact Or.inl ⟨by simp, rfl⟩
          · rw [if_neg htoken] at hchild
            exact Or.inr (Or.inr (nodeAt_of_openObject hopen hchild hbelow))

/-- Nodes away from the path are kept. -/
theorem nodeAt_insertValue_of_incomparable (h : insertValue current path value = .ok result)
    {tokens : List ByteString} {node : ConfigurationValue} (hpath : Incomparable path tokens)
    (hnode : NodeAt current tokens node) : NodeAt result tokens node := by
  induction path generalizing current result tokens with
  | nil => exact absurd List.nil_prefix hpath.1
  | cons key rest ih =>
      rcases insertValue_cons_ok_iff.1 h with ⟨object, inserted, hopen, hinsert, rfl⟩
      cases hnode with
      | root => exact absurd List.nil_prefix hpath.2
      | @field fields token child _ tokens hlookup hbelow =>
          cases hopen
          -- Through the same child the paths go on apart; any other child is kept.
          by_cases htoken : token = key
          · subst htoken
            rw [hlookup, Option.getD_some] at hinsert
            exact .field (lookup_insertOrAssign_self _ _ _)
              (ih hinsert (incomparable_cons_iff.1 hpath) hbelow)
          · refine .field ?_ hbelow
            rw [lookup_insertOrAssign_of_ne htoken, hlookup]
      | item => cases hopen

theorem insertValue_wellFormed (h : insertValue current path value = .ok result)
    (hcurrent : current.WellFormed) (hvalue : value.WellFormed) : result.WellFormed := by
  induction path generalizing current result with
  | nil =>
      cases h
      exact hvalue
  | cons key rest ih =>
      rcases insertValue_cons_ok_iff.1 h with ⟨object, inserted, hopen, hinsert, rfl⟩
      -- A missing value is opened as an empty object.
      have hobject : Ordered object ∧ ∀ entry ∈ object, entry.2.WellFormed := by
        cases hcurrent <;> simp only [openObject, Option.some.injEq, reduceCtorEq] at hopen
        · subst hopen
          exact ⟨Ordered.nil, by simp⟩
        · subst hopen
          rename_i hordered hfields
          exact ⟨hordered, hfields⟩
      have hchild : ((object.lookup key).getD .null).WellFormed := by
        cases hlookup : object.lookup key with
        | none => exact .null
        | some child => exact hobject.2 _ (mem_of_lookup hlookup)
      exact .object _ (hobject.1.insertOrAssign key inserted)
        (forall_mem_insertOrAssign (ih hinsert hchild) hobject.2)

end Insert

/-! ## Trees that fit a schema -/

/-- Wherever the schema has an object, the tree has an object or nothing yet. -/
inductive Overlays : ConfigurationSchema → ConfigurationValue → Prop where
  | leaf {schema : ConfigurationSchema} {tree : ConfigurationValue}
      (htype : schema.type ≠ .object) : Overlays schema tree
  | missing {schema : ConfigurationSchema} : Overlays schema .null
  | object {schema : ConfigurationSchema} {fields : ConfigurationObject}
      (hfields : ∀ key field child, schema.fields.lookup key = some field →
        fields.lookup key = some child → Overlays field child) : Overlays schema (.object fields)

theorem Overlays.openObject {schema : ConfigurationSchema} {tree : ConfigurationValue}
    (h : Overlays schema tree) (htype : schema.type = .object) :
    ∃ object, openObject tree = some object ∧
      ∀ key field, schema.fields.lookup key = some field →
        Overlays field ((object.lookup key).getD .null) := by
  cases h with
  | leaf hleaf => exact absurd htype hleaf
  | missing => exact ⟨[], rfl, fun key field _ => .missing⟩
  | @object _ fields hfields =>
      refine ⟨fields, rfl, fun key field hfield => ?_⟩
      cases hlookup : fields.lookup key with
      | none => exact .missing
      | some child => exact hfields key field child hfield hlookup

/-- On a fitting tree an insertion at a leaf of the schema succeeds and keeps the fit. -/
theorem Overlays.insertValue {schema leaf : ConfigurationSchema} {tree : ConfigurationValue}
    {path : List ByteString} (h : Overlays schema tree)
    (hpath : findSchema schema path = .ok leaf) (hleaf : leaf.type ≠ .object)
    (value : ConfigurationValue) :
    ∃ result, Utilities.insertValue tree path value = .ok result ∧ Overlays schema result := by
  induction path generalizing schema tree with
  | nil =>
      cases hpath
      exact ⟨value, rfl, .leaf hleaf⟩
  | cons key rest ih =>
      rw [findSchema] at hpath
      split at hpath
      · cases hpath
      rename_i htype
      split at hpath
      · cases hpath
      rename_i field hfield
      rcases h.openObject (not_not.1 htype) with ⟨object, hopen, hchildren⟩
      rcases ih (hchildren key field hfield) hpath with ⟨inserted, hinsert, hfit⟩
      refine ⟨_, insertValue_cons_ok_iff.2 ⟨object, inserted, hopen, hinsert, rfl⟩, .object ?_⟩
      intro other field' child hfield' hchild
      rw [lookup_insertOrAssign] at hchild
      -- The child on the path is the new one, the others are the old ones.
      by_cases hother : other = key
      · subst hother
        rw [hfield] at hfield'
        cases hfield'
        simp only [if_true, Option.some.injEq] at hchild
        exact hchild ▸ hfit
      · rw [if_neg hother] at hchild
        have hold := hchildren other field' hfield'
        rwa [hchild] at hold

/-! ## The tree after some insertions -/

/-- Supplied values under the token lists of their destinations. -/
abbrev Entries := List (List ByteString × ConfigurationValue)

/-- What holds of the candidate tree once `entries` have been inserted. -/
structure TreeInvariant (schema : ConfigurationSchema) (entries : Entries)
    (tree : ConfigurationValue) : Prop where
  wellFormed : tree.WellFormed
  overlays : Overlays schema tree
  supplied : ∀ entry ∈ entries, NodeAt tree entry.1 entry.2
  covered : ∀ tokens node, NodeAt tree tokens node →
    tokens = [] ∨ ∃ entry ∈ entries, tokens <+: entry.1
  listFree : ∀ tokens node, NodeAt tree tokens node → node.type ≠ .list

theorem TreeInvariant.initial (schema : ConfigurationSchema) :
    TreeInvariant schema [] (initialTree schema) := by
  unfold initialTree
  -- An object schema starts from the empty object, any other from a missing value.
  split
  · have hroot : ∀ tokens node, NodeAt (.object []) tokens node → tokens = [] := by
      intro tokens node hnode
      cases hnode with
      | root => rfl
      | field hlookup => cases hlookup
    refine ⟨.object _ Ordered.nil (by simp), .object (by simp), by simp, ?_, ?_⟩
    · intro tokens node hnode
      exact Or.inl (hroot tokens node hnode)
    · intro tokens node hnode
      have htokens := hroot tokens node hnode
      subst htokens
      simp [NodeAt.nil_iff.1 hnode, ConfigurationValue.type]
  · have hroot : ∀ tokens node, NodeAt .null tokens node → tokens = [] := fun tokens node hnode =>
      hnode.eq_nil_of_scalar (by simp [ConfigurationValue.type]) (by simp [ConfigurationValue.type])
    refine ⟨.null, .missing, by simp, ?_, ?_⟩
    · intro tokens node hnode
      exact Or.inl (hroot tokens node hnode)
    · intro tokens node hnode
      have htokens := hroot tokens node hnode
      subst htokens
      simp [NodeAt.nil_iff.1 hnode, ConfigurationValue.type]

theorem nodeAt_leaf_iff {value node : ConfigurationValue} {tokens : List ByteString}
    (hleaf : isSupportedLeaf value.type) :
    NodeAt value tokens node ↔ tokens = [] ∧ node = value := by
  constructor
  · intro h
    have htokens : tokens = [] := by
      refine h.eq_nil_of_scalar ?_ ?_
      · intro htype
        simp [htype, isSupportedLeaf] at hleaf
      · intro htype
        simp [htype, isSupportedLeaf] at hleaf
    subst htokens
    exact ⟨rfl, NodeAt.nil_iff.1 h⟩
  · rintro ⟨rfl, rfl⟩
    exact .root _

/-- A further insertion, away from the earlier ones, succeeds and keeps the invariant. -/
theorem TreeInvariant.insert {schema leaf : ConfigurationSchema} {entries : Entries}
    {tree : ConfigurationValue} (h : TreeInvariant schema entries tree)
    {path : List ByteString} {value : ConfigurationValue}
    (hpath : findSchema schema path = .ok leaf) (hleaf : isSupportedLeaf leaf.type)
    (hvalue : value.WellFormed) (hscalar : isSupportedLeaf value.type)
    (hapart : ∀ entry ∈ entries, Incomparable path entry.1) :
    ∃ result, insertValue tree path value = .ok result ∧
      TreeInvariant schema (entries ++ [(path, value)]) result := by
  have hobject : leaf.type ≠ .object := by
    intro htype
    simp [htype, isSupportedLeaf] at hleaf
  rcases h.overlays.insertValue hpath hobject value with ⟨result, hinsert, hoverlays⟩
  refine ⟨result, hinsert, insertValue_wellFormed hinsert h.wellFormed hvalue, hoverlays, ?_, ?_,
    ?_⟩
  -- An entry is still there, since no path is in front of another one.
  · intro entry hmem
    rcases List.mem_append.1 hmem with hold | hnew
    · exact nodeAt_insertValue_of_incomparable hinsert (hapart entry hold) (h.supplied entry hold)
    · rw [List.mem_singleton.1 hnew]
      exact nodeAt_insertValue hinsert
  -- A node is on the path, inside the new value, or an old one.
  · intro tokens node hnode
    rcases nodeAt_insertValue_cases hinsert hnode with ⟨hfront, -⟩ | ⟨below, rfl, hbelow⟩ | hold
    · exact Or.inr ⟨(path, value), by simp, hfront⟩
    · rw [((nodeAt_leaf_iff hscalar).1 hbelow).1, List.append_nil]
      exact Or.inr ⟨(path, value), by simp, List.prefix_refl _⟩
    · rcases h.covered tokens node hold with hroot | ⟨entry, hmem, hfront⟩
      · exact Or.inl hroot
      · exact Or.inr ⟨entry, List.mem_append_left _ hmem, hfront⟩
  -- None of the three is a list.
  · intro tokens node hnode
    rcases nodeAt_insertValue_cases hinsert hnode with ⟨-, htype⟩ | ⟨below, rfl, hbelow⟩ | hold
    · simp [htype]
    · rw [((nodeAt_leaf_iff hscalar).1 hbelow).2]
      intro htype
      simp [htype, isSupportedLeaf] at hscalar
    · exact h.listFree tokens node hold

end Utilities
end AscCpp
