import Mathlib.Data.List.Lex
import Mathlib.Data.List.Basic
import Mathlib.Order.Lattice

/-!
# OrderedMap — finite maps as key-ordered association lists

A standard ordered map is kept as the list of its entries in strictly increasing key order.
This module fixes that representation for any linearly ordered key type:

* `Ordered m` — the keys of `m` increase strictly;
* `insertOrAssign`, `emplace` — the two insertions, on raw entry lists (so that recursive types
  may nest them);
* `OrderedMap κ β` — an entry list packaged with its order proof.

An ordered entry list is determined by its lookups (`Ordered.ext`), and insertions under distinct
keys commute (`insertOrAssign_comm`).
-/

namespace AscCpp
namespace Library

universe u v

variable {κ : Type u} {β : Type v}

/-! ## Order and insertion -/

section Order

variable [LinearOrder κ]

/-- The entries are listed in strictly increasing key order. -/
def Ordered (m : List (κ × β)) : Prop :=
  (m.map Prod.fst).Pairwise (· < ·)

/-- Set the value under `key`, keeping the key order. -/
def insertOrAssign (key : κ) (value : β) : List (κ × β) → List (κ × β)
  | [] => [(key, value)]
  | (k, v) :: rest =>
      if key < k then
        (key, value) :: (k, v) :: rest
      else if key = k then
        (key, value) :: rest
      else
        (k, v) :: insertOrAssign key value rest

namespace Ordered

theorem nil : Ordered ([] : List (κ × β)) :=
  List.Pairwise.nil

theorem tail {entry : κ × β} {rest : List (κ × β)} (h : Ordered (entry :: rest)) :
    Ordered rest :=
  (List.pairwise_cons.1 h).2

theorem sublist {m : List (κ × β)} {γ : Type*} {m' : List (κ × γ)} (h : Ordered m)
    (hsub : (m'.map Prod.fst).Sublist (m.map Prod.fst)) : Ordered m' :=
  List.Pairwise.sublist hsub h

theorem head_lt {entry : κ × β} {rest : List (κ × β)} (h : Ordered (entry :: rest))
    {other : κ × β} (hmem : other ∈ rest) : entry.1 < other.1 :=
  (List.pairwise_cons.1 h).1 other.1 (List.mem_map_of_mem hmem)

theorem cons {entry : κ × β} {rest : List (κ × β)} (h : Ordered rest)
    (hlt : ∀ other ∈ rest, entry.1 < other.1) : Ordered (entry :: rest) := by
  refine List.pairwise_cons.2 ⟨?_, h⟩
  intro k hk
  obtain ⟨other, hmem, rfl⟩ := List.mem_map.1 hk
  exact hlt other hmem

end Ordered

theorem forall_mem_insertOrAssign {p : κ × β → Prop} {key : κ} {value : β}
    {m : List (κ × β)} (hnew : p (key, value)) (hold : ∀ entry ∈ m, p entry) :
    ∀ entry ∈ insertOrAssign key value m, p entry := by
  induction m with
  | nil =>
      simpa [insertOrAssign] using hnew
  | cons head rest ih =>
      obtain ⟨k, v⟩ := head
      have hrest : ∀ entry ∈ rest, p entry :=
        fun entry hmem => hold entry (List.mem_cons_of_mem _ hmem)
      intro entry hmem
      unfold insertOrAssign at hmem
      split at hmem
      · rcases List.mem_cons.1 hmem with rfl | hmem'
        · exact hnew
        · exact hold entry hmem'
      · split at hmem
        · rcases List.mem_cons.1 hmem with rfl | hmem'
          · exact hnew
          · exact hrest entry hmem'
        · rcases List.mem_cons.1 hmem with rfl | hmem'
          · exact hold _ List.mem_cons_self
          · exact ih hrest entry hmem'

theorem Ordered.insertOrAssign {m : List (κ × β)} (h : Ordered m) (key : κ) (value : β) :
    Ordered (insertOrAssign key value m) := by
  induction m with
  | nil =>
      exact Ordered.nil.cons (by simp)
  | cons entry rest ih =>
      obtain ⟨k, v⟩ := entry
      unfold Library.insertOrAssign
      split
      · rename_i hlt
        refine h.cons ?_
        intro other hmem
        rcases List.mem_cons.1 hmem with rfl | hmem'
        · exact hlt
        · exact hlt.trans (h.head_lt hmem')
      · rename_i hnlt
        split
        · rename_i heq
          subst heq
          exact h.tail.cons fun other hmem => h.head_lt hmem
        · rename_i hne
          have hlt : k < key := lt_of_le_of_ne (not_lt.1 hnlt) (Ne.symm hne)
          exact (ih h.tail).cons
            (forall_mem_insertOrAssign hlt fun other hmem => h.head_lt hmem)

/-- Insertions under distinct keys commute, on any entry list. -/
theorem insertOrAssign_comm {key key' : κ} (h : key ≠ key') (value value' : β)
    (m : List (κ × β)) :
    insertOrAssign key value (insertOrAssign key' value' m) =
      insertOrAssign key' value' (insertOrAssign key value m) := by
  wlog hlt : key < key' generalizing key key' value value' with hsymm
  · exact (hsymm h.symm value' value (lt_of_le_of_ne (not_lt.1 hlt) h.symm)).symm
  have hnlt : ¬ key' < key := not_lt.2 hlt.le
  induction m with
  | nil =>
      simp [insertOrAssign, hlt, hnlt, h.symm]
  | cons entry rest ih =>
      obtain ⟨k, v⟩ := entry
      -- Where each of the keys stands against that of the entry.
      rcases lt_trichotomy key k with hk | hk | hk
      · rcases lt_trichotomy key' k with hk' | hk' | hk'
        · simp [insertOrAssign, hk, hk', hlt, hnlt, h.symm]
        · subst hk'
          simp [insertOrAssign, hlt, hnlt, h.symm]
        · have hnk' : ¬ key' < k := not_lt.2 hk'.le
          simp [insertOrAssign, hk, hnk', hk'.ne', hnlt, h.symm]
      · subst hk
        simp [insertOrAssign, hnlt, h.symm]
      · have hk' : k < key' := hk.trans hlt
        have hnk : ¬ key < k := not_lt.2 hk.le
        have hnk' : ¬ key' < k := not_lt.2 hk'.le
        simp [insertOrAssign, hnk, hnk', hk.ne', hk'.ne', ih]

/-- Assigning twice under one key keeps the later value. -/
theorem insertOrAssign_insertOrAssign_self (key : κ) (value value' : β) (m : List (κ × β)) :
    insertOrAssign key value (insertOrAssign key value' m) = insertOrAssign key value m := by
  induction m with
  | nil =>
      simp [insertOrAssign]
  | cons entry rest ih =>
      obtain ⟨k, v⟩ := entry
      rcases lt_trichotomy key k with hk | hk | hk
      · simp [insertOrAssign, hk]
      · subst hk
        simp [insertOrAssign]
      · have hnk : ¬ key < k := not_lt.2 hk.le
        simp [insertOrAssign, hnk, hk.ne', ih]

/-- Appending a largest key: the shape every in-order construction of a map takes. -/
theorem insertOrAssign_eq_append {key : κ} {value : β} {m : List (κ × β)}
    (h : ∀ entry ∈ m, entry.1 < key) :
    insertOrAssign key value m = m ++ [(key, value)] := by
  induction m with
  | nil =>
      rfl
  | cons entry rest ih =>
      obtain ⟨k, v⟩ := entry
      have hk : k < key := h (k, v) List.mem_cons_self
      have hrest := ih fun other hmem => h other (List.mem_cons_of_mem _ hmem)
      simp [insertOrAssign, not_lt.2 hk.le, hk.ne', hrest]

end Order

/-! ## Lookups -/

section Lookup

variable [BEq κ] [LawfulBEq κ]

theorem lookup_cons_of_ne {key k : κ} (h : key ≠ k) (v : β) (rest : List (κ × β)) :
    ((k, v) :: rest).lookup key = rest.lookup key := by
  have hbeq : (key == k) = false := by
    simpa using h
  simp [List.lookup_cons, hbeq]

theorem mem_of_lookup {key : κ} {value : β} {m : List (κ × β)}
    (h : m.lookup key = some value) : (key, value) ∈ m := by
  obtain ⟨l₁, l₂, rfl, -⟩ := List.lookup_eq_some_iff.1 h
  simp

theorem lookup_isSome_iff_mem_keys {key : κ} {m : List (κ × β)} :
    (m.lookup key).isSome ↔ key ∈ m.map Prod.fst := by
  simp [List.lookup_isSome_iff]

theorem lookup_eq_none_of_forall_ne {key : κ} {m : List (κ × β)}
    (h : ∀ entry ∈ m, entry.1 ≠ key) : m.lookup key = none := by
  rw [List.lookup_eq_none_iff]
  intro entry hmem
  simpa using (h entry hmem).symm

end Lookup

section OrderedLookup

variable [LinearOrder κ] [BEq κ] [LawfulBEq κ]

@[simp]
theorem lookup_insertOrAssign_self (key : κ) (value : β) (m : List (κ × β)) :
    (insertOrAssign key value m).lookup key = some value := by
  induction m with
  | nil =>
      simp [insertOrAssign]
  | cons entry rest ih =>
      obtain ⟨k, v⟩ := entry
      by_cases hlt : key < k
      · simp [insertOrAssign, hlt]
      · by_cases heq : key = k
        · simp [insertOrAssign, heq]
        · simp [insertOrAssign, hlt, heq, lookup_cons_of_ne heq, ih]

theorem lookup_insertOrAssign_of_ne {key other : κ} (h : other ≠ key) (value : β)
    (m : List (κ × β)) :
    (insertOrAssign key value m).lookup other = m.lookup other := by
  induction m with
  | nil =>
      simp [insertOrAssign, lookup_cons_of_ne h]
  | cons entry rest ih =>
      obtain ⟨k, v⟩ := entry
      by_cases hlt : key < k
      · simp [insertOrAssign, hlt, lookup_cons_of_ne h]
      · by_cases heq : key = k
        · subst heq
          simp [insertOrAssign, lookup_cons_of_ne h]
        · simp only [insertOrAssign, hlt, heq, if_false, List.lookup_cons, ih]

theorem lookup_insertOrAssign (key other : κ) (value : β) (m : List (κ × β)) :
    (insertOrAssign key value m).lookup other =
      if other = key then some value else m.lookup other := by
  by_cases h : other = key
  · simp [h]
  · simp [h, lookup_insertOrAssign_of_ne h]

namespace Ordered

theorem lookup_of_mem {m : List (κ × β)} (h : Ordered m) {key : κ} {value : β}
    (hmem : (key, value) ∈ m) : m.lookup key = some value := by
  induction m with
  | nil =>
      cases hmem
  | cons entry rest ih =>
      obtain ⟨k, v⟩ := entry
      rcases List.mem_cons.1 hmem with heq | hrest
      · cases heq
        simp
      · have hlt : k < key := h.head_lt hrest
        rw [lookup_cons_of_ne hlt.ne']
        exact ih h.tail hrest

theorem lookup_iff_mem {m : List (κ × β)} (h : Ordered m) {key : κ} {value : β} :
    m.lookup key = some value ↔ (key, value) ∈ m :=
  ⟨mem_of_lookup, h.lookup_of_mem⟩

theorem lookup_tail_of_le {entry : κ × β} {rest : List (κ × β)}
    (h : Ordered (entry :: rest)) {key : κ} (hle : key ≤ entry.1) :
    rest.lookup key = none := by
  refine lookup_eq_none_of_forall_ne ?_
  intro other hmem
  exact (lt_of_le_of_lt hle (h.head_lt hmem)).ne'

end Ordered

/-- Ordered entry lists with equal lookups are equal. -/
theorem Ordered.ext {m m' : List (κ × β)} (h : Ordered m) (h' : Ordered m')
    (hlookup : ∀ key, m.lookup key = m'.lookup key) : m = m' := by
  induction m generalizing m' with
  | nil =>
      cases m' with
      | nil => rfl
      | cons entry rest =>
          obtain ⟨k, v⟩ := entry
          have hk := hlookup k
          simp at hk
  | cons entry rest ih =>
      obtain ⟨k, v⟩ := entry
      cases m' with
      | nil =>
          have hk := hlookup k
          simp at hk
      | cons entry' rest' =>
          obtain ⟨k', v'⟩ := entry'
          -- The smaller of the two head keys is missing from the other list.
          have hkey : k = k' := by
            rcases lt_trichotomy k k' with hlt | heq | hgt
            · have hk := hlookup k
              rw [lookup_cons_of_ne hlt.ne, h'.lookup_tail_of_le hlt.le] at hk
              simp at hk
            · exact heq
            · have hk := hlookup k'
              rw [lookup_cons_of_ne hgt.ne, h.lookup_tail_of_le hgt.le] at hk
              simp at hk
          subst hkey
          have hvalue : v = v' := by
            have hk := hlookup k
            simpa using hk
          subst hvalue
          have hrest : rest = rest' := by
            refine ih h.tail h'.tail ?_
            intro key
            by_cases hk : key = k
            · subst hk
              rw [h.lookup_tail_of_le le_rfl, h'.lookup_tail_of_le le_rfl]
            · have hthis := hlookup key
              rwa [lookup_cons_of_ne hk, lookup_cons_of_ne hk] at hthis
          rw [hrest]

/-- Insert under `key` unless the key is already present. -/
def emplace (key : κ) (value : β) (m : List (κ × β)) : List (κ × β) :=
  if (m.lookup key).isSome then m else insertOrAssign key value m

omit [LawfulBEq κ] in
theorem forall_mem_emplace {p : κ × β → Prop} {key : κ} {value : β} {m : List (κ × β)}
    (hnew : p (key, value)) (hold : ∀ entry ∈ m, p entry) :
    ∀ entry ∈ emplace key value m, p entry := by
  unfold emplace
  split
  · exact hold
  · exact forall_mem_insertOrAssign hnew hold

omit [LawfulBEq κ] in
theorem Ordered.emplace {m : List (κ × β)} (h : Ordered m) (key : κ) (value : β) :
    Ordered (emplace key value m) := by
  unfold Library.emplace
  split
  · exact h
  · exact h.insertOrAssign key value

theorem emplace_eq_append {key : κ} {value : β} {m : List (κ × β)}
    (h : ∀ entry ∈ m, entry.1 < key) :
    emplace key value m = m ++ [(key, value)] := by
  have hnone : m.lookup key = none :=
    lookup_eq_none_of_forall_ne fun entry hmem => (h entry hmem).ne
  simp [emplace, hnone, insertOrAssign_eq_append h]

end OrderedLookup

/-! ## Packaged maps -/

/-- An entry list with its order proof. -/
structure OrderedMap (κ : Type u) (β : Type v) [LinearOrder κ] where
  entries : List (κ × β)
  ordered : Ordered entries

namespace OrderedMap

variable [LinearOrder κ]

def empty : OrderedMap κ β :=
  ⟨[], Ordered.nil⟩

def insertOrAssign (m : OrderedMap κ β) (key : κ) (value : β) : OrderedMap κ β :=
  ⟨Library.insertOrAssign key value m.entries, m.ordered.insertOrAssign key value⟩

section Find

variable [BEq κ]

def find (m : OrderedMap κ β) (key : κ) : Option β :=
  m.entries.lookup key

def contains (m : OrderedMap κ β) (key : κ) : Bool :=
  (m.find key).isSome

@[simp]
theorem find_empty (key : κ) : (empty : OrderedMap κ β).find key = none := rfl

variable [LawfulBEq κ]

@[ext]
theorem ext {m m' : OrderedMap κ β} (h : ∀ key, m.find key = m'.find key) : m = m' := by
  cases m with
  | mk entries ordered =>
      cases m' with
      | mk entries' ordered' =>
          have hentries : entries = entries' := ordered.ext ordered' h
          subst hentries
          rfl

@[simp]
theorem find_insertOrAssign_self (m : OrderedMap κ β) (key : κ) (value : β) :
    (m.insertOrAssign key value).find key = some value :=
  lookup_insertOrAssign_self key value m.entries

theorem find_insertOrAssign_of_ne (m : OrderedMap κ β) {key other : κ} (h : other ≠ key)
    (value : β) : (m.insertOrAssign key value).find other = m.find other :=
  lookup_insertOrAssign_of_ne h value m.entries

theorem mem_entries_iff (m : OrderedMap κ β) {key : κ} {value : β} :
    (key, value) ∈ m.entries ↔ m.find key = some value :=
  m.ordered.lookup_iff_mem.symm

end Find

end OrderedMap

end Library
end AscCpp
