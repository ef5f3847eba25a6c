import AscCpp.Expression.Writable
import AscCpp.Library.Representation
import AscCpp.Sparse.CompressedView
import AscCpp.Sparse.CoordinateView
import Mathlib.Algebra.Ring.Defs

/-!
# Adapter — sparse views in expressions

The structure of a sparse view is fixed; its values stand in memory.  A view is read after its value
pointer has been given the elements that memory holds.

- `CoordinateView.Checked`, `CompressedSparseView.Checked`: views that `Create` returned.
- `not_mem_span_of_mayAlias`: an address that a view does not know of is not a byte of its values.
-/

namespace AscCpp
namespace Sparse

open AscCpp.Core Library Expression

variable {Cell V : Type}

/-! ## Values in memory -/

/-- The values of an element type. -/
def Stored (_ : Representation Cell V) : Type := V

instance [Ring V] (type : Representation Cell V) : Ring (Stored type) := inferInstanceAs (Ring V)

instance [DecidableEq V] (type : Representation Cell V) : DecidableEq (Stored type) :=
  inferInstanceAs (DecidableEq V)

instance [Ring V] [DecidableEq V] (type : Representation Cell V) : SparseElement (Stored type) where
  size := type.size
  alignment := type.alignment
  zero := 0
  isZero value := decide (value = 0)
  add left right := left + right
  addDuplicate left right := .ok (left + right)

/-- The element at an address. -/
def loadStored (type : Representation Cell V) (memory : Nat → Cell) (address : Nat) : Stored type :=
  type.load memory address

/-- The elements behind an address. -/
def loadValues (type : Representation Cell V) (memory : Nat → Cell) (address count : Nat) :
    Pointer (Stored type) :=
  ⟨address, (List.range count).map fun position =>
    loadStored type memory (address + position * type.size)⟩

theorem loadValues_read {type : Representation Cell V} [Inhabited (Stored type)]
    {memory : Nat → Cell} {address count position : Nat} (h : position < count) :
    (loadValues type memory address count).read position =
      loadStored type memory (address + position * type.size) := by
  rw [Pointer.read_eq _ (by simpa [loadValues] using h)]
  simp [loadValues]

/-- An address that is asked for in vain is not a byte of the span. -/
theorem not_mem_of_byteSpanContains {data size address : Nat} (haddress : address ≠ 0)
    (h : byteSpanContains data size address = false) :
    ¬ (data ≤ address ∧ address < data + size) := by
  unfold byteSpanContains at h
  split at h
  · omega
  split at h
  · cases h
  split at h
  · cases h
  · exact of_decide_eq_false h

/-- The values are asked about first, then the structure. -/
theorem ite_known_eq {identity : Prop} [Decidable identity] {inValues inStructure : Bool} :
    (if identity ∨ inValues = true then true else inStructure) =
      (decide identity || inValues || inStructure) := by
  by_cases hidentity : identity
  · simp [hidentity]
  · cases inValues <;> simp [hidentity]

namespace CoordinateView

variable {type : Representation Cell V} {rank : Nat}

/-- `Create` returned the view. -/
def Checked {E : Type} [SparseElement E] (view : CoordinateView E rank) : Prop :=
  create view.coordinates view.values view.extents view.nonzeros view.memorySpace = .ok view

def load (view : CoordinateView (Stored type) rank) (memory : Nat → Cell) :
    CoordinateView (Stored type) rank :=
  { view with values := loadValues type memory view.values.address view.nonzeros }

/-- The bytes of the values. -/
def valueSpan (view : CoordinateView (Stored type) rank) : Block :=
  ⟨view.values.address, view.nonzeros * type.size⟩

def valueAlias (view : CoordinateView (Stored type) rank) : ExpressionAliasMetadata :=
  ⟨view.values.address, some view.valueSpan⟩

/-- The address that `AtStored(position)` returns. -/
def elementAt [Ring V] [DecidableEq V] (view : CoordinateView (Stored type) rank) (position : Int) :
    Result Nat :=
  (view.atStored position).map fun _ => view.values.address + position.toNat * type.size

def read [Ring V] [DecidableEq V] (view : CoordinateView (Stored type) rank) (memory : Nat → Cell)
    (indices : List Int) : Option V :=
  if h : indices.length = rank then
    ((view.load memory).lookup ⟨indices, h⟩).toOption
  else
    none

def mayAlias (view : CoordinateView (Stored type) rank) (token : Nat) : Bool :=
  if token = view.valueAlias.identity ∨
      byteSpanContains view.valueSpan.address view.valueSpan.size token = true then
    true
  else
    match coordinateElementCount view.nonzeros rank with
    | .error _ => true
    | .ok coordinateCount =>
      match checkedMultiply sizeType coordinateCount indexSize with
      | .error _ => true
      | .ok coordinateBytes =>
        byteSpanContains view.coordinates.address coordinateBytes.toNat token

section Elements

variable [Ring V] [DecidableEq V] {view : CoordinateView (Stored type) rank}

theorem elementAt_ok (hhost : view.memorySpace = .host) {position : Nat}
    (hposition : position < view.nonzeros) :
    view.elementAt position = .ok (view.values.address + position * type.size) := by
  rw [elementAt, atStored_ok hhost hposition]
  rfl

theorem Checked.accepts (h : view.Checked) (hhost : view.memorySpace = .host) :
    Accepts view.coordinates view.values view.extents view.nonzeros := by
  unfold Checked at h
  rw [hhost] at h
  exact (create_host_ok_iff.1 h).1

theorem Checked.address_ne_zero (h : view.Checked) (hhost : view.memorySpace = .host)
    (hnonzeros : view.nonzeros ≠ 0) : view.values.address ≠ 0 := by
  rcases validateAddressSpan_ok_iff.1 (h.accepts hhost).valueSpan with hempty | hspan
  · exact absurd hempty (Nat.mul_ne_zero hnonzeros type.size_pos.ne')
  · exact hspan.1

omit [Ring V] [DecidableEq V] in
theorem not_mem_span_of_mayAlias {token : Nat} (htoken : token ≠ 0)
    (h : view.mayAlias token = false) :
    ¬ (view.valueSpan.address ≤ token ∧ token < view.valueSpan.address + view.valueSpan.size) := by
  unfold mayAlias at h
  split at h
  · cases h
  · rename_i hvalues
    rw [not_or, Bool.not_eq_true] at hvalues
    exact not_mem_of_byteSpanContains htoken hvalues.2

/-- A checked view knows of its values, of where they begin and of its coordinates. -/
theorem Checked.mayAlias_eq (h : view.Checked) (hhost : view.memorySpace = .host) (token : Nat) :
    view.mayAlias token =
      (decide (token = view.values.address) ||
        byteSpanContains view.values.address (view.nonzeros * type.size) token ||
        byteSpanContains view.coordinates.address (view.nonzeros * rank * indexSize) token) := by
  have haccepts := h.accepts hhost
  have hfits : (view.nonzeros : Int) ≤ sizeType.maximum :=
    (haccepts.count_le.trans haccepts.logical).trans (by decide)
  have hbytes := haccepts.coordinateBytes
  push_cast at hbytes
  have hnonneg : (0 : Int) ≤ view.nonzeros * rank := by positivity
  -- The products were checked when the view was made, so that none overflows now.
  have hcount : coordinateElementCount view.nonzeros rank = .ok (view.nonzeros * rank : Int) := by
    simp only [indexSize] at hbytes
    rw [coordinateElementCount_eq (Int.natCast_nonneg _) hfits,
      checkedMultiply_of_nonneg (Int.natCast_nonneg _) (Int.natCast_nonneg _), if_pos (by omega)]
  have hspan : checkedMultiply sizeType (view.nonzeros * rank : Int) indexSize =
      .ok ((view.nonzeros * rank * indexSize : Nat) : Int) := by
    rw [checkedMultiply_of_nonneg hnonneg (Int.natCast_nonneg _), if_pos hbytes]
    push_cast
    rfl
  rw [mayAlias, hcount]
  simp only [hspan, Int.toNat_natCast, valueAlias, valueSpan]
  -- The source returns early when the values alias.
  rw [ite_known_eq]

theorem Checked.load_sorted (h : view.Checked) (hhost : view.memorySpace = .host)
    (memory : Nat → Cell) : StrictlyKeySorted (view.load memory).entries :=
  (strictlyKeySorted_iff _).2 (h.accepts hhost).ordered

theorem read_eq_lookup (memory : Nat → Cell) (coordinate : Coordinate rank) :
    view.read memory coordinate.toList = ((view.load memory).lookup coordinate).toOption :=
  dif_pos coordinate.2

/-- A stored coordinate reads its value. -/
theorem Checked.read_stored (h : view.Checked) (hhost : view.memorySpace = .host)
    (memory : Nat → Cell) {position : Nat} (hposition : position < view.nonzeros) :
    view.read memory (view.coordinates.read position).toList =
      some (type.load memory (view.values.address + position * type.size)) := by
  have hentry : (view.coordinates.read position,
      loadStored type memory (view.values.address + position * type.size)) ∈
        (view.load memory).entries := by
    rw [mem_entries]
    refine ⟨position, hposition, ?_⟩
    rw [load, loadValues_read hposition]
  have hloaded : (view.load memory).memorySpace = .host := hhost
  rw [read_eq_lookup, lookup_of_mem hloaded ((h.accepts hhost).inRange position hposition)
    (h.load_sorted hhost memory) hentry]
  rfl

/-- Other coordinates of the shape read zero. -/
theorem Checked.read_unstored (h : view.Checked) (hhost : view.memorySpace = .host)
    (memory : Nat → Cell) {coordinate : Coordinate rank} (hrange : InRange coordinate view.extents)
    (hunstored : ∀ position < view.nonzeros, view.coordinates.read position ≠ coordinate) :
    view.read memory coordinate.toList = some 0 := by
  have hmissing : coordinate ∉ (view.load memory).entries.map Prod.fst := by
    intro hmem
    rcases List.mem_map.1 hmem with ⟨entry, hentry, rfl⟩
    rcases mem_entries.1 hentry with ⟨position, hposition, rfl⟩
    exact hunstored position hposition rfl
  have hloaded : (view.load memory).memorySpace = .host := hhost
  rw [read_eq_lookup, lookup_of_not_mem hloaded hrange (h.load_sorted hhost memory) hmissing]
  rfl

end Elements

end CoordinateView

namespace CompressedSparseView

variable {type : Representation Cell V} {format : SparseCompressedFormat}

/-- `Create` returned the view. -/
def Checked {E : Type} [SparseElement E] (view : CompressedSparseView E format) : Prop :=
  create view.outerOffsets view.innerIndices view.values view.shape view.nonzeros
    view.memorySpace = .ok view

def load (view : CompressedSparseView (Stored type) format) (memory : Nat → Cell) :
    CompressedSparseView (Stored type) format :=
  { view with values := loadValues type memory view.values.address view.nonzeros }

/-- The bytes of the values. -/
def valueSpan (view : CompressedSparseView (Stored type) format) : Block :=
  ⟨view.values.address, view.nonzeros * type.size⟩

def valueAlias (view : CompressedSparseView (Stored type) format) : ExpressionAliasMetadata :=
  ⟨view.values.address, some view.valueSpan⟩

/-- The address that `AtStored(position)` returns. -/
def elementAt [Ring V] [DecidableEq V] (view : CompressedSparseView (Stored type) format)
    (position : Int) : Result Nat :=
  (view.atStored position).map fun _ => view.values.address + position.toNat * type.size

def read [Ring V] [DecidableEq V] (view : CompressedSparseView (Stored type) format)
    (memory : Nat → Cell) (indices : List Int) : Option V :=
  if h : indices.length = 2 then
    ((view.load memory).lookup ⟨indices, h⟩).toOption
  else
    none

def mayAlias (view : CompressedSparseView (Stored type) format) (token : Nat) : Bool :=
  if token = view.valueAlias.identity ∨
      byteSpanContains view.valueSpan.address view.valueSpan.size token = true then
    true
  else
    match offsetCount (Sparse.outerExtent format view.shape) with
    | .error _ => true
    | .ok offsetCount =>
      match checkedMultiply sizeType offsetCount indexSize,
        checkedByteCount view.nonzeros indexSize with
      | .ok offsetBytes, .ok indexBytes =>
        byteSpanContains view.outerOffsets.address offsetBytes.toNat token ||
          byteSpanContains view.innerIndices.address indexBytes.toNat token
      | _, _ => true

section Elements

variable [Ring V] [DecidableEq V] {view : CompressedSparseView (Stored type) format}

theorem elementAt_ok (hhost : view.memorySpace = .host) {position : Nat}
    (hposition : position < view.nonzeros) :
    view.elementAt position = .ok (view.values.address + position * type.size) := by
  rw [elementAt, atStored_ok hhost hposition]
  rfl

theorem Checked.accepts (h : view.Checked) (hhost : view.memorySpace = .host) :
    Accepts format view.outerOffsets view.innerIndices view.values view.shape view.nonzeros := by
  unfold Checked at h
  rw [hhost] at h
  exact (create_host_ok_iff.1 h).1

theorem Checked.address_ne_zero (h : view.Checked) (hhost : view.memorySpace = .host)
    (hnonzeros : view.nonzeros ≠ 0) : view.values.address ≠ 0 := by
  rcases validateAddressSpan_ok_iff.1 (h.accepts hhost).valueSpan with hempty | hspan
  · exact absurd hempty (Nat.mul_ne_zero hnonzeros type.size_pos.ne')
  · exact hspan.1

omit [Ring V] [DecidableEq V] in
theorem not_mem_span_of_mayAlias {token : Nat} (htoken : token ≠ 0)
    (h : view.mayAlias token = false) :
    ¬ (view.valueSpan.address ≤ token ∧ token < view.valueSpan.address + view.valueSpan.size) := by
  unfold mayAlias at h
  split at h
  · cases h
  · rename_i hvalues
    rw [not_or, Bool.not_eq_true] at hvalues
    exact not_mem_of_byteSpanContains htoken hvalues.2

/-- A checked view knows of its values, of where they begin and of its structure. -/
theorem Checked.mayAlias_eq (h : view.Checked) (hhost : view.memorySpace = .host) (token : Nat) :
    view.mayAlias token =
      (decide (token = view.values.address) ||
        byteSpanContains view.values.address (view.nonzeros * type.size) token ||
        (byteSpanContains view.outerOffsets.address ((view.outerExtent + 1) * indexSize).toNat
            token ||
          byteSpanContains view.innerIndices.address (view.nonzeros * indexSize) token)) := by
  have haccepts := h.accepts hhost
  have houter := outerExtent_nonneg format haccepts.nonneg
  have hfits : (view.nonzeros : Int) ≤ sizeType.maximum :=
    (haccepts.count_le.trans haccepts.logical).trans (by decide)
  -- The three byte counts are those that `Create` has computed.
  have hbytes := (@compressedBytes_ok_iff format view.shape view.nonzeros type.size houter hfits _).2
    ⟨⟨haccepts.offsetBytes, haccepts.indexBytes, haccepts.valueBytes⟩, rfl⟩
  rw [compressedBytes] at hbytes
  rcases Result.bind_eq_ok_iff.1 hbytes with ⟨count, hcount, hrest⟩
  rcases Result.bind_eq_ok_iff.1 hrest with ⟨offsets, hoffsets, hrest'⟩
  rcases Result.bind_eq_ok_iff.1 hrest' with ⟨indices, hindices, hrest''⟩
  rcases Result.bind_eq_ok_iff.1 hrest'' with ⟨values, hvalues, hresult⟩
  cases hresult
  rw [mayAlias, hcount]
  simp only [hoffsets, hindices, Int.toNat_natCast, valueAlias, valueSpan]
  rw [ite_known_eq]
  rfl

end Elements

end CompressedSparseView

end Sparse
end AscCpp
