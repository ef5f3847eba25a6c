import AscCpp.Dense.Mapping
import AscCpp.Expression.Writable
import AscCpp.Library.ElementFamily
import AscCpp.Library.Odometer

/-!
# View — dense views and the loop over their coordinates

A view that `DenseView::Create` accepts carries what was checked.  Its elements stand in memory, at
the offsets of its mapping.

- `DenseView.elementAt_ok`: the address of an element, inside the span of the view.
- `DenseView.elementAt_apart`: two elements of a view share no byte.
- `forEachCoordinate_eq`: the loop visits every coordinate once.
-/

namespace AscCpp
namespace Dense

open AscCpp.Core Library Expression

variable {Cell V : Type}

structure DenseView (type : Representation Cell V) (rank : Nat) where
  data : Nat
  mapping : DenseLayout rank
  memorySpace : MemorySpace
  data_ne : mapping.requiredSpanSize ≠ 0 → data ≠ 0
  unique : mapping.unique = true
  bytes : ∃ byteSpan, checkedMultiply sizeType mapping.requiredSpanSize type.size = .ok byteSpan

namespace DenseView

variable {type : Representation Cell V} {rank : Nat}

/-- `DenseView::Create`. -/
def create (type : Representation Cell V) (data : Nat) (mapping : DenseLayout rank)
    (memorySpace : MemorySpace) : Result (DenseView type rank) :=
  if hdata : mapping.requiredSpanSize ≠ 0 ∧ data = 0 then
    .error
      { code := .invalidArgument
        message := "A nonempty DenseView requires a non-null pointer" }
  else if hunique : mapping.unique = true then
    match hbytes : checkedMultiply sizeType mapping.requiredSpanSize type.size with
    | .error status => .error status
    | .ok byteSpan =>
      .ok
        { data := data
          mapping := mapping
          memorySpace := memorySpace
          data_ne := fun hspan hnull => hdata ⟨hspan, hnull⟩
          unique := hunique
          bytes := ⟨byteSpan, hbytes⟩ }
  else
    .error { code := .invalidArgument, message := "DenseView requires a unique mapping" }

/-- The address that `At` returns. -/
def elementAt (view : DenseView type rank) (coordinates : List.Vector Int rank) : Result Nat := do
  failIf (view.memorySpace ≠ .host ∧ view.memorySpace ≠ .pinnedHost)
    { code := .memoryAccess
      message := "DenseView element access requires host-accessible memory" }
  let offset ← view.mapping.offset coordinates
  .ok (view.data + offset.toNat * type.size)

/-- `SameDescriptor` of views of one rank. -/
def sameDescriptor {type' : Representation Cell V} {rank' : Nat} (left : DenseView type rank)
    (right : DenseView type' rank') : Bool :=
  rank = rank' ∧ left.data = right.data ∧ left.memorySpace = right.memorySpace ∧
    left.mapping.extents.toList = right.mapping.extents.toList ∧
    left.mapping.strides.toList = right.mapping.strides.toList

def read (view : DenseView type rank) (memory : Nat → Cell) (coordinates : List.Vector Int rank) :
    Option V :=
  (view.elementAt coordinates).toOption.map fun address => type.load memory address

/-- The bytes of the storage. -/
def valueSpan (view : DenseView type rank) : Block :=
  ⟨view.data, view.mapping.requiredSpanSize.toNat * type.size⟩

def aliasMetadata (view : DenseView type rank) : ExpressionAliasMetadata :=
  ⟨view.data, some view.valueSpan⟩

def mayAlias (view : DenseView type rank) (token : Nat) : Bool :=
  if view.mapping.requiredSpanSize = 0 ∨ view.data = 0 ∨ token = 0 then
    false
  else if view.valueSpan.size > uintptrMax - view.data then
    true
  else
    view.data ≤ token ∧ token < view.data + view.valueSpan.size

def validateAccess (view : DenseView type rank) (context : ExecutionContext) : Result Unit := do
  failIf (context.backend ≠ .serial)
    { code := .unsupported, message := "DenseView expression access requires serial execution" }
  failIf (view.memorySpace ≠ .host ∨ context.canAccess view.memorySpace = false)
    { code := .memoryAccess, message := "DenseView expression access requires host storage" }

/-! ## Elements -/

/-- The offset of an element in the storage, in elements. -/
def offsetOf (view : DenseView type rank) (coordinates : List.Vector Int rank) : Nat :=
  (strideSum coordinates.get view.mapping.strides.get (List.finRange rank)).toNat

/-- The address of an element. -/
def addressOf (view : DenseView type rank) (coordinates : List.Vector Int rank) : Nat :=
  view.data + view.offsetOf coordinates * type.size

section Elements

variable {view : DenseView type rank} {coordinates : List.Vector Int rank}

theorem offset_toNat (h : view.mapping.InBounds coordinates) :
    view.mapping.offset coordinates = .ok (view.offsetOf coordinates : Int) := by
  rw [DenseLayout.offset_eq h, offsetOf, Int.toNat_of_nonneg h.strideSum_nonneg]

theorem elementAt_ok (hhost : view.memorySpace = .host) (h : view.mapping.InBounds coordinates) :
    view.elementAt coordinates = .ok (view.addressOf coordinates) := by
  rw [elementAt, failIf, if_neg (by simp [hhost]), Result.ok_bind, offset_toNat h, Result.ok_bind,
    Int.toNat_natCast, addressOf]

theorem read_eq (hhost : view.memorySpace = .host) (h : view.mapping.InBounds coordinates)
    (memory : Nat → Cell) :
    view.read memory coordinates = some (type.load memory (view.addressOf coordinates)) := by
  rw [read, elementAt_ok hhost h]
  rfl

theorem offsetOf_lt (h : view.mapping.InBounds coordinates) :
    (view.offsetOf coordinates : Int) < view.mapping.requiredSpanSize := by
  have hspan := (view.mapping.requiredSpanSize_eq h.nonempty).1
  have hle := h.strideSum_le
  have hnonneg := h.strideSum_nonneg
  unfold offsetOf
  omega

theorem data_pos (h : view.mapping.InBounds coordinates) : 0 < view.data := by
  have hlt := offsetOf_lt h
  have hne := view.data_ne (by omega)
  omega

/-- An element stands inside the span of its view. -/
theorem addressOf_le (h : view.mapping.InBounds coordinates) :
    view.data ≤ view.addressOf coordinates ∧
      view.addressOf coordinates + type.size ≤ view.data + view.valueSpan.size := by
  have hlt := offsetOf_lt h
  have hle : (view.offsetOf coordinates + 1) * type.size ≤
      view.mapping.requiredSpanSize.toNat * type.size := Nat.mul_le_mul_right _ (by omega)
  rw [Nat.add_mul, Nat.one_mul] at hle
  unfold addressOf valueSpan
  simp only
  omega

theorem offsetOf_injective {coordinates' : List.Vector Int rank}
    (h : view.mapping.InBounds coordinates) (h' : view.mapping.InBounds coordinates')
    (heq : view.offsetOf coordinates = view.offsetOf coordinates') : coordinates = coordinates' := by
  apply view.mapping.offset_injective view.unique coordinates coordinates' h h'
  rw [offset_toNat h, offset_toNat h', heq]

/-- Two elements of a view share no byte. -/
theorem addressOf_apart {coordinates' : List.Vector Int rank}
    (h : view.mapping.InBounds coordinates) (h' : view.mapping.InBounds coordinates')
    (hne : coordinates ≠ coordinates') :
    view.addressOf coordinates + type.size ≤ view.addressOf coordinates' ∨
      view.addressOf coordinates' + type.size ≤ view.addressOf coordinates := by
  have hoffset : view.offsetOf coordinates ≠ view.offsetOf coordinates' := fun heq =>
    hne (offsetOf_injective h h' heq)
  unfold addressOf
  rcases Nat.lt_or_gt_of_ne hoffset with hlt | hgt
  · have hle := Nat.mul_le_mul_right type.size (Nat.succ_le_of_lt hlt)
    rw [Nat.succ_mul] at hle
    omega
  · have hle := Nat.mul_le_mul_right type.size (Nat.succ_le_of_lt hgt)
    rw [Nat.succ_mul] at hle
    omega

/-- A token that the view does not know of is not a byte of its storage. -/
theorem not_mem_span_of_mayAlias {token : Nat} (htoken : token ≠ 0)
    (h : view.mayAlias token = false) :
    ¬ (view.valueSpan.address ≤ token ∧
      token < view.valueSpan.address + view.valueSpan.size) := by
  unfold mayAlias at h
  by_cases hempty : view.mapping.requiredSpanSize = 0
  · rw [valueSpan, hempty]
    simp
  · have hdata := view.data_ne hempty
    rw [if_neg (by omega)] at h
    split at h
    · cases h
    · exact of_decide_eq_false h

/-- What `At` returns stands inside the span of the view. -/
theorem elementAt_inside {address : Nat} (h : view.elementAt coordinates = .ok address) :
    view.mapping.InBounds coordinates ∧ address = view.addressOf coordinates := by
  rw [elementAt, Result.unit_bind_eq_ok_iff] at h
  rcases Result.bind_eq_ok_iff.1 h.2 with ⟨offset, hoffset, haddress⟩
  have hbounds := DenseLayout.inBounds_of_offset hoffset
  rw [offset_toNat hbounds] at hoffset
  cases hoffset
  cases haddress
  exact ⟨hbounds, rfl⟩

end Elements

/-- The elements, by their numbers. -/
def family (view : DenseView type rank) :
    ElementFamily type (Fin (boxSize view.mapping.extents)) where
  address number := view.addressOf (coordinateAt view.mapping.extents number)
  apart number other hne := by
    apply addressOf_apart (coordinateAt_within number.isLt) (coordinateAt_within other.isLt)
    intro heq
    exact hne (Fin.ext (coordinateAt_injective number.isLt other.isLt heq))

end DenseView

/-! ## The loop over the coordinates -/

/-- `ForEachCoordinate`; a box with an empty dimension is not entered. -/
def forEachCoordinate {m : Type → Type} [Monad m] {rank : Nat} (extents : Shape rank)
    (function : List.Vector Int rank → m Unit) : m Unit :=
  if ∃ extent ∈ extents.toList, extent = 0 then
    pure ()
  else
    walk (advance extents) function (boxSize extents) (List.Vector.replicate rank 0)

theorem coordinateAt_zero {rank : Nat} (extents : Shape rank) :
    coordinateAt extents 0 = List.Vector.replicate rank 0 := by
  induction rank with
  | zero => rfl
  | succ rank ih =>
    rw [coordinateAt, Nat.zero_mod, Nat.zero_div, ih]
    rfl

theorem forEachCoordinate_eq {m : Type → Type} [Monad m] [LawfulMonad m] {rank : Nat}
    (extents : Shape rank) (function : List.Vector Int rank → m Unit) :
    forEachCoordinate extents function =
      forM (List.range (boxSize extents)) fun number =>
        function (coordinateAt extents number) := by
  unfold forEachCoordinate
  by_cases hempty : ∃ extent ∈ extents.toList, extent = 0
  · rcases hempty with ⟨extent, hmem, rfl⟩
    have hbox : boxSize extents = 0 := by
      rw [List.Vector.mem_iff_get] at hmem
      rcases hmem with ⟨dimension, hdimension⟩
      exact boxSize_eq_zero_iff.2 ⟨dimension, hdimension.le⟩
    rw [if_pos ⟨0, hmem, rfl⟩, hbox]
    rfl
  · rw [if_neg hempty, ← coordinateAt_zero, walk_advance]

/-- The loop stops by itself, after the last coordinate. -/
theorem walkWithin_coordinates {m : Type → Type} [Monad m] [LawfulMonad m] {rank : Nat}
    {extents : Shape rank} (hextents : ∀ dimension, 0 < extents.get dimension)
    (function : List.Vector Int rank → m Unit) {steps : Nat} (hsteps : boxSize extents ≤ steps) :
    walkWithin (advance extents) function steps (List.Vector.replicate rank 0) = (do
      forEachCoordinate extents function
      pure true) := by
  have hsize : 0 < boxSize extents := by
    apply Nat.pos_of_ne_zero
    intro hzero
    rcases boxSize_eq_zero_iff.1 hzero with ⟨dimension, hle⟩
    have hpos := hextents dimension
    omega
  have hnonempty : ¬ ∃ extent ∈ extents.toList, extent = 0 := by
    rintro ⟨extent, hmem, rfl⟩
    rcases (List.Vector.mem_iff_get _ _).1 hmem with ⟨dimension, hdimension⟩
    have hpos := hextents dimension
    omega
  rw [← coordinateAt_zero, forEachCoordinate, if_neg hnonempty, ← coordinateAt_zero]
  exact walkWithin_eq (fun _ => advance_coordinateAt) function hsize (by omega)

end Dense
end AscCpp
