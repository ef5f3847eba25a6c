import AscCpp.Library.SharedElement

/-!
# Grid — the kernels of the CUDA providers and their launches

A kernel runs in the threads of a grid; the launches of a stream run one after the other.

- `blockCount_pos`: a loop with elements is shared by at least one block.
- `kernelPositions_eq`: the positions of a thread do not wrap around.
- `Launch.loop_ends`, `Launch.single_ends`: what the two kinds of launches leave behind.
- `Launch.maps_ends`, `Launch.values_ends`: a kernel that stores one value for each position.
- `StreamEndsIn.append`: the launches of two submissions to one stream.
-/

namespace AscCpp
namespace Core
namespace Cuda

open Library Program

/-- `kThreadsPerBlock`. -/
def threadsPerBlock : Nat := 256

/-- `kMaximumBlocks`. -/
def maximumBlocks : Nat := 65535

/-- `BlockCount`, in the arithmetic of `std::uint64_t`. -/
def blockCount (count : Nat) : Nat :=
  min ((count + threadsPerBlock - 1) % 2 ^ 64 / threadsPerBlock) maximumBlocks

theorem threadsPerBlock_pos : 0 < threadsPerBlock := by
  decide

theorem blockCount_pos {count : Nat} (hpos : 0 < count) (hcount : count ≤ 2 ^ 63) :
    0 < blockCount count := by
  have hwrap : (count + threadsPerBlock - 1) % 2 ^ 64 = count + 255 :=
    Nat.mod_eq_of_lt (by unfold threadsPerBlock; omega)
  rw [blockCount, hwrap, lt_min_iff]
  exact ⟨Nat.div_pos (by unfold threadsPerBlock; omega) (by decide), by decide⟩

/-- The positions that the loop of a kernel comes to, in the arithmetic of `std::uint64_t`. -/
def kernelPositions (step count : Nat) : Nat → Nat → List Nat
  | 0, _ => []
  | fuel + 1, position =>
    if position < count then
      position :: kernelPositions step count fuel ((position + step) % 2 ^ 64)
    else
      []

/-- The position behind one with an element has 64 bits. -/
theorem position_no_wrap {count position : Nat} (hcount : count ≤ 2 ^ 63)
    (hposition : position < count) : position + blockCount count * threadsPerBlock < 2 ^ 64 := by
  have hblocks : blockCount count * threadsPerBlock ≤ maximumBlocks * threadsPerBlock :=
    Nat.mul_le_mul_right _ (Nat.min_le_right _ _)
  have hmaximum : maximumBlocks * threadsPerBlock = 16776960 := by decide
  omega

/-- The loop comes to its end, and its positions are those of plain numbers. -/
theorem kernelPositions_eq {count : Nat} (hpos : 0 < count) (hcount : count ≤ 2 ^ 63)
    {fuel position : Nat} (hfuel : count - position < fuel) :
    kernelPositions (blockCount count * threadsPerBlock) count fuel position =
      strides position (blockCount count * threadsPerBlock) count := by
  have hstep : 0 < blockCount count * threadsPerBlock :=
    Nat.mul_pos (blockCount_pos hpos hcount) threadsPerBlock_pos
  induction fuel generalizing position with
  | zero => omega
  | succ fuel ih =>
    unfold kernelPositions
    split
    · rename_i hposition
      rw [Nat.mod_eq_of_lt (position_no_wrap hcount hposition), strides_of_lt hstep hposition,
        ih (by omega)]
    · rename_i hposition
      rw [strides_of_le hstep (Nat.not_lt.1 hposition)]

section SharedLoop

variable {Memory : Type} {count : Nat}

/-- What the threads of a kernel run that share its loop. -/
def sharedLoop (count : Nat) (body : Nat → Program Memory Unit)
    (thread : Fin (blockCount count) × Fin threadsPerBlock) : Program Memory Unit :=
  forM (kernelPositions (blockCount count * threadsPerBlock) count (count + 1)
    (thread.1 * threadsPerBlock + thread.2)) body

theorem sharedLoop_eq (hpos : 0 < count) (hcount : count ≤ 2 ^ 63)
    (body : Nat → Program Memory Unit) :
    sharedLoop count body = gridStride (blockCount count) threadsPerBlock count body := by
  funext thread
  rw [sharedLoop, kernelPositions_eq hpos hcount (by omega), gridStride]

end SharedLoop

/-- A kernel on its way to the device. -/
structure Launch (Memory : Type) where
  blocks : Nat
  threadsPerBlock : Nat
  thread : Fin blocks × Fin threadsPerBlock → Program Memory Unit

namespace Launch

variable {Memory : Type}

/-- `<<<BlockCount(count), kThreadsPerBlock>>>`, for a kernel that runs through its positions. -/
def loop (count : Nat) (body : Nat → Program Memory Unit) : Launch Memory where
  blocks := blockCount count
  threadsPerBlock := Cuda.threadsPerBlock
  thread := sharedLoop count body

/-- `<<<1, 1>>>`. -/
def single (program : Program Memory Unit) : Launch Memory where
  blocks := 1
  threadsPerBlock := 1
  thread _ := program

/-- Every interleaving of the threads comes to an end, with this memory. -/
def EndsIn (launch : Launch Memory) (memory last : Memory) : Prop :=
  Library.EndsIn launch.thread memory last

theorem single_ends {ι Cell : Type} (program : Program (ι → Cell) Unit) (memory : ι → Cell) :
    (single program).EndsIn memory (program.exec memory).2 := by
  have hrace : ∀ thread thread' : Fin 1 × Fin 1, thread ≠ thread' →
      Disjoint (Set.univ : Set ι) (Set.univ ∪ Set.univ) :=
    fun thread thread' hne => absurd (Subsingleton.elim thread thread') hne
  apply ends_of_raceFree hrace
  · exact fun _ => within_univ program
  · exact fun _ _ _ => rfl
  · exact fun cell hcell => absurd (Set.mem_univ cell) (hcell (0, 0))

section Loop

variable {ι Cell : Type} {count : Nat} {body : Nat → Program (ι → Cell) Unit}
  {reads writes : Nat → Set ι}

theorem loop_ends_of_gridStride (hpos : 0 < count) (hcount : count ≤ 2 ^ 63)
    {body : Nat → Program Memory Unit} {memory last : Memory}
    (h : Library.EndsIn (gridStride (blockCount count) Cuda.threadsPerBlock count body) memory
      last) : (loop count body).EndsIn memory last := by
  rw [← sharedLoop_eq hpos hcount body] at h
  exact h

theorem loop_ends (hpos : 0 < count) (hcount : count ≤ 2 ^ 63)
    (hrace : RaceFree (List.range count) reads writes)
    (hwithin : ∀ position < count, (body position).Within (reads position) (writes position))
    (memory : ι → Cell) :
    (loop count body).EndsIn memory
      ((forM (List.range count) body : Program (ι → Cell) Unit).exec memory).2 :=
  loop_ends_of_gridStride hpos hcount
    (gridStride_ends (blockCount_pos hpos hcount) threadsPerBlock_pos hrace hwithin memory)

/-- A kernel that stores one value for each position and reads apart of what the other positions
store leaves the values that it finds at the beginning. -/
theorem maps_ends {Cell V : Type} {type : LocalRepresentation Cell V} {address : Nat → Nat}
    {value : Nat → Program (Nat → Cell) V} {reads : Nat → Set Nat} (hpos : 0 < count)
    (hcount : count ≤ 2 ^ 63)
    (hvalue : ∀ position < count, (value position).Within (reads position) ∅)
    (happart : ElementsApart type.size count address)
    (hreads : ∀ position < count, ∀ other < count, position ≠ other →
      Disjoint (elementCells type.toRepresentation (address other)) (reads position))
    (memory : Nat → Cell) :
    (loop count fun position => do
        let result ← value position
        store type.toRepresentation (address position) result).EndsIn memory
      ((List.range count).foldl (fun memory' position =>
        type.store memory' (address position) ((value position).exec memory).1) memory) :=
  loop_ends_of_gridStride hpos hcount
    (gridStride_maps (blockCount_pos hpos hcount) threadsPerBlock_pos hvalue happart hreads memory)

/-- A kernel that stores values which it does not read. -/
theorem values_ends {Cell V : Type} {type : LocalRepresentation Cell V} {address : Nat → Nat}
    (hpos : 0 < count) (hcount : count ≤ 2 ^ 63) (happart : ElementsApart type.size count address)
    (value : Nat → V) (memory : Nat → Cell) :
    (loop count fun position =>
        store type.toRepresentation (address position) (value position)).EndsIn memory
      ((List.range count).foldl (fun memory position =>
        type.store memory (address position) (value position)) memory) := by
  have hvalue : ∀ position < count,
      (pure (value position) : Program (Nat → Cell) V).Within ∅ ∅ :=
    fun _ _ => within_pure _
  exact maps_ends hpos hcount hvalue happart (fun _ _ _ _ _ => Set.disjoint_empty _) memory

end Loop

end Launch

/-- The launches of a stream, one after the other. -/
inductive StreamEndsIn {Memory : Type} : List (Launch Memory) → Memory → Memory → Prop where
  | nil (memory : Memory) : StreamEndsIn [] memory memory
  | cons {launch : Launch Memory} {launches : List (Launch Memory)} {memory middle last : Memory}
      (h : launch.EndsIn memory middle) (hrest : StreamEndsIn launches middle last) :
      StreamEndsIn (launch :: launches) memory last

namespace StreamEndsIn

variable {Memory : Type} {launches launches' : List (Launch Memory)}
  {memory middle last : Memory}

theorem single {launch : Launch Memory} (h : launch.EndsIn memory last) :
    StreamEndsIn [launch] memory last :=
  .cons h (.nil last)

theorem append (h : StreamEndsIn launches memory middle)
    (h' : StreamEndsIn launches' middle last) :
    StreamEndsIn (launches ++ launches') memory last := by
  induction h with
  | nil => exact h'
  | cons hfirst _ ih => exact .cons hfirst (ih h')

end StreamEndsIn

end Cuda
end Core
end AscCpp
