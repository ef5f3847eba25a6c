import AscCpp.Library.Interleaving
import Mathlib.Tactic.Linarith

/-!
# GridStride — a counted loop that the threads of a grid share

Thread `thread` of block `block` starts at `block * threadsPerBlock + thread` and goes on in steps of
the number of all threads.

- `strides_of_lt`, `strides_of_le`: the positions of a thread, as its loop visits them.
- `mem_strides_iff`: every position belongs to one thread.
- `gridStride_ends`: rounds that keep apart leave what the plain loop leaves.
-/

namespace AscCpp
namespace Library

open Program

variable {Memory : Type}

/-- The positions of `for (position = first; position < count; position += step)`. -/
def strides (first step count : Nat) : List Nat :=
  List.range' first ((count - first + (step - 1)) / step) step

theorem strides_of_le {first step count : Nat} (hstep : 0 < step) (h : count ≤ first) :
    strides first step count = [] := by
  have hnone : (count - first + (step - 1)) / step = 0 := Nat.div_eq_of_lt (by omega)
  rw [strides, hnone]
  rfl

theorem strides_of_lt {first step count : Nat} (hstep : 0 < step) (h : first < count) :
    strides first step count = first :: strides (first + step) step count := by
  have hmore : (count - first + (step - 1)) / step =
      (count - (first + step) + (step - 1)) / step + 1 := by
    rw [← Nat.add_div_right _ hstep]
    rcases Nat.lt_or_ge (first + step) count with hlt | hge
    · congr 1
      omega
    · rw [Nat.div_eq_of_lt_le (k := 1) (by omega) (by omega),
        Nat.div_eq_of_lt_le (k := 1) (by omega) (by omega)]
  rw [strides, strides, hmore, List.range'_succ]

theorem mem_strides_iff {first step count position : Nat} (hfirst : first < step) :
    position ∈ strides first step count ↔ position < count ∧ position % step = first := by
  have hstep : 0 < step := by omega
  rw [strides, List.mem_range']
  constructor
  · rintro ⟨round, hround, rfl⟩
    rw [Nat.lt_div_iff_mul_lt hstep] at hround
    refine ⟨?_, ?_⟩
    · have hcomm := Nat.mul_comm round step
      omega
    · rw [Nat.add_mul_mod_self_left, Nat.mod_eq_of_lt hfirst]
  · rintro ⟨hlt, hmod⟩
    have hsplit := Nat.mod_add_div position step
    refine ⟨position / step, ?_, by omega⟩
    rw [Nat.lt_div_iff_mul_lt hstep]
    have hcomm := Nat.mul_comm (position / step) step
    omega

theorem nodup_strides {first step count : Nat} (hstep : 0 < step) :
    (strides first step count).Nodup :=
  List.nodup_range' step hstep

/-- What the threads of a grid run when they share a loop. -/
def gridStride (blocks threadsPerBlock count : Nat) (body : Nat → Program Memory Unit)
    (thread : Fin blocks × Fin threadsPerBlock) : Program Memory Unit :=
  forM (strides (thread.1 * threadsPerBlock + thread.2) (blocks * threadsPerBlock) count) body

section Grid

variable {blocks threadsPerBlock : Nat}

theorem thread_lt (thread : Fin blocks × Fin threadsPerBlock) :
    thread.1 * threadsPerBlock + thread.2 < blocks * threadsPerBlock := by
  have hblock := Nat.mul_le_mul_right threadsPerBlock (Nat.succ_le_of_lt thread.1.isLt)
  rw [Nat.succ_mul] at hblock
  have hthread := thread.2.isLt
  omega

theorem thread_injective {thread thread' : Fin blocks × Fin threadsPerBlock}
    (h : (thread.1 * threadsPerBlock + thread.2 : Nat) = thread'.1 * threadsPerBlock + thread'.2) :
    thread = thread' := by
  have hblock : ∀ thread : Fin blocks × Fin threadsPerBlock,
      (thread.1 * threadsPerBlock + thread.2 : Nat) / threadsPerBlock = thread.1 := by
    intro thread
    rw [Nat.mul_comm, Nat.mul_add_div (Nat.zero_lt_of_lt thread.2.isLt),
      Nat.div_eq_of_lt thread.2.isLt, Nat.add_zero]
  have hplace : ∀ thread : Fin blocks × Fin threadsPerBlock,
      (thread.1 * threadsPerBlock + thread.2 : Nat) % threadsPerBlock = thread.2 := by
    intro thread
    rw [Nat.mul_add_mod_self_right, Nat.mod_eq_of_lt thread.2.isLt]
  apply Prod.ext
  · exact Fin.ext (by rw [← hblock thread, h, hblock thread'])
  · exact Fin.ext (by rw [← hplace thread, h, hplace thread'])

/-- A position below the count belongs to a thread. -/
theorem exists_thread {count position : Nat} (hblocks : 0 < blocks) (hthreads : 0 < threadsPerBlock)
    (hposition : position < count) : ∃ thread : Fin blocks × Fin threadsPerBlock,
      position ∈ strides (thread.1 * threadsPerBlock + thread.2) (blocks * threadsPerBlock)
        count := by
  have hstep := Nat.mul_pos hblocks hthreads
  have hlt := Nat.mod_lt position hstep
  have hblock : position % (blocks * threadsPerBlock) / threadsPerBlock < blocks := by
    rw [Nat.div_lt_iff_lt_mul hthreads]
    exact hlt
  refine ⟨(⟨_, hblock⟩, ⟨_, Nat.mod_lt (position % (blocks * threadsPerBlock)) hthreads⟩), ?_⟩
  rw [mem_strides_iff (thread_lt _)]
  exact ⟨hposition, (Nat.div_add_mod' _ _).symm⟩

variable {ι Cell : Type} {count : Nat} {body : Nat → Program (ι → Cell) Unit}
  {reads writes : Nat → Set ι}

/-- The threads of a grid share a loop over rounds that keep apart: whatever the order of their
accesses, they end in the memory that the plain loop leaves. -/
theorem gridStride_ends (hblocks : 0 < blocks) (hthreads : 0 < threadsPerBlock)
    (hrace : RaceFree (List.range count) reads writes)
    (hwithin : ∀ position < count, (body position).Within (reads position) (writes position))
    (memory : ι → Cell) :
    EndsIn (gridStride blocks threadsPerBlock count body) memory
      ((forM (List.range count) body : Program (ι → Cell) Unit).exec memory).2 := by
  have hstep := Nat.mul_pos hblocks hthreads
  -- The positions of a thread.
  let own (thread : Fin blocks × Fin threadsPerBlock) : List Nat :=
    strides (thread.1 * threadsPerBlock + thread.2) (blocks * threadsPerBlock) count
  have hown : ∀ thread, ∀ position ∈ own thread, position < count := fun thread position hmem =>
    ((mem_strides_iff (thread_lt thread)).1 hmem).1
  have honly : ∀ thread thread' position, position ∈ own thread → position ∈ own thread' →
      thread = thread' := by
    intro thread thread' position hmem hmem'
    have hfirst := ((mem_strides_iff (thread_lt thread)).1 hmem).2
    have hfirst' := ((mem_strides_iff (thread_lt thread')).1 hmem').2
    exact thread_injective (hfirst.symm.trans hfirst')
  have hrace' : ∀ thread, RaceFree (own thread) reads writes := by
    intro thread position hposition other hother
    exact hrace position (List.mem_range.2 (hown thread position hposition)) other
      (List.mem_range.2 (hown thread other hother))
  have hwithin' : ∀ thread, ∀ position ∈ own thread,
      (body position).Within (reads position) (writes position) :=
    fun thread position hmem => hwithin position (hown thread position hmem)
  have hwithinRange : ∀ position ∈ List.range count,
      (body position).Within (reads position) (writes position) :=
    fun position hmem => hwithin position (List.mem_range.1 hmem)
  apply @ends_of_raceFree _ _ _ _ (fun thread => {cell | ∃ position ∈ own thread,
    cell ∈ reads position ∪ writes position}) (fun thread => {cell | ∃ position ∈ own thread,
    cell ∈ writes position})
  · -- Rounds of different threads are different rounds.
    intro thread thread' hne
    rw [Set.disjoint_left]
    rintro cell ⟨other, hother, hwritten⟩ hcell
    have htouched : ∃ position ∈ own thread, cell ∈ reads position ∪ writes position := by
      rcases hcell with htouched | ⟨position, hposition, hwritten'⟩
      · exact htouched
      · exact ⟨position, hposition, Or.inr hwritten'⟩
    rcases htouched with ⟨position, hposition, htouched⟩
    have hdistinct : position ≠ other := by
      rintro rfl
      exact hne (honly thread thread' position hposition hother)
    exact Set.disjoint_left.1 (hrace position (List.mem_range.2 (hown thread position hposition))
      other (List.mem_range.2 (hown thread' other hother)) hdistinct) hwritten htouched
  · intro thread
    apply Within.forM
    intro position hposition
    apply (hwithin' thread position hposition).mono
    · exact fun cell hcell => Or.inl ⟨position, hposition, Or.inl hcell⟩
    · exact fun cell hcell => ⟨position, hposition, hcell⟩
  · rintro thread cell ⟨position, hposition, hcell⟩
    have hlt := hown thread position hposition
    rw [exec_forM_inside hrace hwithinRange List.nodup_range memory (List.mem_range.2 hlt) hcell]
    exact (exec_forM_inside (hrace' thread) (hwithin' thread) (nodup_strides hstep) memory
      hposition hcell).symm
  · intro cell hcell
    apply exec_forM_outside hwithinRange
    intro position hposition hwritten
    rcases exists_thread hblocks hthreads (List.mem_range.1 hposition) with ⟨thread, hthread⟩
    exact hcell thread ⟨position, hthread, hwritten⟩

end Grid

end Library
end AscCpp
