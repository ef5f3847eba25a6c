import AscCpp.Core.Configuration.Value

/-!
# Utf8 — the accepted strings are the encodings of scalar values

`Char` is the type of Unicode scalar values and `String.utf8EncodeChar` their standard encoding.
`isValidUtf8` goes through the bytes of a string; `utf8Loop` is the same loop by its index, with
every read checked.

- `utf8Loop_eq`: no read leaves the string.
- `isValidUtf8_encodeScalar`, `exists_scalar`: an accepted string begins with a scalar value.
- `isValidUtf8_correct`: the accepted strings.
-/

namespace AscCpp
namespace Core

/-! ## The loop by its index -/

/-- The loop of `IsValidUtf8` from an index on.  Without a value a read leaves the string; an inner
none says that the fuel does not suffice. -/
def utf8Loop (value : ByteString) : Nat → Nat → Option (Option Bool)
  | 0, _ => some none
  | fuel + 1, index =>
    if index < value.length then do
      let first ← value[index]?
      -- One branch for each length, by the first byte; every read is below the length.
      if first ≤ 0x7f then
        utf8Loop value fuel (index + 1)
      else if 0xc2 ≤ first ∧ first ≤ 0xdf then
        if index + 1 ≥ value.length then
          some (some false)
        else do
          let second ← value[index + 1]?
          if ¬ isContinuationByte second then
            some (some false)
          else
            utf8Loop value fuel (index + 2)
      else if 0xe0 ≤ first ∧ first ≤ 0xef then
        if index + 2 ≥ value.length then
          some (some false)
        else do
          let second ← value[index + 1]?
          let third ← value[index + 2]?
          if ¬ isValidSecondOfThree first second ∨ ¬ isContinuationByte third then
            some (some false)
          else
            utf8Loop value fuel (index + 3)
      else if 0xf0 ≤ first ∧ first ≤ 0xf4 then
        if index + 3 ≥ value.length then
          some (some false)
        else do
          let second ← value[index + 1]?
          let third ← value[index + 2]?
          let fourth ← value[index + 3]?
          if ¬ isValidSecondOfFour first second ∨ ¬ isContinuationByte third ∨
              ¬ isContinuationByte fourth then
            some (some false)
          else
            utf8Loop value fuel (index + 4)
      else
        some (some false)
    else
      some (some true)

/-- By its index, the loop sees the rest of the string. -/
theorem utf8Loop_eq (fuel : Nat) : ∀ front rest : ByteString, rest.length < fuel →
    utf8Loop (front ++ rest) fuel front.length = some (some (isValidUtf8 rest)) := by
  induction fuel with
  | zero => omega
  | succ fuel ih =>
    intro front rest hfuel
    -- What follows a sequence of bytes is the rest behind a longer front.
    have hnext : ∀ sequence tail : ByteString, rest = sequence ++ tail → sequence ≠ [] →
        utf8Loop (front ++ rest) fuel (front.length + sequence.length) =
          some (some (isValidUtf8 tail)) := by
      rintro sequence tail rfl hsequence
      have hpositive := List.length_pos_iff.2 hsequence
      rw [List.length_append] at hfuel
      rw [← List.append_assoc, ← List.length_append]
      exact ih _ _ (by omega)
    have hread : ∀ offset, (front ++ rest)[front.length + offset]? = rest[offset]? := by
      intro offset
      rw [List.getElem?_append_right (Nat.le_add_right _ _), Nat.add_sub_cancel_left]
    have hfirst : (front ++ rest)[front.length]? = rest[0]? := hread 0
    rw [utf8Loop, hfirst, hread, hread, hread, List.length_append]
    rcases rest with _ | ⟨first, rest⟩
    · simp [isValidUtf8]
    rw [if_pos (by rw [List.length_cons]; omega), List.getElem?_cons_zero, Option.bind_eq_bind,
      Option.bind_some, isValidUtf8.eq_def]
    simp only
    by_cases hone : first ≤ 0x7f
    · rw [if_pos hone, if_pos hone]
      exact hnext [first] rest rfl (List.cons_ne_nil _ _)
    rw [if_neg hone, if_neg hone]
    by_cases htwo : 0xc2 ≤ first ∧ first ≤ 0xdf
    · rw [if_pos htwo, if_pos htwo]
      rcases rest with _ | ⟨second, rest⟩
      · simp
      · have htail := hnext [first, second] rest rfl (List.cons_ne_nil _ _)
        rw [if_neg (by simp only [List.length_cons]; omega)]
        cases hsecond : isContinuationByte second
        · simp [hsecond]
        · simpa [hsecond] using htail
    rw [if_neg htwo, if_neg htwo]
    by_cases hthree : 0xe0 ≤ first ∧ first ≤ 0xef
    · rw [if_pos hthree, if_pos hthree]
      rcases rest with _ | ⟨second, _ | ⟨third, rest⟩⟩
      · simp
      · simp
      · have htail := hnext [first, second, third] rest rfl (List.cons_ne_nil _ _)
        rw [if_neg (by simp only [List.length_cons]; omega)]
        cases hvalid : isValidSecondOfThree first second && isContinuationByte third
        · rw [Bool.and_eq_false_iff] at hvalid
          rcases hvalid with hvalid | hvalid <;> simp [hvalid]
        · rw [Bool.and_eq_true] at hvalid
          simpa [hvalid] using htail
    rw [if_neg hthree, if_neg hthree]
    by_cases hfour : 0xf0 ≤ first ∧ first ≤ 0xf4
    · rw [if_pos hfour, if_pos hfour]
      rcases rest with _ | ⟨second, _ | ⟨third, _ | ⟨fourth, rest⟩⟩⟩
      · simp
      · simp
      · simp
      · have htail := hnext [first, second, third, fourth] rest rfl (List.cons_ne_nil _ _)
        rw [if_neg (by simp only [List.length_cons]; omega)]
        cases hvalid : isValidSecondOfFour first second && isContinuationByte third &&
            isContinuationByte fourth
        · simp only [Bool.and_eq_false_iff, or_assoc] at hvalid
          rcases hvalid with hvalid | hvalid | hvalid <;> simp [hvalid]
        · simp only [Bool.and_eq_true, and_assoc] at hvalid
          simpa [hvalid] using htail
    · rw [if_neg hfour, if_neg hfour]

/-! ## Scalar values -/

/-- The bytes of a scalar value. -/
def encodeScalar (scalar : Char) : ByteString :=
  (String.utf8EncodeChar scalar).map fun unit => Fin.ofNat 256 unit.toNat

/-- The bytes by the number of the scalar value. -/
def encodeNumber (number : Nat) : ByteString :=
  if number ≤ 0x7f then
    [Fin.ofNat 256 number]
  else if number ≤ 0x7ff then
    [Fin.ofNat 256 (0xc0 + number / 64), Fin.ofNat 256 (0x80 + number % 64)]
  else if number ≤ 0xffff then
    [Fin.ofNat 256 (0xe0 + number / 4096), Fin.ofNat 256 (0x80 + number / 64 % 64),
      Fin.ofNat 256 (0x80 + number % 64)]
  else
    [Fin.ofNat 256 (0xf0 + number / 262144), Fin.ofNat 256 (0x80 + number / 4096 % 64),
      Fin.ofNat 256 (0x80 + number / 64 % 64), Fin.ofNat 256 (0x80 + number % 64)]

theorem scalar_bounds (scalar : Char) :
    scalar.toNat < 0xd800 ∨ (0xdfff < scalar.toNat ∧ scalar.toNat < 0x110000) :=
  scalar.valid

theorem unit_eq {unit other : Nat} (h : unit % 256 = other % 256) :
    (Fin.ofNat 256 (UInt8.ofNat unit).toNat : Byte) = Fin.ofNat 256 other := by
  apply Fin.ext
  simp only [Fin.val_ofNat, UInt8.toNat_ofNat']
  omega

theorem encodeScalar_eq (scalar : Char) : encodeScalar scalar = encodeNumber scalar.toNat := by
  have hbounds := scalar_bounds scalar
  have hnumber : scalar.val.toNat = scalar.toNat := rfl
  unfold encodeScalar encodeNumber String.utf8EncodeChar
  simp only [hnumber]
  split
  · exact congrArg (fun unit => [unit]) (unit_eq rfl)
  · split
    · simp only [List.map_cons, List.map_nil]
      rw [@unit_eq _ (0xc0 + scalar.toNat / 64) (by omega),
        @unit_eq _ (0x80 + scalar.toNat % 64) (by omega)]
    · split
      · simp only [List.map_cons, List.map_nil]
        rw [@unit_eq _ (0xe0 + scalar.toNat / 4096) (by omega),
          @unit_eq _ (0x80 + scalar.toNat / 64 % 64) (by omega),
          @unit_eq _ (0x80 + scalar.toNat % 64) (by omega)]
      · simp only [List.map_cons, List.map_nil]
        rw [@unit_eq _ (0xf0 + scalar.toNat / 262144) (by omega),
          @unit_eq _ (0x80 + scalar.toNat / 4096 % 64) (by omega),
          @unit_eq _ (0x80 + scalar.toNat / 64 % 64) (by omega),
          @unit_eq _ (0x80 + scalar.toNat % 64) (by omega)]

/-! ## Ranges of bytes -/

theorem val_ofNat {number : Nat} (h : number < 256) : (Fin.ofNat 256 number : Byte).val = number :=
  Nat.mod_eq_of_lt h

theorem isContinuationByte_iff {b : Byte} :
    isContinuationByte b = true ↔ 0x80 ≤ b.val ∧ b.val ≤ 0xbf := by
  simp only [isContinuationByte, Bool.and_eq_true, decide_eq_true_eq]
  exact Iff.rfl

theorem isValidSecondOfThree_iff {first second : Byte} :
    isValidSecondOfThree first second = true ↔
      (first.val = 0xe0 ∧ 0xa0 ≤ second.val ∧ second.val ≤ 0xbf) ∨
        (first.val = 0xed ∧ 0x80 ≤ second.val ∧ second.val ≤ 0x9f) ∨
          ((0xe1 ≤ first.val ∧ first.val ≤ 0xec) ∨ (0xee ≤ first.val ∧ first.val ≤ 0xef)) ∧
            0x80 ≤ second.val ∧ second.val ≤ 0xbf := by
  simp only [isValidSecondOfThree, Bool.or_eq_true, Bool.and_eq_true, decide_eq_true_eq,
    isContinuationByte_iff, or_assoc, and_assoc, Fin.ext_iff]
  exact Iff.rfl

theorem isValidSecondOfFour_iff {first second : Byte} :
    isValidSecondOfFour first second = true ↔
      (first.val = 0xf0 ∧ 0x90 ≤ second.val ∧ second.val ≤ 0xbf) ∨
        (first.val = 0xf4 ∧ 0x80 ≤ second.val ∧ second.val ≤ 0x8f) ∨
          (0xf1 ≤ first.val ∧ first.val ≤ 0xf3) ∧ 0x80 ≤ second.val ∧ second.val ≤ 0xbf := by
  simp only [isValidSecondOfFour, Bool.or_eq_true, Bool.and_eq_true, decide_eq_true_eq,
    isContinuationByte_iff, or_assoc, and_assoc, Fin.ext_iff]
  exact Iff.rfl

/-! ## Sequences -/

theorem isValidUtf8_one {first : Byte} {rest : ByteString} (h : first.val ≤ 0x7f) :
    isValidUtf8 (first :: rest) = isValidUtf8 rest := by
  rw [isValidUtf8.eq_def]
  exact if_pos h

theorem isValidUtf8_two {first : Byte} {bytes : ByteString}
    (h : 0xc2 ≤ first.val ∧ first.val ≤ 0xdf) :
    isValidUtf8 (first :: bytes) =
      match bytes with
      | second :: rest => isContinuationByte second && isValidUtf8 rest
      | _ => false := by
  have hone : ¬first ≤ 0x7f := fun hle => by
    have hval : first.val ≤ 0x7f := hle
    omega
  have hrange : 0xc2 ≤ first ∧ first ≤ 0xdf := h
  rw [isValidUtf8.eq_def]
  simp only
  rw [if_neg hone, if_pos hrange]
  rfl

theorem isValidUtf8_three {first : Byte} {bytes : ByteString}
    (h : 0xe0 ≤ first.val ∧ first.val ≤ 0xef) :
    isValidUtf8 (first :: bytes) =
      match bytes with
      | second :: third :: rest =>
        isValidSecondOfThree first second && isContinuationByte third && isValidUtf8 rest
      | _ => false := by
  have hone : ¬first ≤ 0x7f := fun hle => by
    have hval : first.val ≤ 0x7f := hle
    omega
  have htwo : ¬(0xc2 ≤ first ∧ first ≤ 0xdf) := fun hrange => by
    have hval : first.val ≤ 0xdf := hrange.2
    omega
  have hrange : 0xe0 ≤ first ∧ first ≤ 0xef := h
  rw [isValidUtf8.eq_def]
  simp only
  rw [if_neg hone, if_neg htwo, if_pos hrange]
  rfl

theorem isValidUtf8_four {first : Byte} {bytes : ByteString}
    (h : 0xf0 ≤ first.val ∧ first.val ≤ 0xf4) :
    isValidUtf8 (first :: bytes) =
      match bytes with
      | second :: third :: fourth :: rest =>
        isValidSecondOfFour first second && isContinuationByte third &&
          isContinuationByte fourth && isValidUtf8 rest
      | _ => false := by
  have hone : ¬first ≤ 0x7f := fun hle => by
    have hval : first.val ≤ 0x7f := hle
    omega
  have htwo : ¬(0xc2 ≤ first ∧ first ≤ 0xdf) := fun hrange => by
    have hval : first.val ≤ 0xdf := hrange.2
    omega
  have hthree : ¬(0xe0 ≤ first ∧ first ≤ 0xef) := fun hrange => by
    have hval : first.val ≤ 0xef := hrange.2
    omega
  have hrange : 0xf0 ≤ first ∧ first ≤ 0xf4 := h
  rw [isValidUtf8.eq_def]
  simp only
  rw [if_neg hone, if_neg htwo, if_neg hthree, if_pos hrange]
  rfl

theorem isValidUtf8_other {first : Byte} {bytes : ByteString} (hone : ¬first.val ≤ 0x7f)
    (htwo : ¬(0xc2 ≤ first.val ∧ first.val ≤ 0xdf))
    (hthree : ¬(0xe0 ≤ first.val ∧ first.val ≤ 0xef))
    (hfour : ¬(0xf0 ≤ first.val ∧ first.val ≤ 0xf4)) :
    isValidUtf8 (first :: bytes) = false := by
  have hone' : ¬first ≤ 0x7f := hone
  have htwo' : ¬(0xc2 ≤ first ∧ first ≤ 0xdf) := htwo
  have hthree' : ¬(0xe0 ≤ first ∧ first ≤ 0xef) := hthree
  have hfour' : ¬(0xf0 ≤ first ∧ first ≤ 0xf4) := hfour
  rw [isValidUtf8.eq_def]
  simp only
  rw [if_neg hone', if_neg htwo', if_neg hthree', if_neg hfour']

/-- The encoding of a scalar value is accepted, and nothing more is read of the string. -/
theorem isValidUtf8_encodeScalar (scalar : Char) (rest : ByteString) :
    isValidUtf8 (encodeScalar scalar ++ rest) = isValidUtf8 rest := by
  have hbounds := scalar_bounds scalar
  rw [encodeScalar_eq]
  generalize scalar.toNat = number at hbounds
  unfold encodeNumber
  -- The range of the number decides the length of the encoding.
  by_cases hone : number ≤ 0x7f
  · rw [if_pos hone]
    exact isValidUtf8_one (by rw [val_ofNat (by omega)]; exact hone)
  by_cases htwo : number ≤ 0x7ff
  · have hsecond : isContinuationByte (Fin.ofNat 256 (0x80 + number % 64)) = true := by
      rw [isContinuationByte_iff, val_ofNat (by omega)]
      omega
    rw [if_neg hone, if_pos htwo, List.cons_append, List.cons_append, List.nil_append,
      isValidUtf8_two (by rw [val_ofNat (by omega)]; omega)]
    simp only [hsecond, Bool.true_and]
  by_cases hthree : number ≤ 0xffff
  · have hsecond : isValidSecondOfThree (Fin.ofNat 256 (0xe0 + number / 4096))
        (Fin.ofNat 256 (0x80 + number / 64 % 64)) = true := by
      rw [isValidSecondOfThree_iff, val_ofNat (by omega), val_ofNat (by omega)]
      omega
    have hthird : isContinuationByte (Fin.ofNat 256 (0x80 + number % 64)) = true := by
      rw [isContinuationByte_iff, val_ofNat (by omega)]
      omega
    rw [if_neg hone, if_neg htwo, if_pos hthree, List.cons_append, List.cons_append,
      List.cons_append, List.nil_append,
      isValidUtf8_three (by rw [val_ofNat (by omega)]; omega)]
    simp only [hsecond, hthird, Bool.true_and]
  · have hsecond : isValidSecondOfFour (Fin.ofNat 256 (0xf0 + number / 262144))
        (Fin.ofNat 256 (0x80 + number / 4096 % 64)) = true := by
      rw [isValidSecondOfFour_iff, val_ofNat (by omega), val_ofNat (by omega)]
      omega
    have hthird : isContinuationByte (Fin.ofNat 256 (0x80 + number / 64 % 64)) = true := by
      rw [isContinuationByte_iff, val_ofNat (by omega)]
      omega
    have hfourth : isContinuationByte (Fin.ofNat 256 (0x80 + number % 64)) = true := by
      rw [isContinuationByte_iff, val_ofNat (by omega)]
      omega
    rw [if_neg hone, if_neg htwo, if_neg hthree, List.cons_append, List.cons_append,
      List.cons_append, List.cons_append, List.nil_append,
      isValidUtf8_four (by rw [val_ofNat (by omega)]; omega)]
    simp only [hsecond, hthird, hfourth, Bool.true_and]

/-! ## Reading a scalar value back -/

theorem exists_encodeScalar {number : Nat}
    (h : number < 0xd800 ∨ (0xdfff < number ∧ number < 0x110000)) :
    ∃ scalar, encodeScalar scalar = encodeNumber number := by
  refine ⟨Char.ofNatAux number h, ?_⟩
  have hnumber : (Char.ofNatAux number h).toNat = number := rfl
  rw [encodeScalar_eq, hnumber]

theorem ofNat_eq_of_val {number : Nat} {b : Byte} (h : number = b.val) :
    Fin.ofNat 256 number = b := by
  apply Fin.ext
  rw [h]
  exact val_ofNat b.isLt

theorem exists_scalar_one {first : Byte} (h : first.val ≤ 0x7f) :
    ∃ scalar, encodeScalar scalar = [first] := by
  rcases @exists_encodeScalar first.val (by omega) with ⟨scalar, hscalar⟩
  refine ⟨scalar, hscalar.trans ?_⟩
  unfold encodeNumber
  rw [if_pos h, ofNat_eq_of_val rfl]

theorem exists_scalar_two {first second : Byte} (hfirst : 0xc2 ≤ first.val ∧ first.val ≤ 0xdf)
    (hsecond : isContinuationByte second = true) :
    ∃ scalar, encodeScalar scalar = [first, second] := by
  rw [isContinuationByte_iff] at hsecond
  generalize hnumber : (first.val - 0xc0) * 64 + (second.val - 0x80) = number
  rcases @exists_encodeScalar number (by omega) with ⟨scalar, hscalar⟩
  refine ⟨scalar, hscalar.trans ?_⟩
  unfold encodeNumber
  rw [if_neg (by omega), if_pos (by omega), @ofNat_eq_of_val _ first (by omega),
    @ofNat_eq_of_val _ second (by omega)]

theorem exists_scalar_three {first second third : Byte}
    (hfirst : 0xe0 ≤ first.val ∧ first.val ≤ 0xef)
    (hsecond : isValidSecondOfThree first second = true)
    (hthird : isContinuationByte third = true) :
    ∃ scalar, encodeScalar scalar = [first, second, third] := by
  rw [isContinuationByte_iff] at hthird
  rw [isValidSecondOfThree_iff] at hsecond
  generalize hnumber :
    (first.val - 0xe0) * 4096 + (second.val - 0x80) * 64 + (third.val - 0x80) = number
  -- After `0xe0` the form is not overlong, and after `0xed` the number is below the surrogates.
  rcases @exists_encodeScalar number (by omega) with ⟨scalar, hscalar⟩
  refine ⟨scalar, hscalar.trans ?_⟩
  unfold encodeNumber
  rw [if_neg (by omega), if_neg (by omega), if_pos (by omega),
    @ofNat_eq_of_val _ first (by omega), @ofNat_eq_of_val _ second (by omega),
    @ofNat_eq_of_val _ third (by omega)]

theorem exists_scalar_four {first second third fourth : Byte}
    (hfirst : 0xf0 ≤ first.val ∧ first.val ≤ 0xf4)
    (hsecond : isValidSecondOfFour first second = true)
    (hthird : isContinuationByte third = true) (hfourth : isContinuationByte fourth = true) :
    ∃ scalar, encodeScalar scalar = [first, second, third, fourth] := by
  rw [isContinuationByte_iff] at hthird hfourth
  rw [isValidSecondOfFour_iff] at hsecond
  generalize hnumber : (first.val - 0xf0) * 262144 + (second.val - 0x80) * 4096 +
    (third.val - 0x80) * 64 + (fourth.val - 0x80) = number
  -- After `0xf0` the form is not overlong, and after `0xf4` the number does not pass `0x10ffff`.
  rcases @exists_encodeScalar number (by omega) with ⟨scalar, hscalar⟩
  refine ⟨scalar, hscalar.trans ?_⟩
  unfold encodeNumber
  rw [if_neg (by omega), if_neg (by omega), if_neg (by omega),
    @ofNat_eq_of_val _ first (by omega), @ofNat_eq_of_val _ second (by omega),
    @ofNat_eq_of_val _ third (by omega), @ofNat_eq_of_val _ fourth (by omega)]

/-- An accepted string that is not empty begins with the encoding of a scalar value. -/
theorem exists_scalar {bytes : ByteString} (hbytes : bytes ≠ [])
    (h : isValidUtf8 bytes = true) :
    ∃ scalar rest, bytes = encodeScalar scalar ++ rest ∧ isValidUtf8 rest = true := by
  -- Each branch of the loop has accepted the sequence that it read.
  have hfinish : ∀ {sequence rest : ByteString},
      (∃ scalar, encodeScalar scalar = sequence) → isValidUtf8 rest = true →
        ∃ scalar tail, sequence ++ rest = encodeScalar scalar ++ tail ∧
          isValidUtf8 tail = true := by
    intro sequence rest hsequence hrest
    rcases hsequence with ⟨scalar, rfl⟩
    exact ⟨scalar, rest, rfl, hrest⟩
  rcases bytes with _ | ⟨first, bytes⟩
  · exact absurd rfl hbytes
  by_cases hone : first.val ≤ 0x7f
  · rw [isValidUtf8_one hone] at h
    exact hfinish (exists_scalar_one hone) h
  by_cases htwo : 0xc2 ≤ first.val ∧ first.val ≤ 0xdf
  · rw [isValidUtf8_two htwo] at h
    rcases bytes with _ | ⟨second, rest⟩
    · exact absurd h Bool.false_ne_true
    · simp only [Bool.and_eq_true] at h
      exact hfinish (exists_scalar_two htwo h.1) h.2
  by_cases hthree : 0xe0 ≤ first.val ∧ first.val ≤ 0xef
  · rw [isValidUtf8_three hthree] at h
    rcases bytes with _ | ⟨second, _ | ⟨third, rest⟩⟩
    · exact absurd h Bool.false_ne_true
    · exact absurd h Bool.false_ne_true
    · simp only [Bool.and_eq_true] at h
      exact hfinish (exists_scalar_three hthree h.1.1 h.1.2) h.2
  by_cases hfour : 0xf0 ≤ first.val ∧ first.val ≤ 0xf4
  · rw [isValidUtf8_four hfour] at h
    rcases bytes with _ | ⟨second, _ | ⟨third, _ | ⟨fourth, rest⟩⟩⟩
    · exact absurd h Bool.false_ne_true
    · exact absurd h Bool.false_ne_true
    · exact absurd h Bool.false_ne_true
    · simp only [Bool.and_eq_true] at h
      exact hfinish (exists_scalar_four hfour h.1.1.1 h.1.1.2 h.1.2) h.2
  · rw [isValidUtf8_other hone htwo hthree hfour] at h
    exact absurd h Bool.false_ne_true

/-! ## The accepted strings -/

/-- A concatenation of encodings of scalar values. -/
def IsEncoding (bytes : ByteString) : Prop :=
  ∃ scalars : List Char, bytes = scalars.flatMap encodeScalar

theorem isValidUtf8_flatMap (scalars : List Char) (rest : ByteString) :
    isValidUtf8 (scalars.flatMap encodeScalar ++ rest) = isValidUtf8 rest := by
  induction scalars with
  | nil => rfl
  | cons scalar scalars ih =>
    rw [List.flatMap_cons, List.append_assoc, isValidUtf8_encodeScalar, ih]

theorem encodeScalar_ne_nil (scalar : Char) : encodeScalar scalar ≠ [] := by
  rw [encodeScalar_eq]
  unfold encodeNumber
  split_ifs <;> exact List.cons_ne_nil _ _

theorem isValidUtf8_iff (bytes : ByteString) : isValidUtf8 bytes = true ↔ IsEncoding bytes := by
  constructor
  · intro h
    -- What follows the first scalar value is shorter.
    induction hlength : bytes.length using Nat.strong_induction_on generalizing bytes with
    | _ length ih =>
      by_cases hbytes : bytes = []
      · exact ⟨[], hbytes⟩
      rcases exists_scalar hbytes h with ⟨scalar, rest, hsplit, hrest⟩
      have hpositive := List.length_pos_iff.2 (encodeScalar_ne_nil scalar)
      rw [hsplit, List.length_append] at hlength
      rcases ih rest.length (by omega) rest hrest rfl with ⟨scalars, hscalars⟩
      refine ⟨scalar :: scalars, ?_⟩
      rw [hsplit, List.flatMap_cons, hscalars]
  · rintro ⟨scalars, rfl⟩
    simpa [isValidUtf8] using isValidUtf8_flatMap scalars []

theorem isValidUtf8_append {bytes others : ByteString} (h : isValidUtf8 bytes = true) :
    isValidUtf8 (bytes ++ others) = isValidUtf8 others := by
  rcases (isValidUtf8_iff bytes).1 h with ⟨scalars, rfl⟩
  exact isValidUtf8_flatMap scalars others

/-- The check of a string goes through it in as many rounds as it has bytes at most, without a read
behind its end; what it accepts, and what becomes a string value, are the concatenations of
encodings of scalar values; and behind an accepted string the check of a longer one goes on as
from the start. -/
theorem isValidUtf8_correct (bytes : ByteString) :
    (∀ fuel, bytes.length < fuel → utf8Loop bytes fuel 0 = some (some (isValidUtf8 bytes))) ∧
    (isValidUtf8 bytes = true ↔ IsEncoding bytes) ∧
    ((∃ value, ConfigurationValue.utf8String bytes = .ok value) ↔ IsEncoding bytes) ∧
    (∀ value, ConfigurationValue.utf8String bytes = .ok value → value = .string bytes) ∧
    (∀ others, isValidUtf8 bytes = true → isValidUtf8 others = true →
      isValidUtf8 (bytes ++ others) = true) := by
  refine ⟨fun fuel hfuel => utf8Loop_eq fuel [] bytes hfuel, isValidUtf8_iff bytes, ?_, ?_, ?_⟩
  · rw [← isValidUtf8_iff]
    unfold ConfigurationValue.utf8String
    split <;> simp_all
  · intro value hvalue
    unfold ConfigurationValue.utf8String at hvalue
    split at hvalue
    · exact (Except.ok.inj hvalue).symm
    · cases hvalue
  · intro others hbytes hothers
    exact (isValidUtf8_append hbytes).trans hothers

end Core
end AscCpp
