import Mathlib.Data.List.Induction
import Mathlib.Data.List.Lex
import Mathlib.Order.Fin.Basic
import Mathlib.Tactic.IntervalCases

/-!
# Text — byte strings and the text helpers of the core module

`std::string` holds opaque bytes, so a string of the modelled program is a list of bytes
(`ByteString`), ordered lexicographically as `std::less<>` orders map keys.  Diagnostic messages
are printable text and stay Lean strings.

* `byte`, `text` — the byte of a character and the bytes of an ASCII literal;
* `stdToString` — `std::to_string` on an unsigned number, and `decimalValue`, which reads it back;
* `quoteDiagnosticBytes` — the ASCII rendering of a byte string in error messages.
-/

namespace AscCpp
namespace Core

abbrev Byte := Fin 256

abbrev ByteString := List Byte

instance neZero_byte : NeZero 256 := ⟨by decide⟩

instance lawfulBEq_byteString : LawfulBEq ByteString :=
  inferInstanceAs (LawfulBEq (List Byte))

/-- The byte of an ASCII character. -/
def byte (c : Char) : Byte :=
  Fin.ofNat 256 c.toNat

/-- The bytes of an ASCII literal. -/
def text (literal : String) : ByteString :=
  literal.toList.map byte

/-- `std::to_string` of an unsigned number: its decimal digits without leading zeros. -/
def stdToString (n : Nat) : ByteString :=
  (Nat.toDigits 10 n).map byte

/-! ## Decimal numerals -/

def isDigitByte (b : Byte) : Prop :=
  48 ≤ b.val ∧ b.val ≤ 57

instance : DecidablePred isDigitByte :=
  fun b => inferInstanceAs (Decidable (48 ≤ b.val ∧ b.val ≤ 57))

/-- The byte of a decimal digit. -/
def digitByte (digit : Nat) : Byte :=
  Fin.ofNat 256 (48 + digit)

/-- The number a digit string adds to the right of `start`. -/
def decimalValueFrom (start : Nat) (digits : ByteString) : Nat :=
  digits.foldl (fun value b => value * 10 + (b.val - 48)) start

def decimalValue (digits : ByteString) : Nat :=
  decimalValueFrom 0 digits

theorem byte_digitChar {digit : Nat} (h : digit < 10) :
    byte digit.digitChar = digitByte digit := by
  interval_cases digit <;> decide

theorem isDigitByte_digitByte {digit : Nat} (h : digit < 10) :
    isDigitByte (digitByte digit) := by
  interval_cases digit <;> decide

theorem digitByte_val_sub {b : Byte} (h : isDigitByte b) : digitByte (b.val - 48) = b := by
  obtain ⟨hlow, hhigh⟩ := h
  apply Fin.ext
  simp only [digitByte, Fin.ofNat]
  omega

theorem digitByte_val {digit : Nat} (h : digit < 10) : (digitByte digit).val - 48 = digit := by
  simp only [digitByte, Fin.ofNat]
  omega

theorem stdToString_of_lt {n : Nat} (h : n < 10) : stdToString n = [digitByte n] := by
  simp [stdToString, Nat.toDigits_of_lt_base h, byte_digitChar h]

theorem stdToString_of_le {n : Nat} (h : 10 ≤ n) :
    stdToString n = stdToString (n / 10) ++ [digitByte (n % 10)] := by
  have hdigit : n % 10 < 10 := Nat.mod_lt n (by decide)
  simp [stdToString, Nat.toDigits_of_base_le (by decide : 1 < 10) h, byte_digitChar hdigit]

theorem stdToString_mul_add {value digit : Nat} (hvalue : 0 < value) (hdigit : digit < 10) :
    stdToString (value * 10 + digit) = stdToString value ++ [digitByte digit] := by
  have hdiv : (value * 10 + digit) / 10 = value := by omega
  have hmod : (value * 10 + digit) % 10 = digit := by omega
  rw [stdToString_of_le (by omega), hdiv, hmod]

theorem stdToString_ne_nil (n : Nat) : stdToString n ≠ [] := by
  simp [stdToString]

theorem isDigitByte_of_mem_stdToString {n : Nat} {b : Byte} (h : b ∈ stdToString n) :
    isDigitByte b := by
  induction n using Nat.strong_induction_on with
  | _ n ih =>
      by_cases hn : n < 10
      · rw [stdToString_of_lt hn, List.mem_singleton] at h
        exact h ▸ isDigitByte_digitByte hn
      · rw [stdToString_of_le (not_lt.1 hn), List.mem_append, List.mem_singleton] at h
        rcases h with h | rfl
        · exact ih (n / 10) (by omega) h
        · exact isDigitByte_digitByte (Nat.mod_lt n (by decide))

theorem decimalValue_append_singleton (digits : ByteString) (b : Byte) :
    decimalValue (digits ++ [b]) = decimalValue digits * 10 + (b.val - 48) := by
  simp [decimalValue, decimalValueFrom]

theorem le_decimalValueFrom (start : Nat) (digits : ByteString) :
    start ≤ decimalValueFrom start digits := by
  induction digits generalizing start with
  | nil => exact le_rfl
  | cons b rest ih =>
      have hstep := ih (start * 10 + (b.val - 48))
      simp only [decimalValueFrom, List.foldl_cons] at hstep ⊢
      omega

theorem decimalValue_stdToString (n : Nat) : decimalValue (stdToString n) = n := by
  induction n using Nat.strong_induction_on with
  | _ n ih =>
      by_cases hn : n < 10
      · have hval := digitByte_val hn
        simp [stdToString_of_lt hn, decimalValue, decimalValueFrom, hval]
      · have hval := digitByte_val (Nat.mod_lt n (by decide : 0 < 10))
        rw [stdToString_of_le (not_lt.1 hn), decimalValue_append_singleton,
          ih (n / 10) (by omega), hval]
        omega

theorem stdToString_injective : Function.Injective stdToString := by
  intro n m h
  have hvalue := congrArg decimalValue h
  simpa [decimalValue_stdToString] using hvalue

/-- A nonempty digit string is the numeral of its value behind some leading zeros. -/
theorem eq_replicate_append_stdToString {digits : ByteString} (hne : digits ≠ [])
    (hdigits : ∀ b ∈ digits, isDigitByte b) :
    ∃ zeros, digits = List.replicate zeros (byte '0') ++ stdToString (decimalValue digits) := by
  -- From the back, as the value grows by its last digit.
  induction digits using List.reverseRecOn with
  | nil => exact absurd rfl hne
  | append_singleton front b ih =>
      have hb : isDigitByte b := hdigits b (by simp)
      have hlt : b.val - 48 < 10 := by
        obtain ⟨hlow, hhigh⟩ := hb
        omega
      have hfront : ∀ c ∈ front, isDigitByte c := fun c hc => hdigits c (by simp [hc])
      rw [decimalValue_append_singleton]
      by_cases hnil : front = []
      · subst hnil
        refine ⟨0, ?_⟩
        simp [decimalValue, decimalValueFrom, stdToString_of_lt hlt, digitByte_val_sub hb]
      · obtain ⟨zeros, hzeros⟩ := ih hnil hfront
        rcases Nat.eq_zero_or_pos (decimalValue front) with hzero | hpos
        · -- The front is all zeros: its own last zero joins the leading ones.
          refine ⟨zeros + 1, ?_⟩
          have hfront0 : front = List.replicate (zeros + 1) (byte '0') := by
            rw [hzeros, hzero]
            simp only [List.replicate_succ']
            rfl
          rw [hzero, Nat.zero_mul, Nat.zero_add, stdToString_of_lt hlt, digitByte_val_sub hb,
            ← hfront0]
        · refine ⟨zeros, ?_⟩
          rw [stdToString_mul_add hpos hlt, digitByte_val_sub hb, ← List.append_assoc, ← hzeros]

/-! ## Diagnostics -/

def hexDigit (digit : Nat) : Char :=
  ("0123456789abcdef".toList).getD digit '0'

/-- One byte of a path as `QuoteDiagnosticBytes` renders it. -/
def quoteDiagnosticByte (b : Byte) : List Char :=
  if b = byte '"' then
    ['\\', '"']
  else if b = byte '\\' then
    ['\\', '\\']
  else if 0x20 ≤ b.val ∧ b.val ≤ 0x7e then
    [Char.ofNat b.val]
  else
    ['\\', 'x', hexDigit (b.val / 16), hexDigit (b.val % 16)]

def quoteDiagnosticBytes (value : ByteString) : String :=
  String.ofList (['"'] ++ value.flatMap quoteDiagnosticByte ++ ['"'])

end Core
end AscCpp
