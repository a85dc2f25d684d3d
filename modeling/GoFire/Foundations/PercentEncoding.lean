import Mathlib.Data.List.GetD
import Mathlib.Data.Nat.Notation

/-! Percent-encoding: a text for bytes in which some bytes stand for themselves and each other one is
a percent sign with two hexadecimal digits.
-/

namespace PercentEncoding

/-- The sixteen digits in the order of their values. -/
def digits : List Char := "0123456789ABCDEF".toList

def hexDigit (value : Nat) : Char := digits.getD value '0'

/-- The value of a digit in either case. -/
def hexValue (c : Char) : Option Nat :=
  if '0' ≤ c ∧ c ≤ '9' then some (c.toNat - '0'.toNat)
  else if 'A' ≤ c ∧ c ≤ 'F' then some (c.toNat - 'A'.toNat + 10)
  else if 'a' ≤ c ∧ c ≤ 'f' then some (c.toNat - 'a'.toNat + 10)
  else none

def escape (byte : UInt8) : List Char :=
  ['%', hexDigit (byte.toNat / 16), hexDigit (byte.toNat % 16)]

/-- The bytes that are kept are written as the character with their number. -/
def encodeByte (keeps : UInt8 → Bool) (byte : UInt8) : List Char :=
  if keeps byte then [Char.ofNat byte.toNat] else escape byte

def encode (keeps : UInt8 → Bool) (bytes : List UInt8) : List Char :=
  bytes.flatMap (encodeByte keeps)

/-- A percent sign needs its two digits; other characters stand for their bytes in UTF-8. -/
def decode : List Char → Option (List UInt8)
  | [] => some []
  | c :: rest =>
      if c = '%' then
        match rest with
        | high :: low :: rest => do
            let h ← hexValue high
            let l ← hexValue low
            let bytes ← decode rest
            return UInt8.ofNat (16 * h + l) :: bytes
        | _ => none
      else (decode rest).map (String.utf8EncodeChar c ++ ·)

/-- Bytes that can be kept: those of ASCII except the percent sign. -/
def Keepable (byte : UInt8) : Prop := byte.toNat < 128 ∧ byte.toNat ≠ '%'.toNat

-----------------------------------------------------------------------------------------
-- Digits
-----------------------------------------------------------------------------------------

theorem hexDigit_mem {value : Nat} (fits : value < 16) : hexDigit value ∈ digits := by
  have inside : value < digits.length := fits
  rw [hexDigit, List.getD_eq_getElem _ _ inside]
  exact List.getElem_mem inside

theorem hexValue_hexDigit {value : Nat} (fits : value < 16)
    : hexValue (hexDigit value) = some value := by
  have all : ∀ value < 16, hexValue (hexDigit value) = some value := by decide
  exact all value fits

theorem toNat_ofNat {n : Nat} (small : n < 128) : (Char.ofNat n).toNat = n := by
  have valid : n.isValidChar := Or.inl (by omega)
  rw [Char.ofNat, dif_pos valid]
  exact UInt32.toNat_ofNatLT

/-- A character of ASCII is one byte. -/
theorem utf8EncodeChar_ofNat {byte : UInt8} (small : byte.toNat < 128)
    : String.utf8EncodeChar (Char.ofNat byte.toNat) = [byte] := by
  have value : (Char.ofNat byte.toNat).val.toNat = byte.toNat := toNat_ofNat small
  rw [String.utf8EncodeChar, value, if_pos (by omega)]
  simp

-----------------------------------------------------------------------------------------
-- Round trip
-----------------------------------------------------------------------------------------

variable {keeps : UInt8 → Bool}

theorem decode_escape (byte : UInt8) (rest : List Char)
    : decode (escape byte ++ rest) = (decode rest).map (byte :: ·) := by
  have small := byte.toNat_lt
  have high := hexValue_hexDigit (show byte.toNat / 16 < 16 by omega)
  have low := hexValue_hexDigit (show byte.toNat % 16 < 16 by omega)
  have whole : UInt8.ofNat (16 * (byte.toNat / 16) + byte.toNat % 16) = byte := by
    rw [Nat.div_add_mod]
    exact UInt8.ofNat_toNat
  simp only [escape, List.cons_append, List.nil_append, decode, if_true, high, low]
  cases decode rest with
  | none => rfl
  | some bytes => exact congrArg (fun first => some (first :: bytes)) whole

/-- Every character but the percent sign is read alone. -/
theorem decode_cons {c : Char} (other : c ≠ '%') (rest : List Char)
    : decode (c :: rest) = (decode rest).map (String.utf8EncodeChar c ++ ·) := by
  rcases rest with _ | ⟨first, _ | ⟨second, rest⟩⟩
  · simp [decode, other]
  · simp [decode, other]
  · simp only [decode, if_neg other]

theorem decode_kept {byte : UInt8} (keepable : Keepable byte) (rest : List Char)
    : decode (Char.ofNat byte.toNat :: rest) = (decode rest).map (byte :: ·) := by
  have other : Char.ofNat byte.toNat ≠ '%' := by
    intro same
    refine keepable.2 ?_
    rw [← same, toNat_ofNat keepable.1]
  rw [decode_cons other, utf8EncodeChar_ofNat keepable.1]
  rfl

/-- What is encoded is decoded, by induction on the bytes. -/
theorem decode_encode (keepable : ∀ byte, keeps byte = true → Keepable byte) (bytes : List UInt8)
    : decode (encode keeps bytes) = some bytes := by
  induction bytes with
  | nil => rfl
  | cons byte bytes ih =>
      have first (rest : List Char)
          : decode (encodeByte keeps byte ++ rest) = (decode rest).map (byte :: ·) := by
        unfold encodeByte
        split
        case isTrue kept => exact decode_kept (keepable byte kept) rest
        case isFalse => exact decode_escape byte rest
      rw [encode, List.flatMap_cons, first]
      rw [encode] at ih
      rw [ih]
      rfl

/-- The characters of an encoded byte. -/
theorem mem_encodeByte {byte : UInt8} {c : Char} (mem : c ∈ encodeByte keeps byte)
    : (keeps byte = true ∧ c = Char.ofNat byte.toNat) ∨ c ∈ '%' :: digits := by
  unfold encodeByte at mem
  split at mem
  case isTrue kept => exact Or.inl ⟨kept, List.mem_singleton.mp mem⟩
  case isFalse =>
    have small := byte.toNat_lt
    simp only [escape, List.mem_cons, List.not_mem_nil, or_false] at mem
    rcases mem with rfl | rfl | rfl
    · exact Or.inr List.mem_cons_self
    · exact Or.inr (List.mem_cons_of_mem _ (hexDigit_mem (by omega)))
    · exact Or.inr (List.mem_cons_of_mem _ (hexDigit_mem (by omega)))

end PercentEncoding
