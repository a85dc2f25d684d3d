import Mathlib.Data.List.GetD
import Mathlib.Data.List.Nodup

/-! Base64 with the standard alphabet and padding, and what a reader that does not insist on the
canonical spelling accepts: line breaks anywhere, and any value in the bits that the padding leaves
unused.
-/

namespace Base64

/-- The 64 digits in the order of their values. -/
def alphabet : List Char :=
  "ABCDEFGHIJKLMNOPQRSTUVWXYZabcdefghijklmnopqrstuvwxyz0123456789+/".toList

def pad : Char := '='

/-- The digit of a value below 64. -/
def digit (value : Nat) : Char := alphabet.getD value pad

def value (c : Char) : Option Nat := alphabet.findIdx? (· == c)

/-- Three bytes make four digits; one or two bytes at the end are padded to four. -/
def encode : List UInt8 → List Char
  | [] => []
  | [a] => [digit (a.toNat / 4), digit (a.toNat % 4 * 16), pad, pad]
  | [a, b] =>
      [digit (a.toNat / 4), digit (a.toNat % 4 * 16 + b.toNat / 16), digit (b.toNat % 16 * 4), pad]
  | a :: b :: c :: rest =>
      digit (a.toNat / 4) :: digit (a.toNat % 4 * 16 + b.toNat / 16)
        :: digit (b.toNat % 16 * 4 + c.toNat / 64) :: digit (c.toNat % 64) :: encode rest

/-- The first, second and third byte of a group of four digits with these values. -/
def firstByte (w x : Nat) : UInt8 := UInt8.ofNat (w * 4 + x / 16)

def secondByte (x y : Nat) : UInt8 := UInt8.ofNat (x % 16 * 16 + y / 4)

def thirdByte (y z : Nat) : UInt8 := UInt8.ofNat (y % 4 * 64 + z)

/-- Reads groups of four characters. Padding ends the text. -/
def decodeGroups : List Char → Option (List UInt8)
  | [] => some []
  | first :: second :: third :: fourth :: rest => do
      let w ← value first
      let x ← value second
      if fourth = pad then
        if rest ≠ [] then none
        else if third = pad then some [firstByte w x]
        else do
          let y ← value third
          return [firstByte w x, secondByte x y]
      else do
        let y ← value third
        let z ← value fourth
        let bytes ← decodeGroups rest
        return firstByte w x :: secondByte x y :: thirdByte y z :: bytes
  | _ => none

/-- The text without its line breaks. -/
def unbroken (text : List Char) : List Char := text.filter (fun c => c ≠ '\n' && c ≠ '\r')

def decode (text : List Char) : Option (List UInt8) := decodeGroups (unbroken text)

/-- The texts without line breaks that stand for given bytes. The bits of the last digit before
the padding that belong to no byte are free.
-/
inductive Spells : List Char → List UInt8 → Prop where
  | nil : Spells [] []
  | one (a : UInt8) (free : Nat) (fits : free < 16)
      : Spells [digit (a.toNat / 4), digit (a.toNat % 4 * 16 + free), pad, pad] [a]
  | two (a b : UInt8) (free : Nat) (fits : free < 4)
      : Spells [digit (a.toNat / 4), digit (a.toNat % 4 * 16 + b.toNat / 16),
          digit (b.toNat % 16 * 4 + free), pad] [a, b]
  | three (a b c : UInt8) {text : List Char} {bytes : List UInt8} (rest : Spells text bytes)
      : Spells (digit (a.toNat / 4) :: digit (a.toNat % 4 * 16 + b.toNat / 16)
          :: digit (b.toNat % 16 * 4 + c.toNat / 64) :: digit (c.toNat % 64) :: text)
          (a :: b :: c :: bytes)

-----------------------------------------------------------------------------------------
-- Digits
-----------------------------------------------------------------------------------------

theorem alphabet_length : alphabet.length = 64 := by decide

theorem alphabet_nodup : alphabet.Nodup := by decide +kernel

theorem digit_mem {v : Nat} (fits : v < 64) : digit v ∈ alphabet := by
  have inside : v < alphabet.length := alphabet_length ▸ fits
  rw [digit, List.getD_eq_getElem _ _ inside]
  exact List.getElem_mem inside

theorem value_digit {v : Nat} (fits : v < 64) : value (digit v) = some v := by
  have inside : v < alphabet.length := alphabet_length ▸ fits
  rw [value, digit, List.getD_eq_getElem _ _ inside, List.findIdx?_eq_some_iff_getElem]
  refine ⟨inside, beq_self_eq_true _, fun earlier before => ?_⟩
  have other : alphabet[earlier] ≠ alphabet[v] := by
    intro same
    have := (List.Nodup.getElem_inj_iff alphabet_nodup).mp same
    omega
  simpa using other

theorem value_eq_some {c : Char} {v : Nat} (read : value c = some v) : v < 64 ∧ digit v = c := by
  rw [value, List.findIdx?_eq_some_iff_getElem] at read
  obtain ⟨inside, same, -⟩ := read
  refine ⟨alphabet_length ▸ inside, ?_⟩
  rw [digit, List.getD_eq_getElem _ _ inside]
  simpa using same

theorem pad_not_mem : pad ∉ alphabet := by decide

theorem digit_ne_pad {v : Nat} (fits : v < 64) : digit v ≠ pad := by
  intro same
  exact pad_not_mem (same ▸ digit_mem fits)

-----------------------------------------------------------------------------------------
-- Groups
-----------------------------------------------------------------------------------------

theorem toNat_firstByte {w x : Nat} (hw : w < 64) (hx : x < 64)
    : (firstByte w x).toNat = w * 4 + x / 16 := by
  rw [firstByte, UInt8.toNat_ofNat_of_lt' (by simp only [UInt8.size]; omega)]

theorem toNat_secondByte {x y : Nat} (hy : y < 64)
    : (secondByte x y).toNat = x % 16 * 16 + y / 4 := by
  rw [secondByte, UInt8.toNat_ofNat_of_lt' (by simp only [UInt8.size]; omega)]

theorem toNat_thirdByte {y z : Nat} (hz : z < 64)
    : (thirdByte y z).toNat = y % 4 * 64 + z := by
  rw [thirdByte, UInt8.toNat_ofNat_of_lt' (by simp only [UInt8.size]; omega)]

/-- The digits of a byte give the byte back, whatever the free bits are. -/
theorem firstByte_of_digits (a : UInt8) {free : Nat} (fits : free < 16)
    : firstByte (a.toNat / 4) (a.toNat % 4 * 16 + free) = a := by
  apply UInt8.toNat_inj.mp
  have := a.toNat_lt
  rw [toNat_firstByte (by omega) (by omega)]
  omega

theorem secondByte_of_digits (b : UInt8) {high free : Nat} (fits : free < 4)
    : secondByte (high * 16 + b.toNat / 16) (b.toNat % 16 * 4 + free) = b := by
  apply UInt8.toNat_inj.mp
  have := b.toNat_lt
  rw [toNat_secondByte (by omega)]
  omega

theorem thirdByte_of_digits (c : UInt8) {high : Nat}
    : thirdByte (high * 4 + c.toNat / 64) (c.toNat % 64) = c := by
  apply UInt8.toNat_inj.mp
  have := c.toNat_lt
  rw [toNat_thirdByte (by omega)]
  omega

/-- What spells bytes is read as these bytes, by induction on the groups. -/
theorem decodeGroups_of_spells {text : List Char} {bytes : List UInt8} (spells : Spells text bytes)
    : decodeGroups text = some bytes := by
  induction spells with
  | nil => rfl
  | one a free fits =>
      have := a.toNat_lt
      simp [decodeGroups, value_digit (show a.toNat / 4 < 64 by omega),
        value_digit (show a.toNat % 4 * 16 + free < 64 by omega), firstByte_of_digits a fits]
  | two a b free fits =>
      have := a.toNat_lt
      have := b.toNat_lt
      have unpadded := digit_ne_pad (show b.toNat % 16 * 4 + free < 64 by omega)
      simp [decodeGroups, value_digit (show a.toNat / 4 < 64 by omega),
        value_digit (show a.toNat % 4 * 16 + b.toNat / 16 < 64 by omega),
        value_digit (show b.toNat % 16 * 4 + free < 64 by omega), unpadded,
        firstByte_of_digits a (show b.toNat / 16 < 16 by omega), secondByte_of_digits b fits]
  | three a b c rest ih =>
      have := a.toNat_lt
      have := b.toNat_lt
      have := c.toNat_lt
      have unpadded := digit_ne_pad (show c.toNat % 64 < 64 by omega)
      simp [decodeGroups, value_digit (show a.toNat / 4 < 64 by omega),
        value_digit (show a.toNat % 4 * 16 + b.toNat / 16 < 64 by omega),
        value_digit (show b.toNat % 16 * 4 + c.toNat / 64 < 64 by omega),
        value_digit (show c.toNat % 64 < 64 by omega), unpadded, ih,
        firstByte_of_digits a (show b.toNat / 16 < 16 by omega),
        secondByte_of_digits b (show c.toNat / 64 < 4 by omega), thirdByte_of_digits c]

/-- A padded group of four characters that is read spells its bytes. -/
theorem spells_one {w x : Nat} (hw : w < 64) (hx : x < 64)
    : Spells [digit w, digit x, pad, pad] [firstByte w x] := by
  have spelled := Spells.one (firstByte w x) (x % 16) (by omega)
  rw [toNat_firstByte hw hx, show (w * 4 + x / 16) / 4 = w by omega,
    show (w * 4 + x / 16) % 4 * 16 + x % 16 = x by omega] at spelled
  exact spelled

theorem spells_two {w x y : Nat} (hw : w < 64) (hx : x < 64) (hy : y < 64)
    : Spells [digit w, digit x, digit y, pad] [firstByte w x, secondByte x y] := by
  have spelled := Spells.two (firstByte w x) (secondByte x y) (y % 4) (by omega)
  rw [toNat_firstByte hw hx, toNat_secondByte hy, show (w * 4 + x / 16) / 4 = w by omega,
    show (w * 4 + x / 16) % 4 * 16 + (x % 16 * 16 + y / 4) / 16 = x by omega,
    show (x % 16 * 16 + y / 4) % 16 * 4 + y % 4 = y by omega] at spelled
  exact spelled

theorem spells_three {w x y z : Nat} (hw : w < 64) (hx : x < 64) (hy : y < 64) (hz : z < 64)
    {text : List Char} {bytes : List UInt8} (rest : Spells text bytes)
    : Spells (digit w :: digit x :: digit y :: digit z :: text)
        (firstByte w x :: secondByte x y :: thirdByte y z :: bytes) := by
  have spelled := Spells.three (firstByte w x) (secondByte x y) (thirdByte y z) rest
  rw [toNat_firstByte hw hx, toNat_secondByte hy, toNat_thirdByte hz,
    show (w * 4 + x / 16) / 4 = w by omega,
    show (w * 4 + x / 16) % 4 * 16 + (x % 16 * 16 + y / 4) / 16 = x by omega,
    show (x % 16 * 16 + y / 4) % 16 * 4 + (y % 4 * 64 + z) / 64 = y by omega,
    show (y % 4 * 64 + z) % 64 = z by omega] at spelled
  exact spelled

/-- What is read spells the bytes, by the recursion of the reader. -/
theorem spells_of_decodeGroups {text : List Char} {bytes : List UInt8}
    (read : decodeGroups text = some bytes)
    : Spells text bytes := by
  induction text using decodeGroups.induct generalizing bytes with
  | case1 =>
      cases read
      exact .nil
  | case2 first second third fourth rest ih =>
      simp only [decodeGroups, Option.bind_eq_bind, Option.bind_eq_some_iff] at read
      obtain ⟨w, readW, x, readX, read⟩ := read
      obtain ⟨hw, rfl⟩ := value_eq_some readW
      obtain ⟨hx, rfl⟩ := value_eq_some readX
      split at read
      case isTrue padded =>
        subst padded
        split at read
        case isTrue => cases read
        case isFalse ends =>
          obtain rfl : rest = [] := not_not.mp ends
          split at read
          case isTrue padded =>
            subst padded
            cases read
            exact spells_one hw hx
          case isFalse =>
            simp only [Option.bind_eq_some_iff] at read
            obtain ⟨y, readY, read⟩ := read
            obtain ⟨hy, rfl⟩ := value_eq_some readY
            cases read
            exact spells_two hw hx hy
      case isFalse =>
        simp only [Option.bind_eq_some_iff] at read
        obtain ⟨y, readY, z, readZ, later, readLater, read⟩ := read
        obtain ⟨hy, rfl⟩ := value_eq_some readY
        obtain ⟨hz, rfl⟩ := value_eq_some readZ
        cases read
        exact spells_three hw hx hy hz (ih readLater)
  | case3 text notEmpty notGroup =>
      unfold decodeGroups at read
      split at read
      case h_1 => exact absurd rfl notEmpty
      case h_2 => exact absurd rfl (notGroup _ _ _ _ _)
      case h_3 => cases read

/-- A text is read as bytes exactly when it spells them between its line breaks. -/
theorem decode_eq_some_iff {text : List Char} {bytes : List UInt8}
    : decode text = some bytes ↔ Spells (unbroken text) bytes :=
  ⟨spells_of_decodeGroups, decodeGroups_of_spells⟩

-----------------------------------------------------------------------------------------
-- Canonical texts
-----------------------------------------------------------------------------------------

/-- The canonical text leaves the free bits zero, by the groups of the bytes. -/
theorem spells_encode (bytes : List UInt8) : Spells (encode bytes) bytes := by
  induction bytes using encode.induct with
  | case1 => exact .nil
  | case2 a => exact .one a 0 (by omega)
  | case3 a b => exact .two a b 0 (by omega)
  | case4 a b c rest ih => exact .three a b c ih

/-- What a text without line breaks is made of. -/
def isSymbol (c : Char) : Bool := c ∈ alphabet || c = pad

theorem Spells.symbols {text : List Char} {bytes : List UInt8} (spells : Spells text bytes)
    : ∀ c ∈ text, isSymbol c = true := by
  have ofDigit {v : Nat} (fits : v < 64) : isSymbol (digit v) = true := by
    rw [isSymbol, decide_eq_true (digit_mem fits), Bool.true_or]
  have ofPad : isSymbol pad = true := by decide
  induction spells with
  | nil => exact fun c mem => absurd mem List.not_mem_nil
  | one a free fits =>
      have := a.toNat_lt
      simp only [List.forall_mem_cons]
      exact ⟨ofDigit (by omega), ofDigit (by omega), ofPad, ofPad,
        fun c mem => absurd mem List.not_mem_nil⟩
  | two a b free fits =>
      have := a.toNat_lt
      have := b.toNat_lt
      simp only [List.forall_mem_cons]
      exact ⟨ofDigit (by omega), ofDigit (by omega), ofDigit (by omega), ofPad,
        fun c mem => absurd mem List.not_mem_nil⟩
  | three a b c rest ih =>
      have := a.toNat_lt
      have := b.toNat_lt
      have := c.toNat_lt
      simp only [List.forall_mem_cons]
      exact ⟨ofDigit (by omega), ofDigit (by omega), ofDigit (by omega), ofDigit (by omega), ih⟩

/-- A separator that is no symbol does not occur. -/
theorem Spells.not_mem {text : List Char} {bytes : List UInt8} (spells : Spells text bytes)
    {c : Char} (other : isSymbol c = false)
    : c ∉ text := by
  intro mem
  rw [spells.symbols c mem] at other
  cases other

theorem unbroken_of_spells {text : List Char} {bytes : List UInt8} (spells : Spells text bytes)
    : unbroken text = text := by
  rw [unbroken, List.filter_eq_self]
  intro c mem
  have newline : c ≠ '\n' := fun same => spells.not_mem (by decide) (same ▸ mem)
  have carriage : c ≠ '\r' := fun same => spells.not_mem (by decide) (same ▸ mem)
  simp [newline, carriage]

end Base64
