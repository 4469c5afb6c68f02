/-
# Bytes in hexadecimal

Two digits for each byte.  They are written in lower case and read in either case, so what
was written is read back (`decode_encode`); another spelling may be read as the same bytes.
-/

import Mathlib.Data.UInt
import Mathlib.Tactic.Common

namespace Hex

/-- The digit of a number below 16. -/
def digit (n : ℕ) : Char := Char.ofNat (if n < 10 then 48 + n else 87 + n)

/-- The number of a digit, in either case. -/
def nibble (c : Char) : Option ℕ :=
  if 48 ≤ c.toNat ∧ c.toNat ≤ 57 then some (c.toNat - 48)
  else if 97 ≤ c.toNat ∧ c.toNat ≤ 102 then some (c.toNat - 87)
  else if 65 ≤ c.toNat ∧ c.toNat ≤ 70 then some (c.toNat - 55)
  else none

theorem nibble_digit {n : ℕ} (h : n < 16) : nibble (digit n) = some n := by
  have hall : ∀ m : Fin 16, nibble (digit m) = some m.val := by decide
  exact hall ⟨n, h⟩

/-- The digits of some bytes. -/
def digits : List UInt8 → List Char
  | [] => []
  | byte :: bytes => digit (byte.toNat / 16) :: digit (byte.toNat % 16) :: digits bytes

/-- The bytes of some digits. -/
def bytes : List Char → Option (List UInt8)
  | [] => some []
  | [_] => none
  | high :: low :: rest =>
      match nibble high, nibble low with
      | some x, some y => (bytes rest).map (UInt8.ofNat (16 * x + y) :: ·)
      | _, _ => none

def encode (bs : List UInt8) : String := String.ofList (digits bs)

def decode (text : String) : Option (List UInt8) := bytes text.toList

theorem bytes_digits (bs : List UInt8) : bytes (digits bs) = some bs := by
  induction bs with
  | nil => rfl
  | cons byte bs ih =>
      have hlt := byte.toNat_lt
      have hhigh : nibble (digit (byte.toNat / 16)) = some (byte.toNat / 16) :=
        nibble_digit (by omega)
      have hlow : nibble (digit (byte.toNat % 16)) = some (byte.toNat % 16) :=
        nibble_digit (by omega)
      have hbyte : 16 * (byte.toNat / 16) + byte.toNat % 16 = byte.toNat := by omega
      simp [digits, bytes, hhigh, hlow, ih, hbyte]

/-- **What was written is read back.** -/
@[simp] theorem decode_encode (bs : List UInt8) : decode (encode bs) = some bs := by
  simp [decode, encode, bytes_digits]

/-- Other digits are read as the same bytes. -/
example : decode "AB" = decode "ab" := by decide

end Hex
