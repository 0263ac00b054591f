/-
# Kernel.Address -- base58check addresses

`tron/address.py`.  The integer a base58 text or a byte string denotes forgets
leading zeros, so both directions count and restore the padding separately.
-/
import Mathlib.Data.Nat.Digits.Defs
import Sluice.Kernel.Digest

namespace Sluice.Kernel.Address

set_option autoImplicit false

def alphabet : List Char := "123456789ABCDEFGHJKLMNPQRSTUVWXYZabcdefghijkmnopqrstuvwxyz".toList

/-- Version byte of the network. -/
def version : UInt8 := 0x41

structure InvalidCharacter where
  char : Char
  deriving DecidableEq, Repr

/-- The integer a base58 text denotes, most significant digit first. -/
def b58number : Nat → List Char → Except InvalidCharacter Nat
  | num, [] => .ok num
  | num, ch :: rest =>
      match alphabet.idxOf? ch with
      | none => .error ⟨ch⟩
      | some digit => b58number (num * 58 + digit) rest

/-- `num.to_bytes((num.bit_length() + 7) // 8, "big")`. -/
def bytesOfNat (num : Nat) : Bytes := (Nat.digits 256 num).reverse.map UInt8.ofNat

/-- `int.from_bytes(raw, "big")`. -/
def natOfBytes (raw : Bytes) : Nat := Nat.ofDigits 256 (raw.reverse.map UInt8.toNat)

def b58decode (s : List Char) : Except InvalidCharacter Bytes :=
  match b58number 0 s with
  | .error e => .error e
  | .ok num =>
      -- leading '1's encode leading zero bytes
      let pad := s.length - (s.dropWhile (· = '1')).length
      .ok (List.replicate pad 0 ++ bytesOfNat num)

def b58encode (raw : Bytes) : List Char :=
  let out := (Nat.digits 58 (natOfBytes raw)).map fun rem => alphabet.getD rem '1'
  let pad := raw.length - (raw.dropWhile (· = 0)).length
  List.replicate pad '1' ++ out.reverse

section Checksum

variable (sha256 : Bytes → Bytes)

def checksum (payload : Bytes) : Bytes := (sha256 (sha256 payload)).take 4

def isValid (address : String) : Bool :=
  let text := address.toList
  if !(30 ≤ text.length && text.length ≤ 40) then false
  else match b58decode text with
    | .error _ => false
    | .ok raw =>
        if raw.length ≠ 25 ∨ raw.head? ≠ some version then false
        else checksum sha256 (raw.take 21) = raw.drop 21

/-- A valid address from 20 raw bytes; `none` for any other length. -/
def fromPayload (body : Bytes) : Option String :=
  if body.length ≠ 20 then none
  else
    let payload := version :: body
    some (String.ofList (b58encode (payload ++ checksum sha256 payload)))

end Checksum

end Sluice.Kernel.Address
