/-
# Kernel.Digest -- bytes, hexadecimal digests, and the keyed hash

SHA-256 itself is a parameter of the model: a function from byte strings to byte
strings.  What the program builds around it is written out: the ASCII encoding of
the hashed text, `hexdigest`, and HMAC with its 64-byte block.
-/
import Sluice.Theory.JsonText

namespace Sluice.Kernel

open Sluice.Theory

set_option autoImplicit false

abbrev Bytes := List UInt8

/-- `str.encode` of an ASCII text. -/
def encodeAscii (text : List Char) : Bytes := text.map fun c => UInt8.ofNat c.toNat

def hexByte (b : UInt8) : List Char := [(b.toNat / 16).digitChar, (b.toNat % 16).digitChar]

/-- A hexadecimal text, by its characters. -/
abbrev Hex := List Char

def hexdigest (digest : Bytes) : Hex := digest.flatMap hexByte

/-- HMAC over a hash with 64-byte blocks. -/
def hmac (sha256 : Bytes → Bytes) (key message : Bytes) : Bytes :=
  let key := if key.length > 64 then sha256 key else key
  let padded := key ++ List.replicate (64 - key.length) 0
  sha256 (padded.map (· ^^^ 0x5c) ++ sha256 (padded.map (· ^^^ 0x36) ++ message))

theorem encodeAscii_injective :
    ∀ {a b : List Char}, Json.Ascii a → Json.Ascii b → encodeAscii a = encodeAscii b → a = b
  | [], [], _, _, _ => rfl
  | [], _ :: _, _, _, same => by simp [encodeAscii] at same
  | _ :: _, [], _, _, same => by simp [encodeAscii] at same
  | c :: cs, d :: ds, left, right, same => by
      simp only [encodeAscii, List.map_cons, List.cons.injEq] at same
      have small := left c List.mem_cons_self
      have small' := right d List.mem_cons_self
      have codes : c.toNat = d.toNat := by
        have := congrArg UInt8.toNat same.1
        simp only [UInt8.toNat_ofNat'] at this
        omega
      have chars : c = d := by rw [← Char.ofNat_toNat c, codes, Char.ofNat_toNat]
      have rest := encodeAscii_injective (fun x h => left x (List.mem_cons_of_mem _ h))
        (fun x h => right x (List.mem_cons_of_mem _ h)) same.2
      rw [chars, rest]

theorem hexByte_injective {a b : UInt8} (same : hexByte a = hexByte b) : a = b := by
  simp only [hexByte, List.cons.injEq, and_true] at same
  have high := congrArg Json.hexValue same.1
  have low := congrArg Json.hexValue same.2
  have bound := a.toNat_lt
  have bound' := b.toNat_lt
  rw [Json.hexValue_digitChar (by omega), Json.hexValue_digitChar (by omega)] at high
  rw [Json.hexValue_digitChar (by omega), Json.hexValue_digitChar (by omega)] at low
  exact UInt8.toNat_inj.mp (by omega)

theorem hexBytes_injective :
    ∀ {a b : Bytes}, a.flatMap hexByte = b.flatMap hexByte → a = b
  | [], [], _ => rfl
  | [], _ :: _, same => by simp [hexByte] at same
  | _ :: _, [], same => by simp [hexByte] at same
  | x :: xs, y :: ys, same => by
      simp only [List.flatMap_cons] at same
      obtain ⟨head, tail⟩ := List.append_inj same rfl
      rw [hexByte_injective head, hexBytes_injective tail]

theorem hexdigest_ascii (digest : Bytes) : Json.Ascii (hexdigest digest) := by
  intro c member
  obtain ⟨b, -, digit⟩ := List.mem_flatMap.mp member
  have bound := b.toNat_lt
  rcases List.mem_cons.mp digit with rfl | digit
  · exact Json.digitChar_ascii (by omega)
  · rw [List.mem_singleton.mp digit]
    exact Json.digitChar_ascii (by omega)

theorem hexdigest_injective {a b : Bytes} (same : hexdigest a = hexdigest b) : a = b :=
  hexBytes_injective same

end Sluice.Kernel
