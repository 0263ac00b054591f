/-
# Kernel.Base58 -- what the address codec accepts

Both loops of `tron/address.py` go through one unbounded integer and put the leading zeros
back afterwards.  With characters and bytes taken off, each of them is `Radix.recode` between
bases 58 and 256 (`b58encode_eq`, `b58decode_eq`), so that the codec is a bijection between
byte strings and texts over its alphabet (`base58_bijective`).

An address is accepted exactly if it was minted (`accepts_minted`): the codec gives the bytes
back, the checksum gives the last four of them, and a numeral of 25 bytes that begins with
the version byte has 34 digits in base 58, inside the length guard.
-/
import Mathlib.Data.List.GetD
import Sluice.Kernel.Address
import Sluice.Theory.Radix

namespace Sluice.Kernel.Address

open Sluice.Theory Sluice.Theory.Radix

set_option autoImplicit false

/-! ## Characters and bytes as digits -/

def digitOf (c : Char) : Nat := alphabet.idxOf c

def charOf (d : Nat) : Char := alphabet.getD d '1'

section Digits

variable {c : Char} {d : Nat} {s : List Char}

theorem alphabet_length : alphabet.length = 58 := rfl

theorem alphabet_nodup : alphabet.Nodup := by decide

theorem digitOf_lt (known : c ∈ alphabet) : digitOf c < 58 := by
  rw [← alphabet_length]
  exact List.idxOf_lt_length_of_mem known

theorem idxOf?_known (known : c ∈ alphabet) : alphabet.idxOf? c = some (digitOf c) := by
  cases found : alphabet.idxOf? c with
  | none => exact absurd known (List.idxOf?_eq_none_iff.mp found)
  | some digit => rw [digitOf, List.idxOf_eq_getD_idxOf?, found, Option.getD_some]

theorem charOf_digitOf (known : c ∈ alphabet) : charOf (digitOf c) = c := by
  have small := List.idxOf_lt_length_of_mem known
  rw [charOf, digitOf, List.getD_eq_getElem _ _ small, List.getElem_idxOf small]

theorem charOf_mem (small : d < 58) : charOf d ∈ alphabet := by
  rw [← alphabet_length] at small
  rw [charOf, List.getD_eq_getElem _ _ small]
  exact List.getElem_mem small

theorem digitOf_charOf (small : d < 58) : digitOf (charOf d) = d := by
  rw [← alphabet_length] at small
  rw [charOf, digitOf, List.getD_eq_getElem _ _ small]
  exact alphabet_nodup.idxOf_getElem d small

/-- The digit zero is written `1`. -/
theorem digitOf_eq_zero (known : c ∈ alphabet) : digitOf c = 0 ↔ c = '1' := by
  constructor
  · intro zero
    rw [← charOf_digitOf known, zero]
    rfl
  · rintro rfl
    rfl

theorem digits_isNumeral (spelt : ∀ c ∈ s, c ∈ alphabet) : IsNumeral 58 (s.map digitOf) := by
  intro d member
  obtain ⟨c, present, rfl⟩ := List.mem_map.mp member
  exact digitOf_lt (spelt c present)

theorem bytes_isNumeral (raw : Bytes) : IsNumeral 256 (raw.map UInt8.toNat) := by
  intro d member
  obtain ⟨b, _, rfl⟩ := List.mem_map.mp member
  exact b.toNat_lt

end Digits

/-! ## The two loops -/

section Loops

variable {s : List Char}

theorem dropWhile_one (spelt : ∀ c ∈ s, c ∈ alphabet) :
    (s.dropWhile (· = '1')).map digitOf = significant (s.map digitOf) := by
  induction s with
  | nil => rfl
  | cons c s ih =>
      have known := spelt c List.mem_cons_self
      by_cases one : c = '1'
      · rw [List.dropWhile_cons_of_pos (by simpa using one),
          ih fun c' member => spelt c' (List.mem_cons_of_mem _ member), List.map_cons,
          (digitOf_eq_zero known).mpr one, significant_zero_cons]
      · rw [List.dropWhile_cons_of_neg (by simpa using one), List.map_cons,
          significant_cons (mt (digitOf_eq_zero known).mp one)]

theorem dropWhile_zero (raw : Bytes) :
    (raw.dropWhile (· = 0)).map UInt8.toNat = significant (raw.map UInt8.toNat) := by
  induction raw with
  | nil => rfl
  | cons b raw ih =>
      by_cases zero : b = 0
      · rw [List.dropWhile_cons_of_pos (by simpa using zero), ih, List.map_cons, zero]
        exact significant_zero_cons.symm
      · have some_ : b.toNat ≠ 0 := fun h => zero (UInt8.toNat_inj.mp h)
        rw [List.dropWhile_cons_of_neg (by simpa using zero), List.map_cons,
          significant_cons some_]

theorem b58number_known {num : Nat} (spelt : ∀ c ∈ s, c ∈ alphabet) :
    b58number num s = .ok ((s.map digitOf).foldl (fun num d => num * 58 + d) num) := by
  induction s generalizing num with
  | nil => rfl
  | cons c s ih =>
      have known := spelt c List.mem_cons_self
      simp only [b58number, idxOf?_known known]
      exact ih fun c' member => spelt c' (List.mem_cons_of_mem _ member)

/-- The loop raises at a character outside the alphabet, and only there. -/
theorem b58number_error {num : Nat} :
    (∃ e, b58number num s = .error e) ↔ ∃ c ∈ s, c ∉ alphabet := by
  constructor
  · rintro ⟨e, raised⟩
    by_contra spelt
    push Not at spelt
    rw [b58number_known spelt] at raised
    cases raised
  · rintro ⟨c, member, unknown⟩
    induction s generalizing num with
    | nil => cases member
    | cons c' s ih =>
        rw [b58number]
        cases found : alphabet.idxOf? c' with
        | none => exact ⟨_, rfl⟩
        | some digit =>
            rcases List.mem_cons.mp member with rfl | later
            · rw [List.idxOf?_eq_none_iff.mpr unknown] at found
              cases found
            · exact ih later

theorem b58decode_error : (∃ e, b58decode s = .error e) ↔ ∃ c ∈ s, c ∉ alphabet := by
  have number : (∃ e, b58decode s = .error e) ↔ ∃ e, b58number 0 s = .error e := by
    rw [b58decode]
    cases b58number 0 s with
    | error e => simp
    | ok num => simp
  exact number.trans b58number_error

/-- Decoding is recoding from base 58 to base 256. -/
theorem b58decode_eq (spelt : ∀ c ∈ s, c ∈ alphabet) :
    b58decode s = .ok ((recode 58 256 (s.map digitOf)).map UInt8.ofNat) := by
  have pad : s.length - (s.dropWhile (· = '1')).length = zeros (s.map digitOf) := by
    rw [zeros, ← dropWhile_one spelt, List.length_map, List.length_map]
  rw [b58decode, b58number_known spelt, foldl_eq_value, Nat.zero_mul, Nat.zero_add]
  simp only [pad, recode, bytesOfNat, shortest, List.map_append, List.map_replicate]
  rfl

/-- Encoding is recoding from base 256 to base 58. -/
theorem b58encode_eq (raw : Bytes) :
    b58encode raw = (recode 256 58 (raw.map UInt8.toNat)).map charOf := by
  have pad : raw.length - (raw.dropWhile (· = 0)).length = zeros (raw.map UInt8.toNat) := by
    rw [zeros, ← dropWhile_zero, List.length_map, List.length_map]
  have read : natOfBytes raw = value 256 (raw.map UInt8.toNat) := by
    rw [natOfBytes, value, List.map_reverse]
  simp only [b58encode, pad, read, recode, shortest, List.map_append, List.map_replicate,
    List.map_reverse]
  rfl

theorem b58encode_mem {raw : Bytes} {c : Char} (member : c ∈ b58encode raw) : c ∈ alphabet := by
  rw [b58encode_eq] at member
  obtain ⟨d, present, rfl⟩ := List.mem_map.mp member
  exact charOf_mem (recode_isNumeral (by decide) _ d present)

theorem b58decode_encode (raw : Bytes) : b58decode (b58encode raw) = .ok raw := by
  have chars : (b58encode raw).map digitOf = recode 256 58 (raw.map UInt8.toNat) := by
    rw [b58encode_eq, List.map_map]
    refine (List.map_congr_left fun d member => ?_).trans (List.map_id _)
    exact digitOf_charOf (recode_isNumeral (by decide) _ d member)
  rw [b58decode_eq fun c => b58encode_mem, chars,
    recode_recode (by decide) (by decide) (bytes_isNumeral raw), List.map_map]
  congr 1
  refine (List.map_congr_left fun b _ => ?_).trans (List.map_id _)
  exact UInt8.ofNat_toNat

theorem b58encode_decode {raw : Bytes} (decoded : b58decode s = .ok raw) : b58encode raw = s := by
  have spelt : ∀ c ∈ s, c ∈ alphabet := by
    by_contra unknown
    push Not at unknown
    obtain ⟨e, raised⟩ := b58decode_error.mpr unknown
    rw [decoded] at raised
    cases raised
  rw [b58decode_eq spelt, Except.ok.injEq] at decoded
  have bytes : raw.map UInt8.toNat = recode 58 256 (s.map digitOf) := by
    rw [← decoded, List.map_map]
    refine (List.map_congr_left fun d member => ?_).trans (List.map_id _)
    exact UInt8.toNat_ofNat_of_lt (recode_isNumeral (by decide) _ d member)
  rw [b58encode_eq, bytes, recode_recode (by decide) (by decide) (digits_isNumeral spelt),
    List.map_map]
  refine (List.map_congr_left fun c member => ?_).trans (List.map_id _)
  exact charOf_digitOf (spelt c member)

end Loops

/-- **The codec is a bijection** between byte strings and texts over the alphabet, and decoding
fails on every other text. -/
theorem base58_bijective :
    (∀ raw : Bytes, b58decode (b58encode raw) = .ok raw) ∧
    (∀ s : List Char, (∀ c ∈ s, c ∈ alphabet) →
      ∃ raw, b58decode s = .ok raw ∧ b58encode raw = s) ∧
    ∀ s : List Char, (∃ e, b58decode s = .error e) ↔ ∃ c ∈ s, c ∉ alphabet := by
  refine ⟨b58decode_encode, fun s spelt => ?_, fun s => b58decode_error⟩
  have decoded := b58decode_eq spelt
  exact ⟨_, decoded, b58encode_decode decoded⟩

/-- Leading zeros survive the way through the integer. -/
theorem base58_bijective_padded :
    ∃ raw, b58decode "11zz".toList = .ok raw ∧ b58encode raw = "11zz".toList := by
  have spelt : "11zz".toList.all (alphabet.contains ·) = true := rfl
  refine base58_bijective.2.1 _ fun c member => ?_
  exact List.contains_iff_mem.mp (List.all_eq_true.mp spelt c member)

/-! ## Addresses -/

section Addresses

variable {sha256 : Bytes → Bytes} {body raw : Bytes} {address : String}

/-- 25 bytes that begin with the version byte have 34 base58 digits: `0x41` and `0x42` times
`256 ^ 24` lie between two powers of 58. -/
theorem b58encode_length (rest : Bytes) (long : rest.length = 24) :
    (b58encode (version :: rest)).length = 34 := by
  have first : version.toNat = 65 := rfl
  have none_ : zeros ((version :: rest).map UInt8.toNat) = 0 := by
    rw [zeros, List.map_cons, significant_cons (by decide), Nat.sub_self]
  have number : value 256 ((version :: rest).map UInt8.toNat) =
      65 * 256 ^ 24 + value 256 (rest.map UInt8.toNat) := by
    rw [List.map_cons, value_cons, List.length_map, long, first]
  have below := value_lt (by decide) (bytes_isNumeral rest)
  rw [List.length_map, long] at below
  rw [b58encode_eq, List.length_map, recode, none_, number, List.replicate_zero, List.nil_append]
  apply length_shortest (by decide)
  · calc 58 ^ 33 ≤ 65 * 256 ^ 24 := by norm_num
      _ ≤ _ := Nat.le_add_right _ _
  · calc 65 * 256 ^ 24 + value 256 (rest.map UInt8.toNat) < 65 * 256 ^ 24 + 256 ^ 24 := by omega
      _ ≤ 58 ^ (33 + 1) := by norm_num

theorem checksum_length (digests : ∀ bytes, (sha256 bytes).length = 32) (payload : Bytes) :
    (checksum sha256 payload).length = 4 := by
  rw [checksum, List.length_take, digests]
  rfl

theorem fromPayload_eq (long : body.length = 20) :
    fromPayload sha256 body =
      some (String.ofList (b58encode (version :: body ++ checksum sha256 (version :: body)))) := by
  simp [fromPayload, long]

theorem length_of_fromPayload (minted : fromPayload sha256 body = some address) :
    body.length = 20 := by
  by_contra other
  simp [fromPayload, other] at minted

/-- The bytes an address was minted from are those it decodes to. -/
theorem b58decode_minted (minted : fromPayload sha256 body = some address) :
    b58decode address.toList = .ok (version :: body ++ checksum sha256 (version :: body)) := by
  rw [fromPayload_eq (length_of_fromPayload minted), Option.some.injEq] at minted
  rw [← minted, String.toList_ofList, b58decode_encode]

theorem length_of_minted (digests : ∀ bytes, (sha256 bytes).length = 32)
    (minted : fromPayload sha256 body = some address) : address.toList.length = 34 := by
  have long := length_of_fromPayload minted
  rw [← b58encode_decode (b58decode_minted minted), List.cons_append]
  apply b58encode_length
  rw [List.length_append, checksum_length digests, long]

theorem isValid_of_minted (digests : ∀ bytes, (sha256 bytes).length = 32)
    (minted : fromPayload sha256 body = some address) : isValid sha256 address = true := by
  have long := length_of_fromPayload minted
  have tail := checksum_length digests (version :: body)
  have payload : (version :: body).length = 21 := by rw [List.length_cons, long]
  have whole : (version :: body ++ checksum sha256 (version :: body)).length = 25 := by
    rw [List.length_append, payload, tail]
  simp only [isValid, length_of_minted digests minted, b58decode_minted minted, whole,
    List.take_left' payload, List.drop_left' payload]
  rfl

/-- What is accepted is 25 bytes: the version, the body and its checksum. -/
theorem minted_of_isValid (valid : isValid sha256 address = true) :
    ∃ body, fromPayload sha256 body = some address := by
  simp only [isValid] at valid
  split at valid
  · cases valid
  cases decoded : b58decode address.toList with
  | error e => simp [decoded] at valid
  | ok raw =>
      simp only [decoded] at valid
      split at valid
      · cases valid
      next guard =>
        push Not at guard
        obtain ⟨long, first⟩ := guard
        cases raw with
        | nil => cases first
        | cons b rest =>
            obtain rfl : b = version := Option.some.inj first
            have sum : checksum sha256 (version :: rest.take 20) = rest.drop 20 :=
              of_decide_eq_true valid
            have short : (rest.take 20).length = 20 := by
              rw [List.length_take]
              simp only [List.length_cons] at long
              omega
            refine ⟨rest.take 20, ?_⟩
            rw [fromPayload_eq short, sum, List.cons_append, List.take_append_drop,
              b58encode_decode decoded, String.ofList_toList]

theorem body_unique {other : Bytes} (minted : fromPayload sha256 body = some address)
    (again : fromPayload sha256 other = some address) : body = other := by
  have decoded := b58decode_minted minted
  rw [b58decode_minted again, Except.ok.injEq, List.cons_append, List.cons_append,
    List.cons.injEq] at decoded
  have long := length_of_fromPayload minted
  have long' := length_of_fromPayload again
  exact (List.append_inj decoded.2 (long'.trans long.symm)).1.symm

end Addresses

/-- **Accepted means minted.**  For every digest of 32 bytes an address is accepted exactly if
it was made from some 20 bytes; those are unique, and no 20 bytes are refused. -/
theorem accepts_minted (sha256 : Bytes → Bytes) (digests : ∀ bytes, (sha256 bytes).length = 32) :
    (∀ address, isValid sha256 address = true ↔
      ∃ body, body.length = 20 ∧ fromPayload sha256 body = some address) ∧
    (∀ address body other, fromPayload sha256 body = some address →
      fromPayload sha256 other = some address → body = other) ∧
    ∀ body, body.length = 20 → ∃ address, fromPayload sha256 body = some address ∧
      30 ≤ address.length ∧ address.length ≤ 40 ∧ isValid sha256 address = true := by
  refine ⟨fun address => ⟨fun valid => ?_, ?_⟩, fun address body other => body_unique, ?_⟩
  · obtain ⟨body, minted⟩ := minted_of_isValid valid
    exact ⟨body, length_of_fromPayload minted, minted⟩
  · rintro ⟨body, _, minted⟩
    exact isValid_of_minted digests minted
  · intro body long
    have minted : fromPayload sha256 body = some _ := fromPayload_eq long
    have short := length_of_minted digests minted
    rw [String.length_toList] at short
    exact ⟨_, minted, by omega, by omega, isValid_of_minted digests minted⟩

/-- With a digest of zeros, the account of twenty zeros. -/
theorem accepts_minted_zeros :
    ∃ address, fromPayload (fun _ => List.replicate 32 0) (List.replicate 20 0) = some address ∧
      30 ≤ address.length ∧ address.length ≤ 40 ∧
      isValid (fun _ => List.replicate 32 0) address = true :=
  (accepts_minted (fun _ => List.replicate 32 0) fun _ => rfl).2.2 _ rfl

end Sluice.Kernel.Address
