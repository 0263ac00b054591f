/-
# Kernel.Transaction -- transactions, their ids and signatures, the node's answers

`tron/types.py` and `tron/signer.py`.  The id of a transaction is the hexadecimal
SHA-256 of the compact, key-sorted JSON of its raw data, so it is known before any
signature exists; `computeTxid_injective` is the exact sense in which it names the
raw data when the hash does not collide.  The signature is a keyed hash of the id
alone, so a verifier treats every signed form of an id alike (`verify_sign_congr`).

A node answers a broadcast with one of seven known codes or with a text the program
has never heard of; the four classes below are the program's reading of a code.
-/
import Sluice.Kernel.Config
import Sluice.Kernel.Digest

namespace Sluice.Kernel

open Sluice.Theory

set_option autoImplicit false

/-! ## Raw data and ids -/

structure Contract where
  type : String
  contractAddress : String
  call : String
  toAddress : String
  amountUnits : String
  deriving DecidableEq, Repr

structure RawData where
  contract : Contract
  refBlockNum : Int
  refBlockHash : String
  timestampMs : Int
  expirationMs : Int
  deriving DecidableEq, Repr

/-- Keys in sorted order, as `json.dumps(sort_keys=True)` writes them. -/
def RawData.json (raw : RawData) : Json.Value :=
  .obj (.cons "contract"
    (.obj (.cons "amount_units" (.str raw.contract.amountUnits)
      (.cons "call" (.str raw.contract.call)
        (.cons "contract_address" (.str raw.contract.contractAddress)
          (.cons "to" (.str raw.contract.toAddress)
            (.cons "type" (.str raw.contract.type) .nil))))))
    (.cons "expiration_ms" (.num raw.expirationMs)
      (.cons "ref_block_hash" (.str raw.refBlockHash)
        (.cons "ref_block_num" (.num raw.refBlockNum)
          (.cons "timestamp_ms" (.num raw.timestampMs) .nil)))))

theorem RawData.json_injective {a b : RawData} (same : a.json = b.json) : a = b := by
  obtain ⟨⟨_, _, _, _, _⟩, _, _, _, _⟩ := a
  obtain ⟨⟨_, _, _, _, _⟩, _, _, _, _⟩ := b
  simp_all [RawData.json]

/-- `txid = sha256(canonical raw data)`, in hexadecimal. -/
def computeTxid (sha256 : Bytes → Bytes) (raw : RawData) : Hex :=
  hexdigest (sha256 (encodeAscii raw.json.text))

theorem computeTxid_injective {sha256 : Bytes → Bytes} (separates : Function.Injective sha256)
    {a b : RawData} (same : computeTxid sha256 a = computeTxid sha256 b) : a = b :=
  RawData.json_injective (Json.text_injective (encodeAscii_injective (Json.text_ascii _)
    (Json.text_ascii _) (separates (hexdigest_injective same))))

structure UnsignedTx where
  rawData : RawData
  txid : Hex
  expiration : Int
  deriving DecidableEq, Repr

/-- The signed bytes.  The row stores their JSON form, from which the same value is
read back. -/
structure SignedTx where
  rawData : RawData
  txid : Hex
  expiration : Int
  signature : List Char
  deriving DecidableEq, Repr

/-! ## Signer -/

structure MockSigner where
  keyId : String := "hotwallet-1"
  secret : Bytes := encodeAscii "not-a-real-key".toList

namespace MockSigner

/-- The hexadecimal keyed hash of a transaction id. -/
def mac (sha256 : Bytes → Bytes) (signer : MockSigner) (txid : Hex) : Hex :=
  hexdigest (hmac sha256 signer.secret (encodeAscii txid))

def sign (sha256 : Bytes → Bytes) (signer : MockSigner) (tx : UnsignedTx) : SignedTx where
  rawData := tx.rawData
  txid := tx.txid
  expiration := tx.expiration
  signature := signer.keyId.toList ++ ':' :: signer.mac sha256 tx.txid

/-- `text.split(":", 1)`; `none` when there is no colon. -/
def splitColon : List Char → Option (List Char × List Char)
  | [] => none
  | ':' :: rest => some ([], rest)
  | c :: rest => (splitColon rest).map fun parts => (c :: parts.1, parts.2)

/-- `hmac.compare_digest` of two texts; `none` is its `TypeError` on text beyond ASCII. -/
def compareDigest (a b : List Char) : Option Bool :=
  if a.all (·.toNat < 128) && b.all (·.toNat < 128) then some (a = b) else none

/-- `none` is the exception of the comparison, made only if the key ids agree. -/
def verify (sha256 : Bytes → Bytes) (signer : MockSigner) (tx : SignedTx) : Option Bool :=
  match splitColon tx.signature with
  | none => some false
  | some (keyId, sig) =>
      if keyId = signer.keyId.toList then compareDigest sig (signer.mac sha256 tx.txid)
      else some false

/-- Two signatures by one signer of one id are the same text, so a verifier treats
every signed form of an id alike. -/
theorem verify_sign_congr (sha256 : Bytes → Bytes) (signer verifier : MockSigner)
    {a b : UnsignedTx} (same : a.txid = b.txid) :
    verifier.verify sha256 (signer.sign sha256 a) =
      verifier.verify sha256 (signer.sign sha256 b) := by
  obtain ⟨_, _, _⟩ := a
  obtain ⟨_, _, _⟩ := b
  cases same
  rfl

theorem not_mem_of_splitColon : ∀ {text : List Char} {parts : List Char × List Char},
    splitColon text = some parts → ':' ∉ parts.1
  | [], _, found => by cases found
  | c :: rest, parts, found => by
      unfold splitColon at found
      split at found
      · cases found
      · cases found
        exact List.not_mem_nil
      · rename_i other same
        cases same
        obtain ⟨tail, split', rfl⟩ := Option.map_eq_some_iff.mp found
        rintro (_ | ⟨_, later⟩)
        · exact other rfl
        · exact not_mem_of_splitColon split' later

theorem splitColon_append (sig : List Char) : ∀ {keyId : List Char}, ':' ∉ keyId →
    splitColon (keyId ++ ':' :: sig) = some (keyId, sig)
  | [], _ => rfl
  | c :: rest, plain => by
      obtain ⟨other, plain'⟩ := List.ne_and_not_mem_of_not_mem_cons plain
      rw [List.cons_append, splitColon, splitColon_append sig plain']
      · rfl
      · exact fun colon => other colon.symm

theorem compareDigest_ascii {a b : List Char} (left : Json.Ascii a) (right : Json.Ascii b) :
    compareDigest a b = some (decide (a = b)) := by
  have left : a.all (·.toNat < 128) = true := List.all_eq_true.mpr fun c member =>
    decide_eq_true (left c member)
  have right : b.all (·.toNat < 128) = true := List.all_eq_true.mpr fun c member =>
    decide_eq_true (right c member)
  rw [compareDigest, left, right, Bool.and_self, if_pos rfl]

/-- What a verifier reads in a signature whose key id holds no separator. -/
theorem verify_sign_plain (sha256 : Bytes → Bytes) {signer : MockSigner} (verifier : MockSigner)
    (plain : ':' ∉ signer.keyId.toList) (tx : UnsignedTx) :
    verifier.verify sha256 (signer.sign sha256 tx) = some (decide
      (signer.keyId.toList = verifier.keyId.toList ∧
        signer.mac sha256 tx.txid = verifier.mac sha256 tx.txid)) := by
  have ascii : ∀ s : MockSigner, Json.Ascii (s.mac sha256 tx.txid) := fun s => hexdigest_ascii _
  simp only [verify, sign, splitColon_append _ plain]
  split
  · rename_i same
    rw [compareDigest_ascii (ascii signer) (ascii verifier)]
    simp [same]
  · rename_i other
    simp [other]

/-- A signer verifies what it signed, unless its key id holds the separator: the split is
at the first colon. -/
theorem verify_sign_iff (sha256 : Bytes → Bytes) (signer : MockSigner) (tx : UnsignedTx) :
    signer.verify sha256 (signer.sign sha256 tx) = some true ↔ ':' ∉ signer.keyId.toList := by
  constructor
  · intro verified
    unfold verify at verified
    split at verified
    · cases verified
    · rename_i keyId sig parts
      split at verified
      · rename_i same
        rw [← same]
        exact not_mem_of_splitColon parts
      · cases verified
  · intro plain
    rw [verify_sign_plain sha256 signer plain, decide_eq_true ⟨rfl, rfl⟩]

end MockSigner

/-! ## Answers of a node -/

inductive BroadcastCode where
  | success
  | dupTransaction
  | sigerror
  | contractValidateError
  | taposError
  | transactionExpirationError
  | serverBusy
  /-- A code minted after the program shipped. -/
  | other (text : String)
  deriving DecidableEq, Repr

namespace BroadcastCode

def text : BroadcastCode → String
  | .success => "SUCCESS"
  | .dupTransaction => "DUP_TRANSACTION"
  | .sigerror => "SIGERROR"
  | .contractValidateError => "CONTRACT_VALIDATE_ERROR"
  | .taposError => "TAPOS_ERROR"
  | .transactionExpirationError => "TRANSACTION_EXPIRATION_ERROR"
  | .serverBusy => "SERVER_BUSY"
  | .other text => text

/-- `code in codes`: a string enumeration compares by its text. -/
def among (code : BroadcastCode) (codes : List BroadcastCode) : Bool :=
  code.text ∈ codes.map text

def retrySameBytes (code : BroadcastCode) : Bool := code.among [serverBusy]

def accepted (code : BroadcastCode) : Bool := code.among [success, dupTransaction]

def hardReject (code : BroadcastCode) : Bool := code.among [sigerror, contractValidateError]

def staleEnvelope (code : BroadcastCode) : Bool :=
  code.among [taposError, transactionExpirationError]

end BroadcastCode

structure BroadcastResult where
  code : BroadcastCode
  message : String := ""
  deriving DecidableEq, Repr

/-- The exception after which nothing is known. -/
structure NodeTimeout where
  message : String
  deriving DecidableEq, Repr

inductive TxQuery where
  | unknown
  | pending
  | included
  deriving DecidableEq, Repr

def TxQuery.value : TxQuery → String
  | .unknown => "unknown"
  | .pending => "pending"
  | .included => "included"

/-- The fate of an included transaction. -/
inductive Receipt where
  | success
  | reverted
  deriving DecidableEq, Repr

structure TxStatus where
  result : TxQuery
  block : Option Int := none
  solid : Bool := false
  receipt : Option Receipt := none
  deriving DecidableEq, Repr

end Sluice.Kernel
