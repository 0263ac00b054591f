/-
# Kernel.Model -- operation rows and their events

`model.py`: one row per withdrawal, append-only events beside it.  The detail of an
event is a record with one optional field for each key the program writes; a key
that is not written is `none`, a key written with a null is `some none`.
-/
import Sluice.Kernel.States
import Sluice.Kernel.Transaction

namespace Sluice.Kernel

set_option autoImplicit false

/-- A client-minted operation id: 128 bits. -/
abbrev UUID := BitVec 128

structure Operation where
  operationId : UUID
  requestHash : Bytes
  state : OpState
  toAddress : String
  asset : String
  amountUnits : Int
  unsignedTx : Option RawData := none
  txid : Option Hex := none
  txExpiration : Option Int := none
  signedTx : Option SignedTx := none
  attempts : Int := 0
  claimedBy : Option String := none
  leaseExpiresAt : Option Int := none
  fencingToken : Nat := 0
  lastError : Option String := none
  failureReason : Option String := none
  broadcastAt : Option Int := none
  includedBlock : Option Int := none
  confirmedAt : Option Int := none
  createdAt : Option Int := none
  updatedAt : Option Int := none
  deriving DecidableEq, Repr

/-- What a rebuild files beside its decision. -/
inductive Evidence where
  | rule (text : String)
  | death (solidChainTime : Int) (solidBlock : Int) (txExpiration : Int) (safetyMargin : Int)
      (nodeLookup : String)
  deriving DecidableEq, Repr

structure Detail where
  intake : Option Bool := none
  txid : Option Hex := none
  reason : Option String := none
  code : Option String := none
  classified : Option String := none
  via : Option String := none
  found : Option String := none
  block : Option (Option Int) := none
  receipt : Option (Option Receipt) := none
  retiredTxid : Option (Option Hex) := none
  expiryEvidence : Option Evidence := none
  deriving DecidableEq, Repr

structure Event where
  operationId : UUID
  fromState : Option OpState
  toState : OpState
  workerId : Option String
  fencingToken : Nat
  detail : Detail
  recordedAt : Int
  seq : Nat
  deriving DecidableEq, Repr

/-- A partial assignment to the columns `cas` may touch: `none` leaves a column alone. -/
structure Sets where
  unsignedTx : Option (Option RawData) := none
  txid : Option (Option Hex) := none
  txExpiration : Option (Option Int) := none
  signedTx : Option (Option SignedTx) := none
  attempts : Option Int := none
  lastError : Option (Option String) := none
  failureReason : Option (Option String) := none
  broadcastAt : Option (Option Int) := none
  includedBlock : Option (Option Int) := none
  confirmedAt : Option (Option Int) := none
  deriving DecidableEq, Repr

/-- `for k, v in sets.items(): setattr(op, k, v)`. -/
def Sets.apply (sets : Sets) (op : Operation) : Operation :=
  { op with
    unsignedTx := sets.unsignedTx.getD op.unsignedTx
    txid := sets.txid.getD op.txid
    txExpiration := sets.txExpiration.getD op.txExpiration
    signedTx := sets.signedTx.getD op.signedTx
    attempts := sets.attempts.getD op.attempts
    lastError := sets.lastError.getD op.lastError
    failureReason := sets.failureReason.getD op.failureReason
    broadcastAt := sets.broadcastAt.getD op.broadcastAt
    includedBlock := sets.includedBlock.getD op.includedBlock
    confirmedAt := sets.confirmedAt.getD op.confirmedAt }

end Sluice.Kernel
