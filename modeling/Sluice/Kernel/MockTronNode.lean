/-
# Kernel.MockTronNode -- the mock chain

`tron/mocknet.py`.  The node reads the clock under its lock, so every method takes
the instant it runs at; nothing here assumes that successive instants increase.

`broadcast` follows the source's order of checks: the scripted fault, the signature,
the expiration by the wall clock, the duplicate, and only then acceptance.  Blocks
judge expiration by block time instead.  A signature that cannot be compared makes
`broadcast` raise before it has logged anything, and a block time beyond the calendar ends
`produce_blocks`.  `decline` is not a method of the mock: it is
a node that refuses one send without looking at it, with an answer of its own choice.
-/
import Sluice.Kernel.Text
import Sluice.Theory.Dict

namespace Sluice.Kernel

open Sluice.Theory

set_option autoImplicit false

inductive Fault where
  | timeoutDropped
  | timeoutAccepted
  | busy
  | unknownCode
  | revertReceipt
  | queryTimeout
  deriving DecidableEq, Repr

/-- The queues a script can fill. -/
inductive Channel where
  | broadcast
  | query
  | receipt
  deriving DecidableEq, Repr

structure TxRecord where
  tx : SignedTx
  acceptedAtBlock : Int
  includedBlock : Option Int := none
  receipt : Option Receipt := none
  deriving DecidableEq, Repr

inductive Outcome where
  | accepted
  | dup
  | rejected (code : String)
  | timeoutAccepted
  | timeoutDropped
  | busy
  | unknownCode
  deriving DecidableEq, Repr

structure BroadcastLogEntry where
  txid : Hex
  outcome : Outcome
  atBlock : Int
  worker : Option String
  deriving DecidableEq, Repr

@[ext] structure RefBlock where
  number : Int
  hash : String
  deriving DecidableEq, Repr

structure MockTronNode where
  solidityLag : Int
  inclusionDelay : Int
  signer : MockSigner
  head : Int
  blockTime : Dict Int Int
  /-- Every transaction the node has ever accepted, in order of acceptance. -/
  txs : Dict Hex TxRecord
  broadcastFaults : List Fault := []
  queryFaults : List Fault := []
  receiptFaults : List Fault := []
  broadcastLog : List BroadcastLogEntry := []

/-- What a send raises. -/
inductive SendError where
  | nodeTimeout (timeout : NodeTimeout)
  /-- The signature cannot be compared. -/
  | typeError
  deriving DecidableEq, Repr

namespace MockTronNode

/-- A node as constructed at instant `now`. -/
def genesis (now : Int) (solidityLag : Int := 2) (inclusionDelay : Int := 1)
    (signer : MockSigner := {}) : MockTronNode where
  solidityLag := solidityLag
  inclusionDelay := inclusionDelay
  signer := signer
  head := 1000
  blockTime := Dict.empty.set 1000 now
  txs := .empty

def script (node : MockTronNode) (faults : List Fault) : Channel → MockTronNode
  | .broadcast => { node with broadcastFaults := node.broadcastFaults ++ faults }
  | .query => { node with queryFaults := node.queryFaults ++ faults }
  | .receipt => { node with receiptFaults := node.receiptFaults ++ faults }

/-! ## Chain geometry -/

def solidBlock (node : MockTronNode) : Int := node.head - node.solidityLag

/-- `min(self._block_time)`. -/
def firstBlock (node : MockTronNode) : Int := (node.blockTime.keys.min?).getD node.head

/-- `self._block_time[h]`; the program only asks for blocks that exist. -/
def timeOf (node : MockTronNode) (h : Int) : Int := (node.blockTime.get? h).getD 0

/-- `f"blk{n:016x}"`. -/
def blockHash (n : Int) : String :=
  let digits := Nat.toDigits 16 n.natAbs
  let sign := if n < 0 then ['-'] else []
  "blk" ++ String.ofList (sign ++ List.replicate (16 - sign.length - digits.length) '0' ++ digits)

def refBlock (node : MockTronNode) : RefBlock :=
  let n := max node.solidBlock node.firstBlock
  { number := n, hash := blockHash n }

/-- The latest block at or below the solid height; the first block of a chain younger
than the lag. -/
def solidHeight (node : MockTronNode) : Int :=
  ((node.blockTime.keys.filter fun h => h ≤ node.solidBlock).max?).getD node.firstBlock

def solidNow (node : MockTronNode) : Int := node.timeOf node.solidHeight

/-! ## Producing blocks -/

def popRevert : List Fault → Bool × List Fault
  | .revertReceipt :: rest => (true, rest)
  | queue => (false, queue)

/-- The body of the loop over the accepted transactions, for a new block `h` stamped
`t`; the receipt queue is threaded through. -/
def includeTx (h : Int) (t : Int) (delay : Int) (queue : List Fault) (rec : TxRecord) :
    List Fault × TxRecord :=
  if rec.includedBlock.isSome then (queue, rec)
  else if rec.tx.expiration ≤ t then (queue, rec)
  else if h - rec.acceptedAtBlock ≥ delay then
    let (reverted, rest) := popRevert queue
    (rest, { rec with
      includedBlock := some h
      receipt := some (if reverted then .reverted else .success) })
  else (queue, rec)

/-- Block times rise strictly, even if the clock stalls. -/
def nextBlockTime (node : MockTronNode) (now : Int) : Int :=
  if now ≤ node.timeOf node.head then node.timeOf node.head + millisecond else now

def produceBlock (node : MockTronNode) (now : Int) : MockTronNode :=
  let t := node.nextBlockTime now
  let h := node.head + 1
  let walked := node.txs.mapAccum (includeTx h t node.inclusionDelay) node.receiptFaults
  { node with
    head := h
    blockTime := node.blockTime.set h t
    txs := walked.2
    receiptFaults := walked.1 }

def produceBlocks (node : MockTronNode) (now : Int) : Nat → MockTronNode
  | 0 => node
  | n + 1 =>
      if IsDatetime (node.nextBlockTime now) then (node.produceBlock now).produceBlocks now n
      else node

/-! ## Node API -/

def log (node : MockTronNode) (tx : SignedTx) (outcome : Outcome) (worker : Option String) :
    MockTronNode :=
  { node with broadcastLog := node.broadcastLog ++ [⟨tx.txid, outcome, node.head, worker⟩] }

/-- Accepted for real. -/
def accept (node : MockTronNode) (tx : SignedTx) : MockTronNode :=
  { node with txs := node.txs.set tx.txid { tx := tx, acceptedAtBlock := node.head } }

def broadcast (sha256 : Bytes → Bytes) (node : MockTronNode) (now : Int) (tx : SignedTx)
    (worker : Option String) : Except SendError BroadcastResult × MockTronNode :=
  let fault := node.broadcastFaults.head?
  let node := { node with broadcastFaults := node.broadcastFaults.tail }
  if fault = some .timeoutDropped then
    (.error (.nodeTimeout ⟨"broadcast: connection reset by peer"⟩),
      node.log tx .timeoutDropped worker)
  else if fault = some .busy then
    (.ok ⟨.serverBusy, "try later"⟩, node.log tx .busy worker)
  else if fault = some .unknownCode then
    (.ok ⟨.other "PLEASE_INSERT_COIN", "novel failure mode"⟩, node.log tx .unknownCode worker)
  else
    match node.signer.verify sha256 tx with
    | none => (.error .typeError, node)
    | some false => (.ok ⟨.sigerror, "bad signature"⟩, node.log tx (.rejected "SIGERROR") worker)
    | some true =>
        if tx.expiration ≤ now then
          (.ok ⟨.transactionExpirationError, "expired"⟩, node.log tx (.rejected "EXPIRED") worker)
        else if (node.txs.get? tx.txid).isSome then
          (.ok ⟨.dupTransaction, "already known"⟩, node.log tx .dup worker)
        else if fault = some .timeoutAccepted then
          (.error (.nodeTimeout ⟨"broadcast: read timed out (but the node kept the tx)"⟩),
            (node.accept tx).log tx .timeoutAccepted worker)
        else
          (.ok ⟨.success, ""⟩, (node.accept tx).log tx .accepted worker)

/-- Whether this send, if the node processes it now, is accepted. -/
def accepts (sha256 : Bytes → Bytes) (node : MockTronNode) (now : Int) (tx : SignedTx) : Bool :=
  node.broadcastFaults.head? ∉ [some .timeoutDropped, some .busy, some .unknownCode] &&
    node.signer.verify sha256 tx = some true && now < tx.expiration &&
    (node.txs.get? tx.txid).isNone

/-- A refusal without processing. -/
def decline (node : MockTronNode) (tx : SignedTx) (worker : Option String) (code : BroadcastCode) :
    Except SendError BroadcastResult × MockTronNode :=
  (.ok ⟨code, ""⟩, node.log tx (.rejected code.text) worker)

/-- What a lookup says about a record. -/
def statusOf (node : MockTronNode) (now : Int) : Option TxRecord → TxStatus
  | none => { result := .unknown }
  | some rec =>
      match rec.includedBlock with
      | none =>
          -- expired in the mempool looks like unknown to a late observer
          if rec.tx.expiration ≤ now then { result := .unknown } else { result := .pending }
      | some block =>
          { result := .included
            block := some block
            solid := block ≤ node.solidBlock
            receipt := rec.receipt }

def findTx (node : MockTronNode) (now : Int) (txid : Hex) :
    Except NodeTimeout TxStatus × MockTronNode :=
  let fault := node.queryFaults.head?
  let node := { node with queryFaults := node.queryFaults.tail }
  if fault = some .queryTimeout then (.error ⟨"query: timed out"⟩, node)
  else (.ok (node.statusOf now (node.txs.get? txid)), node)

/-! ## What the chain says -/

/-- The transaction is in a block. -/
def Included (node : MockTronNode) (txid : Hex) : Prop :=
  ∃ rec block, node.txs.get? txid = some rec ∧ rec.includedBlock = some block

/-- The transaction is in a block and did what it says. -/
def Successful (node : MockTronNode) (txid : Hex) : Prop :=
  ∃ rec block, node.txs.get? txid = some rec ∧ rec.includedBlock = some block ∧
    rec.receipt = some .success

def includedTxids (node : MockTronNode) : List Hex :=
  (node.txs.entries.filter fun e => e.2.includedBlock.isSome).map Prod.fst

def successfulTxids (node : MockTronNode) : List Hex :=
  (node.txs.entries.filter fun e =>
    e.2.includedBlock.isSome && e.2.receipt = some .success).map Prod.fst

/-- `tx_amount`: what an accepted transaction transfers; `none` is an exception. -/
def txAmount (node : MockTronNode) (txid : Hex) : Option Int :=
  (node.txs.get? txid).bind fun rec => intOfText rec.tx.rawData.contract.amountUnits.toList

/-- The node newly took the transaction in. -/
def Outcome.taken (outcome : Outcome) : Bool := outcome = .accepted || outcome = .timeoutAccepted

/-- How often an id was newly accepted; duplicates do not count. -/
def acceptedCount (node : MockTronNode) (txid : Hex) : Nat :=
  node.broadcastLog.countP fun e => e.txid = txid && Outcome.taken e.outcome

theorem Successful.included {node : MockTronNode} {txid : Hex} (landed : node.Successful txid) :
    node.Included txid := by
  obtain ⟨rec, block, found, included, _⟩ := landed
  exact ⟨rec, block, found, included⟩

theorem mem_includedTxids (node : MockTronNode) (txid : Hex) :
    txid ∈ node.includedTxids ↔ node.Included txid := by
  simp only [includedTxids, Included, List.mem_map, List.mem_filter, Prod.exists,
    exists_and_right, exists_eq_right, ← Dict.get?_eq_some_iff, Option.isSome_iff_exists,
    exists_and_left]

theorem mem_successfulTxids (node : MockTronNode) (txid : Hex) :
    txid ∈ node.successfulTxids ↔ node.Successful txid := by
  simp only [successfulTxids, Successful, List.mem_map, List.mem_filter, Prod.exists,
    exists_and_right, exists_eq_right, ← Dict.get?_eq_some_iff, Option.isSome_iff_exists,
    exists_and_left, Bool.and_eq_true, decide_eq_true_eq]

/-! ## Inversion -/

/-- Every way a broadcast can go.  The node changes only in its fault queue and log,
except where it accepts. -/
inductive Sent (sha256 : Bytes → Bytes) (node : MockTronNode) (now : Int) (tx : SignedTx) :
    Except SendError BroadcastResult → MockTronNode → Prop
  | unprocessed (answer : Except SendError BroadcastResult) (node' : MockTronNode)
      (txs : node'.txs = node.txs) (blocks : node'.blockTime = node.blockTime)
      (fate : (∃ timeout, answer = .error (.nodeTimeout timeout)) ∨
        answer = .ok ⟨.serverBusy, "try later"⟩ ∨
        answer = .ok ⟨.other "PLEASE_INSERT_COIN", "novel failure mode"⟩) :
      Sent sha256 node now tx answer node'
  | raised (node' : MockTronNode) (txs : node'.txs = node.txs)
      (blocks : node'.blockTime = node.blockTime)
      (beyond : node.signer.verify sha256 tx = none) :
      Sent sha256 node now tx (.error .typeError) node'
  | badSignature (node' : MockTronNode) (txs : node'.txs = node.txs)
      (blocks : node'.blockTime = node.blockTime)
      (bad : node.signer.verify sha256 tx = some false) :
      Sent sha256 node now tx (.ok ⟨.sigerror, "bad signature"⟩) node'
  | expired (node' : MockTronNode) (txs : node'.txs = node.txs)
      (blocks : node'.blockTime = node.blockTime) (late : tx.expiration ≤ now) :
      Sent sha256 node now tx (.ok ⟨.transactionExpirationError, "expired"⟩) node'
  | duplicate (node' : MockTronNode) (txs : node'.txs = node.txs)
      (blocks : node'.blockTime = node.blockTime) (rec : TxRecord)
      (known : node.txs.get? tx.txid = some rec) :
      Sent sha256 node now tx (.ok ⟨.dupTransaction, "already known"⟩) node'
  | accepted (answer : Except SendError BroadcastResult) (node' : MockTronNode)
      (accepts : node.accepts sha256 now tx = true) (fresh : node.txs.get? tx.txid = none)
      (txs : node'.txs = node.txs.set tx.txid { tx := tx, acceptedAtBlock := node.head })
      (blocks : node'.blockTime = node.blockTime)
      (good : node.signer.verify sha256 tx = some true) (timely : now < tx.expiration)
      (fate : (∃ timeout, answer = .error (.nodeTimeout timeout)) ∨ answer = .ok ⟨.success, ""⟩) :
      Sent sha256 node now tx answer node'

theorem broadcast_sent (sha256 : Bytes → Bytes) (node : MockTronNode) (now : Int) (tx : SignedTx)
    (worker : Option String) :
    Sent sha256 node now tx (node.broadcast sha256 now tx worker).1
      (node.broadcast sha256 now tx worker).2 := by
  unfold broadcast
  simp only
  split
  · exact .unprocessed _ _ rfl rfl (.inl ⟨_, rfl⟩)
  rename_i kept
  split
  · exact .unprocessed _ _ rfl rfl (.inr (.inl rfl))
  rename_i ready
  split
  · exact .unprocessed _ _ rfl rfl (.inr (.inr rfl))
  rename_i known
  split
  · rename_i beyond
    exact .raised _ rfl rfl beyond
  · rename_i bad
    exact .badSignature _ rfl rfl bad
  rename_i good
  split
  · rename_i late
    exact .expired _ rfl rfl late
  rename_i timely
  split
  · rename_i known
    obtain ⟨rec, found⟩ := Option.isSome_iff_exists.mp known
    exact .duplicate _ rfl rfl rec found
  rename_i fresh
  have fresh : node.txs.get? tx.txid = none := by simpa using fresh
  have good : node.signer.verify sha256 tx = some true := good
  have timely : now < tx.expiration := by omega
  have accepts : node.accepts sha256 now tx = true := by
    simp [MockTronNode.accepts, kept, ready, known, good, timely, fresh]
  split
  · exact .accepted _ _ accepts fresh rfl rfl good timely (.inl ⟨_, rfl⟩)
  · exact .accepted _ _ accepts fresh rfl rfl good timely (.inr rfl)

/-- A broadcast touches neither the height nor the node's parameters. -/
theorem broadcast_frame (sha256 : Bytes → Bytes) (node : MockTronNode) (now : Int) (tx : SignedTx)
    (worker : Option String) :
    (node.broadcast sha256 now tx worker).2.head = node.head ∧
      (node.broadcast sha256 now tx worker).2.solidityLag = node.solidityLag ∧
      (node.broadcast sha256 now tx worker).2.signer = node.signer := by
  unfold broadcast
  simp only
  repeat' split
  all_goals exact ⟨rfl, rfl, rfl⟩

theorem broadcast_queues (sha256 : Bytes → Bytes) (node : MockTronNode) (now : Int) (tx : SignedTx)
    (worker : Option String) :
    (node.broadcast sha256 now tx worker).2.broadcastFaults = node.broadcastFaults.tail ∧
      (node.broadcast sha256 now tx worker).2.queryFaults = node.queryFaults := by
  unfold broadcast
  simp only
  repeat' split
  all_goals exact ⟨rfl, rfl⟩

/-- A send that no fault is scripted for. -/
theorem broadcast_unscripted {node : MockTronNode} (unscripted : node.broadcastFaults = [])
    (sha256 : Bytes → Bytes) (now : Int) (tx : SignedTx) (worker : Option String) :
    node.broadcast sha256 now tx worker =
      match node.signer.verify sha256 tx with
      | none => (.error .typeError, node)
      | some false =>
          (.ok ⟨.sigerror, "bad signature"⟩, node.log tx (.rejected "SIGERROR") worker)
      | some true =>
          if tx.expiration ≤ now then
            (.ok ⟨.transactionExpirationError, "expired"⟩, node.log tx (.rejected "EXPIRED") worker)
          else if (node.txs.get? tx.txid).isSome then
            (.ok ⟨.dupTransaction, "already known"⟩, node.log tx .dup worker)
          else (.ok ⟨.success, ""⟩, (node.accept tx).log tx .accepted worker) := by
  have same : { node with broadcastFaults := [] } = node := by rw [← unscripted]
  simp only [broadcast, unscripted, List.head?_nil, List.tail_nil, reduceCtorEq, if_false, same]

theorem produceBlocks_log (node : MockTronNode) (now : Int) (n : Nat) :
    (node.produceBlocks now n).broadcastLog = node.broadcastLog := by
  induction n generalizing node with
  | zero => rfl
  | succ n ih =>
      rw [produceBlocks]
      split
      · exact ih (node.produceBlock now)
      · rfl

/-- A lookup touches only the query queue, and answers from the record. -/
theorem findTx_cases (node : MockTronNode) (now : Int) (txid : Hex) :
    (node.findTx now txid).2 = { node with queryFaults := node.queryFaults.tail } ∧
      ((∃ timeout, (node.findTx now txid).1 = .error timeout) ∨
        (node.findTx now txid).1 = .ok (node.statusOf now (node.txs.get? txid))) := by
  unfold findTx
  simp only
  split
  · exact ⟨rfl, .inl ⟨_, rfl⟩⟩
  · exact ⟨rfl, .inr rfl⟩

/-- What each verdict of a lookup means. -/
theorem statusOf_cases (node : MockTronNode) (now : Int) (found : Option TxRecord) :
    ((node.statusOf now found).result = .unknown ∧
      ∀ rec, found = some rec → rec.includedBlock = none ∧ rec.tx.expiration ≤ now) ∨
    ((node.statusOf now found).result = .pending ∧ ∃ rec, found = some rec) ∨
    (∃ rec block, found = some rec ∧ rec.includedBlock = some block ∧
      node.statusOf now found =
        { result := .included
          block := some block
          solid := block ≤ node.solidBlock
          receipt := rec.receipt }) := by
  cases found with
  | none => exact .inl ⟨rfl, fun _ absent => by cases absent⟩
  | some rec =>
      simp only [statusOf]
      split
      · rename_i out
        split
        · rename_i late
          refine .inl ⟨rfl, fun rec' same => ?_⟩
          cases same
          exact ⟨out, late⟩
        · exact .inr (.inl ⟨rfl, rec, rfl⟩)
      · rename_i block inside
        exact .inr (.inr ⟨rec, block, rfl, inside, rfl⟩)

end MockTronNode

end Sluice.Kernel
