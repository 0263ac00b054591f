/-
# Kernel.Pipeline -- the handlers of a withdrawal, as programs over atomic calls

`pipeline.py`.  A handler is a `Program`: it reaches the store, the node, the clock and
the crash switch only through `Call`s, each of which is one atomic step of the system,
and between two calls it knows nothing but its snapshot of the row.  The calls of every
handler stand in the order in which the source makes them, clock reads included.

Every write is a fenced `cas` on the snapshot's id, token and state (`casRequest`); a
fenced-out write raises `lostClaim`.  Handlers also raise ordinary exceptions, which the
worker turns into a `breadcrumb`: when an expiration or a deadline leaves the calendar
(`within`), when the node cannot compare a signature, when a row holds no signed transaction,
and when it has ended.  What a store call raises goes the same way, except that nobody
catches it when the claim or the breadcrumb itself raised.
-/
import Sluice.Kernel.Address
import Sluice.Kernel.MemoryStore
import Sluice.Kernel.MockTronNode
import Sluice.Theory.Program

namespace Sluice.Kernel

open Sluice.Theory

set_option autoImplicit false

/-- The instants at which a scripted crash can strike. -/
inductive CrashPoint where
  | signBetweenBuildAndSign
  | broadcastPreSend
  | broadcastPostSend
  | confirmPreWrite
  deriving DecidableEq, Repr

/-- One atomic step of a worker.  `broadcast` also says for which operation, and under
which claim, the bytes are sent; the node does not see that. -/
inductive Call where
  | claim (states : List OpState) (limit : Nat) (worker : String) (lease : Seconds)
  | cas (req : CasRequest)
  | release (id : UUID) (token : Nat)
  | now
  | refBlock
  | broadcast (driving : UUID) (token : Nat) (tx : SignedTx) (worker : String)
  | findTx (txid : Hex)
  | solidNow
  | solidBlock
  | here (point : CrashPoint)

abbrev Reply : Call → Type
  | .claim .. => Except StoreError (List Operation)
  | .cas _ => Except StoreError (Option Operation)
  | .release .. => Unit
  | .now => Int
  | .refBlock => RefBlock
  | .broadcast .. => Except SendError BroadcastResult
  | .findTx _ => Except NodeTimeout TxStatus
  | .solidNow => Int
  | .solidBlock => Int
  | .here _ => Bool

inductive Exn where
  | lostClaim
  | store (error : StoreError)
  /-- An instant beyond the calendar. -/
  | overflowError
  /-- A stored artefact is missing, or a signature cannot be compared. -/
  | typeError
  /-- No handler for this state. -/
  | keyError
  | simulatedCrash (point : CrashPoint)
  deriving DecidableEq, Repr

abbrev Handler (α : Type) := Program Call Reply Exn α

/-- Make one call. -/
abbrev ask (request : Call) : Handler (Reply request) := Program.ask request

/-- What a pipeline is configured with. -/
structure Pipeline where
  cfg : Config
  signer : MockSigner
  sha256 : Bytes → Bytes

/-- A write from a snapshot. -/
def snapshotRequest (renew : Option Seconds) (op : Operation) (toState : OpState) (worker : String)
    (sets : Sets) (detail : Detail) : CasRequest where
  operationId := op.operationId
  fencingToken := op.fencingToken
  fromState := op.state
  toState := toState
  sets := sets
  detail := detail
  renewLeaseSeconds := renew
  workerId := some worker

/-- The write of a handler. -/
def casRequest (cfg : Config) (op : Operation) (toState : OpState) (worker : String) (sets : Sets)
    (detail : Detail) : CasRequest :=
  snapshotRequest (some cfg.leaseSeconds) op toState worker sets detail

/-- The write of a worker whose handler has raised. -/
def breadcrumb (op : Operation) (worker : String) : CasRequest :=
  snapshotRequest none op op.state worker
    { lastError := some (some "handler exception (see logs)") } {}

/-- The raw data of a transfer built at `now` against block `ref`. -/
def rawData (cfg : Config) (op : Operation) (ref : RefBlock) (now : Int) : RawData where
  contract := {
    type := "TriggerSmartContract"
    contractAddress := cfg.usdtContract
    call := "transfer(address,uint256)"
    toAddress := op.toAddress
    amountUnits := op.amountUnits.repr }
  refBlockNum := ref.number
  refBlockHash := ref.hash
  timestampMs := timestampMs now
  expirationMs := timestampMs (now + cfg.txTtlSeconds)

namespace Pipeline

variable (self : Pipeline)

def cas (op : Operation) (toState : OpState) (worker : String) (sets : Sets := {})
    (detail : Detail := {}) : Handler Operation := do
  let updated : Except StoreError (Option Operation) ←
    ask (.cas (casRequest self.cfg op toState worker sets detail))
  match updated with
  | .error e => Program.raise (.store e)
  | .ok none => Program.raise .lostClaim
  | .ok (some updated) => pure updated

/-- `self.crash.here(point)`. -/
def here (point : CrashPoint) : Handler Unit := do
  let dies : Bool ← ask (.here point)
  if dies then Program.raise (.simulatedCrash point) else pure ()

/-- `self.cfg.clock.now()`. -/
def clockNow : Handler Int := ask .now

/-- The outcome of arithmetic on instants. -/
def within (t : Int) : Handler Int :=
  if IsDatetime t then pure t else Program.raise .overflowError

/-- `self.node.broadcast(signed)`, on behalf of `op`; the handlers catch its timeout only. -/
def send (op : Operation) (signed : SignedTx) (worker : String) :
    Handler (Except NodeTimeout BroadcastResult) := do
  let answer : Except SendError BroadcastResult ←
    ask (.broadcast op.operationId op.fencingToken signed worker)
  match answer with
  | .ok result => pure (.ok result)
  | .error (.nodeTimeout timeout) => pure (.error timeout)
  | .error .typeError => Program.raise .typeError

/-- `self.node.find_tx(txid)`. -/
def findTx (txid : Hex) : Handler (Except NodeTimeout TxStatus) := ask (.findTx txid)

/-- `SignedTx.from_json(op.signed_tx)`. -/
def signedOf (op : Operation) : Handler SignedTx :=
  match op.signedTx with
  | some signed => pure signed
  | none => Program.raise .typeError

def rebuild (op : Operation) (worker : String) (reason : String) (evidence : Evidence) :
    Handler Operation :=
  self.cas op .signing worker
    { attempts := some (op.attempts + 1)
      lastError := some (some reason)
      signedTx := some none
      unsignedTx := some none
      txid := some none
      txExpiration := some none }
    { retiredTxid := some op.txid
      reason := some reason
      expiryEvidence := some evidence }

/-! ## Validate -/

def validate (op : Operation) (worker : String) : Handler Operation :=
  if !Address.isValid self.sha256 op.toAddress then
    self.cas op .rejected worker { failureReason := some (some "invalid destination address") }
  else if op.asset ≠ self.cfg.asset then
    self.cas op .rejected worker
      { failureReason := some (some ("unsupported asset " ++ op.asset)) }
  else if ¬(self.cfg.minAmountUnits ≤ op.amountUnits ∧
      op.amountUnits ≤ self.cfg.maxAmountUnits) then
    self.cas op .rejected worker { failureReason := some (some "amount out of bounds") }
  else self.cas op .validated worker

/-! ## Build and sign -/

def envelope (op : Operation) (ref : RefBlock) (now : Int) : UnsignedTx where
  rawData := rawData self.cfg op ref now
  txid := computeTxid self.sha256 (rawData self.cfg op ref now)
  expiration := now + self.cfg.txTtlSeconds

/-- From `signing` on: give up, or build, persist the intent, sign. -/
def build (op : Operation) (worker : String) : Handler Operation := do
  if op.attempts ≥ self.cfg.maxBuildAttempts then
    self.cas op .failed worker
      { failureReason := some (some ("gave up after " ++ op.attempts.repr ++ " build attempts")) }
  else
    let ref : RefBlock ← ask .refBlock
    let now ← clockNow
    let _expiration ← within (now + self.cfg.txTtlSeconds)
    let unsigned := self.envelope op ref now
    let op ← self.cas op .signing worker
      { unsignedTx := some (some unsigned.rawData)
        txid := some (some unsigned.txid)
        txExpiration := some (some unsigned.expiration)
        signedTx := some none }
      { txid := some unsigned.txid, reason := some "envelope built" }
    here .signBetweenBuildAndSign
    let signed := self.signer.sign self.sha256 unsigned
    self.cas op .signed worker { signedTx := some (some signed) }

def buildAndSign (op : Operation) (worker : String) : Handler Operation :=
  if op.state = .validated then do
    let op ← self.cas op .signing worker
    self.build op worker
  else self.build op worker

/-! ## Broadcast -/

def settleBroadcastResult (op : Operation) (worker : String) (signed : SignedTx)
    (result : BroadcastResult) : Handler Operation := do
  let code := result.code.text
  if result.code.accepted then
    let now ← clockNow
    self.cas op .broadcast worker { broadcastAt := some (some now) }
      { txid := some signed.txid, code := some code }
  else if result.code.hardReject then
    self.cas op .failed worker { failureReason := some (some ("node rejected: " ++ code)) }
      { txid := some signed.txid, code := some code }
  else if result.code.staleEnvelope then
    self.cas op .broadcasting worker
      { lastError := some (some ("node says " ++ code ++ "; awaiting proof")) }
      { txid := some signed.txid, code := some code }
  else if result.code.retrySameBytes then pure op
  else
    self.cas op .broadcasting worker
      { lastError := some (some ("unclassified node response: " ++ code)) }
      { txid := some signed.txid, code := some code, classified := some "ambiguous" }

def broadcast (op : Operation) (worker : String) : Handler Operation := do
  let signed ← signedOf op
  let now ← clockNow
  if now ≥ signed.expiration then
    self.rebuild op worker "expired before first send"
      (.rule "never-broadcast envelope; local expiry check")
  else
    -- write-ahead: the intent is durable before the wire is touched
    let op ← self.cas op .broadcasting worker {}
      { txid := some signed.txid, reason := some "write-ahead" }
    here .broadcastPreSend
    match ← send op signed worker with
    | .error _ => pure op
    | .ok result =>
        here .broadcastPostSend
        self.settleBroadcastResult op worker signed result

/-! ## Reconcile -/

def proofOfDeath (signed : SignedTx) : Handler (Bool × Evidence) := do
  let solidTime : Int ← ask .solidNow
  let deadline ← within (signed.expiration + self.cfg.expirationSafetySeconds)
  let solidBlock : Int ← ask .solidBlock
  pure (solidTime ≥ deadline,
    .death solidTime solidBlock signed.expiration self.cfg.expirationSafetySeconds "unknown")

def reconcileBroadcast (op : Operation) (worker : String) : Handler Operation := do
  let signed ← signedOf op
  match ← findTx signed.txid with
  | .error _ => pure op
  | .ok status =>
      if status.result = .included ∨ status.result = .pending then
        let broadcastAt ← match op.broadcastAt with
          | some instant => pure instant
          | none => clockNow
        self.cas op .broadcast worker { broadcastAt := some (some broadcastAt) }
          { txid := some signed.txid
            via := some "reconcile"
            found := some status.result.value }
      else
        let (dead, evidence) ← self.proofOfDeath signed
        if !dead then
          match ← send op signed worker with
          | .error _ => pure op
          | .ok result => self.settleBroadcastResult op worker signed result
        else self.rebuild op worker "expired unseen; provably dead" evidence

/-! ## Confirmation -/

def awaitConfirmation (op : Operation) (worker : String) : Handler Operation := do
  let signed ← signedOf op
  match ← findTx signed.txid with
  | .error _ => pure op
  | .ok status =>
      if status.result = .included then
        if !status.solid then pure op
        else
          here .confirmPreWrite
          if status.receipt = some .success then
            let now ← clockNow
            self.cas op .confirmed worker
              { includedBlock := some status.block, confirmedAt := some (some now) }
              { txid := some signed.txid, block := some status.block }
          else
            self.cas op .failed worker
              { includedBlock := some status.block
                failureReason := some (some "transaction reverted on chain") }
              { txid := some signed.txid, receipt := some status.receipt }
      else if status.result = .pending then pure op
      else
        let (dead, evidence) ← self.proofOfDeath signed
        if dead then self.rebuild op worker "accepted but never mined; expired" evidence
        else pure op

/-- One macro step: the handler of a state is also its recovery procedure. -/
def step (op : Operation) (worker : String) : Handler Operation :=
  match op.state with
  | .requested => self.validate op worker
  | .validated => self.buildAndSign op worker
  | .signing => self.buildAndSign op worker
  | .signed => self.broadcast op worker
  | .broadcasting => self.reconcileBroadcast op worker
  | .broadcast => self.awaitConfirmation op worker
  | .confirmed | .failed | .rejected => Program.raise .keyError

end Pipeline

/-! ## Worker -/

/-- Macro steps a worker makes on one claim. -/
def maxStepsPerClaim : Nat := 8

namespace Worker

variable (pipeline : Pipeline) (workerId : String)

/-- Drop the claim and report. -/
def release (op : Operation) (advanced : Nat) : Handler Nat := do
  let _ ← ask (.release op.operationId op.fencingToken)
  pure advanced

/-- The loop of `_drive` with its exception handlers: a lost claim ends it without a
word, any other exception leaves a breadcrumb, and a simulated crash goes through. -/
def driveLoop : Nat → Operation → Nat → Handler Nat
  | 0, op, advanced => release op advanced
  | steps + 1, op, advanced => do
      match ← (pipeline.step op workerId).attempt with
      | .ok next =>
          let advanced := if next.state ≠ op.state then 1 else advanced
          if next.state.terminal then pure 1
          else if next.state = op.state then release next advanced
          else driveLoop steps next advanced
      | .error .lostClaim => pure advanced
      | .error (.simulatedCrash point) => Program.raise (.simulatedCrash point)
      | .error _ =>
          let written : Except StoreError (Option Operation) ← ask (.cas (breadcrumb op workerId))
          match written with
          | .error e => Program.raise (.store e)
          | .ok _ => release op advanced

def drive (op : Operation) : Handler Nat := driveLoop pipeline workerId maxStepsPerClaim op 0

/-- `sum(self._drive(op) for op in ops)`. -/
def driveAll : List Operation → Handler Nat
  | [] => pure 0
  | op :: rest => do
      let advanced ← drive pipeline workerId op
      let others ← driveAll rest
      pure (advanced + others)

def runOnce : Handler Nat := do
  let claimed : Except StoreError (List Operation) ←
    ask (.claim OpState.claimable pipeline.cfg.claimBatch workerId pipeline.cfg.leaseSeconds)
  match claimed with
  | .error e => Program.raise (.store e)
  | .ok ops => driveAll pipeline workerId ops

/-- How `drain` fails: after its last round, or with what a round raised. -/
inductive DrainError where
  | livelock
  | raised (error : Exn)
  deriving DecidableEq, Repr

def drainLoop : Nat → Program Call Reply DrainError Unit
  | 0 => Program.raise .livelock
  | rounds + 1 => do
      match ← (runOnce pipeline workerId).attempt with
      | .error error => Program.raise (.raised error)
      | .ok advanced => if advanced = 0 then pure () else drainLoop rounds

/-- `drain`: rounds of one worker until nothing advances. -/
def drain : Program Call Reply DrainError Unit := drainLoop pipeline workerId 1000

end Worker

end Sluice.Kernel
