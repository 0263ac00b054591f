/-
# Protocol.Discipline -- what a worker may do, and what everybody may rely on

The handlers are hundreds of interleaved calls; what they do to the store is a short
list.  `Write` is that list in a run: every write the program ever commits, with the facts its
writer has established and nobody can take away any more (`grounds`).  `Allowed` turns the list
into a discipline: a worker writes only from a snapshot it claimed and `Knows`, or in vain, and
sends only what was written ahead.

`Inv` is what the discipline keeps for everybody: the chain is in order, every row
carries the artefacts its state promises (`RowFacts`), every claim ever made is backed
by the row's token, no two threads ever claimed the same token, and whoever has claimed
anything can renew its lease.

All facts about a snapshot only grow with the run, so they survive every step of
everybody (`RowFacts.advance`); a snapshot itself survives the others because a write
under its token would need the same claim (`Knows.others`).
-/
import Sluice.Kernel.System
import Sluice.Protocol.Chain
import Sluice.Protocol.Fencing
import Sluice.Protocol.Walk

namespace Sluice.Protocol

open Sluice.Theory Sluice.Kernel
open MemoryStore (Changes casRow claimRow releaseRow identity)
open MockTronNode (ChainOk Evolves)

set_option autoImplicit false

/-! ## What a step was -/

def committed : Step → Option (CasRequest × Operation)
  | .served _ _ (.cas req) (.ok (some row)) _ _ => some (req, row)
  | _ => none

def claims : Step → List Operation
  | .served _ _ (.claim ..) (.ok ops) _ _ => ops
  | _ => []

def answered : Step → Option (SignedTx × Except SendError BroadcastResult)
  | .served _ _ (.broadcast _ _ tx _) answer _ _ => some (tx, answer)
  | _ => none

/-- What a step put on the wire, and for which operation. -/
def sending : Step → Option (UUID × SignedTx)
  | .served _ _ (.broadcast id _ tx _) _ _ _ => some (id, tx)
  | _ => none

/-- Thread `t` claimed operation `id` under `token`. -/
def Claimed (p : Moment) (t : Nat) (id : UUID) (token : Nat) : Prop :=
  ∃ step ∈ p.trace, step.thread? = some t ∧
    ∃ op ∈ claims step, op.operationId = id ∧ op.fencingToken = token

/-- The intent to send exactly `tx` for operation `id` was committed. -/
def WroteAhead (p : Moment) (id : UUID) (tx : SignedTx) : Prop :=
  ∃ step ∈ p.trace, ∃ req row, committed step = some (req, row) ∧ req.operationId = id ∧
    req.fromState = .signed ∧ req.toState = .broadcasting ∧ req.detail.txid = some tx.txid ∧
    row.signedTx = some tx

def Recorded (node : MockTronNode) (txid : Hex) : Prop := ∃ rec, node.txs.get? txid = some rec

/-- The node holds it, outside every block, and its time is up. -/
def Lapsed (w : World) (txid : Hex) : Prop :=
  ∃ rec, w.node.txs.get? txid = some rec ∧ rec.includedBlock = none ∧
    rec.tx.expiration ≤ w.now

/-- Somebody's send of `tx` was answered with a final refusal. -/
def Refused (p : Moment) (tx : SignedTx) : Prop :=
  ∃ step ∈ p.trace, ∃ result, answered step = some (tx, .ok result) ∧
    result.code.hardReject = true

def Reverted (node : MockTronNode) (txid : Hex) : Prop :=
  ∃ rec block, node.txs.get? txid = some rec ∧ rec.includedBlock = some block ∧
    rec.receipt ≠ some .success

/-! ## What a row promises -/

structure Bare (row : Operation) : Prop where
  unsignedTx : row.unsignedTx = none
  txid : row.txid = none
  txExpiration : row.txExpiration = none
  signedTx : row.signedTx = none

/-- The row holds the envelope `u`, and `u` pays what the row asks for. -/
structure Built (D : Deployment) (row : Operation) (u : UnsignedTx) : Prop where
  envelope : ∃ ref now, u = D.envelope row ref now
  unsignedTx : row.unsignedTx = some u.rawData
  txid : row.txid = some u.txid
  txExpiration : row.txExpiration = some u.expiration

structure Sealed (D : Deployment) (row : Operation) (tx : SignedTx) : Prop where
  built : ∃ u, Built D row u ∧ tx = D.signer.sign D.sha256 u
  signedTx : row.signedTx = some tx

def Shape (D : Deployment) (row : Operation) : Prop :=
  match row.state with
  | .requested | .validated | .rejected => Bare row ∧ row.attempts = 0
  | .signing => row.signedTx = none ∧ (Bare row ∨ ∃ u, Built D row u)
  | .signed | .broadcasting | .broadcast | .confirmed => ∃ tx, Sealed D row tx
  | .failed => row.signedTx = none ∨ ∃ tx, Sealed D row tx

def OpState.sent (s : OpState) : Bool := s ∈ [.broadcasting, .broadcast, .confirmed]

def OpState.taken (s : OpState) : Bool := s ∈ [.broadcast, .confirmed]

/-- What holds of a row from the moment it was written. -/
structure RowFacts (D : Deployment) (p : Moment) (row : Operation) : Prop where
  shape : Shape D row
  stamped : ∃ u, row.updatedAt = some u ∧ (Forward p.trace → u ≤ p.world.now)
  written : OpState.sent row.state = true → ∀ tx, row.signedTx = some tx →
    WroteAhead p row.operationId tx
  recorded : OpState.taken row.state = true → ∀ tx, row.signedTx = some tx →
    Recorded p.world.node tx.txid
  confirmed : row.state = .confirmed → ∀ tx, row.signedTx = some tx →
    p.world.node.Successful tx.txid
  failed : row.state = .failed → ∀ tx, row.signedTx = some tx →
    Refused p tx ∨ Reverted p.world.node tx.txid

/-- Thread `t` claimed the row, and `op` is the row unless somebody claimed it since. -/
structure Knows (D : Deployment) (t : Nat) (op : Operation) (p : Moment) : Prop where
  claimed : Claimed p t op.operationId op.fencingToken
  row : ∃ row, p.world.store.ops.get? op.operationId = some row ∧
    op.fencingToken ≤ row.fencingToken ∧ (row.fencingToken = op.fencingToken → row = op)
  facts : RowFacts D p op

/-! ## What may be written -/

/-- The last call of thread `t` was the lookup of `txid`, which found nothing. -/
def NotFound (p : Moment) (t : Nat) (txid : Hex) : Prop :=
  ∃ choice status before after rest,
    p.own t = .served t choice (.findTx txid) (.ok status) before after :: rest ∧
    status.result = .unknown

/-- The solid chain time was read right after such a lookup. -/
def Timed (p : Moment) (t : Nat) (txid : Hex) (solidTime : Int) : Prop :=
  ∃ choice₁ choice₂ status before₁ after₁ before₂ after₂ rest,
    p.own t = .served t choice₂ .solidNow solidTime before₂ after₂ ::
      .served t choice₁ (.findTx txid) (.ok status) before₁ after₁ :: rest ∧
    status.result = .unknown

/-- The last three calls of thread `t` were the lookup of `txid`, which found nothing, and
the two reads of the death proof. -/
def Audited (p : Moment) (t : Nat) (txid : Hex) (solidTime solidBlock : Int) : Prop :=
  ∃ choice₁ choice₂ choice₃ status before₁ after₁ before₂ after₂ before₃ after₃ rest,
    p.own t = .served t choice₃ .solidBlock solidBlock before₃ after₃ ::
      .served t choice₂ .solidNow solidTime before₂ after₂ ::
      .served t choice₁ (.findTx txid) (.ok status) before₁ after₁ :: rest ∧
    status.result = .unknown

/-- The last two calls of a thread, when they read a reference block and then the clock:
what an envelope is drafted from. -/
def readings : List Step → Option (RefBlock × Int)
  | .served _ _ .now now _ _ :: .served _ _ .refBlock ref _ _ :: _ => some (ref, now)
  | _ => none

/-- What a thread of a run finds out, as it holds for everybody from then on. -/
abbrev grounds (D : Deployment) (p : Moment) (t : Nat) : Grounds where
  clock op now := Forward p.trace → (∀ u, op.updatedAt = some u → u ≤ now) ∧ now ≤ p.world.now
  drafted ref now := readings (p.own t) = some (ref, now)
  built := Built D
  carries op tx := op.signedTx = some tx
  troubled := True
  answered tx result := ∃ step ∈ p.trace, answered step = some (tx, .ok result)
  raised _ := True
  recorded txid := Recorded p.world.node txid
  unsettled _ := True
  holds txid rec := p.world.node.txs.get? txid = some rec
  solid block := block ≤ p.world.node.solidBlock
  looked txid := NotFound p t txid
  timed txid solidTime := Timed p t txid solidTime ∧ solidTime ≤ p.world.node.headTime
  audited txid solidTime solidBlock := Audited p t txid solidTime solidBlock
  passed solidTime := solidTime ≤ p.world.node.headTime
  lapsed txid := Forward p.trace → Lapsed p.world txid
  fallen := True

abbrev Write (D : Deployment) (p : Moment) (t : Nat) (op : Operation) :
    OpState → Sets → Detail → Prop :=
  Writes D.toPipeline (grounds D p t) op

/-- A write renews the lease or leaves the state. -/
def Renews (D : Deployment) (op : Operation) (renew : Option Seconds) (toState : OpState) : Prop :=
  renew = some D.cfg.leaseSeconds ∨ renew = none ∧ toState = op.state

/-- A write from a state that its own thread has left. -/
def Vain (D : Deployment) (t : Nat) (p : Moment) (req : CasRequest) : Prop :=
  ∃ op, Knows D t op p ∧ req.operationId = op.operationId ∧ req.fencingToken = op.fencingToken ∧
    req.fromState ≠ op.state ∧ OpState.canTransition req.fromState req.toState = true

/-- The calls a worker thread may make. -/
def Allowed (D : Deployment) (t : Nat) (p : Moment) : Call → Prop
  | .claim states limit _ lease => states = OpState.claimable ∧ limit = D.cfg.claimBatch ∧
      lease = D.cfg.leaseSeconds
  | .cas req => (∃ op renew toState worker sets detail, Knows D t op p ∧
      Write D p t op toState sets detail ∧ Renews D op renew toState ∧
      req = snapshotRequest renew op toState worker sets detail) ∨ Vain D t p req
  | .release id token => ∃ op, Knows D t op p ∧ op.state.terminal = false ∧
      id = op.operationId ∧ token = op.fencingToken
  | .broadcast id token tx _ => Claimed p t id token ∧ WroteAhead p id tx
  | _ => True

structure Inv (D : Deployment) (p : Moment) : Prop where
  chain : ChainOk p.world.node
  rows : ∀ id row, p.world.store.ops.get? id = some row → RowFacts D p row
  backed : ∀ t id token, Claimed p t id token →
    ∃ row, p.world.store.ops.get? id = some row ∧ token ≤ row.fencingToken
  unique : ∀ t t' id token, Claimed p t id token → Claimed p t' id token → t = t'
  season : ∀ t id token, Claimed p t id token → D.InSeason p.world.now

def discipline (D : Deployment) :
    Discipline World Call Reply (Option BroadcastCode) Act where
  Inv := Inv D
  Allowed := Allowed D

end Sluice.Protocol
