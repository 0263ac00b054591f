/-
# Protocol.WriteAhead -- nothing reaches the wire without a durable trace

The intent to send is one event, from `signed` to `broadcasting`, that names the
transaction (`Intent`).  `Ledger` ties store, trace and chain together through it:

* every write-ahead left its intent in the log, and its bytes pay the row's amount to
  the row's address;
* everything the node holds was sent, and everything sent was written ahead.

`write_ahead` says it of whole runs, at any clock and with any number of workers.
-/
import Sluice.Protocol.Worker

namespace Sluice.Protocol

open Sluice.Theory Sluice.Kernel
open MemoryStore (casRow identity)

set_option autoImplicit false

/-- The event that announces a send of `txid` for operation `id`. -/
structure Intent (id : UUID) (txid : Hex) (e : Event) : Prop where
  operationId : e.operationId = id
  fromState : e.fromState = some .signed
  toState : e.toState = .broadcasting
  txid : e.detail.txid = some txid

/-- What a step put on the wire and into the node's log: a signature that the node cannot
compare makes it raise before it logs anything. -/
def logged : Step → Option (UUID × SignedTx)
  | .served _ _ (.broadcast ..) (.error .typeError) _ _ => none
  | step => sending step

/-- The transaction is an envelope of this row under the deployment's signature. -/
def Pays (D : Deployment) (row : Operation) (tx : SignedTx) : Prop :=
  ∃ ref now, tx = D.signer.sign D.sha256 (D.envelope row ref now)

/-- Store, trace and chain agree on what was sent. -/
structure Ledger (D : Deployment) (p : Moment) : Prop where
  intent : ∀ id tx, WroteAhead p id tx → ∃ e ∈ p.world.store.events, Intent id tx.txid e
  pays : ∀ id tx, WroteAhead p id tx → ∃ row, p.world.store.ops.get? id = some row ∧ Pays D row tx
  sent : ∀ txid rec, p.world.node.txs.get? txid = some rec → rec.tx.txid = txid ∧
    p.world.node.signer.verify D.sha256 rec.tx = some true ∧
    ∃ id, WroteAhead p id rec.tx ∧ ∃ step ∈ p.trace, sending step = some (id, rec.tx)

section Commits

variable {D : Deployment} {p : Moment} {step : Step} {id : UUID} {tx : SignedTx}

/-- The event of a committed write. -/
def Commit.event (commit : Commit D p) : Event where
  operationId := commit.op.operationId
  fromState := some commit.op.state
  toState := commit.toState
  workerId := some commit.worker
  fencingToken := commit.op.fencingToken
  detail := commit.detail
  recordedAt := p.world.now
  seq := p.world.store.eventSeq

theorem Commit.events (commit : Commit D p) :
    commit.step.after.store.events = p.world.store.events ++ [commit.event] := rfl

/-- A write-ahead is old, or this step made it. -/
theorem WroteAhead.of_log (stride : Stride D p step) (written : WroteAhead (p.log step) id tx) :
    WroteAhead p id tx ∨ ∃ commit : Commit D p, step = commit.step ∧
      commit.op.operationId = id ∧ Intent id tx.txid commit.event ∧
      commit.row.signedTx = some tx := by
  obtain ⟨old, member, req, row, done, same, fromState, toState, txid, signed⟩ := written
  rcases List.mem_cons.mp member with rfl | older
  · obtain ⟨commit, was, rfl, rfl⟩ := stride.commits req row done
    exact .inr ⟨commit, was, same, ⟨same, congrArg some fromState, toState, txid⟩, signed⟩
  · exact .inl ⟨old, older, req, row, done, same, fromState, toState, txid, signed⟩

theorem Pays.congr {row row' : Operation} (pays : Pays D row tx)
    (same : identity row' = identity row) : Pays D row' tx := by
  obtain ⟨ref, now, rfl⟩ := pays
  simp only [identity, Prod.mk.injEq] at same
  exact ⟨ref, now, by rw [envelope_congr same.2.2.1 same.2.2.2.2.1]⟩

theorem Sealed.pays {row : Operation} (stored : Sealed D row tx) : Pays D row tx := by
  obtain ⟨⟨u, ⟨⟨ref, now, rfl⟩, _⟩, rfl⟩, _⟩ := stored
  exact ⟨ref, now, rfl⟩

theorem Ledger.stride (ledger : Ledger D p) (inv : Inv D p) (inv' : Inv D (p.log step))
    (stride : Stride D p step) : Ledger D (p.log step) := by
  have grown := stride.advances.store.grows
  refine ⟨fun id tx written => ?_, fun id tx written => ?_, fun txid rec found => ?_⟩
  · rcases written.of_log stride with old | ⟨commit, rfl, _, intent, _⟩
    · obtain ⟨e, member, intent⟩ := ledger.intent id tx old
      exact ⟨e, grown.events.subset member, intent⟩
    · refine ⟨commit.event, ?_, intent⟩
      rw [Point.log_world, commit.events]
      exact List.mem_append_right _ (List.mem_singleton.mpr rfl)
  · rcases written.of_log stride with old | ⟨commit, rfl, rfl, intent, signed⟩
    · obtain ⟨row, found, pays⟩ := ledger.pays id tx old
      obtain ⟨row', found', _, same⟩ := grown.rows id row found
      exact ⟨row', found', pays.congr same⟩
    · -- the row this write left is sealed, and holds `tx`
      refine ⟨commit.row, commit.stored, ?_⟩
      have facts := inv'.rows _ _ commit.stored
      have state : commit.row.state = .broadcasting :=
        (MemoryStore.casRow_state _ _ _).trans intent.toState
      obtain ⟨tx', stored⟩ := facts.shape.sealed (.inr (.inl state))
      rw [stored.unique signed]
      exact stored.pays
  · have signer := (inv.chain.evolution stride.advances.node).2.signer
    rw [Point.log_world, signer]
    cases stride.records txid rec found with
    | old before found' same =>
        rw [same]
        obtain ⟨key, good, id, written, send, member, sent⟩ := ledger.sent txid before found'
        exact ⟨key, good, id, written.log, send, List.mem_cons_of_mem _ member, sent⟩
    | accepted t id token worker reply w' was key fresh accepts good timely claimed written =>
        exact ⟨key, good, id, written.log, step, List.mem_cons_self, by rw [was]; rfl⟩

end Commits

section Runs

variable {D : Deployment} {c : Run}

theorem Passed.ledger {p : Moment} (passed : Passed D p) : Ledger D p := by
  refine passed_induction (J := Ledger D) ?_ ?_ passed
  · intro now lag delay signer _
    refine ⟨?_, ?_, fun txid rec found => ?_⟩
    · rintro id tx ⟨_, member, _⟩
      cases member
    · rintro id tx ⟨_, member, _⟩
      cases member
    · simp [World.fresh, MockTronNode.genesis] at found
  · exact fun p step passed passed' stride ledger => ledger.stride passed.inv passed'.inv stride

/-- An announced transaction is among those assigned to the operation. -/
theorem Intent.assigned {store : MemoryStore} {id : UUID} {txid : Hex} {e : Event}
    (intent : Intent id txid e) (member : e ∈ store.events) : txid ∈ store.allTxids id :=
  List.mem_filterMap.mpr
    ⟨e, List.mem_filter.mpr ⟨member, by simpa using intent.operationId⟩, intent.txid⟩

theorem Ledger.assigned {p : Moment} {id : UUID} {tx : SignedTx} (ledger : Ledger D p)
    (written : WroteAhead p id tx) : tx.txid ∈ p.world.store.allTxids id := by
  obtain ⟨e, member, intent⟩ := ledger.intent id tx written
  exact intent.assigned member

/-- Every send was announced. -/
theorem sending_announced (reached : D.Reachable c) {step : Step} {id : UUID} {tx : SignedTx}
    (member : step ∈ c.point.trace) (sent : sending step = some (id, tx)) :
    ∃ e ∈ c.point.world.store.events, Intent id tx.txid e := by
  obtain ⟨_, passed, stride, grown, _⟩ := step_past reached member
  obtain ⟨e, old, intent⟩ := passed.ledger.intent id tx (stride.sends id tx sent).1
  exact ⟨e, grown.events.subset old, intent⟩

end Runs

end Sluice.Protocol
