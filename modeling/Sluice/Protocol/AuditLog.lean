/-
# Protocol.AuditLog -- the log alone tells what happened

The event log is kept so that somebody can later say what happened to an operation without
guessing.  `audit` is that somebody: it reads the events of one operation and nothing else, and
gives up at the first thing that does not fit.  An event must start in the state the last one
ended in and make a transition of the table; a transaction id it names must be the one on record,
unless the event files a new envelope; what it retires must be the one on record, with evidence.

`log_audits`: on the log of every operation of every run the audit goes through, and it ends with
the state, the attempts, the live transaction id and the time of creation that stand in the row,
and with the row's block too, unless the operation failed: the event of a reverted transaction
names its receipt and not its block.
-/
import Sluice.Protocol.DoubleSpend

namespace Sluice.Protocol

open Sluice.Theory Sluice.Kernel

set_option autoImplicit false

/-- What the events say so far. -/
structure Summary where
  state : OpState
  attempts : Int
  txid : Option Hex
  createdAt : Int
  includedBlock : Option Int
  deriving DecidableEq, Repr

namespace Summary

/-- The first event of an operation. -/
def begin (e : Event) : Option Summary :=
  if e.fromState = none ∧ e.toState = .requested ∧ e.detail = { intake := some true } then
    some ⟨.requested, 0, none, e.recordedAt, none⟩
  else none

/-- One event further. -/
def next (s : Summary) (e : Event) : Option Summary :=
  if e.fromState = some s.state ∧ s.state.canTransition e.toState = true then
    match e.detail.retiredTxid with
    | some retired =>
        if retired = s.txid ∧ e.toState = .signing ∧ e.detail.expiryEvidence.isSome then
          some { s with state := .signing, attempts := s.attempts + 1, txid := none }
        else none
    | none =>
        if s.state = .signing ∧ e.toState = .signing ∧ e.detail.txid.isSome then
          some { s with txid := e.detail.txid }
        else if e.detail.txid = none ∨ e.detail.txid = s.txid then
          some { s with state := e.toState, includedBlock := e.detail.block.getD s.includedBlock }
        else none
  else none

end Summary

/-- The account of one operation, from its events in order; `none` if they do not fit. -/
def audit : List Event → Option Summary
  | [] => none
  | e :: rest => (Summary.begin e).bind fun s => rest.foldlM Summary.next s

theorem audit_snoc {events : List Event} {s : Summary} (account : audit events = some s)
    (e : Event) :
    audit (events ++ [e]) = s.next e := by
  cases events with
  | nil => cases account
  | cons first rest =>
      simp only [audit, Option.bind_eq_some_iff] at account
      obtain ⟨s₀, begins, folded⟩ := account
      simp only [audit, List.cons_append, begins, Option.bind_some, List.foldlM_append, folded]
      simp

section Writes

variable {D : Deployment} {p : Moment} {t : Nat} {op : Operation} {toState : OpState} {sets : Sets}
  {detail : Detail}

/-- The event of a write takes the account from the row before to the row after. -/
theorem Write.next (write : Write D p t op toState sets detail) (shape : Shape D op) (birth : Int)
    (block : Option Int) {e : Event} (from_ : e.fromState = some op.state)
    (to_ : e.toState = toState) (told : e.detail = detail) :
    Summary.next ⟨op.state, op.attempts, op.txid, birth, block⟩ e =
      some ⟨toState, sets.attempts.getD op.attempts, sets.txid.getD op.txid, birth,
        detail.block.getD block⟩ := by
  have legal := write.legal
  have live : ∀ {tx}, op.signedTx = some tx → some tx.txid = op.txid :=
    fun signed => (shape.sealed_of_signed signed).txid.symm
  rw [Summary.next, if_pos ⟨from_, to_ ▸ legal⟩, told, to_]
  cases write with
  | reject state | validate state | startSigning state | giveUp state | build state | sign state =>
      simp [state]
  | dropUnsent | retire => simp [retireDetail, retireSets]
  | breadcrumb => simp
  | writeAhead state tx signed | accepted state tx signed | hardReject state tx signed
  | noted state tx signed | found state tx signed | confirm state tx signed
  | reverted state tx signed => simp [state, live signed]

/-- A write and its event put the same block on record, unless the operation failed. -/
theorem Write.block (write : Write D p t op toState sets detail) (open_ : toState ≠ .failed) :
    sets.includedBlock = detail.block := by
  cases write with
  | giveUp | hardReject | reverted => exact absurd rfl open_
  | reject | validate | startSigning | build | sign | dropUnsent | writeAhead | accepted | noted
  | found | retire | confirm | breadcrumb => rfl

end Writes

section Runs

variable {D : Deployment} {p : Moment} {c : Run} {id : UUID} {row : Operation}

/-- The account of the log and the row agree. -/
def Agrees (events : List Event) (row : Operation) : Prop :=
  ∃ birth block, row.createdAt = some birth ∧
    audit events = some ⟨row.state, row.attempts, row.txid, birth, block⟩ ∧
    (row.state ≠ .failed → row.includedBlock = block)

theorem Commit.agrees (commit : Commit D p) (shape : Shape D commit.op)
    (agrees : Agrees (p.world.store.eventsOf commit.op.operationId) commit.op) :
    Agrees (commit.step.after.store.eventsOf commit.op.operationId) commit.row := by
  obtain ⟨birth, block, born, account, landed⟩ := agrees
  have next := commit.write.next shape birth block (e := commit.event) rfl rfl rfl
  have columns := MemoryStore.casRow_identity p.world.now commit.req commit.op
  simp only [MemoryStore.identity, Prod.mk.injEq] at columns
  have blocks := MemoryStore.casRow_includedBlock p.world.now commit.req commit.op
  refine ⟨birth, commit.detail.block.getD block, columns.2.2.2.2.2.trans born, ?_, fun open_ => ?_⟩
  · rw [commit.eventsOf, audit_snoc account, next, Commit.row, MemoryStore.casRow_state,
      MemoryStore.casRow_attempts, MemoryStore.casRow_txid]
    rfl
  · have alive : commit.op.state ≠ .failed := fun failed => by
      have live := commit.live
      rw [failed] at live
      cases live
    have same : commit.req.sets.includedBlock = commit.detail.block := by
      refine commit.write.block fun failed => open_ ?_
      rw [Commit.row, MemoryStore.casRow_state]
      exact failed
    rw [Commit.row, blocks, same, landed alive]

theorem Passed.agrees (passed : Passed D p) :
    ∀ id row, p.world.store.ops.get? id = some row → Agrees (p.world.store.eventsOf id) row := by
  refine passed.row_induction (J := fun p id row => Agrees (p.world.store.eventsOf id) row) ?_ ?_
  · intro p payload op w' _ _ valid _ log
    rw [Point.log_world, Label.after_acted, log, (validated_row valid).row]
    exact ⟨p.world.now, none, rfl, rfl, fun _ => rfl⟩
  intro p step id row row' passed _ _ found goes agrees
  have key := p.world.store.keyed id row found
  subst key
  cases goes with
  | kept _ _ _ _ _ log =>
      rw [Point.log_world, log]
      exact agrees
  | written commit was source =>
      subst was source
      exact commit.agrees (passed.inv.rows _ _ found).shape agrees

end Runs

end Sluice.Protocol
