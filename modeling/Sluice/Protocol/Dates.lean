/-
# Protocol.Dates -- the instants of a row come from readings of the clock

A row carries three instants that somebody computes with later on: when it was created, when
its transaction expires and when its lease ends.  Each of them is the clock of an earlier step
of the run, or that clock plus a configured span (`Dates`); and each is an instant that
`datetime` has, since a handler whose sum leaves the calendar raises before it writes.  So the
range of the clock bounds everything that a worker may have to wait for.
-/
import Sluice.Protocol.FreshTxid

namespace Sluice.Protocol

open Sluice.Theory Sluice.Kernel

set_option autoImplicit false

structure Dates (D : Deployment) (trace : List Step) (row : Operation) : Prop where
  expiration : ∀ e, row.txExpiration = some e →
    IsDatetime e ∧ ∃ step ∈ trace, e = step.before.now + D.cfg.txTtlSeconds
  created : ∀ t, row.createdAt = some t → IsDatetime t ∧ ∃ step ∈ trace, t = step.before.now
  lease : ∀ e, row.leaseExpiresAt = some e →
    ∃ step ∈ trace, D.cfg.leaseSeconds.after step.before.now = some e

section Rows

variable {D : Deployment} {p : Moment} {row : Operation} {step : Step} {id : UUID} {tx : SignedTx}

theorem Dates.log (dates : Dates D p.trace row) : Dates D (p.log step).trace row := by
  refine ⟨fun e some_ => ?_, fun t some_ => ?_, fun e some_ => ?_⟩
  · obtain ⟨valid, old, member, same⟩ := dates.expiration e some_
    exact ⟨valid, old, .tail _ member, same⟩
  · obtain ⟨valid, old, member, same⟩ := dates.created t some_
    exact ⟨valid, old, .tail _ member, same⟩
  · obtain ⟨old, member, same⟩ := dates.lease e some_
    exact ⟨old, .tail _ member, same⟩

/-- The expiration a write leaves. -/
theorem Commit.expiration (commit : Commit D p) (passed : Passed D p)
    (dates : Dates D p.trace commit.op) {e : Int} (some_ : commit.row.txExpiration = some e) :
    IsDatetime e ∧ ∃ step ∈ p.trace, e = step.before.now + D.cfg.txTtlSeconds := by
  rw [Commit.row, MemoryStore.casRow_txExpiration] at some_
  obtain ⟨thread, choice, op, renew, toState, worker, sets, detail, found, _, write, _⟩ := commit
  cases write with
  | build state left ref now clock drafted fits =>
      cases some_
      obtain ⟨c, reached, rfl⟩ := passed
      obtain ⟨newer, middle, older, choice, _, n, n', _, _, trace, _⟩ := readings_split drafted
      have member : .served thread choice .now now n n' ∈ c.point.trace :=
        trace ▸ List.mem_append_right _ (.head _)
      have read := served_past reached member
      cases read
      exact ⟨fits, _, member, rfl⟩
  | dropUnsent | retire => cases some_
  | reject | validate | startSigning | giveUp | sign | writeAhead | accepted | hardReject | noted
  | found | confirm | reverted | breadcrumb => exact dates.expiration e some_

/-- A write renews the lease, ends it or leaves it. -/
theorem Commit.lease (commit : Commit D p) {e : Int} (held : commit.row.leaseExpiresAt = some e) :
    D.cfg.leaseSeconds.after p.world.now = some e ∨ commit.op.leaseExpiresAt = some e := by
  obtain ⟨expiry, lands⟩ := Option.isSome_iff_exists.mp commit.season
  rw [Commit.row, MemoryStore.casRow_eq] at held
  dsimp only at held
  split at held
  · cases held
  rcases commit.renews with renews | ⟨renews, _⟩
  · rw [show commit.req.renewLeaseSeconds = some D.cfg.leaseSeconds from renews, Option.bind_some,
      lands] at held
    exact .inl (lands.trans held)
  · rw [show commit.req.renewLeaseSeconds = none from renews] at held
    exact .inr held

theorem Passed.dates (passed : Passed D p) :
    ∀ id row, p.world.store.ops.get? id = some row → Dates D p.trace row := by
  refine passed.row_induction (J := fun p _ row => Dates D p.trace row) ?_ ?_
  · intro p payload op w' passed stride valid _ _
    rw [(validated_row valid).row]
    refine ⟨nofun, fun t some_ => ?_, nofun⟩
    cases some_
    exact ⟨passed.calendar, _, List.mem_cons_self, rfl⟩
  intro p step id row row' passed _ stride _ goes dates
  have old : Dates D (p.log step).trace row := dates.log
  have here : step ∈ (p.log step).trace := List.mem_cons_self
  cases goes with
  | kept claimedBy leaseExpiresAt token updatedAt stamp log lease =>
      refine ⟨old.expiration, old.created, fun e held => ?_⟩
      rcases lease with rfl | rfl | rfl
      · exact old.lease e held
      · cases held
      · exact ⟨step, here, by rw [stride.before]; exact held⟩
  | written commit was source =>
      subst source
      have birth : commit.row.createdAt = commit.op.createdAt := by
        have columns := MemoryStore.casRow_identity p.world.now commit.req commit.op
        simp only [MemoryStore.identity, Prod.mk.injEq] at columns
        exact columns.2.2.2.2.2
      refine ⟨fun e some_ => ?_, fun t some_ => old.created t (birth ▸ some_), fun e held => ?_⟩
      · obtain ⟨valid, reading, member, same⟩ := commit.expiration passed dates some_
        exact ⟨valid, reading, .tail _ member, same⟩
      · rcases commit.lease held with now | before
        · exact ⟨step, here, by rw [stride.before]; exact now⟩
        · exact old.lease e before

theorem Dates.expires (dates : Dates D p.trace row) (shape : Shape D row)
    (signed : row.signedTx = some tx) :
    IsDatetime tx.expiration ∧
      ∃ step ∈ p.trace, tx.expiration = step.before.now + D.cfg.txTtlSeconds :=
  dates.expiration _ (shape.sealed_of_signed signed).expiration

/-- What was announced once stood on a row. -/
theorem Passed.announced_date (passed : Passed D p) (written : WroteAhead p id tx) :
    ∃ step ∈ p.trace, tx.expiration = step.before.now + D.cfg.txTtlSeconds := by
  obtain ⟨step, member, req, row, done, _, _, _, _, signed⟩ := written
  obtain ⟨c, reached, rfl⟩ := passed
  obtain ⟨newer, older, trace⟩ := List.append_of_mem member
  obtain ⟨c₀, c₁, reached₀, here, _, at₀, at₁, stride⟩ := reachable_past reached trace
  obtain ⟨commit, rfl, rfl, rfl⟩ := stride.commits req row done
  have passed₁ : Passed D c₁.point := ⟨c₁, reachable_later reached₀ (.single here), rfl⟩
  have stored : c₁.point.world.store.ops.get? commit.op.operationId = some commit.row := by
    rw [at₁]
    exact commit.stored
  obtain ⟨_, reading, early, same⟩ :=
    (passed₁.dates _ _ stored).expires (passed₁.inv.rows _ _ stored).shape signed
  refine ⟨reading, ?_, same⟩
  have past : c₁.point.trace = commit.step :: older := by
    rw [at₁, Point.log_trace, congrArg Point.trace at₀]
  rw [trace]
  exact List.mem_append_right _ (past ▸ early)

/-- The same of what the node holds. -/
theorem Passed.record_date (passed : Passed D p) {txid : Hex} {rec : TxRecord}
    (found : p.world.node.txs.get? txid = some rec) :
    ∃ step ∈ p.trace, rec.tx.expiration = step.before.now + D.cfg.txTtlSeconds := by
  obtain ⟨_, _, id, written, _⟩ := passed.ledger.sent txid rec found
  exact passed.announced_date written

end Rows

end Sluice.Protocol
