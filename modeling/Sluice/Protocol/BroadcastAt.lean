/-
# Protocol.BroadcastAt -- which send the broadcast stamp is about

`broadcast_at` is set by the write that takes an operation to `broadcast`.  An accepted send
stamps the clock.  A lookup stamps the clock only on a row that has no stamp yet, and a
rebuild does not clear it: after a rebuild the lookup puts the old envelope's stamp under
the new one (`stale_stamp`).

That is the only way.  Where every lookup finds a row without a stamp, the stamp is never
earlier than the last announcement of a send: the row was written when that was recorded,
and the clock is read after the row is claimed (`Dated`).
-/
import Sluice.Protocol.Lifetime

namespace Sluice.Protocol

open Sluice.Theory Sluice.Kernel

set_option autoImplicit false

/-- The row a lookup took to `broadcast`, as it was before. -/
def reconciled (step : Step) : Option Operation := do
  let (req, _) ← committed step
  if req.fromState = .broadcasting ∧ req.toState = .broadcast ∧
      req.detail.via = some "reconcile" then
    step.before.store.ops.get? req.operationId
  else none

/-- Lookups take a row to `broadcast` only if it has no stamp. -/
def ReconcilesUnstamped (trace : List Step) : Prop :=
  ∀ step ∈ trace, ∀ old ∈ reconciled step, old.broadcastAt = none

instance (trace : List Step) : Decidable (ReconcilesUnstamped trace) :=
  inferInstanceAs (Decidable (∀ step ∈ trace, ∀ old ∈ reconciled step, old.broadcastAt = none))

/-- The row was written no earlier than its events, and its stamp, once it is due, is no
earlier than any announcement. -/
structure Dated (events : List Event) (row : Operation) : Prop where
  written : ∃ u, row.updatedAt = some u ∧ ∀ e ∈ events, e.recordedAt ≤ u
  stamped : OpState.taken row.state = true → ∃ instant, row.broadcastAt = some instant ∧
    ∀ e ∈ events, announces e = true → e.recordedAt ≤ instant

section Writes

variable {D : Deployment} {p : Moment}

theorem Commit.reconciled_eq (commit : Commit D p) (source : commit.op.state = .broadcasting)
    (target : commit.toState = .broadcast) (via : commit.detail.via = some "reconcile") :
    reconciled commit.step = some commit.op := by
  have holds : commit.req.fromState = .broadcasting ∧ commit.req.toState = .broadcast ∧
      commit.req.detail.via = some "reconcile" := ⟨source, target, via⟩
  simp only [reconciled, Commit.step, committed, Option.bind_eq_bind, Option.bind_some, holds,
    and_self, if_true]
  exact commit.found

/-- The stamp a write leaves on a row it takes to `broadcast` or `confirmed`. -/
theorem Commit.stamps (commit : Commit D p) {events : List Event}
    (dated : Dated events commit.op) (forward : Forward p.trace)
    (fresh : ∀ old ∈ reconciled commit.step, old.broadcastAt = none)
    (target : OpState.taken commit.toState = true) :
    ∃ instant, commit.row.broadcastAt = some instant ∧
      ∀ e ∈ events, announces e = true → e.recordedAt ≤ instant := by
  have broadcastAt := MemoryStore.casRow_broadcastAt p.world.now commit.req commit.op
  have lookup := commit.reconciled_eq
  obtain ⟨u, updated, past⟩ := dated.written
  obtain ⟨thread, choice, op, renew, toState, worker, sets, detail, found, claimed, write, _⟩ :=
    commit
  cases write with
  | accepted state tx signed recorded now code clock =>
      exact ⟨now, broadcastAt, fun e member _ =>
        (past e member).trans ((clock forward).1 u updated)⟩
  | found state tx signed recorded now value kept clock =>
      have unstamped : op.broadcastAt = none := fresh op (lookup state rfl rfl)
      exact ⟨now, broadcastAt,
        fun e member _ => (past e member).trans ((clock unstamped forward).1 u updated)⟩
  | confirm state =>
      obtain ⟨instant, stamp, later⟩ := dated.stamped (by rw [state]; rfl)
      exact ⟨instant, broadcastAt.trans stamp, later⟩
  | breadcrumb =>
      obtain ⟨instant, stamp, later⟩ := dated.stamped target
      exact ⟨instant, broadcastAt.trans stamp, later⟩
  | reject | validate | startSigning | giveUp | build | sign | dropUnsent | writeAhead | hardReject
  | noted | retire | reverted => cases target

theorem Commit.dated (commit : Commit D p) {events : List Event}
    (dated : Dated events commit.op) (forward : Forward p.trace)
    (stamped : ∀ u, commit.op.updatedAt = some u → u ≤ p.world.now)
    (fresh : ∀ old ∈ reconciled commit.step, old.broadcastAt = none) :
    Dated (events ++ [commit.event]) commit.row := by
  constructor
  · obtain ⟨u, updated, past⟩ := dated.written
    refine ⟨p.world.now, MemoryStore.casRow_updatedAt _ _ _, fun e member => ?_⟩
    rcases List.mem_append.mp member with old | new
    · exact (past e old).trans (stamped u updated)
    · rw [List.mem_singleton.mp new]
      exact le_refl _
  · intro taken
    rw [Commit.row, MemoryStore.casRow_state] at taken
    obtain ⟨instant, stamp, later⟩ := commit.stamps dated forward fresh taken
    refine ⟨instant, stamp, fun e member announced => ?_⟩
    rcases List.mem_append.mp member with old | new
    · exact later e old announced
    · -- the event of this write leads elsewhere
      rw [List.mem_singleton.mp new] at announced
      have target : commit.toState = .broadcasting := (of_decide_eq_true announced).2
      rw [show commit.req.toState = commit.toState from rfl, target] at taken
      cases taken

end Writes

section Runs

variable {D : Deployment} {p : Moment} {c : Run} {id : UUID} {row : Operation}

theorem Passed.dated (passed : Passed D p) : Forward p.trace → ReconcilesUnstamped p.trace →
    ∀ id row, p.world.store.ops.get? id = some row → Dated (p.world.store.eventsOf id) row := by
  intro forward fresh id row found
  refine passed.row_induction (J := fun p id row => Forward p.trace → ReconcilesUnstamped p.trace →
    Dated (p.world.store.eventsOf id) row) ?_ ?_ id row found forward fresh
  · intro p payload op w' _ _ valid _ events _ _
    rw [Point.log_world, Label.after_acted, events, (validated_row valid).row]
    refine ⟨⟨p.world.now, rfl, fun e member => ?_⟩, nofun⟩
    rw [List.mem_singleton.mp member]
  intro p step id row row' passed _ _ found goes ih forward fresh
  have dated := ih (Forward.tail forward) fun step member =>
    fresh step (List.mem_cons_of_mem _ member)
  have stamped : ∀ u, row.updatedAt = some u → u ≤ p.world.now := by
    intro u updated
    obtain ⟨u', updated', early⟩ := (passed.inv.rows id row found).stamped
    cases updated.symm.trans updated'
    exact early (Forward.tail forward)
  have key := p.world.store.keyed id row found
  subst key
  cases goes with
  | kept claimedBy leaseExpiresAt token updatedAt stamp log =>
      obtain ⟨⟨u, updated, past⟩, later⟩ := dated
      rw [Point.log_world, log]
      refine ⟨?_, later⟩
      rcases stamp with rfl | rfl
      · exact ⟨u, updated, past⟩
      · exact ⟨_, rfl, fun e member => (past e member).trans (stamped u updated)⟩
  | written commit was source =>
      subst was source
      rw [Point.log_world, commit.eventsOf]
      exact commit.dated dated (Forward.tail forward) stamped (fresh _ List.mem_cons_self)

/-- **The stamp is about the live envelope.**  Under a forward clock, in every run in which
lookups take a row to `broadcast` only while it has no stamp, a row in `broadcast` or
`confirmed` has one, and no write-ahead of its operation is later. -/
theorem broadcast_at_live (reached : D.Reachable c) (forward : Forward c.point.trace)
    (fresh : ReconcilesUnstamped c.point.trace)
    (found : c.point.world.store.ops.get? id = some row)
    (taken : row.state = .broadcast ∨ row.state = .confirmed) :
    ∃ instant, row.broadcastAt = some instant ∧
      ∀ e ∈ c.point.world.store.eventsOf id, e.fromState = some .signed →
        e.toState = .broadcasting → e.recordedAt ≤ instant := by
  have dated := Passed.dated ⟨c, reached, rfl⟩ forward fresh id row found
  obtain ⟨instant, stamp, later⟩ := dated.stamped (by rcases taken with h | h <;> rw [h] <;> rfl)
  exact ⟨instant, stamp, fun e member source target =>
    later e member (decide_eq_true ⟨source, target⟩)⟩

/-- A worker dies after its send; half a minute later another one finds the transaction. -/
theorem broadcast_at_live_found : ∃ c row, Sample.deployment.Reachable c ∧
    Forward c.point.trace ∧ ReconcilesUnstamped c.point.trace ∧
    c.point.world.store.ops.get? 0x11111111111141118111111111111111 = some row ∧
    row.state = .broadcast ∧ ∃ instant, row.broadcastAt = some instant ∧
      ∀ e ∈ c.point.world.store.eventsOf 0x11111111111141118111111111111111,
        e.fromState = some .signed → e.toState = .broadcasting → e.recordedAt ≤ instant := by
  obtain ⟨c, reached, done⟩ := reachable_of_schedule (D := Sample.deployment)
    (fun c => decide (Forward c.point.trace ∧ ReconcilesUnstamped c.point.trace) &&
      (c.point.world.store.ops.get? 0x11111111111141118111111111111111).any
        fun row => row.state = .broadcast)
    Sample.epoch (by decide)
    ([.act (.submit (Sample.request "11111111111141118111111111111111" "1")), .spawn "a"] ++
      Sample.serves 0 12 ++ [.act (.advance (31 * second)), .spawn "b"] ++ Sample.serves 1 4)
    (by decide +kernel)
  obtain ⟨run, present⟩ := Bool.and_eq_true_iff.mp done
  obtain ⟨forward, fresh⟩ := of_decide_eq_true run
  obtain ⟨row, found, state⟩ := (Option.any_eq_true _ _).mp present
  have state := of_decide_eq_true state
  exact ⟨c, row, reached, forward, fresh, found, state,
    broadcast_at_live reached forward fresh found (.inl state)⟩

/-- **A stale stamp.**  The worker sleeps for 100 s after its send was accepted; the
transaction was not mined and is dead.  It rebuilds, announces and sends the new one, whose
answer is lost, looks it up, and takes the row to `broadcast` under the stamp of the first
send. -/
theorem stale_stamp : ∃ c row, Sample.deployment.Reachable c ∧ Forward c.point.trace ∧
    c.point.world.store.ops.get? 0x11111111111141118111111111111111 = some row ∧
    row.state = .broadcast ∧
    ∃ e ∈ c.point.world.store.eventsOf 0x11111111111141118111111111111111,
      e.fromState = some .signed ∧ e.toState = .broadcasting ∧ e.detail.txid = row.txid ∧
      ∃ instant, row.broadcastAt = some instant ∧ instant < e.recordedAt := by
  obtain ⟨c, reached, done⟩ := reachable_of_schedule (D := Sample.deployment)
    (fun c => decide (Forward c.point.trace) &&
      (c.point.world.store.ops.get? 0x11111111111141118111111111111111).any
        fun row => row.state = .broadcast &&
          decide (∃ e ∈ c.point.world.store.eventsOf 0x11111111111141118111111111111111,
            e.fromState = some .signed ∧ e.toState = .broadcasting ∧ e.detail.txid = row.txid ∧
            ∃ instant ∈ row.broadcastAt, instant < e.recordedAt))
    Sample.epoch (by decide)
    ([.act (.submit (Sample.request "11111111111141118111111111111111" "1")), .spawn "a"] ++
      Sample.serves 0 15 ++
      [.act (.advance (100 * second)), .act (.produceBlocks 3),
        .act (.script .broadcast [.timeoutAccepted])] ++ Sample.serves 0 15) (by decide +kernel)
  obtain ⟨forward, present⟩ := Bool.and_eq_true_iff.mp done
  obtain ⟨row, found, holds⟩ := (Option.any_eq_true _ _).mp present
  obtain ⟨state, stale⟩ := Bool.and_eq_true_iff.mp holds
  exact ⟨c, row, reached, of_decide_eq_true forward, found, of_decide_eq_true state,
    of_decide_eq_true stale⟩

end Runs

end Sluice.Protocol
