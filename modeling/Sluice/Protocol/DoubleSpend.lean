/-
# Protocol.DoubleSpend -- at most one payment per withdrawal

Let no transaction of the withdrawal be assigned to another one (`Sole`).  Of all ids it
was ever assigned, at most one is `Current`: the one on its row, once the row is exposed.
Every other id is `Outlived`: it is in no block, and every form of it that was ever written
ahead has expired, by the clock or by the time of the head block.  An outlived id stays
out for good, because a block is stamped no earlier than either.

A step makes an id outlived in one place only, where a row is taken back to `signing`
(`Phase.retire`).  The writer knows that the transaction's time is up, and it has looked the
transaction up.  It does not know that the transaction is *still* outside every block: the
lookup comes first and the solid clock is read later, and a worker that lost its lease may
send in between.  `double_spend` is such a run; `no_double_spend` shows that nothing else
can go wrong.
-/
import Sluice.Protocol.Retirement

namespace Sluice.Protocol

open Sluice.Theory Sluice.Kernel
open MemoryStore (casRow LogOk)

set_option autoImplicit false

/-! ## Histories of one row -/

section Histories

variable {D : Deployment} {p : Moment} {step : Step} {id : UUID} {tx : SignedTx} {txid : Hex}

theorem Commit.eventsOf (commit : Commit D p) :
    commit.step.after.store.eventsOf commit.op.operationId =
      p.world.store.eventsOf commit.op.operationId ++ [commit.event] :=
  (MemoryStore.eventsOf_commit _ _ _ _ _).trans (by rw [if_pos rfl]; rfl)

/-- A step determines the event it committed. -/
theorem Commit.event_unique {commit commit' : Commit D p} (same : commit.step = commit'.step) :
    commit.event = commit'.event := by
  have events := commit.events
  rw [same, commit'.events] at events
  simpa using events.symm

/-- A step that leaves the log of an operation alone writes nothing ahead for it. -/
theorem WroteAhead.of_quiet (stride : Stride D p step)
    (log : step.after.store.eventsOf id = p.world.store.eventsOf id)
    (written : WroteAhead (p.log step) id tx) : WroteAhead p id tx := by
  rcases written.of_log stride with old | ⟨commit, rfl, rfl, _⟩
  · exact old
  · rw [commit.eventsOf] at log
    simp at log

/-- A write-ahead after a commit on this row is old, or the commit announced it. -/
theorem WroteAhead.of_commit {commit : Commit D p} (stride : Stride D p commit.step)
    (written : WroteAhead (p.log commit.step) commit.op.operationId tx) :
    WroteAhead p commit.op.operationId tx ∨
      (Intent commit.op.operationId tx.txid commit.event ∧ commit.row.signedTx = some tx) := by
  rcases written.of_log stride with old | ⟨commit', was, same, intent, signed⟩
  · exact .inl old
  · have stored := commit'.stored
    rw [← was, same, commit.stored] at stored
    rw [Option.some.inj stored, Commit.event_unique was]
    exact .inr ⟨intent, signed⟩

/-- The log of a new row has its intake only. -/
theorem Stride.intake_event {e : Event} (stride : Stride D p step) (ok : LogOk p.world.store)
    (ok' : LogOk step.after.store) (absent : p.world.store.ops.get? id = none)
    (logged : e ∈ step.after.store.eventsOf id) : e.fromState = none ∧ e.detail.txid = none := by
  cases stored : step.after.store.ops.get? id with
  | none =>
      rw [ok'.absent id stored] at logged
      cases logged
  | some row =>
      obtain ⟨payload, op, w', was, _, same, _, inserted⟩ := stride.intake absent stored
      rw [was, Label.after_acted, inserted, MemoryStore.eventsOf_insertRow, if_pos same,
        ok.absent _ absent] at logged
      rw [List.mem_singleton.mp logged]
      exact ⟨rfl, rfl⟩

/-- An assigned id was assigned before to a row that kept its artefacts, or to one that was
just written, or the write assigned it. -/
theorem Stride.assigned (stride : Stride D p step) (ok : LogOk p.world.store)
    (ok' : LogOk step.after.store) (member : txid ∈ step.after.store.allTxids id) :
    (txid ∈ p.world.store.allTxids id ∧
      step.after.store.eventsOf id = p.world.store.eventsOf id ∧
      ∃ old new, p.world.store.ops.get? id = some old ∧ step.after.store.ops.get? id = some new ∧
        new.state = old.state ∧ new.signedTx = old.signedTx) ∨
    (∃ commit : Commit D p, step = commit.step ∧ commit.op.operationId = id ∧
      (txid ∈ p.world.store.allTxids id ∨ commit.detail.txid = some txid)) := by
  obtain ⟨e, logged, assigned⟩ := List.mem_filterMap.mp member
  cases found : p.world.store.ops.get? id with
  | none =>
      rw [(stride.intake_event ok ok' found logged).2] at assigned
      cases assigned
  | some old =>
      obtain ⟨new, stored, goes⟩ := stride.goes found
      have key := p.world.store.keyed id old found
      cases goes with
      | kept claimedBy leaseExpiresAt token updatedAt stamp log =>
          rw [key] at log
          refine .inl ⟨?_, log, old, _, rfl, stored, rfl, rfl⟩
          simpa only [MemoryStore.allTxids, log] using member
      | written commit was source =>
          subst source
          refine .inr ⟨commit, was, key, ?_⟩
          rw [was, ← key, commit.eventsOf] at logged
          rcases List.mem_append.mp logged with before | new
          · exact .inl (key ▸ List.mem_filterMap.mpr ⟨e, before, assigned⟩)
          · rw [List.mem_singleton.mp new] at assigned
            exact .inr assigned

end Histories

/-! ## What a write does to the transaction at hand -/

/-- States in which the row's transaction may be in the world. -/
def OpState.exposed (s : OpState) : Bool := s ∈ [.broadcasting, .broadcast, .confirmed, .failed]

/-- The four things a write can mean for the row's transaction. -/
inductive Phase (D : Deployment) (p : Moment) (op : Operation) (toState : OpState) (sets : Sets)
    (detail : Detail) : Prop
  | prepare (hidden : OpState.exposed op.state = false) (unsent : toState ≠ .broadcasting)
  | announce (tx : SignedTx) (hidden : OpState.exposed op.state = false)
      (target : OpState.exposed toState = true) (signed : op.signedTx = some tx)
      (kept : sets.signedTx = none) (txid : detail.txid = some tx.txid)
  | progress (tx : SignedTx) (exposed : OpState.exposed op.state = true)
      (target : OpState.exposed toState = true) (signed : op.signedTx = some tx)
      (kept : sets.signedTx = none) (txid : ∀ named, detail.txid = some named → named = tx.txid)
  | retire (tx : SignedTx) (state : op.state = .broadcasting ∨ op.state = .broadcast)
      (target : toState = .signing) (signed : op.signedTx = some tx) (txid : detail.txid = none)
      (late : tx.expiration + D.cfg.expirationSafetySeconds ≤ p.world.node.headTime)
      (unmined : op.state = .broadcast → Forward p.trace → Lapsed p.world tx.txid)

section Phases

variable {D : Deployment} {p : Moment} {t : Nat} {op : Operation} {toState : OpState} {sets : Sets}
  {detail : Detail}

theorem exposed_live {s : OpState} (exposed : OpState.exposed s = true)
    (live : s.terminal = false) : s = .broadcasting ∨ s = .broadcast := by
  cases s with
  | broadcasting => exact .inl rfl
  | broadcast => exact .inr rfl
  | confirmed | failed => cases live
  | requested | validated | signing | signed | rejected => cases exposed

theorem Write.phase (write : Write D p t op toState sets detail) (shape : Shape D op) :
    Phase D p op toState sets detail := by
  cases write with
  | reject state | validate state | startSigning state | giveUp state | build state | sign state
  | dropUnsent state => exact .prepare (by rw [state]; rfl) (by decide)
  | writeAhead state tx signed => exact .announce tx (by rw [state]; rfl) rfl signed rfl rfl
  | accepted state tx signed | hardReject state tx signed | noted state tx signed
  | found state tx signed | confirm state tx signed | reverted state tx signed =>
      exact .progress tx (by rw [state]; rfl) rfl signed rfl fun _ same =>
        (Option.some.inj same).symm
  | retire state tx signed solidTime solidBlock audited deadline passed unmined =>
      exact .retire tx state rfl signed rfl (deadline.trans passed) unmined
  | breadcrumb live =>
      cases exposed : OpState.exposed op.state with
      | true =>
          obtain ⟨tx, stored⟩ := shape.sealed (by have := exposed_live exposed live; tauto)
          exact .progress tx exposed exposed stored.signedTx rfl nofun
      | false =>
          refine .prepare exposed fun state => ?_
          rw [state] at exposed
          cases exposed

/-- The expiration column is left alone, cleared, or set one lifetime after a clock read
that lies between the snapshot and the write. -/
theorem Write.expiry (write : Write D p t op toState sets detail) :
    sets.txExpiration = none ∨ sets.txExpiration = some none ∨
    ∃ now, sets.txExpiration = some (some (now + D.cfg.txTtlSeconds)) ∧
      (Forward p.trace → (∀ u, op.updatedAt = some u → u ≤ now) ∧ now ≤ p.world.now) := by
  cases write with
  | build _ _ ref now clock => exact .inr (.inr ⟨now, rfl, clock⟩)
  | dropUnsent | retire => exact .inr (.inl rfl)
  | reject | validate | startSigning | giveUp | sign | writeAhead | accepted | hardReject | noted
  | found | confirm | reverted | breadcrumb => exact .inl rfl

end Phases

/-! ## Every form expires by the row's own deadline -/

/-- No form written ahead outlives the row's envelope, nor one lifetime from its stamp. -/
structure Deadlines (D : Deployment) (p : Moment) (row : Operation) : Prop where
  stamp : ∀ u e, row.updatedAt = some u → row.txExpiration = some e →
    e ≤ u + D.cfg.txTtlSeconds
  ahead : ∀ tx u, WroteAhead p row.operationId tx → row.updatedAt = some u →
    tx.expiration ≤ u + D.cfg.txTtlSeconds
  form : ∀ tx e, WroteAhead p row.operationId tx → row.txExpiration = some e → tx.expiration ≤ e

section Deadlines

variable {D : Deployment} {p : Moment} {step : Step}

theorem Sealed.expiration {row : Operation} {tx : SignedTx} (stored : Sealed D row tx) :
    row.txExpiration = some tx.expiration := by
  obtain ⟨⟨u, built, rfl⟩, _⟩ := stored
  exact built.txExpiration

theorem Deadlines.written (commit : Commit D p) (stride : Stride D p commit.step) (inv : Inv D p)
    (inv' : Inv D (p.log commit.step)) (forward : Forward p.trace)
    (deadlines : Deadlines D p commit.op) : Deadlines D (p.log commit.step) commit.row := by
  obtain ⟨u, stamp, early⟩ := (inv.rows _ _ commit.found).stamped
  have early := early forward
  have now_ : commit.row.updatedAt = some p.world.now := MemoryStore.casRow_updatedAt _ _ _
  have same : commit.row.operationId = commit.op.operationId :=
    MemoryStore.casRow_operationId _ _ _
  have column : commit.row.txExpiration = commit.sets.txExpiration.getD commit.op.txExpiration :=
    MemoryStore.casRow_txExpiration _ _ _
  have expiry := commit.write.expiry
  have bound : ∀ e, commit.row.txExpiration = some e → e ≤ p.world.now + D.cfg.txTtlSeconds := by
    intro e set
    rw [column] at set
    rcases expiry with kept | cleared | ⟨now, built, clock⟩
    · rw [kept] at set
      have := deadlines.stamp u e stamp set
      omega
    · rw [cleared] at set
      cases set
    · rw [built] at set
      cases set
      have := (clock forward).2
      omega
  -- what this very write announced is the envelope on the row it left
  have fresh : ∀ {tx : SignedTx}, WroteAhead (p.log commit.step) commit.row.operationId tx →
      WroteAhead p commit.op.operationId tx ∨
        commit.row.txExpiration = some tx.expiration := by
    intro tx written
    rw [same] at written
    refine (written.of_commit stride).imp id fun ⟨intent, signed⟩ => ?_
    have state : commit.row.state = .broadcasting :=
      (MemoryStore.casRow_state _ _ _).trans intent.toState
    obtain ⟨tx', stored⟩ := (inv'.rows _ _ commit.stored).shape.sealed (.inr (.inl state))
    rw [stored.unique signed]
    exact stored.expiration
  refine ⟨fun u' e stamp' set => ?_, fun tx u' written stamp' => ?_, fun tx e written set => ?_⟩
  · rw [now_] at stamp'
    cases stamp'
    exact bound e set
  · rw [now_] at stamp'
    cases stamp'
    rcases fresh written with old | own
    · have := deadlines.ahead tx u old stamp
      omega
    · exact bound _ own
  · rcases fresh written with old | own
    · rw [column] at set
      rcases expiry with kept | cleared | ⟨now, built, clock⟩
      · rw [kept] at set
        exact deadlines.form tx e old set
      · rw [cleared] at set
        cases set
      · rw [built] at set
        cases set
        have := deadlines.ahead tx u old stamp
        have := (clock forward).1 u stamp
        omega
    · rw [own] at set
      cases set
      exact le_refl _

theorem Passed.deadlines (passed : Passed D p) :
    Forward p.trace → ∀ id row, p.world.store.ops.get? id = some row → Deadlines D p row := by
  intro forward id row found
  refine passed.row_induction (J := fun p _ row => Forward p.trace → Deadlines D p row) ?_ ?_
    id row found forward
  · -- a new row has no envelope, and nothing was written ahead for it
    intro p payload op w' passed stride valid absent _ _
    have none_ : ∀ tx,
        ¬ WroteAhead (p.log (.acted (.submit payload) p.world w')) op.operationId tx := by
      intro tx written
      rcases written.of_log stride with old | ⟨commit, clash, _⟩
      · obtain ⟨row', found', _⟩ := passed.ledger.pays _ tx old
        cases absent.symm.trans found'
      · cases clash
    have bare : op.txExpiration = none := by rw [(validated_row valid).row]
    refine ⟨fun u e _ set => ?_, fun tx _ written => absurd written (none_ tx),
      fun tx _ written => absurd written (none_ tx)⟩
    cases bare.symm.trans set
  intro p step id row row' passed passed' stride found goes ih forward
  have deadlines := ih (Forward.tail forward)
  cases goes with
  | kept claimedBy leaseExpiresAt token updatedAt stamp log =>
      obtain ⟨u, stamped, early⟩ := (passed.inv.rows _ row found).stamped
      have early := early (Forward.tail forward)
      have later : ∀ u', updatedAt = some u' → u ≤ u' := by
        intro u' set
        rcases stamp with keeps | moves
        · rw [set, stamped] at keeps
          exact (Option.some.inj keeps).ge
        · rw [set] at moves
          exact early.trans (Option.some.inj moves).ge
      refine ⟨fun u' e set set' => ?_, fun tx u' written set => ?_, fun tx e written set => ?_⟩
      · have := deadlines.stamp u e stamped set'
        have := later u' set
        omega
      · have := deadlines.ahead tx u (written.of_quiet stride log) stamped
        have := later u' set
        omega
      · exact deadlines.form tx e (written.of_quiet stride log) set
  | written commit was source =>
      subst was source
      exact Deadlines.written commit stride passed.inv passed'.inv (Forward.tail forward) deadlines

end Deadlines

/-! ## At most one -/

/-- No id of this operation is assigned to another. -/
def Sole (store : MemoryStore) (id : UUID) : Prop :=
  ∀ other, other ≠ id → ∀ txid ∈ store.allTxids id, txid ∉ store.allTxids other

/-- The id on an exposed row. -/
def Current (p : Moment) (id : UUID) (txid : Hex) : Prop :=
  ∃ row tx, p.world.store.ops.get? id = some row ∧ OpState.exposed row.state = true ∧
    row.signedTx = some tx ∧ tx.txid = txid

/-- In no block, and every form of it is past its time. -/
structure Outlived (p : Moment) (id : UUID) (txid : Hex) : Prop where
  out : ¬ p.world.node.Included txid
  late : ∀ tx, WroteAhead p id tx → tx.txid = txid →
    tx.expiration ≤ max p.world.now p.world.node.headTime

/-- Whenever a send without an answer was retired, it was in no block. -/
def RetiresUnmined (trace : List Step) : Prop :=
  ∀ step ∈ trace, ∀ id old new tx, Moved step id old new → old.state = .broadcasting →
    new.state = .signing → old.signedTx = some tx → ¬ step.before.node.Included tx.txid

section AtMostOne

variable {D : Deployment} {p : Moment} {step : Step} {id : UUID} {txid : Hex}

theorem Sole.of_grows {store store' : MemoryStore} (sole : Sole store' id)
    (grown : store.Grows store') : Sole store id :=
  fun other different txid own foreign => sole other different txid
    (MemoryStore.allTxids_subset grown id own) (MemoryStore.allTxids_subset grown other foreign)

/-- What the node holds under a sole id was written ahead by its operation. -/
theorem Ledger.own (ledger : Ledger D p) (sole : Sole p.world.store id)
    (member : txid ∈ p.world.store.allTxids id) {rec : TxRecord}
    (found : p.world.node.txs.get? txid = some rec) :
    rec.tx.txid = txid ∧ WroteAhead p id rec.tx := by
  obtain ⟨key, _, owner, written, _⟩ := ledger.sent txid rec found
  refine ⟨key, ?_⟩
  have assigned := ledger.assigned written
  rw [key] at assigned
  by_contra foreign
  refine sole owner ?_ txid member assigned
  rintro rfl
  exact foreign written

/-- A step outlives an id unless it writes the id ahead. -/
theorem Outlived.stride (stride : Stride D p step) (passed : Passed D p)
    (passed' : Passed D (p.log step)) (forward : Forward (step :: p.trace))
    (sole : Sole step.after.store id) (member : txid ∈ step.after.store.allTxids id)
    (before : txid ∈ p.world.store.allTxids id → Outlived p id txid)
    (fresh : ∀ tx, WroteAhead (p.log step) id tx → tx.txid = txid → WroteAhead p id tx) :
    Outlived (p.log step) id txid := by
  have chain := passed.inv.chain
  have grown := (chain.evolution stride.advances.node).2
  have clock := Forward.head forward
  rw [stride.before] at clock
  by_cases old : txid ∈ p.world.store.allTxids id
  · obtain ⟨out, late⟩ := before old
    refine ⟨MockTronNode.not_included_evolution chain stride.advances.node out ?_, ?_⟩
    · intro rec found
      obtain ⟨key, written⟩ := passed'.ledger.own sole member found
      exact late rec.tx (fresh rec.tx written key) key
    · intro tx written key
      have := late tx (fresh tx written key) key
      have := grown.headTime
      simp only [Point.log_world]
      omega
  · -- never assigned before, so never written ahead, so not at the node
    have unwritten : ∀ tx, WroteAhead (p.log step) id tx → tx.txid ≠ txid := by
      intro tx written key
      exact old (key ▸ passed.ledger.assigned (fresh tx written key))
    refine ⟨?_, fun tx written key => absurd key (unwritten tx written)⟩
    rintro ⟨rec, _, found, _⟩
    obtain ⟨key, written⟩ := passed'.ledger.own sole member found
    exact unwritten rec.tx written key

/-- Only the row's own transaction is current. -/
theorem Current.eq {row : Operation} (current : Current p id txid)
    (found : p.world.store.ops.get? id = some row) :
    OpState.exposed row.state = true ∧ ∃ tx, row.signedTx = some tx ∧ tx.txid = txid := by
  obtain ⟨row', tx, found', exposed, signed, key⟩ := current
  rw [found] at found'
  cases found'
  exact ⟨exposed, tx, signed, key⟩

/-- A commit that keeps an exposed row exposed keeps its transaction current. -/
theorem Commit.current (commit : Commit D p) {tx : SignedTx}
    (target : OpState.exposed commit.toState = true) (signed : commit.op.signedTx = some tx)
    (kept : commit.sets.signedTx = none) :
    Current (p.log commit.step) commit.op.operationId tx.txid := by
  refine ⟨commit.row, tx, commit.stored, ?_, ?_, rfl⟩
  · rw [Commit.row, MemoryStore.casRow_state]
    exact target
  · rw [Commit.row, MemoryStore.casRow_signedTx]
    simpa [Commit.req, snapshotRequest, kept] using signed

/-- The transaction a writer takes off its row is outlived. -/
theorem Commit.outlived (commit : Commit D p) {tx : SignedTx} (passed : Passed D p)
    (forward : Forward p.trace) (safety : 0 ≤ D.cfg.expirationSafetySeconds)
    (state : commit.op.state = .broadcasting ∨ commit.op.state = .broadcast)
    (target : commit.toState = .signing) (signed : commit.op.signedTx = some tx)
    (late : tx.expiration + D.cfg.expirationSafetySeconds ≤ p.world.node.headTime)
    (unmined : commit.op.state = .broadcast → Forward p.trace → Lapsed p.world tx.txid)
    (proven : RetiresUnmined (commit.step :: p.trace)) :
    Outlived p commit.op.operationId tx.txid := by
  constructor
  · rcases state with sent | accepted
    · refine proven _ List.mem_cons_self _ commit.op commit.row tx
        ⟨commit.found, commit.stored⟩ sent ?_ signed
      rw [Commit.row, MemoryStore.casRow_state]
      exact target
    · exact (unmined accepted forward).not_included
  · intro form written _
    have sealed_ : ∃ tx, Sealed D commit.op tx :=
      (passed.inv.rows _ _ commit.found).shape.sealed (by tauto)
    obtain ⟨tx', stored⟩ := sealed_
    rw [← stored.unique signed] at stored
    have := (passed.deadlines forward _ _ commit.found).form form _ written stored.expiration
    omega

/-- Every id ever assigned to a sole operation is the current one or outlived. -/
theorem Passed.current_or_outlived (safety : 0 ≤ D.cfg.expirationSafetySeconds)
    (passed : Passed D p) : Forward p.trace → RetiresUnmined p.trace → Sole p.world.store id →
      ∀ txid ∈ p.world.store.allTxids id, Current p id txid ∨ Outlived p id txid := by
  refine passed_induction (J := fun p => Forward p.trace → RetiresUnmined p.trace →
    Sole p.world.store id → ∀ txid ∈ p.world.store.allTxids id,
      Current p id txid ∨ Outlived p id txid) ?_ ?_ passed
  · intro _ _ _ _ _ _ _ _ txid member
    cases member
  intro p step passed passed' stride ih forward proven sole txid member
  have ih := ih (Forward.tail forward)
    (fun step member => proven step (List.mem_cons_of_mem _ member))
    (sole.of_grows stride.advances.store.grows)
  have outlive := Outlived.stride stride passed passed' forward sole member
  rcases stride.assigned passed.logOk passed'.logOk member with
    ⟨before, log, old, new, found, found', state, signed⟩ | ⟨commit, rfl, rfl, source⟩
  · refine (ih txid before).imp (fun current => ?_) fun out =>
      outlive (fun _ => out) fun tx written _ => written.of_quiet stride log
    obtain ⟨exposed, tx, holds, key⟩ := current.eq found
    exact ⟨new, tx, found', state ▸ exposed, signed.trans holds, key⟩
  -- on a row that is not exposed nothing is current
  have hidden : OpState.exposed commit.op.state = false →
      txid ∈ p.world.store.allTxids commit.op.operationId →
      Outlived p commit.op.operationId txid := by
    intro hidden before
    refine (ih txid before).resolve_left fun current => ?_
    rw [(current.eq commit.found).1] at hidden
    cases hidden
  cases commit.write.phase (passed.inv.rows _ _ commit.found).shape with
  | prepare dark unsent =>
      refine .inr (outlive (hidden dark) fun tx written _ => ?_)
      exact (written.of_commit stride).resolve_right fun ⟨intent, _⟩ => unsent intent.toState
  | announce tx dark target signed kept txid' =>
      by_cases same : txid = tx.txid
      · exact .inl (same ▸ commit.current target signed kept)
      · refine .inr (outlive (hidden dark) fun form written key => ?_)
        refine (written.of_commit stride).resolve_right fun ⟨intent, _⟩ => same ?_
        exact key.symm.trans (Option.some.inj (intent.txid.symm.trans txid'))
  | progress tx exposed target signed kept txid' =>
      by_cases same : txid = tx.txid
      · exact .inl (same ▸ commit.current target signed kept)
      · have before : txid ∈ p.world.store.allTxids commit.op.operationId :=
          source.resolve_right fun new =>
            same (txid' txid new)
        refine .inr (outlive (fun _ => (ih txid before).resolve_left fun current => ?_)
          fun form written key => ?_)
        · obtain ⟨_, tx', signed', key⟩ := current.eq commit.found
          rw [signed] at signed'
          cases signed'
          exact same key.symm
        · refine (written.of_commit stride).resolve_right fun ⟨intent, _⟩ => ?_
          rw [Option.some.inj intent.fromState] at exposed
          cases exposed
  | retire tx state target signed unnamed late unmined =>
      have before : txid ∈ p.world.store.allTxids commit.op.operationId :=
        source.resolve_right fun new => by
          rw [unnamed] at new
          cases new
      refine .inr (outlive (fun _ => ?_) fun form written key => ?_)
      · rcases ih txid before with current | out
        · obtain ⟨_, tx', signed', rfl⟩ := current.eq commit.found
          rw [signed] at signed'
          cases signed'
          exact commit.outlived passed (Forward.tail forward) safety state target signed late
            unmined proven
        · exact out
      · refine (written.of_commit stride).resolve_right fun ⟨intent, _⟩ => ?_
        cases target.symm.trans (show commit.toState = .broadcasting from intent.toState)

end AtMostOne

/-! ## Runs -/

section Decide

instance (node : MockTronNode) (txid : Hex) : Decidable (node.Included txid) :=
  decidable_of_iff _ (node.mem_includedTxids txid)

instance (store : MemoryStore) (id : UUID) : Decidable (Sole store id) :=
  decidable_of_iff (∀ e ∈ store.events, e.operationId ≠ id → ∀ txid ∈ e.detail.txid,
      txid ∉ store.allTxids id) (by
    simp only [Sole, MemoryStore.allTxids, MemoryStore.eventsOf, List.mem_filterMap,
      List.mem_filter, decide_eq_true_eq, Option.mem_def]
    constructor
    · rintro check other different txid ⟨own, mine, named⟩ ⟨e, ⟨member, rfl⟩, assigned⟩
      exact check e member different txid assigned ⟨own, mine, named⟩
    · rintro sole e member different txid assigned ⟨own, mine, named⟩
      exact sole e.operationId different txid ⟨own, mine, named⟩ ⟨e, ⟨member, rfl⟩, assigned⟩)

instance (trace : List Step) : Decidable (RetiresUnmined trace) :=
  decidable_of_iff (∀ step ∈ trace, ∀ entry ∈ step.before.store.ops.entries,
      entry.2.state = .broadcasting →
      (∃ new ∈ step.after.store.ops.get? entry.1, new.state = .signing) →
      ∀ tx ∈ entry.2.signedTx, ¬ step.before.node.Included tx.txid) (by
    constructor
    · intro check step member id old new tx moved from_ to_ signed
      exact check step member (id, old) ((Dict.get?_eq_some_iff _ _ _).mp moved.1) from_
        ⟨new, moved.2, to_⟩ tx signed
    · rintro proven step member ⟨id, old⟩ entry from_ ⟨new, after, to_⟩ tx signed
      exact proven step member id old new tx
        ⟨(Dict.get?_eq_some_iff _ _ _).mpr entry, after⟩ from_ to_ signed)

end Decide

section Runs

variable {D : Deployment} {c : Run}

/-- **No double spend**, as far as it goes.  While the clock never goes back, a withdrawal
whose transactions are its own has at most one of them in a block, in every run in which
no retired send was in a block at the moment it was retired. -/
theorem no_double_spend (reached : D.Reachable c) (forward : Forward c.point.trace)
    (safety : 0 ≤ D.cfg.expirationSafetySeconds) (proven : RetiresUnmined c.point.trace) (id : UUID)
    (sole : Sole c.point.world.store id) :
    ∀ txid ∈ c.point.world.store.allTxids id, ∀ txid' ∈ c.point.world.store.allTxids id,
      c.point.world.node.Included txid → c.point.world.node.Included txid' → txid = txid' := by
  have fate := Passed.current_or_outlived safety ⟨c, reached, rfl⟩ forward proven sole
  have current : ∀ txid ∈ c.point.world.store.allTxids id, c.point.world.node.Included txid →
      Current c.point id txid :=
    fun txid member included => (fate txid member).resolve_right fun out => out.out included
  intro txid member txid' member' included included'
  obtain ⟨row, tx, found, _, signed, rfl⟩ := current txid member included
  obtain ⟨_, tx', signed', rfl⟩ := (current txid' member' included').eq found
  rw [signed] at signed'
  cases signed'
  rfl

/-- A worker stalls between write-ahead and send; ten minutes later another worker proves
the unsent transaction dead, builds a new one and sends it; it is mined. -/
theorem no_double_spend_rebuilt : ∃ c, Sample.deployment.Reachable c ∧ Forward c.point.trace ∧
    0 ≤ Sample.deployment.cfg.expirationSafetySeconds ∧ RetiresUnmined c.point.trace ∧
    Sole c.point.world.store 0x11111111111141118111111111111111 ∧
    (∃ txid ∈ c.point.world.store.allTxids 0x11111111111141118111111111111111,
      c.point.world.node.Included txid) ∧
    ∀ txid ∈ c.point.world.store.allTxids 0x11111111111141118111111111111111,
    ∀ txid' ∈ c.point.world.store.allTxids 0x11111111111141118111111111111111,
      c.point.world.node.Included txid → c.point.world.node.Included txid' → txid = txid' := by
  obtain ⟨c, reached, done⟩ := reachable_of_schedule (D := Sample.deployment)
    (fun c => decide (Forward c.point.trace ∧ RetiresUnmined c.point.trace ∧
      Sole c.point.world.store 0x11111111111141118111111111111111 ∧
      ∃ txid ∈ c.point.world.store.allTxids 0x11111111111141118111111111111111,
        c.point.world.node.Included txid))
    Sample.epoch (by decide)
    ([.act (.submit (Sample.request "11111111111141118111111111111111" "1")), .spawn "a"] ++
      Sample.serves 0 11 ++ [.act (.advance (600 * second)), .act (.produceBlocks 3), .spawn "b"] ++
      Sample.serves 1 17 ++ [.act (.produceBlocks 1)]) (by decide +kernel)
  obtain ⟨forward, proven, sole, mined⟩ := of_decide_eq_true done
  exact ⟨c, reached, forward, by decide, proven, sole, mined,
    no_double_spend reached forward (by decide) proven _ sole⟩

/-- **A double spend.**  Worker `a` writes ahead and stalls; its lease runs out.  Worker `b`
claims, looks the transaction up, finds nothing and stalls.  `a` sends, and a block takes the
transaction in.  A minute later `b` reads the solid clock, finds the transaction expired,
retires it, builds another one and sends that; the next block takes it in too. -/
theorem double_spend :
    0 < Sample.deployment.cfg.txTtlSeconds ∧
    0 ≤ Sample.deployment.cfg.expirationSafetySeconds ∧
    Sample.deployment.cfg.leaseSeconds = .finite 30 0 ∧ Sample.deployment.declining = false ∧
    ∃ c, Sample.deployment.Reachable c ∧ Forward c.point.trace ∧
      Sole c.point.world.store 0x11111111111141118111111111111111 ∧
      ∃ txid ∈ c.point.world.store.allTxids 0x11111111111141118111111111111111,
      ∃ txid' ∈ c.point.world.store.allTxids 0x11111111111141118111111111111111,
        c.point.world.node.Included txid ∧ c.point.world.node.Included txid' ∧ txid ≠ txid' := by
  refine ⟨by decide, by decide, rfl, rfl, ?_⟩
  obtain ⟨c, reached, done⟩ := reachable_of_schedule (D := Sample.deployment)
    (fun c => decide (Forward c.point.trace ∧
      Sole c.point.world.store 0x11111111111141118111111111111111 ∧
      ∃ txid ∈ c.point.world.store.allTxids 0x11111111111141118111111111111111,
      ∃ txid' ∈ c.point.world.store.allTxids 0x11111111111141118111111111111111,
        c.point.world.node.Included txid ∧ c.point.world.node.Included txid' ∧ txid ≠ txid'))
    Sample.epoch (by decide)
    ([.act (.submit (Sample.request "11111111111141118111111111111111" "1")), .spawn "a"] ++
      Sample.serves 0 11 ++ [.act (.advance (31 * second)), .spawn "b"] ++ Sample.serves 1 2 ++
      Sample.serves 0 1 ++
      [.act (.produceBlocks 1), .act (.advance (60 * second)), .act (.produceBlocks 3)] ++
      Sample.serves 1 12 ++ [.act (.produceBlocks 1)]) (by decide +kernel)
  exact ⟨c, reached, of_decide_eq_true done⟩

end Runs

end Sluice.Protocol
