/-
# Protocol.Conservation -- when one payment settles two withdrawals

A transaction id is the digest of its raw data, and the raw data says nothing of the
operation it pays: destination, amount, reference block, and two millisecond stamps.  What
a builder puts in is its `Draft`: the row, the block it read and the clock it read.  Every
id ever assigned stems from a draft of its operation (`Passed.stemming`), so when the digest
does not collide, two operations share an id exactly when they were drafted alike.

`one_payment_two_withdrawals` is the run in which that happens: two equal requests in one
batch get one transaction, the second send is a duplicate and counts as accepted, and both
are confirmed by one payment.  `conserved` says that nothing else can break the balance.
-/
import Sluice.Protocol.Accounting
import Sluice.Theory.Lists

namespace Sluice.Protocol

open Sluice.Theory Sluice.Kernel
open MemoryStore (casRow)

set_option autoImplicit false

/-! ## Drafts -/

/-- What an envelope is made from: the row as it stood, and the two readings. -/
structure Draft where
  row : Operation
  ref : RefBlock
  now : Int

/-- The draft behind a committed build. -/
def draftOf (step : Step) (older : List Step) : Option Draft := do
  let (req, _) ← committed step
  let _ ← req.sets.unsignedTx.join
  let t ← step.thread?
  let (ref, now) ← readings (older.filter fun label => label.thread? = some t)
  let row ← step.before.store.ops.get? req.operationId
  return ⟨row, ref, now⟩

def drafts : List Step → List Draft
  | [] => []
  | step :: older => (draftOf step older).toList ++ drafts older

def Draft.txid (D : Deployment) (draft : Draft) : Hex :=
  (D.envelope draft.row draft.ref draft.now).txid

/-- Same destination and amount, same block, and clocks that are stamped alike, now and at
the end of the lifetime. -/
def Draft.Alike (D : Deployment) (a b : Draft) : Prop :=
  a.row.toAddress = b.row.toAddress ∧ a.row.amountUnits = b.row.amountUnits ∧ a.ref = b.ref ∧
    timestampMs a.now = timestampMs b.now ∧
    timestampMs (a.now + D.cfg.txTtlSeconds) = timestampMs (b.now + D.cfg.txTtlSeconds)

/-- No two operations are drafted alike. -/
def DistinctDrafts (D : Deployment) (trace : List Step) : Prop :=
  ∀ a ∈ drafts trace, ∀ b ∈ drafts trace, a.Alike D b → a.row.operationId = b.row.operationId

instance (D : Deployment) (a b : Draft) : Decidable (a.Alike D b) :=
  inferInstanceAs (Decidable (_ ∧ _ ∧ _ ∧ _ ∧ _))

instance (D : Deployment) (trace : List Step) : Decidable (DistinctDrafts D trace) :=
  inferInstanceAs (Decidable (∀ a ∈ drafts trace, ∀ b ∈ drafts trace, a.Alike D b →
    a.row.operationId = b.row.operationId))

/-- The id is that of a draft of the operation. -/
def Stems (D : Deployment) (trace : List Step) (id : UUID) (txid : Hex) : Prop :=
  ∃ draft ∈ drafts trace, draft.row.operationId = id ∧ draft.txid D = txid

section Drafts

variable {D : Deployment} {p : Moment} {step : Step} {id : UUID} {txid : Hex}

/-- Drafts with one id are alike, unless the digest collides. -/
theorem Draft.txid_eq_iff (separates : Function.Injective D.sha256) (a b : Draft) :
    a.txid D = b.txid D ↔ a.Alike D b := by
  constructor
  · intro same
    have raw := computeTxid_injective separates same
    simp only [rawData, RawData.mk.injEq, Contract.mk.injEq, true_and] at raw
    obtain ⟨⟨address, amount⟩, number, hash, stamp, expiry⟩ := raw
    exact ⟨address, Int.repr_injective amount, RefBlock.ext number hash, stamp, expiry⟩
  · rintro ⟨address, amount, ref, stamp, expiry⟩
    simp only [Draft.txid, Pipeline.envelope, rawData, address, amount, ref, stamp, expiry]

theorem Stems.cons (stems : Stems D p.trace id txid) : Stems D (step :: p.trace) id txid := by
  obtain ⟨draft, member, rest⟩ := stems
  exact ⟨draft, List.mem_append_right _ member, rest⟩

/-- A write drafts a new id, or knows no other id than the one on its row. -/
theorem Write.txid_cases {t : Nat} {op : Operation} {toState : OpState} {sets : Sets}
    {detail : Detail} (write : Write D p t op toState sets detail) (shape : Shape D op) :
    (∃ ref now raw, readings (p.own t) = some (ref, now) ∧ sets.unsignedTx = some (some raw) ∧
      sets.txid = some (some (Draft.txid D ⟨op, ref, now⟩)) ∧
      detail.txid = some (Draft.txid D ⟨op, ref, now⟩)) ∨
    (sets.unsignedTx.join = none ∧ (∀ txid, sets.txid.getD op.txid = some txid →
      op.txid = some txid) ∧ ∀ txid, detail.txid = some txid → op.txid = some txid) := by
  have known : ∀ {tx : SignedTx}, op.signedTx = some tx →
      ∀ txid, some tx.txid = some txid → op.txid = some txid :=
    fun signed txid same => (shape.sealed_of_signed signed).txid.trans same
  cases write with
  | build state left ref now clock drafted =>
      exact .inl ⟨ref, now, _, drafted, rfl, rfl, rfl⟩
  | reject | validate | startSigning | giveUp | sign | breadcrumb =>
      exact .inr ⟨rfl, fun _ same => same, fun _ none_ => by cases none_⟩
  | dropUnsent | retire =>
      exact .inr ⟨rfl, fun _ none_ => (by cases none_), fun _ none_ => (by cases none_)⟩
  | writeAhead _ tx signed | accepted _ tx signed | hardReject _ tx signed | noted _ tx signed
  | found _ tx signed | confirm _ tx signed | reverted _ tx signed =>
      exact .inr ⟨rfl, fun _ same => same, known signed⟩

theorem Commit.draftOf_eq (commit : Commit D p) :
    draftOf commit.step p.trace = do
      let _ ← commit.sets.unsignedTx.join
      let (ref, now) ← readings (p.own commit.thread)
      return ⟨commit.op, ref, now⟩ := by
  have found : p.world.store.ops.get? commit.req.operationId = some commit.op := commit.found
  simp only [draftOf, Commit.step, committed, Label.thread?, Label.before_served, found,
    Option.bind_eq_bind, Option.bind_some, Point.own]
  rfl

/-- Every id on a row or in its log stems from a draft. -/
structure Stemming (D : Deployment) (p : Moment) : Prop where
  row : ∀ id row txid, p.world.store.ops.get? id = some row → row.txid = some txid →
    Stems D p.trace id txid
  logged : ∀ id, ∀ txid ∈ p.world.store.allTxids id, Stems D p.trace id txid

/-- A commit leaves no id on its row and names none that does not stem from a draft. -/
theorem Commit.stems (commit : Commit D p) (passed : Passed D p) (stemming : Stemming D p)
    (named : commit.row.txid = some txid ∨ commit.detail.txid = some txid) :
    Stems D (commit.step :: p.trace) commit.op.operationId txid := by
  have shape := (passed.inv.rows _ _ commit.found).shape
  rw [Commit.row, MemoryStore.casRow_txid] at named
  rcases commit.write.txid_cases shape with
    ⟨ref, now, raw, read, built, column, detail⟩ | ⟨_, column, detail⟩
  · have draft : draftOf commit.step p.trace = some ⟨commit.op, ref, now⟩ := by
      rw [commit.draftOf_eq, built, read]
      rfl
    refine ⟨⟨commit.op, ref, now⟩, ?_, rfl, ?_⟩
    · simp [drafts, draft]
    · rcases named with kept | told
      · rw [show commit.req.sets.txid = _ from column] at kept
        exact Option.some.inj kept
      · rw [detail] at told
        exact Option.some.inj told
  · have old : commit.op.txid = some txid := named.elim (column txid) (detail txid)
    exact (stemming.row _ commit.op txid commit.found old).cons

theorem Passed.stemming (passed : Passed D p) : Stemming D p := by
  refine passed_induction (J := Stemming D) ?_ ?_ passed
  · intro _ _ _ _ _
    refine ⟨fun id row txid found => ?_, fun id txid member => ?_⟩
    · simp [World.fresh, MemoryStore.empty] at found
    · cases member
  intro p step passed passed' stride stemming
  refine ⟨fun id row txid found held => ?_, fun id txid member => ?_⟩
  · cases before : p.world.store.ops.get? id with
    | none =>
        obtain ⟨payload, op, w', _, valid, _, rfl, _⟩ := stride.intake before found
        rw [(validated_row valid).row] at held
        cases held
    | some old =>
        obtain ⟨new, stored, goes⟩ := stride.goes before
        cases stored.symm.trans found
        cases goes with
        | kept => exact (stemming.row id old txid before held).cons
        | written commit was source =>
            rw [was, ← p.world.store.keyed id old before, ← source]
            exact commit.stems passed stemming (.inl held)
  · rcases stride.assigned passed.logOk passed'.logOk member with
      ⟨before, _⟩ | ⟨commit, rfl, rfl, before | told⟩
    · exact (stemming.logged id txid before).cons
    · exact (stemming.logged _ txid before).cons
    · exact commit.stems passed stemming (.inr told)

theorem Passed.draft_logged (passed : Passed D p) :
    ∀ draft ∈ drafts p.trace, draft.txid D ∈ p.world.store.allTxids draft.row.operationId := by
  refine passed_induction (J := fun p => ∀ draft ∈ drafts p.trace,
    draft.txid D ∈ p.world.store.allTxids draft.row.operationId) ?_ ?_ passed
  · intro _ _ _ _ _ draft member
    cases member
  intro p step passed _ stride ih draft member
  rcases List.mem_append.mp member with new | old
  · have drafted : draftOf step p.trace = some draft := Option.mem_toList.mp new
    obtain ⟨⟨req, row⟩, done, _⟩ := Option.bind_eq_some_iff.mp drafted
    obtain ⟨commit, rfl, _, _⟩ := stride.commits req row done
    have shape := (passed.inv.rows _ _ commit.found).shape
    rw [commit.draftOf_eq] at drafted
    rcases commit.write.txid_cases shape with ⟨ref, now, raw, read, built, _, detail⟩ | ⟨bare, _⟩
    · rw [built, read] at drafted
      cases drafted
      refine List.mem_filterMap.mpr ⟨commit.event, ?_, detail⟩
      rw [Point.log_world, commit.eventsOf]
      exact List.mem_append_right _ (List.mem_singleton.mpr rfl)
    · rw [bare] at drafted
      cases drafted
  · exact MemoryStore.allTxids_subset stride.advances.store.grows _ (ih draft old)

end Drafts

/-! ## Sums -/

/-- What all confirmed withdrawals asked for. -/
def settledUnits (store : MemoryStore) : Int :=
  ((store.ops.values.filter fun row => row.state = .confirmed).map (·.amountUnits)).sum

/-- What all successful transactions transferred. -/
def movedUnits (node : MockTronNode) : Int :=
  (node.successfulTxids.map fun txid => (node.txAmount txid).getD 0).sum

section Runs

variable {D : Deployment} {c : Run}

theorem record_amount (reached : D.Reachable c) {txid : Hex} {rec : TxRecord}
    (record : c.point.world.node.txs.get? txid = some rec) :
    ∃ units, c.point.world.node.txAmount txid = some units ∧ 0 ≤ units := by
  have passed : Passed D c.point := ⟨c, reached, rfl⟩
  obtain ⟨_, _, id, written, _⟩ := passed.ledger.sent txid rec record
  obtain ⟨row, found, pays⟩ := passed.ledger.pays id rec.tx written
  have asked := passed.asked id row found
  refine ⟨row.amountUnits, ?_, asked.natural⟩
  rw [MockTronNode.txAmount, record]
  exact (pays.contract asked).2

/-- Withdrawals that share no id are paid one by one. -/
theorem settled_le_moved (reached : D.Reachable c) (sole : ∀ id, Sole c.point.world.store id) :
    settledUnits c.point.world.store ≤ movedUnits c.point.world.node := by
  let payment (row : Operation) : Hex := row.txid.getD []
  let rows := c.point.world.store.ops.values.filter fun row => row.state = .confirmed
  have paid : ∀ row ∈ rows, payment row ∈ c.point.world.store.allTxids row.operationId ∧
      payment row ∈ c.point.world.node.successfulTxids ∧
      c.point.world.node.txAmount (payment row) = some row.amountUnits := by
    intro row member
    obtain ⟨listed, confirmed⟩ := List.mem_filter.mp member
    obtain ⟨tx, stored, assigned, landed, _, amount⟩ := confirmed_paid reached (sole _)
      ((MemoryStore.mem_rows_iff _ _).mp listed) (of_decide_eq_true confirmed)
    have same : payment row = tx.txid := by simp [payment, stored.txid]
    rw [same]
    exact ⟨assigned, (MockTronNode.mem_successfulTxids _ _).mpr landed, amount⟩
  -- one id pays one row only
  have distinct : (rows.map payment).Nodup := by
    have once := c.point.world.store.ops.values_nodup _ c.point.world.store.keyed
    refine List.Nodup.map_on (fun row member row' member' same => ?_) (once.filter _)
    by_contra different
    have unlike : row'.operationId ≠ row.operationId := by
      intro alike
      have found := (MemoryStore.mem_rows_iff _ _).mp (List.mem_filter.mp member).1
      have found' := (MemoryStore.mem_rows_iff _ _).mp (List.mem_filter.mp member').1
      rw [alike, found] at found'
      exact different (Option.some.inj found')
    exact sole _ _ unlike _ (paid row member).1 (same ▸ (paid row' member').1)
  calc settledUnits c.point.world.store
      = ((rows.map payment).map fun txid => (c.point.world.node.txAmount txid).getD 0).sum := by
        rw [settledUnits, List.map_map]
        refine congrArg List.sum (List.map_congr_left fun row member => ?_)
        simp [(paid row member).2.2]
    _ ≤ movedUnits c.point.world.node := by
        refine sum_map_le_of_subset _ distinct ?_ fun txid landed => ?_
        · intro txid member
          obtain ⟨row, inside, rfl⟩ := List.mem_map.mp member
          exact (paid row inside).2.1
        · obtain ⟨rec, _, record, _⟩ := (MockTronNode.mem_successfulTxids _ _).mp landed
          obtain ⟨units, amount, natural⟩ := record_amount reached record
          simpa [amount] using natural

/-- **Conservation**, as far as it goes.  Let the digest be free of collisions.  No two
operations ever share a transaction id exactly when no two were drafted alike; and then the
confirmed withdrawals add up to no more than what the chain has moved. -/
theorem conserved (separates : Function.Injective D.sha256) (reached : D.Reachable c) :
    ((∀ id id', id ≠ id' → ∀ txid ∈ c.point.world.store.allTxids id,
        txid ∉ c.point.world.store.allTxids id') ↔ DistinctDrafts D c.point.trace) ∧
    (DistinctDrafts D c.point.trace →
      (∀ txid ∈ c.point.world.node.successfulTxids,
        ∃ units, c.point.world.node.txAmount txid = some units) ∧
      settledUnits c.point.world.store ≤ movedUnits c.point.world.node) := by
  have passed : Passed D c.point := ⟨c, reached, rfl⟩
  have apart : DistinctDrafts D c.point.trace → ∀ id id', id ≠ id' →
      ∀ txid ∈ c.point.world.store.allTxids id, txid ∉ c.point.world.store.allTxids id' := by
    intro distinct id id' different txid member member'
    obtain ⟨a, drafted, rfl, rfl⟩ := passed.stemming.logged id txid member
    obtain ⟨b, drafted', rfl, same⟩ := passed.stemming.logged id' _ member'
    exact different (distinct a drafted b drafted' ((Draft.txid_eq_iff separates a b).mp same.symm))
  refine ⟨⟨fun disjoint a drafted b drafted' alike => ?_, apart⟩, fun distinct => ⟨?_, ?_⟩⟩
  · by_contra different
    refine disjoint _ _ different _ (passed.draft_logged a drafted) ?_
    rw [(Draft.txid_eq_iff separates a b).mpr alike]
    exact passed.draft_logged b drafted'
  · intro txid landed
    obtain ⟨rec, _, record, _⟩ := (MockTronNode.mem_successfulTxids _ _).mp landed
    obtain ⟨units, amount, _⟩ := record_amount reached record
    exact ⟨units, amount⟩
  · exact settled_le_moved reached fun id other different => apart distinct id other different.symm

/-- Two requests for different amounts in one batch, both confirmed. -/
theorem conserved_two_amounts : Function.Injective Sample.deployment.sha256 ∧
    ∃ c, Sample.deployment.Reachable c ∧ DistinctDrafts Sample.deployment c.point.trace ∧
      settledUnits c.point.world.store = 3000000 ∧
      settledUnits c.point.world.store ≤ movedUnits c.point.world.node := by
  refine ⟨Function.injective_id, ?_⟩
  obtain ⟨c, reached, done⟩ := reachable_of_schedule (D := Sample.deployment)
    (fun c => decide (DistinctDrafts Sample.deployment c.point.trace ∧
      settledUnits c.point.world.store = 3000000)) Sample.epoch (by decide)
    ([.act (.submit (Sample.request "11111111111141118111111111111111" "1")),
      .act (.submit (Sample.request "22222222222242228222222222222222" "2")), .spawn "a"] ++
      Sample.serves 0 33 ++ [.act (.produceBlocks 3), .spawn "b"] ++ Sample.serves 1 9)
    (by decide +kernel)
  obtain ⟨distinct, total⟩ := of_decide_eq_true done
  exact ⟨c, reached, distinct, total,
    ((conserved Function.injective_id reached).2 distinct).2⟩

/-- **One payment, two withdrawals.**  Two requests for one unit to one address are driven by
one worker in one batch.  Both get the same transaction; the node answers the second send
with a duplicate, which counts as accepted.  Three blocks later both are confirmed, and the
chain has moved the amount once. -/
theorem one_payment_two_withdrawals : Function.Injective Sample.deployment.sha256 ∧
    Sample.deployment.declining = false ∧
    ∃ c, Sample.deployment.Reachable c ∧ Forward c.point.trace ∧ Sequential c.point.trace ∧
      (∃ txid ∈ c.point.world.store.allTxids 0x11111111111141118111111111111111,
        txid ∈ c.point.world.store.allTxids 0x22222222222242228222222222222222) ∧
      settledUnits c.point.world.store = 2000000 ∧
      movedUnits c.point.world.node = 1000000 := by
  refine ⟨Function.injective_id, rfl, ?_⟩
  obtain ⟨c, reached, done⟩ := reachable_of_schedule (D := Sample.deployment)
    (fun c => decide (Forward c.point.trace ∧ Sequential c.point.trace ∧
      (∃ txid ∈ c.point.world.store.allTxids 0x11111111111141118111111111111111,
        txid ∈ c.point.world.store.allTxids 0x22222222222242228222222222222222) ∧
      settledUnits c.point.world.store = 2000000 ∧
      movedUnits c.point.world.node = 1000000)) Sample.epoch (by decide)
    ([.act (.submit (Sample.request "11111111111141118111111111111111" "1")),
      .act (.submit (Sample.request "22222222222242228222222222222222" "1")), .spawn "a"] ++
      Sample.serves 0 33 ++ [.act (.produceBlocks 3), .spawn "b"] ++ Sample.serves 1 9)
    (by decide +kernel)
  exact ⟨c, reached, of_decide_eq_true done⟩

end Runs

end Sluice.Protocol
