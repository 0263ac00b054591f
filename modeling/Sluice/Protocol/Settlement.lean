/-
# Protocol.Settlement -- a settled row says what the chain says

The two verdicts that rest on the chain are written from a lookup that may be old by the
time of the write.  That does no harm: what the lookup saw, a record in a solid block, is
permanent (`MockTronNode.Grows`), and the write itself is fenced, so the transaction looked
up is the one on the row.  `Verdict` is what such a write leaves; no later step takes it
away, because a terminal row keeps its artefacts and a solid block its contents.

A collision-free digest makes the record's payload the row's own: the node keys records by
transaction id, and an id names one payload.
-/
import Sluice.Protocol.Accounting

namespace Sluice.Protocol

open Sluice.Theory Sluice.Kernel
open MemoryStore (casRow)

set_option autoImplicit false

/-- What `_await_confirmation` writes for a receipt other than success. -/
def revertedReason : String := "transaction reverted on chain"

/-- The row's transaction is in the row's block, the block is solid, and it came out as
`receipt`. -/
def Verdict (node : MockTronNode) (row : Operation) (receipt : Receipt) : Prop :=
  ∃ tx rec block, row.signedTx = some tx ∧ row.includedBlock = some block ∧
    node.txs.get? tx.txid = some rec ∧ rec.includedBlock = some block ∧
    block ≤ node.solidBlock ∧ rec.receipt = some receipt

/-- The chain backs the row: its transaction came out as `receipt` in exactly the block the
row names, the block is solid, and the payload is the row's amount for the row's address. -/
def Backed (node : MockTronNode) (row : Operation) (receipt : Receipt) : Prop :=
  ∃ txid rec block, row.txid = some txid ∧ row.includedBlock = some block ∧
    node.txs.get? txid = some rec ∧ rec.includedBlock = some block ∧ block ≤ node.solidBlock ∧
    rec.receipt = some receipt ∧ rec.tx.rawData.contract.toAddress = row.toAddress ∧
    intOfText rec.tx.rawData.contract.amountUnits.toList = some row.amountUnits

/-! ## The chain -/

section Chain

variable {sha256 : Bytes → Bytes} {now : Int} {node node' : MockTronNode}

/-- Every transaction in a block has a receipt. -/
def Receipted (node : MockTronNode) : Prop :=
  ∀ txid rec, node.txs.get? txid = some rec → rec.includedBlock.isSome = true →
    rec.receipt.isSome = true

theorem Receipted.evolves (receipted : Receipted node)
    (step : MockTronNode.Evolves sha256 now node node') : Receipted node' := by
  intro txid rec found included
  cases step with
  | quiet _ txs => exact receipted txid rec (txs ▸ found) included
  | accept tx _ fresh txs =>
      rw [txs, Dict.get?_set] at found
      split at found
      · cases found
        cases included
      · exact receipted txid rec found included
  | block =>
      obtain ⟨old, before, rfl | ⟨_, _, receipt, rfl⟩⟩ :=
        MockTronNode.produceBlock_record_inv now found
      · exact receipted txid _ before included
      · rfl

theorem Verdict.grows {row : Operation} {receipt : Receipt} (verdict : Verdict node row receipt)
    (grown : node.Grows node') : Verdict node' row receipt := by
  obtain ⟨tx, rec, block, signed, block', found, included, solid, receipt'⟩ := verdict
  refine ⟨tx, rec, block, signed, block', grown.final found included, included, ?_, receipt'⟩
  have head := grown.head
  have lag := grown.lag
  simp only [MockTronNode.solidBlock] at solid ⊢
  omega

end Chain

/-! ## Rows -/

section Rows

variable {D : Deployment} {p : Moment} {row row' : Operation} {receipt : Receipt}

theorem Passed.receipted (passed : Passed D p) : Receipted p.world.node := by
  refine passed_induction (J := fun p => Receipted p.world.node) ?_ ?_ passed
  · intro _ _ _ _ _ txid rec found
    simp [World.fresh, MockTronNode.genesis] at found
  intro p step _ _ stride receipted
  rw [Point.log_world]
  refine Relation.ReflTransGen.head_induction_on
    (motive := fun node _ => Receipted node → Receipted step.after.node)
    stride.advances.node id ?_ receipted
  exact fun evolves _ ih before => ih (before.evolves evolves)

theorem Verdict.congr (verdict : Verdict p.world.node row receipt)
    (signed : row'.signedTx = row.signedTx) (block : row'.includedBlock = row.includedBlock) :
    Verdict p.world.node row' receipt := by
  unfold Verdict
  rw [signed, block]
  exact verdict

/-- The verdicts of a row that rest on the chain. -/
structure Judged (node : MockTronNode) (row : Operation) : Prop where
  confirmed : row.state = .confirmed → Verdict node row .success
  reverted : row.state = .failed → row.failureReason = some revertedReason →
    Verdict node row .reverted

/-- The other reasons to fail read differently, from the first letter on. -/
theorem ne_revertedReason {reason start rest : String} (text : reason = start ++ rest)
    (differ : start.toList.head? ≠ some 't') (some_ : start.toList ≠ []) :
    reason ≠ revertedReason := by
  intro same
  have first := congrArg (fun text => text.toList.head?) (text.symm.trans same)
  simp only [String.toList_append, List.head?_append_of_ne_nil _ some_] at first
  exact differ first

theorem Commit.judged (commit : Commit D p) (receipted : Receipted p.world.node) :
    Judged p.world.node commit.row := by
  have state : commit.row.state = commit.toState := MemoryStore.casRow_state _ _ _
  have signed := MemoryStore.casRow_signedTx p.world.now commit.req commit.op
  have block := MemoryStore.casRow_includedBlock p.world.now commit.req commit.op
  have reason := MemoryStore.casRow_failureReason p.world.now commit.req commit.op
  obtain ⟨thread, choice, op, renew, toState, worker, sets, detail, found, claimed, write, _⟩ :=
    commit
  constructor
  · intro confirmed
    rw [state] at confirmed
    cases write with
    | confirm state' tx signed' rec recorded block' included success solid now =>
        exact ⟨tx, rec, block', signed.trans signed', block, recorded, included, solid, success⟩
    | reject | validate | startSigning | giveUp | build | sign | dropUnsent | writeAhead | accepted
    | hardReject | noted | found | retire | reverted => cases confirmed
    | breadcrumb live => cases live.symm.trans (congrArg OpState.terminal confirmed)
  · intro failed named
    rw [state] at failed
    cases write with
    | reverted state' tx signed' rec recorded block' included failure solid =>
        refine ⟨tx, rec, block', signed.trans signed', block, recorded, included, solid, ?_⟩
        have given := receipted _ rec recorded (by rw [included]; rfl)
        obtain ⟨receipt, given⟩ := Option.isSome_iff_exists.mp given
        cases receipt with
        | success => exact absurd given failure
        | reverted => exact given
    | giveUp _ _ text same =>
        rw [String.append_assoc] at same
        exact absurd (Option.some.inj (reason.symm.trans named))
          (ne_revertedReason same (by decide) (by decide))
    | hardReject _ tx _ result _ _ text same =>
        exact absurd (Option.some.inj (reason.symm.trans named))
          (ne_revertedReason same (by decide) (by decide))
    | reject | validate | startSigning | build | sign | dropUnsent | writeAhead | accepted
    | noted | found | retire | confirm => cases failed
    | breadcrumb live => cases live.symm.trans (congrArg OpState.terminal failed)

theorem Passed.judged (passed : Passed D p) :
    ∀ id row, p.world.store.ops.get? id = some row → Judged p.world.node row := by
  refine passed.row_induction (J := fun p _ row => Judged p.world.node row) ?_ ?_
  · intro p payload op w' _ _ valid _ _
    rw [(validated_row valid).row]
    exact ⟨nofun, nofun⟩
  intro p step id row row' passed _ stride _ goes judged
  have grown := (passed.inv.chain.evolution stride.advances.node).2
  have later : ∀ {row}, Judged p.world.node row → Judged (p.log step).world.node row :=
    fun judged => ⟨fun state => (judged.confirmed state).grows grown,
      fun state named => (judged.reverted state named).grows grown⟩
  cases goes with
  | kept =>
      have judged := later judged
      exact ⟨fun state => (judged.confirmed state).congr rfl rfl,
        fun state named => (judged.reverted state named).congr rfl rfl⟩
  | written commit => exact later (commit.judged passed.receipted)

end Rows

/-! ## Runs -/

section Runs

variable {D : Deployment} {c c' : Run} {id : UUID} {row : Operation}

/-- One id, one payload: what the node holds under the row's id pays the row. -/
theorem Verdict.backed {receipt : Receipt} (separates : Function.Injective D.sha256)
    (reached : D.Reachable c) (found : c.point.world.store.ops.get? id = some row)
    (verdict : Verdict c.point.world.node row receipt) :
    Backed c.point.world.node row receipt := by
  have passed : Passed D c.point := ⟨c, reached, rfl⟩
  obtain ⟨tx, rec, block, signed, block', record, included, solid, came⟩ := verdict
  have stored := (passed.inv.rows id row found).shape.sealed_of_signed signed
  obtain ⟨key, _, id', written, _⟩ := passed.ledger.sent tx.txid rec record
  obtain ⟨row', _, ref', now', other⟩ := passed.ledger.pays id' rec.tx written
  have pays := stored.pays
  obtain ⟨address, amount⟩ := pays.contract (passed.asked id row found)
  obtain ⟨ref, now, same⟩ := pays
  have payload : rec.tx.rawData = tx.rawData := by
    rw [other, same] at key ⊢
    exact computeTxid_injective separates key
  exact ⟨tx.txid, rec, block, stored.txid, block', record, included, solid, came,
    payload ▸ address, payload ▸ amount⟩

/-- **Settled rows tell the truth.**  A confirmed row stays confirmed, and now and in every
later state its transaction is a success in exactly the block the row names, which is solid,
and pays the row's amount to the row's address.  A row that failed because its transaction
was reverted has it in a solid block, reverted. -/
theorem settled_rows_backed (separates : Function.Injective D.sha256) (reached : D.Reachable c)
    (found : c.point.world.store.ops.get? id = some row) :
    (row.state = .confirmed → ∀ c', D.machine.Reaches c c' →
      ∃ row', c'.point.world.store.ops.get? id = some row' ∧ row'.state = .confirmed ∧
        row'.txid = row.txid ∧ row'.includedBlock = row.includedBlock ∧
        row'.amountUnits = row.amountUnits ∧ row'.toAddress = row.toAddress ∧
        Backed c'.point.world.node row' .success) ∧
    (row.state = .failed → row.failureReason = some revertedReason →
      Backed c.point.world.node row .reverted) := by
  constructor
  · intro confirmed c' later
    have reached' := reachable_later reached later
    obtain ⟨claimedBy, lease, token, updatedAt, found'⟩ :=
      terminal_frozen reached later found (by rw [confirmed]; rfl)
    have judged := Passed.judged ⟨c', reached', rfl⟩ id _ found'
    exact ⟨_, found', confirmed, rfl, rfl, rfl, rfl,
      (judged.confirmed confirmed).backed separates reached' found'⟩
  · intro failed named
    have judged := Passed.judged ⟨c, reached, rfl⟩ id row found
    exact (judged.reverted failed named).backed separates reached found

/-- One payment is mined and confirmed; the next one is mined and reverted. -/
theorem settled_rows_backed_both : Function.Injective Sample.deployment.sha256 ∧
    ∃ c, Sample.deployment.Reachable c ∧
      (∃ row, c.point.world.store.ops.get? 0x11111111111141118111111111111111 = some row ∧
        row.state = .confirmed ∧ Backed c.point.world.node row .success) ∧
      ∃ row, c.point.world.store.ops.get? 0x22222222222242228222222222222222 = some row ∧
        row.state = .failed ∧ row.failureReason = some revertedReason ∧
        Backed c.point.world.node row .reverted := by
  refine ⟨fun _ _ same => same, ?_⟩
  obtain ⟨c, reached, done⟩ := reachable_of_schedule (D := Sample.deployment)
    (fun c => (c.point.world.store.ops.get? 0x11111111111141118111111111111111).any
        (fun row => row.state = .confirmed) &&
      (c.point.world.store.ops.get? 0x22222222222242228222222222222222).any
        fun row => row.state = .failed && row.failureReason = some revertedReason)
    Sample.epoch (by decide)
    ([.act (.submit (Sample.request "11111111111141118111111111111111" "1")), .spawn "a"] ++
      Sample.serves 0 15 ++ [.act (.produceBlocks 4)] ++ Sample.serves 0 4 ++
      [.act (.script .receipt [.revertReceipt]),
        .act (.submit (Sample.request "22222222222242228222222222222222" "2")), .spawn "b"] ++
      Sample.serves 1 15 ++ [.act (.produceBlocks 4)] ++ Sample.serves 1 3) (by decide +kernel)
  obtain ⟨first, second⟩ := Bool.and_eq_true_iff.mp done
  obtain ⟨row, found, confirmed⟩ := (Option.any_eq_true _ _).mp first
  obtain ⟨row', found', holds⟩ := (Option.any_eq_true _ _).mp second
  rw [Bool.and_eq_true, decide_eq_true_eq, decide_eq_true_eq] at holds
  have confirmed := of_decide_eq_true confirmed
  refine ⟨c, reached, ⟨row, found, confirmed, ?_⟩, row', found', holds.1, holds.2,
    (settled_rows_backed (fun _ _ same => same) reached found').2 holds.1 holds.2⟩
  obtain ⟨same, found'', _, _, _, _, _, backed⟩ :=
    (settled_rows_backed (fun _ _ same => same) reached found).1 confirmed c .refl
  cases found.symm.trans found''
  exact backed

end Runs

end Sluice.Protocol
