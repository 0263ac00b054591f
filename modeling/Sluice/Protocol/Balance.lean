/-
# Protocol.Balance -- the books and the chain agree

Conservation compares two sums: what the confirmed withdrawals asked for, and what successful
transactions on the chain have moved.  The first is never more than the second.  The difference
is accounted for exactly: it is what has landed for withdrawals that are still under way, because
a worker has not looked yet.  When nothing is under way, the sums are equal.

This is true where at most one transaction of a withdrawal can land: no two withdrawals share an
id (`Sole`), no send is retired while it is in a block (`RetiresUnmined`), the clock does not go
back, the expiration margin is not negative and the node answers as the mock does.
`payments_perm` is the correspondence behind the sums: successful transactions and landed rows
are the same, one for one.
-/
import Sluice.Protocol.Conservation

namespace Sluice.Protocol

open Sluice.Theory Sluice.Kernel

set_option autoImplicit false

/-- The transaction on the row is in a block with success. -/
def landed (node : MockTronNode) (row : Operation) : Bool :=
  row.txid.any fun txid => node.successfulTxids.contains txid

/-- What has landed for withdrawals that are still under way. -/
def inFlightUnits (w : World) : Int :=
  ((w.store.ops.values.filter fun row => !row.state.terminal && landed w.node row).map
    (·.amountUnits)).sum

section Rows

variable {D : Deployment} {c : Run} {id : UUID} {row : Operation} {txid : Hex}

theorem landed_iff {node : MockTronNode} :
    landed node row = true ↔ ∃ txid, row.txid = some txid ∧ node.Successful txid := by
  simp only [landed, Option.any_eq_true, List.contains_iff_mem, MockTronNode.mem_successfulTxids]

theorem row_logged (reached : D.Reachable c) (found : c.point.world.store.ops.get? id = some row)
    (held : row.txid = some txid) : txid ∈ c.point.world.store.allTxids id := by
  have passed : Passed D c.point := ⟨c, reached, rfl⟩
  obtain ⟨draft, drafted, rfl, rfl⟩ := passed.stemming.row id row txid found held
  exact passed.draft_logged draft drafted

/-- A transaction with success is on the row of its operation. -/
theorem successful_on_row (safety : 0 ≤ D.cfg.expirationSafetySeconds) (reached : D.Reachable c)
    (forward : Forward c.point.trace) (proven : RetiresUnmined c.point.trace)
    (sole : Sole c.point.world.store id) (member : txid ∈ c.point.world.store.allTxids id)
    (success : c.point.world.node.Successful txid) :
    ∃ row tx, c.point.world.store.ops.get? id = some row ∧ OpState.exposed row.state = true ∧
      row.signedTx = some tx ∧ row.txid = some txid := by
  have passed : Passed D c.point := ⟨c, reached, rfl⟩
  have fate := passed.current_or_outlived safety forward proven sole txid member
  obtain ⟨row, tx, found, exposed, signed, rfl⟩ :=
    fate.resolve_right fun out => out.out success.included
  exact ⟨row, tx, found, exposed, signed,
    ((passed.inv.rows id row found).shape.sealed_of_signed signed).txid⟩

theorem landed_open (mock : D.declining = false) (safety : 0 ≤ D.cfg.expirationSafetySeconds)
    (reached : D.Reachable c) (forward : Forward c.point.trace)
    (proven : RetiresUnmined c.point.trace) (sole : Sole c.point.world.store id)
    (found : c.point.world.store.ops.get? id = some row)
    (lands : landed c.point.world.node row = true) :
    row.state = .confirmed ∨ row.state.terminal = false := by
  obtain ⟨txid, held, success⟩ := landed_iff.mp lands
  obtain ⟨row', tx, found', exposed, signed, _⟩ := successful_on_row safety reached forward proven
    sole (row_logged reached found held) success
  cases found.symm.trans found'
  cases state : row.state with
  | confirmed => exact .inl rfl
  | failed =>
      have key := ((Passed.inv ⟨c, reached, rfl⟩).rows id row found).shape.sealed_of_signed signed
      rw [key.txid] at held
      cases held
      exact absurd success (unpaid mock reached found state signed)
  | rejected =>
      rw [state] at exposed
      cases exposed
  | requested | validated | signing | signed | broadcasting | broadcast => exact .inr rfl

theorem landed_of_confirmed (reached : D.Reachable c) (sole : Sole c.point.world.store id)
    (found : c.point.world.store.ops.get? id = some row) (confirmed : row.state = .confirmed) :
    landed c.point.world.node row = true := by
  obtain ⟨tx, stored, _, success, _⟩ := confirmed_paid reached sole found confirmed
  exact landed_iff.mpr ⟨tx.txid, stored.txid, success⟩

end Rows

/-! ## Runs -/

section Runs

variable {D : Deployment} {c : Run}

def payment (row : Operation) : Hex := row.txid.getD []

/-- Successful transactions and landed rows are the same, one for one. -/
theorem payments_perm (safety : 0 ≤ D.cfg.expirationSafetySeconds) (reached : D.Reachable c)
    (forward : Forward c.point.trace) (proven : RetiresUnmined c.point.trace)
    (sole : ∀ id, Sole c.point.world.store id) :
    ((c.point.world.store.ops.values.filter (landed c.point.world.node)).map payment).Perm
      c.point.world.node.successfulTxids := by
  have passed : Passed D c.point := ⟨c, reached, rfl⟩
  have row_of : ∀ row ∈ c.point.world.store.ops.values.filter (landed c.point.world.node),
      c.point.world.store.ops.get? row.operationId = some row ∧ row.txid = some (payment row) ∧
        c.point.world.node.Successful (payment row) := by
    intro row member
    obtain ⟨listed, lands⟩ := List.mem_filter.mp member
    obtain ⟨txid, held, success⟩ := landed_iff.mp lands
    have same : payment row = txid := by simp [payment, held]
    exact ⟨(MemoryStore.mem_rows_iff _ _).mp listed, same ▸ held, same ▸ success⟩
  refine (List.perm_ext_iff_of_nodup ?_ ?_).mpr fun txid => ⟨fun member => ?_, fun member => ?_⟩
  · -- one id is on one row only
    have once := c.point.world.store.ops.values_nodup _ c.point.world.store.keyed
    refine List.Nodup.map_on (fun row member row' member' same => ?_) (once.filter _)
    obtain ⟨found, held, _⟩ := row_of row member
    obtain ⟨found', held', _⟩ := row_of row' member'
    by_contra different
    have unlike : row'.operationId ≠ row.operationId := by
      intro alike
      rw [alike, found] at found'
      exact different (Option.some.inj found')
    exact sole _ _ unlike _ (row_logged reached found held)
      (row_logged reached found' (held'.trans (congrArg some same.symm)))
  · exact c.point.world.node.txs.nodup.sublist (List.filter_sublist.map Prod.fst)
  · obtain ⟨row, inside, rfl⟩ := List.mem_map.mp member
    exact (MockTronNode.mem_successfulTxids _ _).mpr (row_of row inside).2.2
  · have success := (MockTronNode.mem_successfulTxids _ _).mp member
    obtain ⟨rec, _, record, _⟩ := success
    obtain ⟨rfl, _, id, written, _⟩ := passed.ledger.sent txid rec record
    obtain ⟨row, tx, found, _, _, held⟩ := successful_on_row safety reached forward proven (sole id)
      (passed.ledger.assigned written) ((MockTronNode.mem_successfulTxids _ _).mp member)
    have key := c.point.world.store.keyed id row found
    refine List.mem_map.mpr ⟨row, List.mem_filter.mpr ⟨?_, landed_iff.mpr ⟨_, held, ?_⟩⟩, ?_⟩
    · exact (MemoryStore.mem_rows_iff _ _).mpr (key ▸ found)
    · exact (MockTronNode.mem_successfulTxids _ _).mp member
    · simp [payment, held]

/-- **The books balance.**  Let no two withdrawals share a transaction id, let the clock never go
back, and let no send be retired while it is in a block.  Then in every state what the chain has
moved is what the confirmed withdrawals asked for, plus what has landed for withdrawals still
under way; and if every withdrawal has ended, the two sums are equal. -/
theorem books_balance (mock : D.declining = false)
    (safety : 0 ≤ D.cfg.expirationSafetySeconds) (reached : D.Reachable c)
    (forward : Forward c.point.trace) (proven : RetiresUnmined c.point.trace)
    (sole : ∀ id, Sole c.point.world.store id) :
    movedUnits c.point.world.node =
      settledUnits c.point.world.store + inFlightUnits c.point.world ∧
    ((∀ row ∈ c.point.world.store.ops.values, row.state.terminal = true) →
      movedUnits c.point.world.node = settledUnits c.point.world.store) := by
  have balance : movedUnits c.point.world.node =
      settledUnits c.point.world.store + inFlightUnits c.point.world := by
    have stored : ∀ row ∈ c.point.world.store.ops.values,
        c.point.world.store.ops.get? row.operationId = some row :=
      fun row listed => (MemoryStore.mem_rows_iff _ _).mp listed
    have paid : ∀ row ∈ c.point.world.store.ops.values.filter (landed c.point.world.node),
        (c.point.world.node.txAmount (payment row)).getD 0 = row.amountUnits := by
      intro row member
      obtain ⟨listed, lands⟩ := List.mem_filter.mp member
      obtain ⟨txid, held, success⟩ := landed_iff.mp lands
      obtain ⟨rec, _, record, _⟩ := success
      have found := stored row listed
      obtain ⟨_, amount⟩ :=
        landed_pays reached (sole _) found (row_logged reached found held) record
      simp [payment, held, amount]
    calc movedUnits c.point.world.node
        = (((c.point.world.store.ops.values.filter (landed c.point.world.node)).map payment).map
            fun txid => (c.point.world.node.txAmount txid).getD 0).sum :=
          (((payments_perm safety reached forward proven sole).map _).sum_eq).symm
      _ = ((c.point.world.store.ops.values.filter (landed c.point.world.node)).map
            (·.amountUnits)).sum := by
          rw [List.map_map]
          exact congrArg List.sum (List.map_congr_left paid)
      _ = settledUnits c.point.world.store + inFlightUnits c.point.world := by
          refine sum_map_filter_split _ (fun row listed => ?_) fun row listed both => ?_
          · have found := stored row listed
            cases lands : landed c.point.world.node row with
            | true =>
                rcases landed_open mock safety reached forward proven (sole _) found lands with
                  confirmed | running
                · simp [confirmed]
                · simp [running]
            | false =>
                have open_ : row.state ≠ .confirmed := fun confirmed => by
                  rw [landed_of_confirmed reached (sole _) found confirmed] at lands
                  cases lands
                simp [open_]
          · obtain ⟨confirmed, running⟩ := both
            rw [of_decide_eq_true confirmed] at running
            simp [OpState.terminal, OpState.transitions] at running
  refine ⟨balance, fun ended => ?_⟩
  have none_ : (c.point.world.store.ops.values.filter fun row =>
      !row.state.terminal && landed c.point.world.node row) = [] :=
    List.filter_eq_nil_iff.mpr fun row listed => by simp [ended row listed]
  rw [balance, inFlightUnits, none_]
  simp

theorem sole_of_distinct (separates : Function.Injective D.sha256) (reached : D.Reachable c)
    (distinct : DistinctDrafts D c.point.trace) (id : UUID) : Sole c.point.world.store id := by
  have passed : Passed D c.point := ⟨c, reached, rfl⟩
  intro other different txid member member'
  obtain ⟨a, drafted, rfl, rfl⟩ := passed.stemming.logged id txid member
  obtain ⟨b, drafted', rfl, same⟩ := passed.stemming.logged other _ member'
  have alike := (Draft.txid_eq_iff separates a b).mp same.symm
  exact different (distinct a drafted b drafted' alike).symm

/-- Two payments are mined; a worker has confirmed the first and not yet looked at the second. -/
theorem books_balance_half_way : Sample.deployment.declining = false ∧
    0 ≤ Sample.deployment.cfg.expirationSafetySeconds ∧
    ∃ c, Sample.deployment.Reachable c ∧ Forward c.point.trace ∧ RetiresUnmined c.point.trace ∧
      (∀ id, Sole c.point.world.store id) ∧ settledUnits c.point.world.store = 1000000 ∧
      inFlightUnits c.point.world = 2000000 ∧ movedUnits c.point.world.node = 3000000 := by
  refine ⟨rfl, by decide, ?_⟩
  obtain ⟨c, reached, done⟩ := reachable_of_schedule (D := Sample.deployment)
    (fun c => decide (Forward c.point.trace ∧ RetiresUnmined c.point.trace ∧
      DistinctDrafts Sample.deployment c.point.trace ∧
      settledUnits c.point.world.store = 1000000 ∧ inFlightUnits c.point.world = 2000000))
    Sample.epoch (by decide)
    ([.act (.submit (Sample.request "11111111111141118111111111111111" "1")),
      .act (.submit (Sample.request "22222222222242228222222222222222" "2")), .spawn "a"] ++
      Sample.serves 0 33 ++ [.act (.produceBlocks 3), .spawn "b"] ++ Sample.serves 1 5)
    (by decide +kernel)
  obtain ⟨forward, proven, distinct, settled, flying⟩ := of_decide_eq_true done
  have sole := sole_of_distinct Function.injective_id reached distinct
  have balance := (books_balance rfl (by decide) reached forward proven sole).1
  refine ⟨c, reached, forward, proven, sole, settled, flying, ?_⟩
  rw [balance, settled, flying]
  rfl

end Runs

end Sluice.Protocol
