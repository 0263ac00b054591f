/-
# Protocol.Retirement -- giving up on a transaction that was accepted and never mined

A row moves between two states only by a listed write (`Stride.moved`), so a retirement
carries what its writer had made sure of.  For a row in `broadcast` that is enough: the
node once accepted the transaction, the lookup did not show it, so it was past its
expiration by the wall clock, and no block is stamped before the wall clock any more.
Blocks between the lookup and the write change nothing.
-/
import Sluice.Protocol.WriteAhead

namespace Sluice.Protocol

open Sluice.Theory Sluice.Kernel
open MemoryStore (casRow)

set_option autoImplicit false

/-- The row of operation `id` before and after a step. -/
def Moved (step : Step) (id : UUID) (old new : Operation) : Prop :=
  step.before.store.ops.get? id = some old ∧ step.after.store.ops.get? id = some new

section Moves

variable {D : Deployment} {p : Moment} {step : Step} {id : UUID} {old new : Operation}

/-- A change of state is a listed write, made from the row itself. -/
theorem Stride.moved (stride : Stride D p step) (moved : Moved step id old new)
    (changed : old.state ≠ new.state) :
    ∃ commit : Commit D p, step = commit.step ∧ commit.op = old ∧ commit.toState = new.state := by
  have before : p.world.store.ops.get? id = some old := stride.before ▸ moved.1
  obtain ⟨row, after, goes⟩ := stride.goes before
  cases after.symm.trans moved.2
  cases goes with
  | kept => exact absurd rfl changed
  | written commit was source =>
      refine ⟨commit, was, source, ?_⟩
      rw [Commit.row, MemoryStore.casRow_state]
      rfl

theorem Sealed.txid {row : Operation} {tx : SignedTx} (stored : Sealed D row tx) :
    row.txid = some tx.txid := by
  obtain ⟨⟨u, built, rfl⟩, _⟩ := stored
  exact built.txid

theorem Shape.sealed_of_signed {row : Operation} {tx : SignedTx} (shape : Shape D row)
    (signed : row.signedTx = some tx) : Sealed D row tx := by
  have unique : (∃ tx', Sealed D row tx') → Sealed D row tx := by
    rintro ⟨tx', stored⟩
    rwa [stored.unique signed]
  unfold Shape at shape
  cases state : row.state with
  | requested | validated | rejected =>
      rw [state] at shape
      cases shape.1.signedTx.symm.trans signed
  | signing =>
      rw [state] at shape
      cases shape.1.symm.trans signed
  | signed | broadcasting | broadcast | confirmed =>
      rw [state] at shape
      exact unique shape
  | failed =>
      rw [state] at shape
      exact unique (shape.resolve_left fun none_ => by cases none_.symm.trans signed)

theorem Write.lapsed {t : Nat} {op : Operation} {toState : OpState} {sets : Sets} {detail : Detail}
    (write : Write D p t op toState sets detail) (state : op.state = .broadcast)
    (target : toState = .signing) (forward : Forward p.trace) :
    ∃ tx, op.signedTx = some tx ∧ Lapsed p.world tx.txid := by
  cases write with
  | retire _ tx signed _ _ _ _ _ unmined => exact ⟨tx, signed, unmined state forward⟩
  | startSigning state' | build state' | dropUnsent state' =>
      rw [state] at state'
      cases state'
  | breadcrumb => cases state.symm.trans target
  | reject | validate | giveUp | sign | writeAhead | accepted | hardReject | noted | found
  | confirm | reverted => cases target

end Moves

section Runs

variable {D : Deployment} {c : Run}

/-- **Retiring an accepted transaction is safe.**  While the clock never goes back, every
row in `broadcast` holds a transaction the node has accepted; and once a row has gone from
`broadcast` to `signing`, the transaction it held is in no block, then and for ever. -/
theorem retirement_safe (reached : D.Reachable c) (forward : Forward c.point.trace) :
    (∀ id row, c.point.world.store.ops.get? id = some row → row.state = .broadcast →
      ∃ tx, row.signedTx = some tx ∧ Recorded c.point.world.node tx.txid) ∧
    (∀ step ∈ c.point.trace, ∀ id old new, Moved step id old new → old.state = .broadcast →
      new.state = .signing →
      ∃ tx, old.signedTx = some tx ∧ old.txid = some tx.txid ∧
        ¬ c.point.world.node.Included tx.txid) := by
  have inv : Inv D c.point := Passed.inv ⟨c, reached, rfl⟩
  constructor
  · intro id row found state
    have facts := inv.rows id row found
    obtain ⟨tx, stored⟩ := facts.shape.sealed (.inr (.inr (.inl state)))
    exact ⟨tx, stored.signedTx, facts.recorded (by rw [state]; rfl) tx stored.signedTx⟩
  · intro step member id old new moved from_ to_
    obtain ⟨newer, older, trace⟩ := List.append_of_mem member
    obtain ⟨c₀, c₁, reached₀, here, later, at₀, _, stride⟩ := reachable_past reached trace
    obtain ⟨commit, _, rfl, target⟩ := stride.moved moved (by rw [from_, to_]; decide)
    have forward₀ : Forward c₀.point.trace := by
      rw [at₀]
      rw [trace] at forward
      exact Forward.tail (Forward.suffix forward)
    obtain ⟨tx, signed, lapsed⟩ := commit.write.lapsed from_ (target.trans to_) forward₀
    -- lapsed here, so lapsed ever after
    have lasts := (stride_induction (J := fun p => Forward p.trace → Lapsed p.world tx.txid)
      (fun p step passed _ stride => (keeps_log (t := 0) passed.inv stride.before
        stride.advances.node).lapsed tx.txid) reached₀ (.head here later) fun _ => lapsed).1
    refine ⟨tx, signed, ?_, (lasts forward).not_included⟩
    have facts := (Passed.inv ⟨c₀, reached₀, rfl⟩).rows _ _ commit.found
    obtain ⟨tx', stored⟩ := facts.shape.sealed (.inr (.inr (.inl from_)))
    rw [stored.unique signed]
    exact stored.txid

/-- One request, accepted, not mined for ten minutes, and retired. -/
theorem retirement_safe_unmined : ∃ c step old new tx, Sample.deployment.Reachable c ∧
    Forward c.point.trace ∧ step ∈ c.point.trace ∧
    Moved step 0x11111111111141118111111111111111 old new ∧ old.state = .broadcast ∧
    new.state = .signing ∧ old.signedTx = some tx ∧
    ¬ c.point.world.node.Included tx.txid := by
  obtain ⟨c, reached, done⟩ := reachable_of_schedule (D := Sample.deployment)
    (fun c => decide (Forward c.point.trace) && c.point.trace.any fun step =>
      (step.before.store.ops.get? 0x11111111111141118111111111111111).any fun old =>
      (step.after.store.ops.get? 0x11111111111141118111111111111111).any fun new =>
        old.state = .broadcast && new.state = .signing)
    Sample.epoch (by decide)
    ([.act (.submit (Sample.request "11111111111141118111111111111111" "1")), .spawn "a"] ++
      Sample.serves 0 17 ++ [.act (.advance (600 * second)), .act (.produceBlocks 3), .spawn "b"] ++
      Sample.serves 1 5) (by decide +kernel)
  simp only [Bool.and_eq_true, decide_eq_true_eq, List.any_eq_true, Option.any_eq_true] at done
  obtain ⟨forward, step, member, old, before, new, after, from_, to_⟩ := done
  obtain ⟨tx, signed, _, out⟩ :=
    (retirement_safe reached forward).2 step member _ old new ⟨before, after⟩ from_ to_
  exact ⟨c, step, old, new, tx, reached, forward, member, ⟨before, after⟩, from_, to_, signed, out⟩

end Runs

end Sluice.Protocol
