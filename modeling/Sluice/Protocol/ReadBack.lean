/-
# Protocol.ReadBack -- what is stored as text is read back as it was

A signed transaction goes into its row as JSON and comes out of it at the start of every later
handler; only its expiration changes its form on the way.  The rows of the model hold the
transaction itself.  `stored_text_reads_back` is why that is right: every expiration is an
instant that `datetime` has (`Dates`), and `fromisoformat` takes back what `isoformat` writes.

The same holds of what a client is shown: id, amount and time of creation.
-/
import Sluice.Protocol.ClientView
import Sluice.Protocol.Dates

namespace Sluice.Protocol

open Sluice.Theory Sluice.Kernel

set_option autoImplicit false

theorem fromJson_toJson {tx : SignedTx} (valid : IsDatetime tx.expiration) :
    SignedTx.fromJson tx.toJson = some tx := by
  simp only [SignedTx.fromJson, SignedTx.toJson, fromisoformat_isoformat valid, Option.map_some]

section Runs

variable {D : Deployment} {c : Run} {id : UUID} {row : Operation}

/-- **Everything stored as text is read back as it was.**  In every run `SignedTx.from_json` gives
back the very transaction that the signer made of the row's envelope, with the expiration that
stands in the row's own column.  A client that parses what it is shown gets the row's id, amount
and time of creation. -/
theorem stored_text_reads_back (reached : D.Reachable c)
    (found : c.point.world.store.ops.get? id = some row) :
    (∀ tx, row.signedTx = some tx → SignedTx.fromJson tx.toJson = some tx ∧
      fromisoformat tx.toJson.expiration = row.txExpiration ∧
      ∃ raw, row.unsignedTx = some raw ∧
        tx = D.signer.sign D.sha256 ⟨raw, computeTxid D.sha256 raw, tx.expiration⟩) ∧
    ∃ view, row.publicView = some view ∧ uuidOfText view.operationId = some id ∧
      intOfText view.amountUnits = some row.amountUnits ∧
      view.createdAt.bind fromisoformat = row.createdAt := by
  have passed : Passed D c.point := ⟨c, reached, rfl⟩
  have dates := passed.dates id row found
  constructor
  · intro tx signed
    obtain ⟨⟨u, built, rfl⟩, _⟩ := (passed.inv.rows id row found).shape.sealed_of_signed signed
    have expiration := built.txExpiration
    obtain ⟨valid, _⟩ := dates.expiration u.expiration expiration
    obtain ⟨ref, now, rfl⟩ := built.envelope
    exact ⟨fromJson_toJson valid, (fromisoformat_isoformat valid).trans expiration.symm,
      _, built.unsignedTx, rfl⟩
  · have asked := passed.asked id row found
    obtain ⟨view, seen, amount⟩ := asked.publicView
    obtain ⟨operationId, -, -, -, -, -, -, -, -, createdAt, -⟩ := publicView_eq seen
    refine ⟨view, seen, ?_, ?_, ?_⟩
    · rw [operationId, c.point.world.store.keyed id row found]
      exact uuidOfText_uuidText id
    · rw [amount]
      exact intOfText_number asked.natural asked.short
    · rw [createdAt]
      cases birth : row.createdAt with
      | none => rfl
      | some t =>
          rw [Option.map_some, Option.bind_some]
          exact fromisoformat_isoformat (dates.created t birth).1

/-- A row with a transaction that was just announced. -/
theorem stored_text_reads_back_announced : ∃ c row tx, Sample.deployment.Reachable c ∧
    c.point.world.store.ops.get? 0x11111111111141118111111111111111 = some row ∧
    row.signedTx = some tx ∧ SignedTx.fromJson tx.toJson = some tx ∧
    fromisoformat tx.toJson.expiration = row.txExpiration := by
  obtain ⟨c, reached, done⟩ := reachable_of_schedule (D := Sample.deployment)
    (fun c => (c.point.world.store.ops.get? 0x11111111111141118111111111111111).any
      fun row => row.signedTx.isSome)
    Sample.epoch (by decide)
    ([.act (.submit (Sample.request "11111111111141118111111111111111" "1")), .spawn "a"] ++
      Sample.serves 0 11) (by decide +kernel)
  obtain ⟨row, found, signed⟩ := (Option.any_eq_true _ _).mp done
  obtain ⟨tx, signed⟩ := Option.isSome_iff_exists.mp signed
  obtain ⟨back, expiration, _⟩ := (stored_text_reads_back reached found).1 tx signed
  exact ⟨c, row, tx, reached, found, signed, back, expiration⟩

end Runs

end Sluice.Protocol
