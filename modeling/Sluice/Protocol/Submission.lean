/-
# Protocol.Submission -- intake is exactly-once, by meaning and not by spelling

A validated payload names an operation, an address and an amount; every spelling of the
three is the same request.  The first request under an id creates the row and its intake
event (`creates_iff`), and the columns that identify the request never change.  A later
request under the id is the same one exactly when address and amount agree, because the
stored hash is the hash of the stored columns (`Asked`) and the digest does not collide.
-/
import Sluice.Protocol.WriteAhead

namespace Sluice.Protocol

open Sluice.Theory Sluice.Kernel
open MemoryStore (identity LogOk)

set_option autoImplicit false

/-- The identifying columns of a row belong to a validated request. -/
structure Asked (D : Deployment) (row : Operation) : Prop where
  requestHash : row.requestHash =
    requestHash D.sha256 row.toAddress row.amountUnits D.cfg.asset
  natural : 0 ≤ row.amountUnits
  short : (Json.number row.amountUnits).length ≤ maxStrDigits

/-- The step is a submission under `id` that reports a new row. -/
def creates (D : Deployment) (id : UUID) : Step → Bool
  | .acted (.submit payload) before _ =>
      match (D.submit before payload).1 with
      | .ok result => result.created && result.operation.operationId = id
      | .error _ => false
  | _ => false

section Rows

variable {D : Deployment} {p : Moment} {step : Step} {id : UUID} {row row' : Operation}

theorem Asked.congr (asked : Asked D row) (same : identity row' = identity row) :
    Asked D row' := by
  simp only [identity, Prod.mk.injEq] at same
  obtain ⟨_, hash, address, _, amount, _⟩ := same
  exact ⟨by rw [hash, address, amount]; exact asked.requestHash, amount ▸ asked.natural,
    amount ▸ asked.short⟩

theorem Passed.asked (passed : Passed D p) :
    ∀ id row, p.world.store.ops.get? id = some row → Asked D row := by
  refine passed.row_induction (J := fun _ _ row => Asked D row) ?_ ?_
  · intro p payload op w' _ _ valid _ _
    have request := validated_row valid
    exact ⟨congrArg Operation.requestHash request.row, request.natural, request.short⟩
  intro p step id row row' _ _ _ _ goes asked
  cases goes with
  | kept => exact asked.congr rfl
  | written commit was source =>
      refine asked.congr ?_
      rw [Commit.row, MemoryStore.casRow_identity, source]

theorem creates_iff (id : UUID) (stride : Stride D p step) :
    creates D id step = true ↔
      p.world.store.ops.get? id = none ∧ (step.after.store.ops.get? id).isSome = true := by
  constructor
  · intro made
    cases stride.origin with
    | served t choice call reply w' was allowed moved => rw [was] at made; cases made
    | acted action w' was moved =>
        subst was
        cases action with
        | submit payload =>
            cases moved
            rcases submitWithdrawal_cases D.sha256 D.cfg p.world.store p.world.now payload with
              ⟨e, _, same⟩ | ⟨op, existing, _, _, same⟩ | ⟨op, valid, absent, inserted⟩
            · simp [creates, Deployment.submit, same] at made
            · simp only [creates, Deployment.submit, same] at made
              split at made
              · rename_i result answer
                split at answer
                · cases answer
                  cases made
                · cases answer
              · cases made
            · simp only [creates, Deployment.submit, inserted, Bool.true_and,
                decide_eq_true_eq] at made
              subst made
              refine ⟨absent, ?_⟩
              simp [Deployment.submit, inserted, MemoryStore.insertRow_get?]
        | advance | produceBlocks | script | arm => cases made
  · rintro ⟨absent, present⟩
    obtain ⟨row, found⟩ := Option.isSome_iff_exists.mp present
    obtain ⟨payload, op, w', rfl, valid, rfl, _, _⟩ := stride.intake absent found
    rcases submitWithdrawal_cases D.sha256 D.cfg p.world.store p.world.now payload with
      ⟨e, invalid, _⟩ | ⟨op', existing, valid', found', _⟩ | ⟨op', valid', _, inserted⟩
    · rw [valid] at invalid
      cases invalid
    · rw [valid] at valid'
      cases valid'
      rw [absent] at found'
      cases found'
    · rw [valid] at valid'
      cases valid'
      simp [creates, Deployment.submit, inserted]

/-- A row exists exactly when one submission reported it as new. -/
theorem Passed.created (passed : Passed D p) (id : UUID) :
    p.trace.countP (creates D id) = if (p.world.store.ops.get? id).isSome then 1 else 0 := by
  refine passed_induction (J := fun p => p.trace.countP (creates D id) =
    if (p.world.store.ops.get? id).isSome then 1 else 0) (fun _ _ _ _ _ => rfl) ?_ passed
  intro p step _ _ stride ih
  rw [Point.log_trace, List.countP_cons, ih, Point.log_world]
  have iff_ := creates_iff id stride
  cases before : p.world.store.ops.get? id with
  | none =>
      cases after : step.after.store.ops.get? id with
      | none => simp_all
      | some row => simp_all
  | some row =>
      obtain ⟨row', after, _⟩ := stride.advances.store.grows.rows id row before
      simp_all

end Rows

section Runs

variable {D : Deployment} {c : Run}

/-- What a validated submission of the past did. -/
theorem submitted_past (reached : D.Reachable c) {payload : Payload} {before after : World}
    {op : Operation} (member : .acted (.submit payload) before after ∈ c.point.trace)
    (valid : validated D.sha256 D.cfg payload = .ok op) :
    (before.store.ops.get? op.operationId = none ∧
      creates D op.operationId (.acted (.submit payload) before after) = true) ∨
    (∃ existing, before.store.ops.get? op.operationId = some existing ∧ Asked D existing ∧
      after = before ∧ (D.submit before payload).1 =
        if existing.requestHash = op.requestHash then .ok ⟨existing, false⟩
        else .error (.payloadMismatch op.operationId)) := by
  obtain ⟨older, passed, stride, _⟩ := step_past reached member
  cases stride.origin with
  | served t choice call reply w' was => cases was
  | acted action w' was moved =>
      cases was
      obtain rfl : { before with store := (D.submit before payload).2 } = after :=
        Option.some.inj moved
      rcases submitWithdrawal_cases D.sha256 D.cfg before.store before.now payload
        with ⟨e, invalid, _⟩ | ⟨op', existing, valid', found, same⟩ | ⟨op', valid', absent, same⟩
      · rw [valid] at invalid
        cases invalid
      · rw [valid] at valid'
        cases valid'
        refine .inr ⟨existing, found, passed.asked _ _ found, ?_, ?_⟩
        · simp only [Deployment.submit, same]
        · simp only [Deployment.submit, same]
      · rw [valid] at valid'
        cases valid'
        refine .inl ⟨absent, ?_⟩
        simp [creates, Deployment.submit, same]

theorem same_request_iff {payload : Payload} {op existing : Operation}
    (separates : Function.Injective D.sha256) (asked : Asked D existing)
    (valid : Validated D.sha256 D.cfg payload op) :
    (op.toAddress = existing.toAddress ∧ op.amountUnits = existing.amountUnits) ↔
      existing.requestHash = op.requestHash := by
  have hash : op.requestHash = requestHash D.sha256 op.toAddress op.amountUnits D.cfg.asset :=
    congrArg Operation.requestHash valid.row
  rw [hash, asked.requestHash]
  constructor
  · rintro ⟨sameAddress, sameAmount⟩
    rw [sameAddress, sameAmount]
  · intro sameHash
    obtain ⟨sameAddress, sameAmount, _⟩ := requestHash_injective separates sameHash
    exact ⟨sameAddress.symm, sameAmount.symm⟩

/-- **Exactly-once intake.**  At most one submission under an id reports a new row.  Once a
validated submission under the id has been made there is one row and one intake event, and
the identifying columns of the row are the same in every later state.  Every validated
submission either made the row, or found it and changed nothing: then it got the row as it
stood if address and parsed amount agree with the row's, and a mismatch otherwise. -/
theorem intake_exactly_once (separates : Function.Injective D.sha256) (reached : D.Reachable c)
    (id : UUID) :
    c.point.trace.countP (creates D id) ≤ 1 ∧
    (∀ payload before after op, .acted (.submit payload) before after ∈ c.point.trace →
      validated D.sha256 D.cfg payload = .ok op → op.operationId = id →
      c.point.trace.countP (creates D id) = 1 ∧
      (∃ row, c.point.world.store.ops.get? id = some row ∧
        (∀ other ∈ c.point.world.store.ops.values, other.operationId = id → other = row) ∧
        (∀ c' row', D.machine.Reaches c c' → c'.point.world.store.ops.get? id = some row' →
          identity row' = identity row)) ∧
      ((c.point.world.store.eventsOf id).filter fun e => e.fromState = none).length = 1 ∧
      ((before.store.ops.get? id = none ∧
        creates D id (.acted (.submit payload) before after) = true) ∨
      (∃ existing fields, before.store.ops.get? id = some existing ∧ payload = .dict fields ∧
        after = before ∧
        ((fields.lookup "to_address" = some (.str existing.toAddress) ∧
          toUnits ((fields.lookup "amount").getD .null) D.cfg.tokenDecimals =
            .ok existing.amountUnits) →
          (D.submit before payload).1 = .ok ⟨existing, false⟩) ∧
        (¬ (fields.lookup "to_address" = some (.str existing.toAddress) ∧
          toUnits ((fields.lookup "amount").getD .null) D.cfg.tokenDecimals =
            .ok existing.amountUnits) →
          (D.submit before payload).1 = .error (.payloadMismatch id))))) := by
  have passed : Passed D c.point := ⟨c, reached, rfl⟩
  have count := passed.created id
  refine ⟨by rw [count]; split <;> omega, ?_⟩
  rintro payload before after op member valid rfl
  have past := submitted_past reached member valid
  -- the row was there before the submission, or the submission made it
  have stored : ∃ row, c.point.world.store.ops.get? op.operationId = some row := by
    rcases past with ⟨_, made⟩ | ⟨existing, found, _⟩
    · have positive := List.countP_pos_iff.mpr ⟨_, member, made⟩
      rw [count] at positive
      refine Option.isSome_iff_exists.mp ?_
      by_contra absent
      simp [absent] at positive
    · obtain ⟨_, _, _, grown, _⟩ := step_past reached member
      obtain ⟨row, found', _⟩ := grown.rows _ existing found
      exact ⟨row, found'⟩
  obtain ⟨row, found⟩ := stored
  refine ⟨by rw [count, found]; rfl, ⟨row, found, ?_, ?_⟩, ?_, ?_⟩
  · intro other listed same
    have found' := (MemoryStore.mem_rows_iff _ _).mp listed
    rw [same, found] at found'
    exact (Option.some.inj found').symm
  · intro c' row' later found'
    obtain ⟨row'', found'', _, same⟩ := (reachable_grows reached later).1.rows _ row found
    rw [found'] at found''
    cases found''
    exact same
  · exact (passed.logOk.present _ row found).intake
  · refine past.imp_right ?_
    rintro ⟨existing, found', asked, same, answer⟩
    obtain ⟨fields, shape, _, address, parsed⟩ := (validated_row valid).request
    have agree := same_request_iff separates asked (validated_row valid)
    refine ⟨existing, fields, found', shape, same, ?_⟩
    rw [address, parsed, Option.some.injEq, Payload.str.injEq, Except.ok.injEq, agree, answer]
    exact ⟨fun clash => if_pos clash, fun differs => if_neg differs⟩

/-- One request in two spellings, and another one under the same id. -/
theorem intake_exactly_once_respelled : Function.Injective Sample.deployment.sha256 ∧
    ∃ c, Sample.deployment.Reachable c ∧ c.point.trace.length = 3 ∧
      0 < c.point.trace.countP (creates Sample.deployment 0x11111111111141118111111111111111) ∧
      c.point.trace.countP (creates Sample.deployment 0x11111111111141118111111111111111) ≤ 1 := by
  refine ⟨Function.injective_id, ?_⟩
  obtain ⟨c, reached, done⟩ := reachable_of_schedule (D := Sample.deployment)
    (fun c => decide (c.point.trace.length = 3 ∧
      0 < c.point.trace.countP (creates Sample.deployment 0x11111111111141118111111111111111)))
    Sample.epoch (by decide)
    [.act (.submit (Sample.request "11111111111141118111111111111111" "1")),
      .act (.submit (Sample.request "11111111-1111-4111-8111-111111111111" "1.00")),
      .act (.submit (Sample.request "11111111111141118111111111111111" "2"))] (by decide +kernel)
  obtain ⟨three, made⟩ := of_decide_eq_true done
  exact ⟨c, reached, three, made, (intake_exactly_once Function.injective_id reached _).1⟩

end Runs

end Sluice.Protocol
