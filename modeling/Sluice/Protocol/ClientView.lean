/-
# Protocol.ClientView -- what a client is told stays true

A client sees the system only through answers that show an operation: to its POST, to the POST
repeated, to a GET.  Between two answers anything may happen: workers drive the row, crash, lose
their claim; blocks come; other clients post.

`conversation` is what the client can rely on.  The id it was shown is an address that works from
then on; what it asked for never changes; the state moves along the transition table and stops at
a terminal one, after which every column it is shown is frozen; a repeated POST is a replay or a
mismatch, never a second creation; and `confirmed` means a transfer of that amount in a solid
block.

The rows give all of this once it is said what a step does to the shown columns (`Ages`).

`codes_never_lie` counts: 201 is answered once for an id, 404 before and 200 after.
-/
import Sluice.Kernel.Api
import Sluice.Protocol.Settlement

namespace Sluice.Protocol

open Sluice.Theory Sluice.Kernel
open MemoryStore (identity)

set_option autoImplicit false

/-! ## Rows -/

/-- The columns a client is shown that a write may change. -/
def shown (row : Operation) :
    OpState × Option Hex × Int × Option String × Option Int × Option Int :=
  (row.state, row.txid, row.attempts, row.failureReason, row.includedBlock, row.confirmedAt)

/-- What becomes of a row. -/
structure Ages (row row' : Operation) : Prop where
  identity : identity row' = identity row
  attempts : row.attempts ≤ row'.attempts
  path : Relation.ReflTransGen (fun a b => b ∈ OpState.transitions a) row.state row'.state
  settled : row.state.terminal = true → shown row' = shown row

section Rows

variable {D : Deployment} {p : Moment} {step : Step} {row row' row'' : Operation} {c c' : Run}
  {id : UUID}

theorem Ages.refl (row : Operation) : Ages row row := ⟨rfl, le_refl _, .refl, fun _ => rfl⟩

theorem Ages.trans (first : Ages row row') (second : Ages row' row'') : Ages row row'' := by
  refine ⟨second.identity.trans first.identity, first.attempts.trans second.attempts,
    first.path.trans second.path, fun ended => ?_⟩
  have same := first.settled ended
  have state : row'.state = row.state := congrArg Prod.fst same
  exact (second.settled (state ▸ ended)).trans same

/-- No write takes an attempt back. -/
theorem Commit.attempts_le (commit : Commit D p) : commit.op.attempts ≤ commit.row.attempts := by
  have attempts := MemoryStore.casRow_attempts p.world.now commit.req commit.op
  rw [Commit.row, attempts]
  obtain ⟨thread, choice, op, renew, toState, worker, sets, detail, found, _, write, _⟩ := commit
  cases write with
  | dropUnsent | retire => exact Int.le_add_one (le_refl _)
  | reject | validate | startSigning | giveUp | build | sign | writeAhead | accepted | hardReject
  | noted | found | confirm | reverted | breadcrumb => exact le_refl _

theorem Goes.ages (goes : Goes D p step row row') : Ages row row' := by
  cases goes with
  | kept => exact ⟨rfl, le_refl _, .refl, fun _ => rfl⟩
  | written commit was source =>
      have legal := commit.write.legal
      have live := commit.live
      subst source
      refine ⟨MemoryStore.casRow_identity _ _ _, commit.attempts_le, ?_, fun ended => ?_⟩
      · rw [Commit.row, MemoryStore.casRow_state]
        simp only [OpState.canTransition, Bool.or_eq_true, decide_eq_true_eq] at legal
        rcases legal with same | moves
        · exact same ▸ .refl
        · exact .single moves
      · rw [live] at ended
        cases ended

/-- A row is never lost, and ages. -/
theorem reachable_ages (reached : D.Reachable c) (later : D.machine.Reaches c c')
    (found : c.point.world.store.ops.get? id = some row) :
    ∃ row', c'.point.world.store.ops.get? id = some row' ∧ Ages row row' := by
  refine (stride_induction (J := fun p => ∃ row', p.world.store.ops.get? id = some row' ∧
    Ages row row') ?_ reached later ⟨row, found, .refl row⟩).1
  rintro p step _ _ stride ⟨middle, found, ages⟩
  obtain ⟨row', found', goes⟩ := stride.goes found
  exact ⟨row', found', ages.trans goes.ages⟩

end Rows

/-! ## Views -/

/-- What a later view may be. -/
structure Follows (view view' : PublicView) : Prop where
  operationId : view'.operationId = view.operationId
  toAddress : view'.toAddress = view.toAddress
  asset : view'.asset = view.asset
  amountUnits : view'.amountUnits = view.amountUnits
  createdAt : view'.createdAt = view.createdAt
  attempts : view.attempts ≤ view'.attempts
  path : ∃ s s', view.state = OpState.value s ∧ view'.state = OpState.value s' ∧
    Relation.ReflTransGen (fun a b => b ∈ OpState.transitions a) s s'
  final : view.state ∈ ["confirmed", "failed", "rejected"] → view' = view

/-- A view that shows `confirmed` shows a transfer in a solid block. -/
def Honoured (node : MockTronNode) (view : PublicView) : Prop :=
  view.state = "confirmed" → ∃ txid rec block, view.txid = some txid ∧
    view.includedBlock = some block ∧ node.txs.get? txid = some rec ∧
    rec.includedBlock = some block ∧ block ≤ node.solidBlock ∧ rec.receipt = some .success ∧
    rec.tx.rawData.contract.toAddress = view.toAddress ∧
    (intOfText view.amountUnits).isSome = true ∧
    intOfText rec.tx.rawData.contract.amountUnits.toList = intOfText view.amountUnits

section Views

variable {D : Deployment} {row row' : Operation} {view view' : PublicView}

theorem value_injective {s s' : OpState} (same : s.value = s'.value) : s = s' := by
  cases s <;> cases s' <;> first | rfl | exact absurd same (by decide)

theorem terminal_of_value {s : OpState}
    (listed : s.value ∈ ["confirmed", "failed", "rejected"]) : s.terminal = true := by
  cases s <;> first | rfl | exact absurd listed (by decide)

/-- The amount of a row that was asked for has a text. -/
theorem Asked.strOfInt (asked : Asked D row) :
    strOfInt row.amountUnits = some (Json.number row.amountUnits) := by
  obtain ⟨n, same⟩ := Int.eq_ofNat_of_zero_le asked.natural
  have short := asked.short
  rw [same, number_natCast] at short ⊢
  rw [Kernel.strOfInt, strOfNat, Int.natAbs_natCast, if_neg (not_lt.mpr short), Option.map_some,
    if_neg (by omega)]

/-- So a client can be shown it. -/
theorem Asked.publicView (asked : Asked D row) : ∃ view, row.publicView = some view ∧
    view.amountUnits = Json.number row.amountUnits := by
  rw [Operation.publicView, asked.strOfInt]
  exact ⟨_, rfl, rfl⟩

theorem publicView_eq (seen : row.publicView = some view) :
    view.operationId = uuidText row.operationId ∧ view.state = row.state.value ∧
      view.toAddress = row.toAddress ∧ view.asset = row.asset ∧
      strOfInt row.amountUnits = some view.amountUnits ∧ view.txid = row.txid ∧
      view.attempts = row.attempts ∧ view.failureReason = row.failureReason ∧
      view.includedBlock = row.includedBlock ∧ view.createdAt = row.createdAt.map isoformat ∧
      view.confirmedAt = row.confirmedAt.map isoformat := by
  obtain ⟨amount, text, rfl⟩ := Option.map_eq_some_iff.mp seen
  exact ⟨rfl, rfl, rfl, rfl, text, rfl, rfl, rfl, rfl, rfl, rfl⟩

theorem Ages.follows (ages : Ages row row') (seen : row.publicView = some view)
    (seen' : row'.publicView = some view') : Follows view view' := by
  obtain ⟨operationId, state, toAddress, asset, amountUnits, txid, attempts, failureReason,
    includedBlock, createdAt, confirmedAt⟩ := publicView_eq seen
  obtain ⟨operationId', state', toAddress', asset', amountUnits', txid', attempts', failureReason',
    includedBlock', createdAt', confirmedAt'⟩ := publicView_eq seen'
  have columns := ages.identity
  simp only [MemoryStore.identity, Prod.mk.injEq] at columns
  obtain ⟨sameId, -, sameAddress, sameAsset, sameAmount, sameBirth⟩ := columns
  rw [sameAmount, amountUnits] at amountUnits'
  refine ⟨by rw [operationId', operationId, sameId], by rw [toAddress', toAddress, sameAddress],
    by rw [asset', asset, sameAsset], (Option.some.inj amountUnits').symm,
    by rw [createdAt', createdAt, sameBirth], by rw [attempts', attempts]; exact ages.attempts,
    ⟨row.state, row'.state, state, state', ages.path⟩, fun listed => ?_⟩
  have frozen := ages.settled (terminal_of_value (state ▸ listed))
  simp only [shown, Prod.mk.injEq] at frozen
  obtain ⟨sameState, sameTxid, sameAttempts, sameReason, sameBlock, sameEnd⟩ := frozen
  rw [Operation.publicView, sameAmount, sameId, sameState, sameAddress, sameAsset, sameTxid,
    sameAttempts, sameReason, sameBlock, sameBirth, sameEnd] at seen'
  exact Option.some.inj (seen'.symm.trans seen)

end Views

/-! ## Answers -/

section Answers

variable {D : Deployment} {w : World} {view : PublicView} {c : Run} {id : UUID} {row : Operation}

theorem error_shows_nothing (e : IntakeError) : (responseOf (.error e)).body ≠ .view view := by
  cases e <;> simp [responseOf, IntakeError.response, Response.internalError]

theorem result_shows {result : SubmitResult}
    (answered : (responseOf (.ok result)).body = .view view) :
    result.operation.publicView = some view := by
  simp only [responseOf, SubmitResult.response] at answered
  split at answered
  · cases answered
  · rename_i body seen
    split at answered <;> cases answered <;> exact seen

theorem answer_submitted {payload : Payload}
    (answered : (D.answer w (.submit (some payload))).1.body = .view view) :
    (responseOf (D.submit w payload).1).body = .view view := by
  cases payload with
  | null => cases answered
  | bool | int | float | str | list | dict => exact answered

/-- An answer that shows an operation shows a row of the store it leaves. -/
theorem answer_view {request : Request} (answered : (D.answer w request).1.body = .view view) :
    ∃ id row, (D.answer w request).2.store.ops.get? id = some row ∧
      row.publicView = some view := by
  cases request with
  | healthz => cases answered
  | status opId =>
      simp only [Deployment.answer, MemoryStore.status] at answered ⊢
      split at answered
      · cases answered
      · split at answered
        · cases answered
        · rename_i id _ _ row found
          split at answered
          · cases answered
          · rename_i body seen
            cases answered
            exact ⟨id, row, found, seen⟩
  | submit body =>
      cases body with
      | none => cases answered
      | some payload =>
          rw [D.answer_submit]
          have answered := answer_submitted answered
          rcases submitWithdrawal_cases D.sha256 D.cfg w.store w.now payload with
            ⟨e, _, same⟩ | ⟨op, existing, _, found, same⟩ | ⟨op, _, _, same⟩
          · rw [Deployment.submit, same] at answered
            exact absurd answered (error_shows_nothing e)
          · rw [Deployment.submit, same] at answered ⊢
            refine ⟨op.operationId, existing, found, ?_⟩
            by_cases agree : existing.requestHash = op.requestHash
            · rw [if_pos agree] at answered
              have seen := result_shows answered
              exact seen
            · rw [if_neg agree] at answered
              exact absurd answered (error_shows_nothing _)
          · rw [Deployment.submit, same] at answered ⊢
            have seen := result_shows answered
            exact ⟨op.operationId, _, by simp [MemoryStore.insertRow_get?], seen⟩

/-- A row that is shown can be asked for under the id it shows. -/
theorem answer_status (found : w.store.ops.get? id = some row) (seen : row.publicView = some view) :
    D.answer w (.status view.operationId) = (⟨200, false, .view view⟩, w) := by
  have key := w.store.keyed id row found
  have text : view.operationId = uuidText id := by rw [(publicView_eq seen).1, key]
  simp only [Deployment.answer, MemoryStore.status, text, uuidOfText_uuidText, found, seen]

/-- A POST under the id of a row that is there. -/
theorem answer_again (separates : Function.Injective D.sha256) (asked : Asked D row)
    (found : w.store.ops.get? id = some row) (seen : row.publicView = some view) {payload : Payload}
    {op : Operation} (valid : validated D.sha256 D.cfg payload = .ok op)
    (same : uuidText op.operationId = view.operationId) :
    D.answer w (.submit (some payload)) =
      (if op.toAddress = view.toAddress ∧ Json.number op.amountUnits = view.amountUnits then
        ⟨200, true, .view view⟩
      else (IntakeError.payloadMismatch op.operationId).response, w) := by
  obtain ⟨operationId, -, toAddress, -, amountUnits, -⟩ := publicView_eq seen
  have request := validated_row valid
  have named : op.operationId = id := by
    rw [operationId, w.store.keyed id row found] at same
    exact uuidText_injective same
  have agree : (op.toAddress = view.toAddress ∧ Json.number op.amountUnits = view.amountUnits) ↔
      row.requestHash = op.requestHash := by
    rw [asked.strOfInt] at amountUnits
    rw [← same_request_iff separates asked request, toAddress, ← Option.some.inj amountUnits]
    refine and_congr_right fun _ => ⟨fun text => ?_, fun amount => by rw [amount]⟩
    have read := congrArg intOfText text
    rw [intOfText_number request.natural request.short,
      intOfText_number asked.natural asked.short] at read
    exact Option.some.inj read
  have posted : D.answer w (.submit (some payload)) =
      (responseOf (D.submit w payload).1, { w with store := (D.submit w payload).2 }) := by
    obtain ⟨fields, rfl, -⟩ := request.request
    rfl
  rcases submitWithdrawal_cases D.sha256 D.cfg w.store w.now payload with
    ⟨e, invalid, _⟩ | ⟨op', existing, valid', found', outcome⟩ | ⟨op', valid', absent, _⟩
  · cases valid.symm.trans invalid
  · cases valid.symm.trans valid'
    rw [named, found] at found'
    cases found'
    rw [posted, Deployment.submit, outcome]
    by_cases hash : row.requestHash = op.requestHash
    · simp only [if_pos hash, if_pos (agree.mpr hash), responseOf, SubmitResult.response, seen,
        Bool.false_eq_true, if_false]
    · simp only [if_neg hash, if_neg (mt agree.mp hash), responseOf]
  · cases valid.symm.trans valid'
    rw [named, found] at absent
    cases absent

/-- A row that is shown as confirmed is backed by the chain. -/
theorem reachable_honoured (separates : Function.Injective D.sha256) (reached : D.Reachable c)
    (found : c.point.world.store.ops.get? id = some row) (seen : row.publicView = some view) :
    Honoured c.point.world.node view := by
  intro confirmed
  obtain ⟨-, state, toAddress, -, amountUnits, txid, -, -, includedBlock, -⟩ := publicView_eq seen
  have passed : Passed D c.point := ⟨c, reached, rfl⟩
  have asked := passed.asked id row found
  have settled : row.state = .confirmed := value_injective (state.symm.trans confirmed)
  obtain ⟨txid', rec, block, rowTxid, rowBlock, record, included, solid, receipt, address,
    amount⟩ := ((passed.judged id row found).confirmed settled).backed separates reached found
  rw [asked.strOfInt] at amountUnits
  have read : intOfText view.amountUnits = some row.amountUnits := by
    rw [← Option.some.inj amountUnits]
    exact intOfText_number asked.natural asked.short
  exact ⟨txid', rec, block, txid.trans rowTxid, includedBlock.trans rowBlock, record, included,
    solid, receipt, address.trans toAddress.symm, by rw [read]; rfl, amount.trans read.symm⟩

end Answers

/-! ## Runs with requests -/

section Runs

variable {D : Deployment}
  {c : Configuration World Call Reply (Option BroadcastCode) ApiAct Exn Nat}

/-- Behind a request of the past there is a run of the system up to it and on from it. -/
theorem request_past (reached : D.ReachableApi c) {request : Request} {before after : World}
    (member : .acted (.request request) before after ∈ c.point.trace) :
    ∃ d₀ d₁ : Run, D.Reachable d₀ ∧ D.machine.Reaches d₀ d₁ ∧
      d₀.point.world = (D.answer before request).2 ∧ d₁.point.world = c.point.world := by
  obtain ⟨now, lag, delay, signer, calendar, start⟩ := reached
  obtain ⟨c₀, c₁, early, here, later, _, world, moved⟩ := Machine.acted_past start member
  obtain ⟨d₀, first, at₀, pool⟩ := D.api_fronts.reaches (early.trans here)
    (d := .start (.fresh now lag delay signer)) rfl rfl
  obtain ⟨d₁, second, at₁, _⟩ := D.api_fronts.reaches later at₀ pool
  refine ⟨d₀, d₁, ⟨now, lag, delay, signer, calendar, first⟩, second, ?_, at₁⟩
  rw [at₀, world]
  exact (Option.some.inj moved).symm

/-- **What a client is told stays true.**  Take any run of workers, blocks, crashes, clocks and
requests, and any answer in it that shows an operation.  From then on a GET of the id it shows
answers 200 with a view that follows it: the request in it is the same, attempts do not fall, the
state has moved along the transition table, and nothing changes once it is terminal.  A `confirmed`
view is a successful transfer of that amount to that address in a solid block.  A POST under the
id changes nothing: it answers 200 as a replay with the very same view if it asks for the same,
and 409 otherwise. -/
theorem conversation (separates : Function.Injective D.sha256) (reached : D.ReachableApi c)
    {request : Request} {before after : World} {view : PublicView}
    (member : .acted (.request request) before after ∈ c.point.trace)
    (answered : (D.answer before request).1.body = .view view) :
    ∃ view', Follows view view' ∧ Honoured c.point.world.node view' ∧
      D.answer c.point.world (.status view.operationId) =
        (⟨200, false, .view view'⟩, c.point.world) ∧
      ∀ payload op, validated D.sha256 D.cfg payload = .ok op →
        uuidText op.operationId = view.operationId →
        D.answer c.point.world (.submit (some payload)) =
          (if op.toAddress = view.toAddress ∧ Json.number op.amountUnits = view.amountUnits then
            ⟨200, true, .view view'⟩
          else (IntakeError.payloadMismatch op.operationId).response, c.point.world) := by
  obtain ⟨id, row, found, seen⟩ := answer_view answered
  obtain ⟨d₀, d₁, reached₀, later, at₀, at₁⟩ := request_past reached member
  rw [← at₀] at found
  obtain ⟨row', found', ages⟩ := reachable_ages reached₀ later found
  have reached₁ := reachable_later reached₀ later
  have asked : Asked D row' := Passed.asked ⟨d₁, reached₁, rfl⟩ id row' found'
  obtain ⟨view', seen', -⟩ := asked.publicView
  have follows := ages.follows seen seen'
  rw [← at₁]
  refine ⟨view', follows, reachable_honoured separates reached₁ found' seen', ?_, ?_⟩
  · rw [← follows.operationId]
    exact answer_status found' seen'
  · intro payload op valid same
    rw [← follows.toAddress, ← follows.amountUnits]
    exact answer_again separates asked found' seen' valid (same.trans follows.operationId.symm)

end Runs

/-! ## Status codes -/

/-- The answer reports that the operation was created. -/
def Response.reportsNew (id : UUID) (response : Response) : Bool :=
  match response.body with
  | .view view => response.status = 201 && view.operationId = uuidText id
  | _ => false

/-- The step creates the operation: a POST answered with 201, or a submission from elsewhere. -/
def creation (D : Deployment) (id : UUID) :
    Label World Call Reply (Option BroadcastCode) ApiAct → Bool
  | .acted (.request request) before _ => Response.reportsNew id (D.answer before request).1
  | .acted (.beside action) before after => creates D id (.acted action before after)
  | .served .. => false

section Codes

variable {D : Deployment} {id : UUID} {w w' : World}
  {c c' : Configuration World Call Reply (Option BroadcastCode) ApiAct Exn Nat}

/-- A POST reports a new operation exactly when its submission does. -/
theorem reportsNew_submit (payload : Payload) :
    Response.reportsNew id (D.answer w (.submit (some payload))).1 =
      creates D id (.acted (.submit payload) w w') := by
  have posted : payload = .null ∨ (D.answer w (.submit (some payload))).1 =
      responseOf (D.submit w payload).1 := by
    cases payload with
    | null => exact .inl rfl
    | bool | int | float | str | list | dict => exact .inr rfl
  rcases posted with rfl | posted
  · rfl
  rw [posted, creates]
  rcases submitWithdrawal_cases D.sha256 D.cfg w.store w.now payload with
    ⟨e, _, same⟩ | ⟨op, existing, _, _, same⟩ | ⟨op, valid, _, same⟩
  · rw [Deployment.submit, same]
    cases e <;> rfl
  · rw [Deployment.submit, same]
    by_cases agree : existing.requestHash = op.requestHash
    · simp only [if_pos agree, responseOf, SubmitResult.response, Bool.false_and]
      cases existing.publicView <;> rfl
    · simp only [if_neg agree, responseOf, IntakeError.response, Response.reportsNew]
  · have request := validated_row valid
    have asked : Asked D { op with createdAt := some w.now, updatedAt := some w.now } :=
      ⟨congrArg Operation.requestHash request.row, request.natural, request.short⟩
    obtain ⟨view, seen, _⟩ := asked.publicView
    have named := (publicView_eq seen).1
    rw [Deployment.submit, same]
    simp only [responseOf, SubmitResult.response, seen, if_true, Response.reportsNew, named,
      decide_true, Bool.true_and, decide_eq_decide]
    exact ⟨uuidText_injective, congrArg uuidText⟩

theorem reportsNew_of_status {response : Response} (other : response.status ≠ 201) :
    Response.reportsNew id response = false := by
  unfold Response.reportsNew
  split
  · simp [other]
  · rfl

theorem status_not_created (store : MemoryStore) (opId : List Char) :
    (store.status opId).status ≠ 201 := by
  unfold MemoryStore.status
  split
  · decide
  split
  · decide
  split
  · decide
  · exact (by decide : (200 : Nat) ≠ 201)

/-- Looking makes nothing. -/
theorem creation_looked {action : ApiAct} (looks : action.through = none) :
    creation D id (.acted action w w') = false := by
  rcases action with (⟨_ | payload⟩ | opId | _) | action
  · rfl
  · cases looks
  · exact reportsNew_of_status (status_not_created w.store opId)
  · rfl
  · cases looks

theorem creation_through {action : ApiAct} {act : Act} (amounts : action.through = some act) :
    creation D id (.acted action w w') = creates D id (.acted act w w') := by
  rcases action with (⟨_ | payload⟩ | _ | _) | action
  · cases amounts
  · cases amounts
    exact reportsNew_submit payload
  · cases amounts
  · cases amounts
  · cases amounts
    rfl

/-- Made is what was not there before and is there now. -/
theorem count_step {before after : Option Operation} {made : Bool}
    (news : made = true ↔ before = none ∧ after.isSome = true)
    (kept : before.isSome = true → after.isSome = true) :
    (if before.isSome then 1 else 0) + (if made = true then 1 else 0) =
      if after.isSome then 1 else 0 := by
  simp only [news]
  cases before <;> cases after <;> simp at kept ⊢

/-- A step with requests creates an operation exactly when its row appears. -/
theorem creations_step {d : Run} (reached : D.Reachable d) (world : d.point.world = c.point.world)
    (pool : d.pool = c.pool) (step : D.api.Step c c')
    (count : c.point.trace.countP (creation D id) =
      if (c.point.world.store.ops.get? id).isSome then 1 else 0) :
    c'.point.trace.countP (creation D id) =
      if (c'.point.world.store.ops.get? id).isSome then 1 else 0 := by
  have passed : Passed D d.point := ⟨d, reached, rfl⟩
  have counted : ∀ {label} (stride : Stride D d.point label) (made : Bool),
      made = creates D id label →
      (if (d.point.world.store.ops.get? id).isSome then 1 else 0) + (if made = true then 1 else 0) =
        if (label.after.store.ops.get? id).isSome then 1 else 0 := by
    intro label stride made same
    refine count_step (same ▸ creates_iff id stride) fun present => ?_
    obtain ⟨row, found⟩ := Option.isSome_iff_exists.mp present
    obtain ⟨row', found', _⟩ := stride.goes found
    rw [found']
    rfl
  obtain ⟨entry, rfl⟩ | ⟨action, w, moved, rfl⟩ |
    ⟨thread, choice, call, next, reply, w, pending, moved, rfl⟩ := D.api.step_cases step
  · exact count
  · rw [Point.log_trace, List.countP_cons, count, Point.log_world, ← world]
    cases amounts : action.through with
    | none =>
        rw [creation_looked amounts, D.api_fronts.looked action _ w amounts moved, ← world]
        rfl
    | some act =>
        rw [D.api_fronts.acted action act _ amounts, ← world] at moved
        exact counted (act_stride moved) _ (creation_through amounts)
  · rw [Point.log_trace, List.countP_cons, count, Point.log_world, ← world]
    rw [← pool] at pending
    rw [D.api_fronts.serve, ← world] at moved
    have follows := reachable_follows reached
    have allowed := (follows.safe thread _ pending).allowed follows.inv
    exact counted (serve_stride follows.inv allowed moved) _ rfl

/-- **Status codes never lie.**  In every run with requests, an operation was created by exactly one
step if the store has it, and by none otherwise; a POST that creates one is answered with 201, and
no other is.  So a GET of its id, however spelled, answers 404 as long as nobody has created it,
and 200 from then on. -/
theorem codes_never_lie (reached : D.ReachableApi c) (id : UUID) :
    c.point.trace.countP (creation D id) =
      (if (c.point.world.store.ops.get? id).isSome then 1 else 0) ∧
    ∀ opId, uuidOfText opId = some id →
      (D.answer c.point.world (.status opId)).1.status =
        if c.point.trace.countP (creation D id) = 0 then 404 else 200 := by
  obtain ⟨now, lag, delay, signer, calendar, run⟩ := reached
  have behind : ∀ {c}, D.api.Reaches (.start (.fresh now lag delay signer)) c →
      ∃ d : Run, D.Reachable d ∧ d.point.world = c.point.world ∧ d.pool = c.pool := by
    intro c run
    obtain ⟨d, reached, world, pool⟩ := D.api_fronts.reaches run
      (d := .start (.fresh now lag delay signer)) rfl rfl
    exact ⟨d, ⟨now, lag, delay, signer, calendar, reached⟩, world, pool⟩
  have count : c.point.trace.countP (creation D id) =
      if (c.point.world.store.ops.get? id).isSome then 1 else 0 := by
    induction run with
    | refl => rfl
    | tail early step ih =>
        obtain ⟨d, reached, world, pool⟩ := behind early
        exact creations_step reached world pool step ih
  refine ⟨count, fun opId read => ?_⟩
  obtain ⟨d, reached, world, _⟩ := behind run
  rw [count, Deployment.answer, MemoryStore.status, read]
  cases found : c.point.world.store.ops.get? id with
  | none => simp [found]
  | some row =>
      obtain ⟨view, seen, _⟩ := (Passed.asked ⟨d, reached, rfl⟩ id row (world ▸ found)).publicView
      simp [found, seen]

/-- The same request twice, and a GET of its id in another spelling. -/
theorem codes_never_lie_respelled : ∃ c, Sample.deployment.ReachableApi c ∧
    c.point.trace.length = 2 ∧
    c.point.trace.countP (creation Sample.deployment 0x11111111111141118111111111111111) = 1 ∧
    (Sample.deployment.answer c.point.world
      (.status "\x7burn:uuid:11111111111141118111111111111111\x7d".toList)).1.status = 200 := by
  have ran : (Sample.deployment.api.performAll (.start (.fresh Sample.epoch))
      (List.replicate 2 (.act (.request (.submit
        (some (Sample.request "11111111-1111-4111-8111-111111111111" "1"))))))).any (fun c =>
      c.point.trace.length = 2 &&
      c.point.trace.countP (creation Sample.deployment 0x11111111111141118111111111111111) = 1) =
      true := by
    decide +kernel
  obtain ⟨c, performed, holds⟩ := (Option.any_eq_true _ _).mp ran
  have reached : Sample.deployment.ReachableApi c :=
    ⟨_, _, _, _, by decide, Machine.reaches_of_performAll performed⟩
  rw [Bool.and_eq_true, decide_eq_true_eq, decide_eq_true_eq] at holds
  have code := (codes_never_lie reached 0x11111111111141118111111111111111).2
    "\x7burn:uuid:11111111111141118111111111111111\x7d".toList (by decide +kernel)
  rw [holds.2] at code
  exact ⟨c, reached, holds.1, holds.2, code⟩

end Codes

/-- The answer shows this operation in this state. -/
def Sample.shows (id : List Char) (state : String) (response : Response) : Bool :=
  match response.body with
  | .view view => view.operationId = id && view.state = state
  | _ => false

theorem Sample.shows_iff {id : List Char} {state : String} {response : Response} :
    Sample.shows id state response = true ↔
      ∃ view, response.body = .view view ∧ view.operationId = id ∧ view.state = state := by
  unfold Sample.shows
  split
  · rename_i view body
    simp [body]
  · rename_i other
    simp only [Bool.false_eq_true, false_iff]
    rintro ⟨view, body, _⟩
    exact other view body

/-- The step is a request whose answer shows this operation in this state. -/
def Sample.showed (id : List Char) (state : String) :
    Label World Call Reply (Option BroadcastCode) ApiAct → Bool
  | .acted (.request request) before _ =>
      Sample.shows id state (Sample.deployment.answer before request).1
  | _ => false

/-- A POST creates an operation and a worker confirms it. -/
theorem conversation_confirmed : Function.Injective Sample.deployment.sha256 ∧
    ∃ c view view', Sample.deployment.ReachableApi c ∧
      (∃ request before after, .acted (.request request) before after ∈ c.point.trace ∧
        (Sample.deployment.answer before request).1.body = .view view) ∧
      view.state = "requested" ∧ view'.state = "confirmed" ∧ Follows view view' ∧
      Honoured c.point.world.node view' := by
  refine ⟨fun _ _ same => same, ?_⟩
  have ran : (Sample.deployment.api.performAll (.start (.fresh Sample.epoch))
      ([.act (.request (.submit (some (Sample.request "11111111111141118111111111111111" "1")))),
        .spawn "a"] ++ List.replicate 15 (.serve 0 none) ++ [.act (.beside (.produceBlocks 4))] ++
        List.replicate 4 (.serve 0 none))).any (fun c =>
      c.point.trace.any
        (Sample.showed "11111111-1111-4111-8111-111111111111".toList "requested") &&
      Sample.shows "11111111-1111-4111-8111-111111111111".toList "confirmed"
        (Sample.deployment.answer c.point.world
          (.status "11111111-1111-4111-8111-111111111111".toList)).1) = true := by
    decide +kernel
  obtain ⟨c, performed, holds⟩ := (Option.any_eq_true _ _).mp ran
  have reached : Sample.deployment.ReachableApi c :=
    ⟨_, _, _, _, by decide, Machine.reaches_of_performAll performed⟩
  obtain ⟨first, last⟩ := Bool.and_eq_true_iff.mp holds
  obtain ⟨label, member, showed⟩ := List.any_eq_true.mp first
  rcases label with _ | ⟨_ | _, before, after⟩
  · cases showed
  · rename_i request
    obtain ⟨view, answered, named, requested⟩ := Sample.shows_iff.mp showed
    obtain ⟨view', follows, honoured, now, _⟩ :=
      conversation (fun _ _ same => same) reached member answered
    rw [named] at now
    obtain ⟨view'', answered', _, confirmed⟩ := Sample.shows_iff.mp last
    rw [now] at answered'
    cases answered'
    exact ⟨c, view, view', reached, ⟨request, before, after, member, answered⟩, requested,
      confirmed, follows, honoured⟩
  · cases showed

end Sluice.Protocol
