/-
# Kernel.Api -- the HTTP interface over the system

`api.py` and `Operation.public_view`.  A request is answered from the store alone; a POST whose
body is JSON also submits it.  An exception that no handler expects is answered by the framework
with status 500 and a page of its own.

`Deployment.api` is the system with its interface: requests come in between any two steps of the
workers.  It fronts the system without one (`api_fronts`), because a GET only looks and a POST is
a submission.
-/
import Sluice.Kernel.Stored
import Sluice.Kernel.System

namespace Sluice.Kernel

open Sluice.Theory

set_option autoImplicit false

/-- What a client is shown of an operation. -/
structure PublicView where
  operationId : List Char
  state : String
  toAddress : String
  asset : String
  amountUnits : List Char
  txid : Option Hex
  attempts : Int
  failureReason : Option String
  includedBlock : Option Int
  createdAt : Option (List Char)
  confirmedAt : Option (List Char)
  deriving DecidableEq, Repr

/-- `str(i)`; `none` is the `ValueError` above the digit limit. -/
def strOfInt (i : Int) : Option (List Char) :=
  (strOfNat i.natAbs).map fun digits => if i < 0 then '-' :: digits else digits

def Operation.publicView (op : Operation) : Option PublicView :=
  (strOfInt op.amountUnits).map fun amountUnits =>
    { operationId := uuidText op.operationId
      state := op.state.value
      toAddress := op.toAddress
      asset := op.asset
      amountUnits := amountUnits
      txid := op.txid
      attempts := op.attempts
      failureReason := op.failureReason
      includedBlock := op.includedBlock
      createdAt := op.createdAt.map isoformat
      confirmedAt := op.confirmedAt.map isoformat }

inductive Request where
  /-- `POST /v1/withdrawals`; the body is `none` when it is not JSON. -/
  | submit (body : Option Payload)
  /-- `GET /v1/withdrawals/<op_id>`. -/
  | status (opId : List Char)
  | healthz

inductive Body where
  | view (view : PublicView)
  | error (code : String) (field : Option String) (message : Complaint)
  | healthy
  /-- The framework's own. -/
  | page

structure Response where
  status : Nat
  /-- `X-Idempotent-Replay: true`. -/
  replay : Bool := false
  body : Body

/-- The answer to an exception that was not caught. -/
def Response.internalError : Response where
  status := 500
  body := .page

def Response.badJson : Response where
  status := 400
  body := .error "bad_json" none (.text "body must be JSON")

/-- The `except` clauses of `submit`. -/
def IntakeError.response : IntakeError → Response
  | .validation field complaint => ⟨422, false, .error "invalid" (some field) complaint⟩
  | .payloadMismatch id =>
      ⟨409, false, .error "payload_mismatch" none (.text ("operation " ++
        String.ofList (uuidText id) ++ " already exists with a different payload"))⟩
  | .valueError => .internalError

def SubmitResult.response (result : SubmitResult) : Response :=
  match result.operation.publicView with
  | none => .internalError
  | some body => if result.created then ⟨201, false, .view body⟩ else ⟨200, true, .view body⟩

/-- What `submit` makes of the outcome of `submit_withdrawal`. -/
def responseOf : Except IntakeError SubmitResult → Response
  | .error e => e.response
  | .ok result => result.response

def MemoryStore.status (store : MemoryStore) (opId : List Char) : Response :=
  match uuidOfText opId with
  | none => ⟨422, false, .error "invalid" none (.text "operation_id must be a UUID")⟩
  | some id =>
      match store.ops.get? id with
      | none => ⟨404, false, .error "not_found" none (.text "unknown operation")⟩
      | some op =>
          match op.publicView with
          | none => .internalError
          | some body => ⟨200, false, .view body⟩

/-- What happens to a system with an HTTP interface. -/
inductive ApiAct where
  | request (request : Request)
  | beside (action : Act)

/-- The act of the system that a request amounts to, if any. -/
def ApiAct.through : ApiAct → Option Act
  | .request (.submit (some payload)) => some (.submit payload)
  | .request _ => none
  | .beside action => some action

namespace Deployment

variable (D : Deployment)

def answer (w : World) : Request → Response × World
  | .submit none => (.badJson, w)
  -- `null` is JSON, but not to the test `payload is None`
  | .submit (some .null) => (.badJson, w)
  | .submit (some payload) =>
      let (outcome, store) := D.submit w payload
      (responseOf outcome, { w with store := store })
  | .status opId => (w.store.status opId, w)
  | .healthz => (⟨200, false, .healthy⟩, w)

/-- The system with its HTTP interface. -/
def api : Machine World Call Reply (Option BroadcastCode) ApiAct String Exn Nat where
  serve := D.serve
  act
    | .request request, w => some (D.answer w request).2
    | .beside action, w => D.act action w
  entry := Worker.runOnce D.toPipeline

/-- A POST with a body leaves the world as a submission does. -/
theorem answer_submit (w : World) (payload : Payload) :
    (D.answer w (.submit (some payload))).2 = { w with store := (D.submit w payload).2 } := by
  cases payload <;> rfl

theorem api_fronts : D.api.Fronts D.machine ApiAct.through where
  serve := rfl
  entry := rfl
  acted := by
    intro action act w known
    rcases action with (⟨_ | payload⟩ | _ | _) | action
    · cases known
    · cases known
      exact congrArg some (D.answer_submit w payload)
    · cases known
    · cases known
    · cases known
      rfl
  looked := by
    intro action w w' known moved
    rcases action with (⟨_ | payload⟩ | _ | _) | action
    · exact (Option.some.inj moved).symm
    · cases known
    · exact (Option.some.inj moved).symm
    · exact (Option.some.inj moved).symm
    · cases known

/-- `c` is reached in some run with requests over a fresh store and node. -/
def ReachableApi
    (c : Configuration World Call Reply (Option BroadcastCode) ApiAct Exn Nat) : Prop :=
  ∃ now solidityLag inclusionDelay nodeSigner, IsDatetime now ∧
    D.api.Reaches (.start (.fresh now solidityLag inclusionDelay nodeSigner)) c

end Deployment

end Sluice.Kernel
