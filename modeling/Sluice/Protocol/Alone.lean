/-
# Protocol.Alone -- one worker with nobody else running

Run alone from a row it has just claimed, a macro step either uses up a scripted fault or an
armed crash point (`trouble` falls), or how it ends can be read off the row, the clock and the
chain beforehand (`outlook`):

* the row moves on and the step returns;
* it stays, because it waits for the chain or because its handler raises before any write;
* it sinks: its state changes, and then the handler raises.

`step_ends` says so for the walk of `Protocol.Walk`, read as a run (`solo`).  A row that does
not move on leaves everything anybody looks at as it was (`Lingers`).
-/
import Sluice.Protocol.Worker

namespace Sluice.Protocol

open Sluice.Theory Sluice.Kernel
open MemoryStore (casRow)

set_option autoImplicit false

/-! ## Trouble -/

/-- The scripted faults and armed crash points a worker can still meet. -/
def trouble (w : World) : Nat :=
  w.node.broadcastFaults.length + w.node.queryFaults.length +
    (w.crash.armed .signBetweenBuildAndSign + w.crash.armed .broadcastPreSend +
      w.crash.armed .broadcastPostSend + w.crash.armed .confirmPreWrite)

section Calls

variable (D : Deployment) (w : World)

/-- A point that is not armed lets its caller pass. -/
theorem alone_here (point : CrashPoint) : D.alone (.here point) w = (false, w) ∨
    ((D.alone (.here point) w).1 = true ∧ trouble (D.alone (.here point) w).2 < trouble w) := by
  have answer : D.alone (.here point) w =
      ((w.crash.here point).1, { w with crash := (w.crash.here point).2 }) := rfl
  rw [answer]
  unfold CrashSwitch.here
  split
  · rename_i armed
    refine .inr ⟨rfl, ?_⟩
    simp only [trouble]
    cases point <;> simp <;> omega
  · exact .inl rfl

/-- A lookup that no fault is scripted for answers from the record and leaves the world. -/
theorem alone_findTx (txid : Hex) :
    D.alone (.findTx txid) w = (.ok (w.node.statusOf w.now (w.node.txs.get? txid)), w) ∨
      trouble (D.alone (.findTx txid) w).2 < trouble w := by
  have answer : D.alone (.findTx txid) w =
      ((w.node.findTx w.now txid).1, { w with node := (w.node.findTx w.now txid).2 }) := rfl
  rw [answer]
  cases queue : w.node.queryFaults with
  | nil =>
      have same : { w.node with queryFaults := [] } = w.node := by rw [← queue]
      left
      simp only [MockTronNode.findTx, queue, List.head?_nil, List.tail_nil, reduceCtorEq, if_false,
        same]
  | cons fault rest =>
      right
      rw [(MockTronNode.findTx_cases _ _ _).1]
      simp only [trouble, queue, List.tail_cons, List.length_cons]
      omega

theorem alone_broadcast (id : UUID) (token : Nat) (tx : SignedTx) (worker : String) :
    D.alone (.broadcast id token tx worker) w =
      ((w.node.broadcast D.sha256 w.now tx (some worker)).1,
        { w with node := (w.node.broadcast D.sha256 w.now tx (some worker)).2 }) := rfl

/-- A send meets no scripted fault, or uses one up. -/
theorem alone_broadcast_cases (id : UUID) (token : Nat) (tx : SignedTx) (worker : String) :
    w.node.broadcastFaults = [] ∨
      trouble (D.alone (.broadcast id token tx worker) w).2 < trouble w := by
  rw [alone_broadcast]
  cases queue : w.node.broadcastFaults with
  | nil => exact .inl rfl
  | cons fault rest =>
      obtain ⟨sends, queries⟩ :=
        MockTronNode.broadcast_queues D.sha256 w.node w.now tx (some worker)
      right
      simp only [trouble, sends, queries, queue, List.tail_cons, List.length_cons]
      omega

theorem alone_trouble (call : Call) : trouble (D.alone call w).2 ≤ trouble w := by
  cases call with
  | findTx txid =>
      rcases alone_findTx D w txid with same | less
      · rw [same]
      · exact less.le
  | here point =>
      rcases alone_here D w point with same | ⟨_, less⟩
      · rw [same]
      · exact less.le
  | broadcast id token tx worker =>
      obtain ⟨sends, queries⟩ :=
        MockTronNode.broadcast_queues D.sha256 w.node w.now tx (some worker)
      rw [alone_broadcast]
      simp only [trouble, sends, queries, List.length_tail]
      omega
  | claim | cas | release | now | refBlock | solidNow | solidBlock => exact le_refl _

/-- A run meets no new trouble. -/
theorem run_trouble {X α : Type} (program : Program Call Reply X α) :
    trouble (program.run D.alone w).2 ≤ trouble w :=
  Program.run_keeps (J := fun w' => trouble w' ≤ trouble w)
    (fun call w' le => (alone_trouble D w' call).trans le) program w (le_refl _)

end Calls

/-! ## What a row is up to -/

/-- What a macro step of a row comes to. -/
inductive Outlook where
  | moves
  | stays
  | sinks
  deriving DecidableEq

section Outlook

variable (D : Deployment) (w : World)

/-- An envelope is due, and its expiration lies beyond the calendar. -/
def unbuildable (op : Operation) : Bool :=
  op.attempts < D.cfg.maxBuildAttempts && !decide (IsDatetime (w.now + D.cfg.txTtlSeconds))

/-- When the transaction counts as dead. -/
def deadline (tx : SignedTx) : Int := tx.expiration + D.cfg.expirationSafetySeconds

def statusNow (tx : SignedTx) : TxStatus := w.node.statusOf w.now (w.node.txs.get? tx.txid)

/-- From `signed`: a node that cannot compare the signature raises after the write-ahead. -/
def sendOutlook (tx : SignedTx) : Outlook :=
  if w.now < tx.expiration ∧ w.node.signer.verify D.sha256 tx = none then .sinks else .moves

/-- From `broadcasting`: bytes the node has not got are sent again until they are dead. -/
def reconcileOutlook (tx : SignedTx) : Outlook :=
  if (statusNow w tx).result ≠ .unknown then .moves
  else if ¬ IsDatetime (deadline D tx) then .stays
  else if deadline D tx ≤ w.node.solidNow then .moves
  else
    match w.node.signer.verify D.sha256 tx with
    | none => .stays
    | some false => .moves
    | some true => if tx.expiration ≤ w.now then .stays else .moves

/-- From `broadcast`: only a solid block or provable death ends the waiting. -/
def awaitOutlook (tx : SignedTx) : Outlook :=
  match (statusNow w tx).result with
  | .included => if (statusNow w tx).solid then .moves else .stays
  | .pending => .stays
  | .unknown =>
      if IsDatetime (deadline D tx) ∧ deadline D tx ≤ w.node.solidNow then .moves else .stays

def outlook (op : Operation) : Outlook :=
  match op.state with
  | .validated => if unbuildable D w op then .sinks else .moves
  | .signing => if unbuildable D w op then .stays else .moves
  | .signed => op.signedTx.elim .moves (sendOutlook D w)
  | .broadcasting => op.signedTx.elim .moves (reconcileOutlook D w)
  | .broadcast => op.signedTx.elim .moves (awaitOutlook D w)
  | .requested | .confirmed | .failed | .rejected => .moves

/-- Where a step leaves a row that does not move on. -/
def rested (op : Operation) : OpState :=
  match outlook D w op, op.state with
  | .sinks, .validated => .signing
  | .sinks, .signed => .broadcasting
  | _, state => state

end Outlook

/-- Clock and chain look the same. -/
structure SameView (w w' : World) : Prop where
  now : w'.now = w.now
  txs : w'.node.txs = w.node.txs
  blockTime : w'.node.blockTime = w.node.blockTime
  head : w'.node.head = w.node.head
  solidityLag : w'.node.solidityLag = w.node.solidityLag
  signer : w'.node.signer = w.node.signer

theorem SameView.refl (w : World) : SameView w w := ⟨rfl, rfl, rfl, rfl, rfl, rfl⟩

theorem SameView.trans {w₁ w₂ w₃ : World} (first : SameView w₁ w₂) (second : SameView w₂ w₃) :
    SameView w₁ w₃ :=
  ⟨second.now.trans first.now, second.txs.trans first.txs, second.blockTime.trans first.blockTime,
    second.head.trans first.head, second.solidityLag.trans first.solidityLag,
    second.signer.trans first.signer⟩

section Looks

variable {D : Deployment} {w w' : World} {op op' : Operation} {tx : SignedTx}

theorem outlook_congr (view : SameView w w') (state : op'.state = op.state)
    (signed : op'.signedTx = op.signedTx) (attempts : op'.attempts = op.attempts) :
    outlook D w' op' = outlook D w op := by
  obtain ⟨now, store, ⟨lag, delay, signer, head, blockTime, txs⟩, crash⟩ := w
  obtain ⟨now', store', ⟨lag', delay', signer', head', blockTime', txs'⟩, crash'⟩ := w'
  obtain ⟨rfl, rfl, rfl, rfl, rfl, rfl⟩ := view
  unfold outlook unbuildable
  rw [state, signed, attempts]
  rfl

theorem outlook_requested (state : op.state = .requested) : outlook D w op = .moves := by
  rw [outlook, state]

theorem outlook_validated (state : op.state = .validated) :
    outlook D w op = if unbuildable D w op then .sinks else .moves := by
  rw [outlook, state]

theorem outlook_signing (state : op.state = .signing) :
    outlook D w op = if unbuildable D w op then .stays else .moves := by
  rw [outlook, state]

theorem outlook_signed (state : op.state = .signed) (signed : op.signedTx = some tx) :
    outlook D w op = sendOutlook D w tx := by
  rw [outlook, state, signed]
  rfl

theorem outlook_broadcasting (state : op.state = .broadcasting) (signed : op.signedTx = some tx) :
    outlook D w op = reconcileOutlook D w tx := by
  rw [outlook, state, signed]
  rfl

theorem outlook_broadcast (state : op.state = .broadcast) (signed : op.signedTx = some tx) :
    outlook D w op = awaitOutlook D w tx := by
  rw [outlook, state, signed]
  rfl

theorem rested_of_stays (look : outlook D w op = .stays) : rested D w op = op.state := by
  rw [rested, look]

/-- Only validated and signed rows sink. -/
theorem sinks_cases (look : outlook D w op = .sinks) :
    op.state = .validated ∧ rested D w op = .signing ∨
      op.state = .signed ∧ rested D w op = .broadcasting := by
  have known := look
  unfold outlook at known
  cases state : op.state with
  | validated => exact .inl ⟨rfl, by rw [rested, look, state]⟩
  | signed => exact .inr ⟨rfl, by rw [rested, look, state]⟩
  | signing =>
      rw [state] at known
      dsimp only at known
      split at known <;> cases known
  | broadcasting =>
      rw [state] at known
      cases signed : op.signedTx with
      | none => rw [signed] at known; cases known
      | some tx =>
          rw [signed] at known
          simp only [Option.elim, reconcileOutlook] at known
          repeat' split at known
          all_goals cases known
  | broadcast =>
      rw [state] at known
      cases signed : op.signedTx with
      | none => rw [signed] at known; cases known
      | some tx =>
          rw [signed] at known
          simp only [Option.elim, awaitOutlook] at known
          repeat' split at known
          all_goals cases known
  | requested | confirmed | failed | rejected =>
      rw [state] at known
      cases known

end Looks

/-! ## One macro step -/

/-- A row that does not move on leaves everything anybody looks at. -/
structure Lingers (w : World) (op next : Operation) (w' : World) : Prop where
  view : SameView w w'
  others : ∀ id, id ≠ op.operationId → w'.store.ops.get? id = w.store.ops.get? id
  operationId : next.operationId = op.operationId
  fencingToken : next.fencingToken = op.fencingToken
  signedTx : next.signedTx = op.signedTx
  attempts : next.attempts = op.attempts

/-- How a macro step of `op` begun in `w` ends. -/
inductive StepEnds (D : Deployment) (w : World) (op : Operation) :
    Except Exn Operation → World → Prop
  | calmer {outcome : Except Exn Operation} {w' : World} (less : trouble w' < trouble w) :
      StepEnds D w op outcome w'
  | moved {next : Operation} {w' : World} (look : outlook D w op = .moves)
      (stored : w'.store.ops.get? op.operationId = some next) (changed : next.state ≠ op.state) :
      StepEnds D w op (.ok next) w'
  | stayed {next : Operation} {w' : World} (look : outlook D w op = .stays)
      (stored : w'.store.ops.get? op.operationId = some next) (same : next.state = op.state)
      (lingers : Lingers w op next w') : StepEnds D w op (.ok next) w'
  | raised {e : Exn} {next : Operation} {w' : World} (fault : e = .overflowError ∨ e = .typeError)
      (look : outlook D w op ≠ .moves) (stored : w'.store.ops.get? op.operationId = some next)
      (state : next.state = rested D w op) (lingers : Lingers w op next w') :
      StepEnds D w op (.error e) w'

section Writes

variable {D : Deployment} {w : World} {op : Operation} {toState : OpState} {worker : String}
  {sets : Sets} {detail : Detail}

/-- The world a write from the current row leaves. -/
def wrote (D : Deployment) (w : World) (op : Operation) (toState : OpState) (worker : String)
    (sets : Sets) (detail : Detail) : World :=
  { w with store := w.store.commit w.now (casRequest D.cfg op toState worker sets detail) op }

/-- The row it leaves. -/
def wroteRow (D : Deployment) (w : World) (op : Operation) (toState : OpState) (worker : String)
    (sets : Sets) (detail : Detail) : Operation :=
  casRow w.now (casRequest D.cfg op toState worker sets detail) op

theorem wrote_get? : (wrote D w op toState worker sets detail).store.ops.get? op.operationId =
    some (wroteRow D w op toState worker sets detail) := by
  simp [wrote, wroteRow, MemoryStore.commit_get?]

theorem wroteRow_state : (wroteRow D w op toState worker sets detail).state = toState :=
  MemoryStore.casRow_state _ _ _

theorem wroteRow_operationId :
    (wroteRow D w op toState worker sets detail).operationId = op.operationId :=
  MemoryStore.casRow_operationId _ _ _

/-- A write from the current row commits. -/
theorem cas_run (season : D.InSeason w.now) (found : w.store.ops.get? op.operationId = some op)
    (live : op.state.terminal = false) (legal : OpState.canTransition op.state toState = true) :
    (D.cas op toState worker sets detail).run D.alone w =
      (.ok (wroteRow D w op toState worker sets detail),
        wrote D w op toState worker sets detail) := by
  obtain ⟨expiry, lands⟩ := Option.isSome_iff_exists.mp season
  have commits : w.store.cas w.now (casRequest D.cfg op toState worker sets detail) =
      (.ok (some (wroteRow D w op toState worker sets detail)),
        (wrote D w op toState worker sets detail).store) := by
    simp [MemoryStore.cas, MemoryStore.overflows, casRequest, snapshotRequest, legal, found, live,
      lands, wroteRow, wrote]
  have answer : D.alone (.cas (casRequest D.cfg op toState worker sets detail)) w =
      (.ok (some (wroteRow D w op toState worker sets detail)),
        wrote D w op toState worker sets detail) := by
    show ((w.store.cas w.now _).1, { w with store := (w.store.cas w.now _).2 }) = _
    rw [commits]
    rfl
  show Program.run D.alone ((Program.ask _).bind _) w = _
  rw [Program.run_bind]
  simp only [Program.ask, Program.run, answer]
  rfl

end Writes

/-- A lookup finds nothing; a step from `signed` makes none. -/
def Unseen (w : World) (first : Operation) (txid : Hex) : Prop :=
  first.state ≠ .signed ∧ (w.node.statusOf w.now (w.node.txs.get? txid)).result = .unknown

/-- What is in store for a step of `first` that has begun in `w`, as far as the handler's
findings tell. -/
def forecast (D : Deployment) (w : World) (first : Operation) : Grounds where
  clock _ now := now = w.now
  drafted _ _ := True
  built _ _ := outlook D w first = .moves
  carries _ tx := first.signedTx = some tx
  troubled := False
  answered _ result :=
    (result.code.accepted = true ∨ result.code.hardReject = true → outlook D w first = .moves) ∧
      (result.code.accepted = false ∧ result.code.hardReject = false →
        result.code = .transactionExpirationError ∧
          outlook D w first = if first.state = .signed then .moves else .stays)
  raised _ := outlook D w first = if first.state = .signed then .sinks else .stays
  recorded _ := first.state ≠ .broadcast → outlook D w first = .moves
  unsettled _ := first.state = .broadcast → outlook D w first = .stays
  holds _ _ := True
  solid _ := outlook D w first = .moves
  looked txid := Unseen w first txid
  timed txid solidTime := Unseen w first txid ∧ solidTime = w.node.solidNow
  audited txid solidTime _ := Unseen w first txid ∧ solidTime = w.node.solidNow
  passed _ := True
  lapsed _ := True
  fallen := False

/-- How the step stands in `w₁`, holding `op`. -/
structure Stands (D : Deployment) (w : World) (first : Operation) (w₁ : World) (op : Operation) :
    Prop where
  found : w₁.store.ops.get? op.operationId = some op
  operationId : op.operationId = first.operationId
  attempts : op.attempts = first.attempts
  now : w₁.now = w.now
  signer : w₁.node.signer = w.node.signer
  solidNow : w₁.node.solidNow = w.node.solidNow
  calm : trouble w₁ ≤ trouble w
  timely : first.state = .signed → op.state = .broadcasting →
    ∀ tx, first.signedTx = some tx → w.now < tx.expiration
  look : outlook D w first ≠ .moves → Lingers w first op w₁

section Steps

variable {D : Deployment} {w w₁ : World} {first op : Operation} {toState : OpState}
  {worker : String} {sets : Sets} {detail : Detail} {tx : SignedTx}

theorem outlook_of_buildable (leg : Leg op first) (state : op.state = .signing)
    (buildable : unbuildable D w first = false) : outlook D w first = .moves := by
  cases leg with
  | start same => rw [outlook_signing (same.symm.trans state), buildable]; rfl
  | begun validated => rw [outlook_validated validated, buildable]; rfl
  | announced _ other => cases state.symm.trans other

/-- Bytes that are sent and not yet known to be out. -/
theorem Leg.sending (leg : Leg op first) (state : op.state = .broadcasting) :
    first.state = .signed ∨ first.state = .broadcasting := by
  cases leg with
  | start same => exact .inr (same.symm.trans state)
  | begun _ other => cases state.symm.trans other
  | announced signed => exact .inl signed

theorem Leg.same (leg : Leg op first) {state : OpState} (is : op.state = state)
    (mid : state ≠ .signing ∧ state ≠ .broadcasting) : first.state = state := by
  cases leg with
  | start same => exact same.symm.trans is
  | begun _ other => exact absurd (is.symm.trans other) mid.1
  | announced _ other => exact absurd (is.symm.trans other) mid.2

/-- A write that ends the step moves the row on, or notes on it that it stays. -/
theorem write_outlook (stands : Stands D w first w₁ op) (leg : Leg op first)
    (write : Writes D.toPipeline (forecast D w first) op toState sets detail)
    (last : OpState.midway op.state toState = false) :
    (toState ≠ first.state ∧ outlook D w first = .moves) ∨
      (toState = first.state ∧ outlook D w first = .stays ∧ sets.signedTx = none ∧
        sets.attempts = none) := by
  cases write with
  | reject state | validate state =>
      have start := leg.same state (by decide)
      exact .inl ⟨by rw [start]; decide, outlook_requested start⟩
  | startSigning state | build state | writeAhead state => rw [state] at last; cases last
  | giveUp state spent =>
      refine .inl ⟨?_, outlook_of_buildable leg state ?_⟩
      · cases leg with
        | start same => rw [← same, state]; decide
        | begun validated => rw [validated]; decide
        | announced signed => rw [signed]; decide
      · have spent : D.cfg.maxBuildAttempts ≤ first.attempts := stands.attempts ▸ spent
        simp [unbuildable, not_lt.mpr spent]
  | sign state u built =>
      refine .inl ⟨?_, built⟩
      cases leg with
      | start same => rw [← same, state]; decide
      | begun validated => rw [validated]; decide
      | announced _ other => cases state.symm.trans other
  | dropUnsent state tx signed now clock late =>
      have start := leg.same state (by decide)
      refine .inl ⟨by rw [start]; decide, ?_⟩
      rw [outlook_signed start signed, sendOutlook, if_neg]
      have clock : now = w.now := clock
      omega
  | accepted state tx signed recorded | found state tx signed recorded =>
      rcases leg.sending state with start | start
      · exact .inl ⟨by rw [start]; decide, recorded (by rw [start]; decide)⟩
      · exact .inl ⟨by rw [start]; decide, recorded (by rw [start]; decide)⟩
  | hardReject state tx signed result hard answer =>
      have moves := answer.1 (.inr hard)
      rcases leg.sending state with start | start
      · exact .inl ⟨by rw [start]; decide, moves⟩
      · exact .inl ⟨by rw [start]; decide, moves⟩
  | noted state tx signed result soft answer =>
      have look := (answer.2 soft).2
      rcases leg.sending state with start | start
      · exact .inl ⟨by rw [start]; decide, by rw [look, start]; rfl⟩
      · exact .inr ⟨by rw [start], by rw [look, start]; rfl, rfl, rfl⟩
  | retire state tx signed solidTime solidBlock audited late _ _ _ fits =>
      obtain ⟨⟨sent, unknown⟩, rfl⟩ := audited
      have unknown : (statusNow w tx).result = .unknown := unknown
      have late : deadline D tx ≤ w.node.solidNow := late
      have fits : IsDatetime (deadline D tx) := fits
      have signed : first.signedTx = some tx := signed
      rcases state with state | state
      · rcases leg.sending state with start | start
        · exact absurd start sent
        · refine .inl ⟨by rw [start]; decide, ?_⟩
          rw [outlook_broadcasting start signed]
          simp [reconcileOutlook, unknown, fits, late]
      · have start := leg.same state (by decide)
        refine .inl ⟨by rw [start]; decide, ?_⟩
        rw [outlook_broadcast start signed]
        simp [awaitOutlook, unknown, fits, late]
  | confirm state tx signed rec recorded block included receipt solid
  | reverted state tx signed rec recorded block included receipt solid =>
      have start := leg.same state (by decide)
      exact .inl ⟨by rw [start]; decide, solid⟩
  | breadcrumb _ fallen => exact fallen.elim

/-- A handler that raises by itself does so from a row that stays or sinks. -/
theorem fault_outlook {e : Exn} (shape : Shape D first) (live : first.state.terminal = false)
    (stands : Stands D w first w₁ op) (leg : Leg op first)
    (faults : Faults D.toPipeline (forecast D w first) op first e) :
    (e = .overflowError ∨ e = .typeError) ∧ outlook D w first ≠ .moves ∧
      op.state = rested D w first := by
  cases faults with
  | unsigned start state missing =>
      subst start
      obtain ⟨tx, stored⟩ := shape.sealed (by tauto)
      cases missing.symm.trans stored.signedTx
  | expiration state left now clock beyond =>
      have clock : now = w.now := clock
      have left : first.attempts < D.cfg.maxBuildAttempts := stands.attempts ▸ left
      have stuck : unbuildable D w first = true := by
        rw [clock] at beyond
        simp [unbuildable, left, beyond]
      refine ⟨.inl rfl, ?_⟩
      cases leg with
      | start same =>
          have start := same.symm.trans state
          have look := outlook_signing (D := D) (w := w) start
          rw [stuck, if_pos rfl] at look
          exact ⟨by rw [look]; decide, by rw [rested_of_stays look, same]⟩
      | begun start =>
          have look := outlook_validated (D := D) (w := w) start
          rw [stuck, if_pos rfl] at look
          exact ⟨by rw [look]; decide, by rw [rested, look, start, state]⟩
      | announced _ other => cases state.symm.trans other
  | signature state tx signed raised =>
      have raised : outlook D w first = if first.state = .signed then .sinks else .stays := raised
      refine ⟨.inr rfl, ?_⟩
      rcases leg.sending state with start | start
      · rw [start, if_pos rfl] at raised
        exact ⟨by rw [raised]; decide, by rw [rested, raised, start, state]⟩
      · rw [start, if_neg (by decide)] at raised
        exact ⟨by rw [raised]; decide, by rw [rested, raised, start, state]⟩
  | deadline state tx signed solidTime timed beyond =>
      obtain ⟨⟨sent, unknown⟩, _⟩ := timed
      have unknown : (statusNow w tx).result = .unknown := unknown
      have beyond : ¬ IsDatetime (deadline D tx) := beyond
      have signed : first.signedTx = some tx := signed
      refine ⟨.inl rfl, ?_⟩
      rcases state with state | state
      · have start := (leg.sending state).resolve_left sent
        have look : outlook D w first = .stays := by
          rw [outlook_broadcasting start signed]
          simp [reconcileOutlook, unknown, beyond]
        exact ⟨by rw [look]; decide, by rw [rested_of_stays look, start, state]⟩
      · have start := leg.same state (by decide)
        have look : outlook D w first = .stays := by
          rw [outlook_broadcast start signed]
          simp [awaitOutlook, unknown, beyond]
        exact ⟨by rw [look]; decide, by rw [rested_of_stays look, start, state]⟩
  | ended state => cases (leg.live live).symm.trans state

/-- How a send that meets no scripted fault ends, by what the node makes of the signature. -/
theorem send_outlook (stands : Stands D w first w₁ op) (state : op.state = .broadcasting)
    (signed : first.signedTx = some tx)
    (sends : Sends D.toPipeline (forecast D w first) first tx) :
    outlook D w first = match w.node.signer.verify D.sha256 tx with
      | none => if first.state = .signed then .sinks else .stays
      | some false => .moves
      | some true =>
          if tx.expiration ≤ w.now then if first.state = .signed then .moves else .stays
          else .moves := by
  cases sends with
  | announced start =>
      have timely := stands.timely start state tx signed
      rw [outlook_signed start signed, sendOutlook, start]
      cases w.node.signer.verify D.sha256 tx with
      | none => simp [timely]
      | some verified => cases verified <;> simp
  | again start solidTime solidBlock audited fits early =>
      obtain ⟨⟨_, unknown⟩, rfl⟩ := audited
      have unknown : (statusNow w tx).result = .unknown := unknown
      have fits : IsDatetime (deadline D tx) := fits
      have early : w.node.solidNow < deadline D tx := early
      rw [outlook_broadcasting start signed, reconcileOutlook, start]
      simp [unknown, fits, not_le.mpr early]

/-- A write that leaves the artefacts of the row alone. -/
theorem Lingers.write (lingers : Lingers w first op w₁) (same : op.operationId = first.operationId)
    (signedTx : sets.signedTx = none) (attempts : sets.attempts = none) :
    Lingers w first (wroteRow D w₁ op toState worker sets detail)
      (wrote D w₁ op toState worker sets detail) := by
  have view := lingers.view
  refine ⟨⟨view.now, view.txs, view.blockTime, view.head, view.solidityLag, view.signer⟩,
    fun id other => ?_, wroteRow_operationId.trans same, ?_, ?_, ?_⟩
  · rw [wrote, MemoryStore.commit_get?, if_neg (same ▸ other),
      lingers.others id other]
  · exact (MemoryStore.casRow_fencingToken _ _ _).trans lingers.fencingToken
  · rw [wroteRow, MemoryStore.casRow_signedTx]
    show sets.signedTx.getD op.signedTx = _
    rw [signedTx]
    exact lingers.signedTx
  · rw [wroteRow, MemoryStore.casRow_attempts]
    show sets.attempts.getD op.attempts = _
    rw [attempts]
    exact lingers.attempts

theorem Stands.refl (found : w.store.ops.get? first.operationId = some first) :
    Stands D w first w first := by
  refine ⟨found, rfl, rfl, rfl, rfl, rfl, le_refl _, fun signed sending => ?_, fun _ => ?_⟩
  · cases signed.symm.trans sending
  · exact ⟨.refl _, fun _ _ => rfl, rfl, rfl, rfl, rfl⟩

theorem Stands.stored (stands : Stands D w first w₁ op) :
    w₁.store.ops.get? first.operationId = some op := stands.operationId ▸ stands.found

/-- Once some trouble is used up, it does not matter how the step goes on. -/
theorem yields_of_less (less : trouble w₁ < trouble w) (program : Handler Operation) :
    program.Yields D.alone (StepEnds D w first) w₁ :=
  .calmer ((run_trouble D w₁ program).trans_lt less)

/-- A write that the handler goes on from. -/
theorem Stands.commit (worker : String) (stands : Stands D w first w₁ op) (leg : Leg op first)
    (write : Writes D.toPipeline (forecast D w first) op toState sets detail)
    (midway : OpState.midway op.state toState = true) :
    Stands D w first (wrote D w₁ op toState worker sets detail)
        (wroteRow D w₁ op toState worker sets detail) ∧
      (sets.unsignedTx ≠ none → outlook D w first = .moves) := by
  -- of the three of them, a draft is stored only if its expiration fits
  have facts : sets.attempts = none ∧ (sets.signedTx = none ∨ outlook D w first = .moves) ∧
      (sets.unsignedTx ≠ none → outlook D w first = .moves) ∧
      (first.state = .signed → toState = .broadcasting →
        ∀ tx, first.signedTx = some tx → w.now < tx.expiration) := by
    cases write with
    | startSigning => exact ⟨rfl, .inl rfl, nofun, nofun⟩
    | build state left ref now clock drafted fits =>
        have moves := outlook_of_buildable (D := D) (w := w) leg state (by
          rw [show now = w.now from clock] at fits
          simp [unbuildable, fits])
        exact ⟨rfl, .inr moves, fun _ => moves, nofun⟩
    | writeAhead state tx signed now clock timely =>
        refine ⟨rfl, .inl rfl, nofun, fun _ _ tx' signed' => ?_⟩
        rw [show first.signedTx = some tx from signed] at signed'
        cases signed'
        exact (show now = w.now from clock) ▸ timely
    | retire state => rcases state with state | state <;> rw [state] at midway <;> cases midway
    | breadcrumb _ fallen => exact fallen.elim
    | reject state | validate state | giveUp state | sign state | dropUnsent state
    | accepted state | hardReject state | noted state | found state | confirm state
    | reverted state => rw [state] at midway; cases midway
  obtain ⟨attempts, signedTx, built, timely⟩ := facts
  refine ⟨⟨?_, wroteRow_operationId.trans stands.operationId, ?_, stands.now, stands.signer,
    stands.solidNow, stands.calm, ?_, fun look => ?_⟩, built⟩
  · rw [wroteRow_operationId]
    exact wrote_get?
  · rw [wroteRow, MemoryStore.casRow_attempts]
    show sets.attempts.getD op.attempts = _
    rw [attempts]
    exact stands.attempts
  · rw [wroteRow_state]
    exact timely
  · exact (stands.look look).write stands.operationId (signedTx.resolve_right look) attempts

/-- The node has answered. -/
theorem Stands.sent (stands : Stands D w first w₁ op) {node : MockTronNode}
    (signer : node.signer = w₁.node.signer) (blocks : node.blockTime = w₁.node.blockTime)
    (head : node.head = w₁.node.head) (lag : node.solidityLag = w₁.node.solidityLag)
    (calm : trouble { w₁ with node := node } ≤ trouble w₁)
    (txs : outlook D w first ≠ .moves → node.txs = w₁.node.txs) :
    Stands D w first { w₁ with node := node } op where
  found := stands.found
  operationId := stands.operationId
  attempts := stands.attempts
  now := stands.now
  signer := signer.trans stands.signer
  solidNow := by
    rw [← stands.solidNow]
    unfold MockTronNode.solidNow MockTronNode.timeOf MockTronNode.solidHeight
      MockTronNode.firstBlock MockTronNode.solidBlock
    rw [blocks, head, lag]
  calm := calm.trans stands.calm
  timely := stands.timely
  look look := by
    have lingers := stands.look look
    have view := lingers.view
    exact { lingers with view := ⟨view.now, (txs look).trans view.txs, blocks.trans view.blockTime,
      head.trans view.head, lag.trans view.solidityLag, signer.trans view.signer⟩ }

/-- **The handlers, alone.** -/
def solo (worker : String) (season : D.InSeason w.now)
    (found : w.store.ops.get? first.operationId = some first)
    (live : first.state.terminal = false) (shape : Shape D first) :
    Logic D.toPipeline worker first where
  Place := World
  grounds _ := forecast D w first
  Start w₁ := w₁ = w
  Has := Stands D w first
  judge w₁ handler := handler.Yields D.alone (StepEnds D w first) w₁
  start := by
    rintro _ rfl
    exact .refl found
  carries _ signed := signed
  pause := by
    intro w₁ op stands leg pauses
    have stays : op.state = first.state ∧ outlook D w first = .stays := by
      cases pauses with
      | unanswered _ trouble => exact trouble.elim
      | busy state tx signed result soft fresh answer =>
          rw [(answer.2 soft).1] at fresh
          cases fresh
      | unsettled state tx signed outside =>
          have start := leg.same state (by decide)
          exact ⟨state.trans start.symm, outside start⟩
      | alive state tx signed solidTime solidBlock audited fits early =>
          have start := leg.same state (by decide)
          obtain ⟨⟨_, unknown⟩, rfl⟩ := audited
          have unknown : (statusNow w tx).result = .unknown := unknown
          have early : ¬ deadline D tx ≤ w.node.solidNow := not_le.mpr early
          refine ⟨state.trans start.symm, ?_⟩
          rw [outlook_broadcast start signed]
          simp [awaitOutlook, unknown, early]
    exact .stayed stays.2 stands.stored stays.1 (stands.look (by rw [stays.2]; decide))
  fault stands leg _ faults := by
    obtain ⟨fault, look, state⟩ := fault_outlook shape live stands leg faults
    exact .raised fault look stands.stored state (stands.look look)
  write := by
    intro w₁ op toState sets detail stands leg write last
    unfold Program.Yields
    rw [cas_run (stands.now ▸ season) stands.found write.live write.legal]
    have stored : (wrote D w₁ op toState worker sets detail).store.ops.get? first.operationId =
        some (wroteRow D w₁ op toState worker sets detail) := stands.operationId ▸ wrote_get?
    rcases write_outlook stands leg write last with
      ⟨changed, look⟩ | ⟨same, look, signedTx, attempts⟩
    · exact .moved look stored (by rw [wroteRow_state]; exact changed)
    · exact .stayed look stored (by rw [wroteRow_state]; exact same)
        ((stands.look (by rw [look]; decide)).write stands.operationId signedTx attempts)
  commit := by
    intro w₁ op toState sets detail next stands leg write midway rest
    refine Program.Yields.bind ?_
    unfold Program.Yields
    rw [cas_run (stands.now ▸ season) stands.found write.live write.legal]
    obtain ⟨stands', built⟩ := stands.commit worker leg write midway
    exact rest _ _ stands' wroteRow_state (fun _ signed _ => signed)
      fun ref now unsigned _ _ => built (by rw [unsigned]; exact nofun)
  here := by
    intro w₁ op point next stands rest
    refine Program.Yields.bind (Program.Yields.ask ?_)
    rcases alone_here D w₁ point with same | ⟨dead, less⟩
    · rw [same]
      exact rest w₁ stands (Grounds.Extends.refl _).toKeeps
    · rw [dead]
      exact .calmer (less.trans_le stands.calm)
  clock stands rest := Program.Yields.ask
    (rest _ _ stands (Grounds.Extends.refl _).toKeeps stands.now)
  draft stands rest :=
    Program.Yields.ask (Program.Yields.ask (rest _ _ _ stands stands.now trivial))
  send := by
    intro w₁ op tx next stands state signed sends _ answered raised
    have look := send_outlook stands state signed sends
    change Program.Yields D.alone (StepEnds D w first) (Program.bind _ next)
      (D.alone (.broadcast op.operationId op.fencingToken tx worker) w₁).2
    rcases alone_broadcast_cases D w₁ op.operationId op.fencingToken tx worker with
      unscripted | less
    swap
    · exact yields_of_less (less.trans_le stands.calm) _
    have reply := alone_broadcast D w₁ op.operationId op.fencingToken tx worker
    rw [MockTronNode.broadcast_unscripted unscripted] at reply
    have known := stands.signer ▸ look
    cases verdict : w₁.node.signer.verify D.sha256 tx with
    | none =>
        rw [verdict] at known reply
        rw [reply]
        exact raised _ stands signed known
    | some verified =>
        rw [verdict] at known reply
        cases verified with
        | false =>
            rw [reply]
            exact answered _ _ (stands.sent rfl rfl rfl rfl (le_refl _) fun _ => rfl) signed
              ⟨fun _ => known, nofun⟩ nofun
        | true =>
            dsimp only at known reply
            rw [← stands.now] at known
            split at reply
            · rename_i late
              rw [if_pos late] at known
              rw [reply]
              exact answered _ _ (stands.sent rfl rfl rfl rfl (le_refl _) fun _ => rfl) signed
                ⟨nofun, fun _ => ⟨rfl, known⟩⟩ nofun
            rename_i timely
            rw [if_neg timely] at known
            split at reply
            · rw [reply]
              exact answered _ _ (stands.sent rfl rfl rfl rfl (le_refl _) fun _ => rfl) signed
                ⟨fun _ => known, nofun⟩ fun _ _ => known
            · rw [reply]
              exact answered _ _
                (stands.sent rfl rfl rfl rfl (le_refl _) fun other => absurd known other)
                signed ⟨fun _ => known, nofun⟩ fun _ _ => known
  findTx := by
    intro w₁ tx next start sent signed _ unknown pending included
    subst start
    have stands : Stands D w₁ first w₁ first := .refl found
    refine Program.Yields.ask ?_
    rcases alone_findTx D w₁ tx.txid with quiet | less
    swap
    · exact yields_of_less less _
    rw [quiet]
    have signed : first.signedTx = some tx := signed
    rcases w₁.node.statusOf_cases w₁.now (w₁.node.txs.get? tx.txid) with
      ⟨verdict, _⟩ | ⟨verdict, _⟩ | ⟨rec, block, _, inside, verdict⟩
    · refine unknown _ _ stands signed ⟨?_, verdict⟩ (fun _ => trivial) verdict
      rcases sent with sent | sent <;> rw [sent] <;> decide
    · have status : (statusNow w₁ tx).result = .pending := verdict
      refine pending _ _ stands signed (fun other => ?_) (fun start => ?_) verdict
      · rw [outlook_broadcasting (sent.resolve_right other) signed]
        simp [reconcileOutlook, status]
      · rw [outlook_broadcast start signed]
        simp [awaitOutlook, status]
    · rw [verdict]
      have status : statusNow w₁ tx = _ := verdict
      refine included _ rec block _ stands signed (fun other => ?_) trivial inside ?_ ?_
      · rw [outlook_broadcasting (sent.resolve_right other) signed]
        simp [reconcileOutlook, status]
      · intro solid
        show outlook D w₁ first = .moves
        rcases sent with start | start
        · rw [outlook_broadcasting start signed]
          simp [reconcileOutlook, status]
        · rw [outlook_broadcast start signed]
          simp only [awaitOutlook, status, solid, if_true]
      · intro open_ start
        show outlook D w₁ first = .stays
        rw [outlook_broadcast start signed]
        simp only [awaitOutlook, status, open_, Bool.false_eq_true, if_false]
  solidNow stands looked rest := Program.Yields.ask
    (rest _ _ stands (Grounds.Extends.refl _).toKeeps ⟨looked, stands.solidNow⟩)
  solidBlock stands timed rest := Program.Yields.ask
    (rest _ _ stands (Grounds.Extends.refl _).toKeeps timed trivial)

/-- **One macro step, alone.**  It meets trouble, or ends as its outlook was. -/
theorem step_ends (worker : String) (season : D.InSeason w.now)
    (found : w.store.ops.get? op.operationId = some op) (live : op.state.terminal = false)
    (shape : Shape D op) : (D.step op worker).Yields D.alone (StepEnds D w op) w :=
  (solo worker season found live shape).step rfl

end Steps

/-! ## One round -/

/-- A fresh worker is started and runs `run_once` to its end, and nobody else moves. -/
def RunsOnce (D : Deployment) (worker : String) (c c' : Run) : Prop :=
  ∃ n, D.machine.performAll c (.spawn worker :: Move.serves c.pool.length none n) = some c' ∧
    ((∃ advanced, c'.pool = c.pool ++ [.done advanced]) ∨ ∃ exn, c'.pool = c.pool ++ [.fail exn])

theorem RunsOnce.reaches {D : Deployment} {worker : String} {c c' : Run}
    (runs : RunsOnce D worker c c') : D.machine.Reaches c c' := by
  obtain ⟨n, done, _⟩ := runs
  exact Machine.reaches_of_performAll done

theorem runsOnce_exists (D : Deployment) (worker : String) (c : Run) :
    ∃ c', RunsOnce D worker c c' ∧
      c'.point.world = ((Worker.runOnce D.toPipeline worker).run D.alone c.point.world).2 := by
  obtain ⟨n, c', done, world, pool⟩ := Machine.performAll_bind (M := D.machine)
    D.serve_eq_alone Program.done (Worker.runOnce D.toPipeline worker)
    ⟨c.point, c.pool ++ [Worker.runOnce D.toPipeline worker]⟩
    (by rw [Program.bind_done]; exact List.getElem?_concat_length)
  refine ⟨c', ⟨n, done, ?_⟩, world⟩
  rw [List.set_append_right _ _ (le_refl _), Nat.sub_self, List.set_cons_zero] at pool
  cases ended : ((Worker.runOnce D.toPipeline worker).run D.alone c.point.world).1 with
  | ok advanced => exact .inl ⟨advanced, by rw [pool, ended]⟩
  | error exn => exact .inr ⟨exn, by rw [pool, ended]⟩

end Sluice.Protocol
