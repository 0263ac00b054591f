/-
# Kernel.PostgresStore -- the database store

`store/postgres.py` and the trigger of `migrations/001_schema.sql`.  `cas` assembles one
UPDATE from its arguments: a list of column assignments, a WHERE on id, token and state.
`claim` is one UPDATE of the rows its scan picks, and passes over rows that other
transactions have locked (`claimSkipping`).  `insert_new` writes six columns and leaves the
others to their defaults.
These rules of the database and its driver matter here and are part of the model:

* a SET list that names a column twice is an error of the statement, whatever rows match;
* so is a value its column does not take: a NUL in a text, also within JSON, an integer
  beyond the column's type, an integer JSON cannot print, an interval beyond 64 bits;
* an instant no `datetime` can hold is an error once a row has been written, and so is an
  event whose values do not fit;
* the trigger sees every row before it is written and may refuse it;
* a transaction id another row holds cannot be written (`operations_txid_unique`).

An error rolls the transaction back, so the tables stay as they were.  `now()` is the
instant of the transaction.  The sizes at which the database gives up on a value of the
right type (an index entry of some 2700 bytes, a field of a gigabyte) are not modelled.
-/
import Sluice.Kernel.MemoryStore

namespace Sluice.Kernel

open Sluice.Theory

set_option autoImplicit false

/-! ## What a column takes -/

/-- No NUL, which `text` and `jsonb` both refuse. -/
def plain (text : List Char) : Bool := !text.contains '\x00'

def int4 (n : Int) : Bool := -2 ^ 31 ≤ n && n < 2 ^ 31

def int8 (n : Int) : Bool := -2 ^ 63 ≤ n && n < 2 ^ 63

/-- `json.dumps` prints the integer: it has at most 4300 digits. -/
def printable (n : Int) : Bool := n.natAbs < 10 ^ 4300

def RawData.storable (raw : RawData) : Bool :=
  plain raw.contract.type.toList && plain raw.contract.contractAddress.toList &&
  plain raw.contract.call.toList && plain raw.contract.toAddress.toList &&
  plain raw.contract.amountUnits.toList && printable raw.refBlockNum &&
  plain raw.refBlockHash.toList && printable raw.timestampMs && printable raw.expirationMs

def SignedTx.storable (tx : SignedTx) : Bool :=
  tx.rawData.storable && plain tx.txid && plain tx.signature

def Evidence.storable : Evidence → Bool
  | .rule text => plain text.toList
  | .death _ solidBlock _ _ nodeLookup => printable solidBlock && plain nodeLookup.toList

def Detail.storable (detail : Detail) : Bool :=
  detail.txid.all plain && detail.reason.all (plain ·.toList) &&
  detail.code.all (plain ·.toList) && detail.classified.all (plain ·.toList) &&
  detail.via.all (plain ·.toList) && detail.found.all (plain ·.toList) &&
  detail.block.all (·.all printable) && detail.retiredTxid.all (·.all plain) &&
  detail.expiryEvidence.all (·.storable)

/-- `now() + make_interval(secs => x)`, if a `datetime` can hold it. -/
def Seconds.intervalAfter (x : Seconds) (now : Int) : Option Int :=
  x.makeInterval.bind fun span => if IsDatetime (now + span) then some (now + span) else none

/-! ## Statements -/

/-- The columns an UPDATE of `cas` can name. -/
inductive Column where
  | state
  | attempts
  | broadcastAt
  | confirmedAt
  | failureReason
  | includedBlock
  | lastError
  | signedTx
  | txExpiration
  | txid
  | unsignedTx
  | claimedBy
  | leaseExpiresAt
  deriving DecidableEq, Repr

/-- One item of a SET list; the right-hand sides do not read the row. -/
inductive Clause where
  | state (value : OpState)
  | attempts (value : Int)
  | broadcastAt (value : Option Int)
  | confirmedAt (value : Option Int)
  | failureReason (value : Option String)
  | includedBlock (value : Option Int)
  | lastError (value : Option String)
  | signedTx (value : Option SignedTx)
  | txExpiration (value : Option Int)
  | txid (value : Option Hex)
  | unsignedTx (value : Option RawData)
  | claimedBy (value : Option String)
  | leaseExpiresAt (value : Option Int)

namespace Clause

def column : Clause → Column
  | .state _ => .state
  | .attempts _ => .attempts
  | .broadcastAt _ => .broadcastAt
  | .confirmedAt _ => .confirmedAt
  | .failureReason _ => .failureReason
  | .includedBlock _ => .includedBlock
  | .lastError _ => .lastError
  | .signedTx _ => .signedTx
  | .txExpiration _ => .txExpiration
  | .txid _ => .txid
  | .unsignedTx _ => .unsignedTx
  | .claimedBy _ => .claimedBy
  | .leaseExpiresAt _ => .leaseExpiresAt

def assign (row : Operation) : Clause → Operation
  | .state value => { row with state := value }
  | .attempts value => { row with attempts := value }
  | .broadcastAt value => { row with broadcastAt := value }
  | .confirmedAt value => { row with confirmedAt := value }
  | .failureReason value => { row with failureReason := value }
  | .includedBlock value => { row with includedBlock := value }
  | .lastError value => { row with lastError := value }
  | .signedTx value => { row with signedTx := value }
  | .txExpiration value => { row with txExpiration := value }
  | .txid value => { row with txid := value }
  | .unsignedTx value => { row with unsignedTx := value }
  | .claimedBy value => { row with claimedBy := value }
  | .leaseExpiresAt value => { row with leaseExpiresAt := value }

/-- The column takes the value. -/
def fits : Clause → Bool
  | .attempts value => int4 value
  | .failureReason value => value.all (plain ·.toList)
  | .includedBlock value => value.all int8
  | .lastError value => value.all (plain ·.toList)
  | .signedTx value => value.all (·.storable)
  | .txid value => value.all plain
  | .unsignedTx value => value.all (·.storable)
  | .claimedBy value => value.all (plain ·.toList)
  | .state _ | .broadcastAt _ | .confirmedAt _ | .txExpiration _ | .leaseExpiresAt _ => true

end Clause

/-- The clauses of `sets`, columns in alphabetical order. -/
def Sets.clauses (sets : Sets) : List Clause :=
  (sets.attempts.map Clause.attempts).toList ++
  (sets.broadcastAt.map Clause.broadcastAt).toList ++
  (sets.confirmedAt.map Clause.confirmedAt).toList ++
  (sets.failureReason.map Clause.failureReason).toList ++
  (sets.includedBlock.map Clause.includedBlock).toList ++
  (sets.lastError.map Clause.lastError).toList ++
  (sets.signedTx.map Clause.signedTx).toList ++
  (sets.txExpiration.map Clause.txExpiration).toList ++
  (sets.txid.map Clause.txid).toList ++
  (sets.unsignedTx.map Clause.unsignedTx).toList

inductive PostgresError where
  | illegalTransition (error : IllegalTransition)
  /-- A value its column does not take. -/
  | dataError
  /-- `multiple assignments to same column`. -/
  | duplicateColumn
  /-- `check_violation`, raised by the trigger. -/
  | checkViolation (message : String)
  | uniqueViolation
  deriving DecidableEq, Repr

structure PostgresStore where
  operations : Dict UUID Operation
  /-- Oldest first. -/
  operationEvents : List Event
  nextEventId : Nat

namespace PostgresStore

/-- The renewal of the lease, and its end in a terminal state. -/
def leaseClauses (now : Int) (req : CasRequest) : List Clause :=
  (match req.renewLeaseSeconds with
    | some lease => [.leaseExpiresAt (lease.intervalAfter now)]
    | none => []) ++
  (if req.toState.terminal then [.claimedBy none, .leaseExpiresAt none] else [])

/-- The SET list of `cas`, in the order in which it is assembled. -/
def setList (now : Int) (req : CasRequest) : List Clause :=
  [.state req.toState] ++ req.sets.clauses ++ leaseClauses now req

/-- The pairs the trigger lets through. -/
def guardPairs : List (OpState × OpState) :=
  [(.requested, .validated), (.requested, .rejected), (.validated, .signing),
    (.validated, .rejected), (.signing, .signed), (.signing, .failed), (.signed, .broadcasting),
    (.signed, .signing), (.broadcasting, .broadcast), (.broadcasting, .signing),
    (.broadcasting, .failed), (.broadcast, .confirmed), (.broadcast, .signing),
    (.broadcast, .failed)]

/-- The BEFORE UPDATE trigger. -/
def opTransitionGuard (now : Int) (old new : Operation) : Except PostgresError Operation :=
  if old.state ∈ [OpState.confirmed, .failed, .rejected] then
    .error (.checkViolation "operation is terminal and immutable")
  else if new.state ≠ old.state ∧ (old.state, new.state) ∉ guardPairs then
    .error (.checkViolation "illegal transition")
  else .ok { new with updatedAt := some now }

/-- The unique index, for a row whose transaction id is being written. -/
def txidTaken (pg : PostgresStore) (req : CasRequest) : Bool :=
  match req.sets.txid with
  | some (some txid) => pg.operations.entries.any fun entry =>
      entry.1 ≠ req.operationId && entry.2.txid = some txid
  | _ => false

/-- The row written and its event, in one transaction. -/
def commit (pg : PostgresStore) (now : Int) (req : CasRequest) (row : Operation) :
    PostgresStore where
  operations := pg.operations.set req.operationId row
  operationEvents := pg.operationEvents ++ [{
    operationId := req.operationId
    fromState := some req.fromState
    toState := req.toState
    workerId := req.workerId
    fencingToken := req.fencingToken
    detail := req.detail
    recordedAt := now
    seq := pg.nextEventId }]
  nextEventId := pg.nextEventId + 1

/-- Every value of the statement can be sent and converted, whatever rows match. -/
def sendable (req : CasRequest) : Bool :=
  req.sets.clauses.all Clause.fits &&
    (match req.renewLeaseSeconds with
      | some lease => lease.makeInterval.isSome
      | none => true)

/-- The values that are looked at once a row has been written: the end of its lease, and
the event's own. -/
def recordable (now : Int) (req : CasRequest) : Bool :=
  (match req.renewLeaseSeconds with
    | some lease => (lease.intervalAfter now).isSome
    | none => true) &&
  req.workerId.all (plain ·.toList) && int8 req.fencingToken && req.detail.storable

/-- Which error is reported when there are several is of no concern to a caller. -/
def cas (pg : PostgresStore) (now : Int) (req : CasRequest) :
    Except PostgresError (Option Operation) × PostgresStore :=
  if !OpState.canTransition req.fromState req.toState then
    (.error (.illegalTransition ⟨req.fromState, req.toState⟩), pg)
  else if !sendable req then (.error .dataError, pg)
  else
    let clauses := setList now req
    if ¬(clauses.map Clause.column).Nodup then (.error .duplicateColumn, pg)
    else match pg.operations.get? req.operationId with
      | none => (.ok none, pg)
      | some old =>
          if old.fencingToken ≠ req.fencingToken ∨ old.state ≠ req.fromState then (.ok none, pg)
          else match opTransitionGuard now old (clauses.foldl Clause.assign old) with
            | .error e => (.error e, pg)
            | .ok row =>
                if pg.txidTaken req then (.error .uniqueViolation, pg)
                else if !recordable now req then (.error .dataError, pg)
                else (.ok (some row), pg.commit now req row)

/-! ## Claiming -/

/-- `lease_expires_at IS NULL OR lease_expires_at < now()`. -/
def unclaimed (now : Int) (row : Operation) : Bool :=
  match row.leaseExpiresAt with
  | none => true
  | some expiry => expiry < now

/-- The sort key of the claim scan; the column is NOT NULL. -/
def createdAt (row : Operation) : Int := row.createdAt.getD 0

/-- The common table expression of `claim` when other transactions hold locks on the rows
`locked`.  The limit counts the rows that are left. -/
def pickedSkipping (pg : PostgresStore) (now : Int) (locked : List UUID) (states : List OpState)
    (limit : Nat) : List Operation :=
  ((pg.operations.values.filter fun row => row.state ∈ states && unclaimed now row &&
    row.operationId ∉ locked).insertionSort fun a b => createdAt a ≤ createdAt b).take limit

/-- The UPDATE of one picked row. -/
def takeOver (now : Int) (worker : String) (lease : Seconds) (old : Operation) :
    Except PostgresError Operation :=
  match lease.intervalAfter now with
  | none => .error .dataError
  | some expiry =>
      if !int8 (old.fencingToken + 1) then .error .dataError
      else opTransitionGuard now old { old with
        claimedBy := some worker
        leaseExpiresAt := some expiry
        fencingToken := old.fencingToken + 1 }

/-- One UPDATE of the picked rows.  The database returns them in an order of its own. -/
def claimSkipping (pg : PostgresStore) (now : Int) (locked : List UUID) (states : List OpState)
    (limit : Nat) (worker : String) (lease : Seconds) :
    Except PostgresError (List Operation) × PostgresStore :=
  if !(plain worker.toList && int8 limit && lease.makeInterval.isSome) then (.error .dataError, pg)
  else match (pg.pickedSkipping now locked states limit).mapM (takeOver now worker lease) with
    | .error e => (.error e, pg)
    | .ok rows => (.ok rows, { pg with
        operations := pg.operations.mapValues fun id row =>
          (rows.find? fun op => op.operationId = id).getD row })

/-- No other transaction holds a lock, so SKIP LOCKED skips nothing. -/
def claim (pg : PostgresStore) (now : Int) (states : List OpState) (limit : Nat) (worker : String)
    (lease : Seconds) : Except PostgresError (List Operation) × PostgresStore :=
  pg.claimSkipping now [] states limit worker lease

/-! ## Intake -/

/-- Why the database refuses a new row. -/
inductive InsertError where
  /-- A NUL in a text. -/
  | dataError
  /-- The amount does not fit `numeric(38,0)`. -/
  | numericValueOutOfRange
  /-- `CHECK (amount_units > 0)`. -/
  | checkViolation
  deriving DecidableEq, Repr

/-- The row an INSERT of six columns leaves: all others have their defaults. -/
def insertedRow (now : Int) (op : Operation) : Operation where
  operationId := op.operationId
  requestHash := op.requestHash
  state := op.state
  toAddress := op.toAddress
  asset := op.asset
  amountUnits := op.amountUnits
  createdAt := some now
  updatedAt := some now

/-- The new row and its event, in one transaction. -/
def intake (pg : PostgresStore) (now : Int) (op : Operation) : PostgresStore where
  operations := pg.operations.set op.operationId (insertedRow now op)
  operationEvents := pg.operationEvents ++ [{
    operationId := op.operationId
    fromState := none
    toState := op.state
    workerId := none
    fencingToken := 0
    detail := { intake := some true }
    recordedAt := now
    seq := pg.nextEventId }]
  nextEventId := pg.nextEventId + 1

/-- Types and constraint are looked at before the conflict. -/
def insertNew (pg : PostgresStore) (now : Int) (op : Operation) :
    Except InsertError (Operation × Bool) × PostgresStore :=
  if !(plain op.toAddress.toList && plain op.asset.toList) then (.error .dataError, pg)
  else if 10 ^ 38 ≤ op.amountUnits.natAbs then (.error .numericValueOutOfRange, pg)
  else if op.amountUnits ≤ 0 then (.error .checkViolation, pg)
  else match pg.operations.get? op.operationId with
    | some existing => (.ok (existing, false), pg)
    | none => (.ok (insertedRow now op, true), pg.intake now op)

def get (pg : PostgresStore) (id : UUID) : Option Operation := pg.operations.get? id

/-! ## Letting go -/

def release (pg : PostgresStore) (now : Int) (id : UUID) (token : Nat) :
    Except PostgresError Unit × PostgresStore :=
  match pg.operations.get? id with
  | none => (.ok (), pg)
  | some old =>
      if old.fencingToken ≠ token ∨ old.state ∈ [OpState.confirmed, .failed, .rejected] then
        (.ok (), pg)
      else match opTransitionGuard now old
          { old with claimedBy := none, leaseExpiresAt := none } with
        | .error e => (.error e, pg)
        | .ok row => (.ok (), { pg with operations := pg.operations.set id row })

/-! ## The event log -/

/-- `ORDER BY event_id`. -/
def events (pg : PostgresStore) (id : UUID) : List Event :=
  (pg.operationEvents.filter fun e => e.operationId = id).insertionSort fun a b => a.seq ≤ b.seq

/-- Freshly migrated. -/
def empty : PostgresStore where
  operations := .empty
  operationEvents := []
  nextEventId := 1

/-- The same tables as a memory store. -/
def ofMemory (store : MemoryStore) : PostgresStore where
  operations := store.ops
  operationEvents := store.events
  nextEventId := store.eventSeq

end PostgresStore

end Sluice.Kernel
