/-
# Kernel.MemoryStore -- the in-memory store

`store/memory.py`.  Rows live in a dictionary keyed by their operation id; the key of
a row is its id by construction (`keyed`), so no later proof has to say so.  A
method is one atomic step at one instant, which is its argument: `claim` reads the clock
just before it takes the lock, and an event is stamped by a reading of its own, and both
are taken as that instant.

A lease that ends beyond the calendar makes the arithmetic raise, in the middle of a
method: `claim` has then written its worker to the first row it found and no more
(`halfClaimed`), and `cas` has made every assignment but the new lease and recorded no event
(`tornRow`).

Each method has one inversion lemma that says everything it can do:
`insertNew_cases`, `claim_cases` with `claim_row` and `mem_claim`, `cas_cases` with
`cas_owned`, and `release_cases`.  Proofs about the store go through these and never unfold a
method.
-/
import Mathlib.Data.List.Sort
import Sluice.Kernel.Model
import Sluice.Theory.Dict
import Sluice.Theory.Lists

namespace Sluice.Kernel

open Sluice.Theory

set_option autoImplicit false

structure MemoryStore where
  ops : Dict UUID Operation
  arrival : Dict UUID Nat
  /-- Next arrival number. -/
  order : Nat
  /-- Oldest first. -/
  events : List Event
  eventSeq : Nat
  keyed : ∀ id row, ops.get? id = some row → row.operationId = id

/-- The arguments of one `cas` call. -/
structure CasRequest where
  operationId : UUID
  fencingToken : Nat
  fromState : OpState
  toState : OpState
  sets : Sets := {}
  detail : Detail := {}
  renewLeaseSeconds : Option Seconds := none
  workerId : Option String := none

structure IllegalTransition where
  src : OpState
  dst : OpState
  deriving DecidableEq, Repr

/-- What a call of a store raises. -/
inductive StoreError where
  | illegalTransition (error : IllegalTransition)
  /-- A lease ends beyond the calendar, or is no number. -/
  | overflowError
  /-- The database turned a statement down; there is none behind this store. -/
  | databaseError
  deriving DecidableEq, Repr

namespace MemoryStore

def empty : MemoryStore where
  ops := .empty
  arrival := .empty
  order := 0
  events := []
  eventSeq := 1
  keyed := by simp

/-- Write a row back under its own id. -/
def put (store : MemoryStore) (row : Operation) : MemoryStore :=
  { store with
    ops := store.ops.set row.operationId row
    keyed := by
      intro id found present
      rw [Dict.get?_set] at present
      split at present
      · cases present
        exact Eq.symm ‹_›
      · exact store.keyed id found present }

def appendEvent (store : MemoryStore) (now : Int) (id : UUID) (fromState : Option OpState)
    (toState : OpState) (workerId : Option String) (token : Nat) (detail : Detail) : MemoryStore :=
  { store with
    events := store.events ++ [{
      operationId := id
      fromState := fromState
      toState := toState
      workerId := workerId
      fencingToken := token
      detail := detail
      recordedAt := now
      seq := store.eventSeq }]
    eventSeq := store.eventSeq + 1 }

/-! ## Intake -/

/-- A fresh row, its arrival number and its intake event. -/
def insertRow (store : MemoryStore) (now : Int) (op : Operation) : MemoryStore :=
  let row := { op with createdAt := some now, updatedAt := some now }
  let store := store.put row
  let store := { store with
    arrival := store.arrival.set op.operationId store.order
    order := store.order + 1 }
  store.appendEvent now row.operationId none row.state none 0 { intake := some true }

def insertNew (store : MemoryStore) (now : Int) (op : Operation) :
    (Operation × Bool) × MemoryStore :=
  match store.ops.get? op.operationId with
  | some existing => ((existing, false), store)
  | none => (({ op with createdAt := some now, updatedAt := some now }, true),
      store.insertRow now op)

/-! ## Claiming -/

/-- Somebody holds the row. -/
def leased (now : Int) (op : Operation) : Bool :=
  match op.leaseExpiresAt with
  | some expiry => now < expiry
  | none => false

/-- The row as its new claimant takes it, until `expiry`. -/
def claimRow (now : Int) (worker : String) (expiry : Int) (op : Operation) : Operation :=
  { op with
    claimedBy := some worker
    leaseExpiresAt := some expiry
    fencingToken := op.fencingToken + 1
    updatedAt := some now }

/-- The row when the end of its lease could not be computed. -/
def halfClaimed (worker : String) (op : Operation) : Operation :=
  { op with claimedBy := some worker }

/-- The loop of `claim` over the sorted candidates, with `room` claims left: the rows it
takes over, and the row at which it raised. -/
def claimLoop (now : Int) (worker : String) (lease : Seconds) :
    Nat → List Operation → List Operation × Option Operation
  | _, [] => ([], none)
  | 0, _ :: _ => ([], none)
  | room + 1, op :: rest =>
      if leased now op then claimLoop now worker lease (room + 1) rest
      else
        match lease.after now with
        | none => ([], some (halfClaimed worker op))
        | some expiry =>
            let (out, half) := claimLoop now worker lease room rest
            (claimRow now worker expiry op :: out, half)

def arrivalOf (store : MemoryStore) (op : Operation) : Nat :=
  (store.arrival.get? op.operationId).getD 0

def candidates (store : MemoryStore) (states : List OpState) : List Operation :=
  (store.ops.values.filter fun op => op.state ∈ states).insertionSort
    fun a b => store.arrivalOf a ≤ store.arrivalOf b

/-- The given rows replace the old ones of their ids; all others stay. -/
def withRows (store : MemoryStore) (out : List Operation) : MemoryStore :=
  { store with
    ops := store.ops.mapValues fun id row => (out.find? fun op => op.operationId = id).getD row
    keyed := by
      intro id row present
      rw [Dict.get?_mapValues, Option.map_eq_some_iff] at present
      obtain ⟨old, found, rfl⟩ := present
      cases search : out.find? fun op => op.operationId = id with
      | none => exact store.keyed id old found
      | some op => simpa using List.find?_some search }

def claim (store : MemoryStore) (now : Int) (states : List OpState) (limit : Nat)
    (worker : String) (lease : Seconds) : Except StoreError (List Operation) × MemoryStore :=
  let (out, half) := claimLoop now worker lease limit (store.candidates states)
  let store := store.withRows out
  match half with
  | none => (.ok out, store)
  | some row => (.error .overflowError, store.put row)

/-! ## The write path -/

/-- The row before its lease is renewed. -/
def tornRow (now : Int) (req : CasRequest) (op : Operation) : Operation :=
  { req.sets.apply op with state := req.toState, updatedAt := some now }

/-- The renewed lease cannot be computed. -/
def overflows (now : Int) (req : CasRequest) : Bool :=
  match req.renewLeaseSeconds with
  | some lease => (lease.after now).isNone
  | none => false

/-- The assignments of a committing `cas`, in the order they are made. -/
def casRow (now : Int) (req : CasRequest) (op : Operation) : Operation :=
  let op := tornRow now req op
  let op := match req.renewLeaseSeconds.bind (·.after now) with
    | some expiry => { op with leaseExpiresAt := some expiry }
    | none => op
  if req.toState.terminal then { op with claimedBy := none, leaseExpiresAt := none } else op

/-- Row and event of a committed write. -/
def commit (store : MemoryStore) (now : Int) (req : CasRequest) (op : Operation) : MemoryStore :=
  (store.put (casRow now req op)).appendEvent now op.operationId (some req.fromState) req.toState
    req.workerId req.fencingToken req.detail

def cas (store : MemoryStore) (now : Int) (req : CasRequest) :
    Except StoreError (Option Operation) × MemoryStore :=
  if !OpState.canTransition req.fromState req.toState then
    (.error (.illegalTransition ⟨req.fromState, req.toState⟩), store)
  else
    match store.ops.get? req.operationId with
    | none => (.ok none, store)
    | some op =>
        -- the fencing check
        if op.fencingToken ≠ req.fencingToken ∨ op.state ≠ req.fromState then (.ok none, store)
        else if op.state.terminal then (.ok none, store)
        else if overflows now req then (.error .overflowError, store.put (tornRow now req op))
        else (.ok (some (casRow now req op)), store.commit now req op)

def releaseRow (now : Int) (op : Operation) : Operation :=
  { op with claimedBy := none, leaseExpiresAt := none, updatedAt := some now }

def release (store : MemoryStore) (now : Int) (id : UUID) (token : Nat) : MemoryStore :=
  match store.ops.get? id with
  | none => store
  | some op => if op.fencingToken ≠ token then store else store.put (releaseRow now op)

/-! ## The event log -/

def eventsOf (store : MemoryStore) (id : UUID) : List Event :=
  store.events.filter fun e => e.operationId = id

/-- Every id this operation was ever assigned, from the event log. -/
def allTxids (store : MemoryStore) (id : UUID) : List Hex :=
  (store.eventsOf id).filterMap fun e => e.detail.txid

/-! ## What the row updates keep -/

/-- The columns no write ever touches. -/
def identity (op : Operation) : UUID × Bytes × String × String × Int × Option Int :=
  (op.operationId, op.requestHash, op.toAddress, op.asset, op.amountUnits, op.createdAt)

/-- The row of a committed write, column by column. -/
theorem casRow_eq (now : Int) (req : CasRequest) (op : Operation) :
    casRow now req op = { req.sets.apply op with
      state := req.toState
      updatedAt := some now
      claimedBy := if req.toState.terminal then none else op.claimedBy
      leaseExpiresAt := if req.toState.terminal then none
        else (req.renewLeaseSeconds.bind (·.after now)).or op.leaseExpiresAt } := by
  unfold casRow
  cases req.renewLeaseSeconds.bind (·.after now) <;> simp only [tornRow, Sets.apply] <;>
    split <;> rfl

@[simp] theorem casRow_identity (now : Int) (req : CasRequest) (op : Operation) :
    identity (casRow now req op) = identity op := by
  rw [casRow_eq]; rfl

@[simp] theorem claimRow_identity (now : Int) (worker : String) (expiry : Int) (op : Operation) :
    identity (claimRow now worker expiry op) = identity op := rfl

@[simp] theorem halfClaimed_identity (worker : String) (op : Operation) :
    identity (halfClaimed worker op) = identity op := rfl

@[simp] theorem releaseRow_identity (now : Int) (op : Operation) :
    identity (releaseRow now op) = identity op := rfl

@[simp] theorem casRow_operationId (now : Int) (req : CasRequest) (op : Operation) :
    (casRow now req op).operationId = op.operationId := by
  rw [casRow_eq]; rfl

@[simp] theorem casRow_fencingToken (now : Int) (req : CasRequest) (op : Operation) :
    (casRow now req op).fencingToken = op.fencingToken := by
  rw [casRow_eq]; rfl

@[simp] theorem casRow_state (now : Int) (req : CasRequest) (op : Operation) :
    (casRow now req op).state = req.toState := by
  rw [casRow_eq]

@[simp] theorem casRow_updatedAt (now : Int) (req : CasRequest) (op : Operation) :
    (casRow now req op).updatedAt = some now := by
  rw [casRow_eq]

@[simp] theorem casRow_toAddress (now : Int) (req : CasRequest) (op : Operation) :
    (casRow now req op).toAddress = op.toAddress := by
  rw [casRow_eq]; rfl

@[simp] theorem casRow_amountUnits (now : Int) (req : CasRequest) (op : Operation) :
    (casRow now req op).amountUnits = op.amountUnits := by
  rw [casRow_eq]; rfl

@[simp] theorem casRow_unsignedTx (now : Int) (req : CasRequest) (op : Operation) :
    (casRow now req op).unsignedTx = req.sets.unsignedTx.getD op.unsignedTx := by
  rw [casRow_eq]; rfl

@[simp] theorem casRow_txid (now : Int) (req : CasRequest) (op : Operation) :
    (casRow now req op).txid = req.sets.txid.getD op.txid := by
  rw [casRow_eq]; rfl

@[simp] theorem casRow_txExpiration (now : Int) (req : CasRequest) (op : Operation) :
    (casRow now req op).txExpiration = req.sets.txExpiration.getD op.txExpiration := by
  rw [casRow_eq]; rfl

@[simp] theorem casRow_signedTx (now : Int) (req : CasRequest) (op : Operation) :
    (casRow now req op).signedTx = req.sets.signedTx.getD op.signedTx := by
  rw [casRow_eq]; rfl

@[simp] theorem casRow_attempts (now : Int) (req : CasRequest) (op : Operation) :
    (casRow now req op).attempts = req.sets.attempts.getD op.attempts := by
  rw [casRow_eq]; rfl

@[simp] theorem casRow_failureReason (now : Int) (req : CasRequest) (op : Operation) :
    (casRow now req op).failureReason = req.sets.failureReason.getD op.failureReason := by
  rw [casRow_eq]; rfl

@[simp] theorem casRow_broadcastAt (now : Int) (req : CasRequest) (op : Operation) :
    (casRow now req op).broadcastAt = req.sets.broadcastAt.getD op.broadcastAt := by
  rw [casRow_eq]; rfl

@[simp] theorem casRow_includedBlock (now : Int) (req : CasRequest) (op : Operation) :
    (casRow now req op).includedBlock = req.sets.includedBlock.getD op.includedBlock := by
  rw [casRow_eq]; rfl

@[simp] theorem claimRow_operationId (now : Int) (worker : String) (expiry : Int)
    (op : Operation) : (claimRow now worker expiry op).operationId = op.operationId := rfl

@[simp] theorem claimRow_fencingToken (now : Int) (worker : String) (expiry : Int)
    (op : Operation) : (claimRow now worker expiry op).fencingToken = op.fencingToken + 1 := rfl

@[simp] theorem halfClaimed_operationId (worker : String) (op : Operation) :
    (halfClaimed worker op).operationId = op.operationId := rfl

@[simp] theorem releaseRow_operationId (now : Int) (op : Operation) :
    (releaseRow now op).operationId = op.operationId := rfl

/-- A listed row is the row of its own id. -/
theorem mem_rows_iff (store : MemoryStore) (row : Operation) :
    row ∈ store.ops.values ↔ store.ops.get? row.operationId = some row := by
  rw [Dict.mem_values_iff]
  refine ⟨fun ⟨id, found⟩ => ?_, fun found => ⟨_, found⟩⟩
  rw [store.keyed id row found]
  exact found

theorem put_get? (store : MemoryStore) (row : Operation) (id : UUID) :
    (store.put row).ops.get? id = if id = row.operationId then some row else store.ops.get? id :=
  Dict.get?_set _ _ _ _

@[simp] theorem appendEvent_ops (store : MemoryStore) (now : Int) (id : UUID)
    (fromState : Option OpState) (toState : OpState) (workerId : Option String) (token : Nat)
    (detail : Detail) :
    (store.appendEvent now id fromState toState workerId token detail).ops = store.ops := rfl

theorem insertRow_get? (store : MemoryStore) (now : Int) (op : Operation) (id : UUID) :
    (store.insertRow now op).ops.get? id = if id = op.operationId
      then some { op with createdAt := some now, updatedAt := some now }
      else store.ops.get? id :=
  put_get? store { op with createdAt := some now, updatedAt := some now } id

theorem commit_get? (store : MemoryStore) (now : Int) (req : CasRequest) (op : Operation)
    (id : UUID) :
    (store.commit now req op).ops.get? id =
      if id = op.operationId then some (casRow now req op) else store.ops.get? id := by
  simp only [commit, appendEvent_ops, put_get?, casRow_operationId]

theorem eventsOf_appendEvent (store : MemoryStore) (now : Int) (key : UUID)
    (fromState : Option OpState) (toState : OpState) (workerId : Option String) (token : Nat)
    (detail : Detail) (id : UUID) :
    (store.appendEvent now key fromState toState workerId token detail).eventsOf id =
      store.eventsOf id ++ if key = id then
        [⟨key, fromState, toState, workerId, token, detail, now, store.eventSeq⟩] else [] :=
  filter_snoc Event.operationId store.events _ id

theorem eventsOf_insertRow (store : MemoryStore) (now : Int) (op : Operation) (id : UUID) :
    (store.insertRow now op).eventsOf id = store.eventsOf id ++ if op.operationId = id then
      [⟨op.operationId, none, op.state, none, 0, { intake := some true }, now, store.eventSeq⟩]
      else [] :=
  eventsOf_appendEvent _ now op.operationId none op.state none 0 _ id

theorem eventsOf_commit (store : MemoryStore) (now : Int) (req : CasRequest) (row : Operation)
    (id : UUID) :
    (store.commit now req row).eventsOf id = store.eventsOf id ++ if row.operationId = id then
      [⟨row.operationId, some req.fromState, req.toState, req.workerId, req.fencingToken,
        req.detail, now, store.eventSeq⟩] else [] :=
  eventsOf_appendEvent _ now row.operationId (some req.fromState) req.toState req.workerId
    req.fencingToken req.detail id

/-! ## Inversion -/

theorem insertNew_cases (store : MemoryStore) (now : Int) (op : Operation) :
    (∃ existing, store.ops.get? op.operationId = some existing ∧
      store.insertNew now op = ((existing, false), store)) ∨
    (store.ops.get? op.operationId = none ∧
      store.insertNew now op =
        (({ op with createdAt := some now, updatedAt := some now }, true),
          store.insertRow now op)) := by
  unfold insertNew
  split
  · rename_i existing found
    exact .inl ⟨existing, found, rfl⟩
  · rename_i absent
    exact .inr ⟨absent, rfl⟩

/-- The rows a claim may take over, in the order of their arrival. -/
def free (store : MemoryStore) (now : Int) (states : List OpState) : List Operation :=
  (store.candidates states).filter fun row => !leased now row

/-- What a claim returns when its leases can be computed. -/
def claimed (store : MemoryStore) (now : Int) (states : List OpState) (limit : Nat)
    (worker : String) (expiry : Int) : List Operation :=
  ((store.free now states).take limit).map (claimRow now worker expiry)

/-- The loop takes over the first free rows. -/
theorem claimLoop_of_some {now : Int} {lease : Seconds} {expiry : Int}
    (lands : lease.after now = some expiry) (worker : String) :
    ∀ (room : Nat) (rows : List Operation), claimLoop now worker lease room rows =
      (((rows.filter fun row => !leased now row).take room).map (claimRow now worker expiry), none)
  | room, [] => by simp [claimLoop]
  | 0, _ :: _ => by simp [claimLoop]
  | room + 1, row :: rest => by
      unfold claimLoop
      by_cases held : leased now row = true
      · rw [if_pos held, claimLoop_of_some lands worker (room + 1) rest,
          List.filter_cons_of_neg (by simpa using held)]
      · rw [if_neg held, lands, claimLoop_of_some lands worker room rest,
          List.filter_cons_of_pos (by simpa using held), List.take_succ_cons, List.map_cons]

/-- Without an end of the lease the loop stops at the first free row. -/
theorem claimLoop_of_none {now : Int} {lease : Seconds} (beyond : lease.after now = none)
    (worker : String) :
    ∀ (room : Nat) (rows : List Operation), claimLoop now worker lease room rows =
      ([], ((rows.filter fun row => !leased now row).take room).head?.map (halfClaimed worker))
  | room, [] => by simp [claimLoop]
  | 0, _ :: _ => by simp [claimLoop]
  | room + 1, row :: rest => by
      unfold claimLoop
      by_cases held : leased now row = true
      · rw [if_pos held, claimLoop_of_none beyond worker (room + 1) rest,
          List.filter_cons_of_neg (by simpa using held)]
      · rw [if_neg held, beyond, List.filter_cons_of_pos (by simpa using held),
          List.take_succ_cons]
        rfl

theorem withRows_nil (store : MemoryStore) : store.withRows [] = store := by
  obtain ⟨ops, _, _, _, _, _⟩ := store
  simp only [withRows, List.find?_nil, Option.getD_none, Dict.mapValues_self]

theorem claim_of_some (store : MemoryStore) {now : Int} {lease : Seconds} {expiry : Int}
    (lands : lease.after now = some expiry) (states : List OpState) (limit : Nat)
    (worker : String) :
    store.claim now states limit worker lease =
      (.ok (store.claimed now states limit worker expiry),
        store.withRows (store.claimed now states limit worker expiry)) := by
  rw [claim, claimLoop_of_some lands]
  rfl

/-- Everything `claim` can do. -/
theorem claim_cases (store : MemoryStore) (now : Int) (states : List OpState) (limit : Nat)
    (worker : String) (lease : Seconds) :
    (∃ expiry, lease.after now = some expiry ∧ store.claim now states limit worker lease =
      (.ok (store.claimed now states limit worker expiry),
        store.withRows (store.claimed now states limit worker expiry))) ∨
    (lease.after now = none ∧ (store.free now states).take limit = [] ∧
      store.claim now states limit worker lease = (.ok [], store)) ∨
    (lease.after now = none ∧ ∃ row rest, (store.free now states).take limit = row :: rest ∧
      store.claim now states limit worker lease =
        (.error .overflowError, store.put (halfClaimed worker row))) := by
  cases lands : lease.after now with
  | some expiry => exact .inl ⟨expiry, rfl, store.claim_of_some lands states limit worker⟩
  | none =>
      right
      rw [claim, claimLoop_of_none lands]
      cases first : (store.free now states).take limit with
      | nil =>
          left
          rw [free] at first
          refine ⟨rfl, rfl, ?_⟩
          simp only [first, List.head?_nil, Option.map_none, withRows_nil]
      | cons row rest =>
          right
          rw [free] at first
          refine ⟨rfl, row, rest, rfl, ?_⟩
          simp only [first, List.head?_cons, Option.map_some, withRows_nil]

/-- A claim leaves the log and the order of arrival. -/
theorem claim_frame (store : MemoryStore) (now : Int) (states : List OpState) (limit : Nat)
    (worker : String) (lease : Seconds) :
    (store.claim now states limit worker lease).2.events = store.events ∧
      (store.claim now states limit worker lease).2.eventSeq = store.eventSeq ∧
      (store.claim now states limit worker lease).2.arrival = store.arrival ∧
      (store.claim now states limit worker lease).2.order = store.order := by
  rcases store.claim_cases now states limit worker lease with
    ⟨_, _, same⟩ | ⟨_, _, same⟩ | ⟨_, _, _, _, same⟩
  all_goals
    rw [same]
    exact ⟨rfl, rfl, rfl, rfl⟩

theorem claim_eventsOf (store : MemoryStore) (now : Int) (states : List OpState) (limit : Nat)
    (worker : String) (lease : Seconds) (id : UUID) :
    (store.claim now states limit worker lease).2.eventsOf id = store.eventsOf id := by
  rw [eventsOf, (store.claim_frame now states limit worker lease).1, eventsOf]

/-- A free row is a row in a wanted state. -/
theorem mem_free {store : MemoryStore} {now : Int} {states : List OpState} {row : Operation}
    (present : row ∈ store.free now states) :
    store.ops.get? row.operationId = some row ∧ row.state ∈ states ∧ leased now row = false := by
  obtain ⟨member, free⟩ := List.mem_filter.mp present
  obtain ⟨listed, wanted⟩ := List.mem_filter.mp (List.mem_insertionSort _ |>.mp member)
  exact ⟨(store.mem_rows_iff row).mp listed, by simpa using wanted, by simpa using free⟩

/-- Every claimed operation is a free row in a wanted state, taken over. -/
theorem mem_claimed {store : MemoryStore} {now : Int} {states : List OpState} {limit : Nat}
    {worker : String} {expiry : Int} {op : Operation}
    (present : op ∈ store.claimed now states limit worker expiry) :
    ∃ row, store.ops.get? op.operationId = some row ∧ row.state ∈ states ∧
      leased now row = false ∧ op = claimRow now worker expiry row := by
  obtain ⟨row, taken, rfl⟩ := List.mem_map.mp present
  obtain ⟨found, wanted, free⟩ := mem_free (List.mem_of_mem_take taken)
  exact ⟨row, found, wanted, free, rfl⟩

theorem free_ids_nodup (store : MemoryStore) (now : Int) (states : List OpState) :
    ((store.free now states).map (·.operationId)).Nodup := by
  have keys : store.ops.values.map (·.operationId) = store.ops.keys := by
    simp only [Dict.values, Dict.keys, List.map_map]
    refine List.map_congr_left fun entry member => ?_
    exact store.keyed entry.1 entry.2 ((Dict.get?_eq_some_iff _ _ _).mpr member)
  have wanted : (store.ops.values.filter fun op => op.state ∈ states).map (·.operationId)
      |>.Nodup := by
    refine List.Nodup.sublist (List.filter_sublist.map _) ?_
    rw [keys]
    exact store.ops.nodup
  have sorted : ((store.candidates states).map (·.operationId)).Nodup :=
    ((List.perm_insertionSort _ _).map _).nodup_iff.mpr wanted
  exact sorted.sublist (List.filter_sublist.map _)

/-- No row is claimed twice by one call. -/
theorem claimed_ids_nodup (store : MemoryStore) (now : Int) (states : List OpState) (limit : Nat)
    (worker : String) (expiry : Int) :
    ((store.claimed now states limit worker expiry).map (·.operationId)).Nodup := by
  rw [claimed, List.map_map]
  exact (store.free_ids_nodup now states).sublist ((List.take_sublist _ _).map _)

/-- The same of what a claim returned. -/
theorem claim_ids_nodup {store : MemoryStore} {now : Int} {states : List OpState} {limit : Nat}
    {worker : String} {lease : Seconds} {ops : List Operation}
    (returned : (store.claim now states limit worker lease).1 = .ok ops) :
    (ops.map (·.operationId)).Nodup := by
  rcases store.claim_cases now states limit worker lease with
    ⟨expiry, _, same⟩ | ⟨_, _, same⟩ | ⟨_, _, _, _, same⟩
  all_goals
    rw [same] at returned
    cases returned
  · exact store.claimed_ids_nodup _ _ _ _ _
  · exact List.nodup_nil

theorem withRows_get? (store : MemoryStore) (out : List Operation) (id : UUID) :
    (store.withRows out).ops.get? id =
      (store.ops.get? id).map fun row => (out.find? fun op => op.operationId = id).getD row :=
  Dict.get?_mapValues _ _ _

/-- After a claim a row is the old one, the one the claim returned, or the one it raised at. -/
theorem claim_row (store : MemoryStore) (now : Int) (states : List OpState) (limit : Nat)
    (worker : String) (lease : Seconds) (id : UUID) :
    ((store.claim now states limit worker lease).2.ops.get? id = store.ops.get? id ∧
      ∀ ops, (store.claim now states limit worker lease).1 = .ok ops →
        ∀ op ∈ ops, op.operationId ≠ id) ∨
    (∃ row expiry ops, store.ops.get? id = some row ∧ row.state ∈ states ∧
      leased now row = false ∧ lease.after now = some expiry ∧
      (store.claim now states limit worker lease).1 = .ok ops ∧
      claimRow now worker expiry row ∈ ops ∧
      (store.claim now states limit worker lease).2.ops.get? id =
        some (claimRow now worker expiry row)) ∨
    (∃ row, store.ops.get? id = some row ∧ row.state ∈ states ∧ leased now row = false ∧
      lease.after now = none ∧
      (store.claim now states limit worker lease).1 = .error .overflowError ∧
      (store.claim now states limit worker lease).2.ops.get? id =
        some (halfClaimed worker row)) := by
  rcases store.claim_cases now states limit worker lease with
    ⟨expiry, lands, same⟩ | ⟨_, _, same⟩ | ⟨beyond, row, rest, first, same⟩
  · rw [same]
    dsimp only
    rw [withRows_get?]
    cases search : (store.claimed now states limit worker expiry).find?
        fun op => op.operationId = id with
    | none =>
        refine .inl ⟨by simp, fun ops returned op present clash => ?_⟩
        cases returned
        have := List.find?_eq_none.mp search op present
        simp [clash] at this
    | some op =>
        have key : op.operationId = id := by simpa using List.find?_some search
        have present := List.mem_of_find?_eq_some search
        obtain ⟨row, found, wanted, free, rfl⟩ := mem_claimed present
        rw [key] at found
        exact .inr (.inl ⟨row, expiry, _, found, wanted, free, lands, rfl, present,
          by simp [found]⟩)
  · rw [same]
    refine .inl ⟨rfl, fun ops returned op present => ?_⟩
    cases returned
    cases present
  · rw [same]
    have taken : row ∈ (store.free now states).take limit := first ▸ List.mem_cons_self
    obtain ⟨found, wanted, free⟩ := mem_free (List.mem_of_mem_take taken)
    by_cases own : id = row.operationId
    · subst own
      exact .inr (.inr ⟨row, found, wanted, free, beyond, rfl, by simp [put_get?]⟩)
    · exact .inl ⟨by simp [put_get?, own], fun ops returned => by cases returned⟩

/-- A returned snapshot is a free row taken over, and the row the claim left. -/
theorem mem_claim {store : MemoryStore} {now : Int} {states : List OpState} {limit : Nat}
    {worker : String} {lease : Seconds} {ops : List Operation} {op : Operation}
    (returned : (store.claim now states limit worker lease).1 = .ok ops) (present : op ∈ ops) :
    (∃ row expiry, store.ops.get? op.operationId = some row ∧ row.state ∈ states ∧
      leased now row = false ∧ lease.after now = some expiry ∧
      op = claimRow now worker expiry row) ∧
    (store.claim now states limit worker lease).2.ops.get? op.operationId = some op := by
  rcases store.claim_row now states limit worker lease op.operationId with
    ⟨_, absent⟩ | ⟨row, expiry, ops', found, wanted, free, lands, returned', taken, left⟩ |
    ⟨_, _, _, _, _, raised, _⟩
  · exact absurd rfl (absent ops returned op present)
  · cases returned.symm.trans returned'
    -- both are the claimed row of one id
    have same : op = claimRow now worker expiry row := by
      rw [store.claim_of_some lands] at returned
      cases returned
      obtain ⟨row', found', _, _, same'⟩ := mem_claimed present
      cases found.symm.trans found'
      exact same'
    exact ⟨⟨row, expiry, found, wanted, free, lands, same⟩, same ▸ left⟩
  · cases returned.symm.trans raised

/-- Everything `cas` can do. -/
theorem cas_cases (store : MemoryStore) (now : Int) (req : CasRequest) :
    (OpState.canTransition req.fromState req.toState = false ∧
      store.cas now req = (.error (.illegalTransition ⟨req.fromState, req.toState⟩), store)) ∨
    (OpState.canTransition req.fromState req.toState = true ∧
      store.cas now req = (.ok none, store) ∧
      ∀ row, store.ops.get? req.operationId = some row →
        row.fencingToken ≠ req.fencingToken ∨ row.state ≠ req.fromState ∨
          row.state.terminal = true) ∨
    (OpState.canTransition req.fromState req.toState = true ∧
      ∃ row, store.ops.get? req.operationId = some row ∧ row.fencingToken = req.fencingToken ∧
        row.state = req.fromState ∧ row.state.terminal = false ∧
        (overflows now req = true ∧
            store.cas now req = (.error .overflowError, store.put (tornRow now req row)) ∨
          overflows now req = false ∧
            store.cas now req = (.ok (some (casRow now req row)), store.commit now req row))) := by
  unfold cas
  split
  · rename_i illegal
    exact .inl ⟨by simpa using illegal, rfl⟩
  · rename_i legal
    right
    have legal : OpState.canTransition req.fromState req.toState = true := by simpa using legal
    split
    · rename_i absent
      exact .inl ⟨legal, rfl, fun row found => by simp [absent] at found⟩
    · rename_i op found
      split
      · rename_i fenced
        refine .inl ⟨legal, rfl, fun row present => ?_⟩
        rw [found] at present
        cases present
        exact fenced.elim .inl fun moved => .inr (.inl moved)
      · rename_i owned
        have owned : op.fencingToken = req.fencingToken ∧ op.state = req.fromState := by
          simpa [not_or] using owned
        split
        · rename_i ended
          refine .inl ⟨legal, rfl, fun row present => ?_⟩
          rw [found] at present
          cases present
          exact .inr (.inr ended)
        · rename_i live
          refine .inr ⟨legal, op, found, owned.1, owned.2, by simpa using live, ?_⟩
          split
          · rename_i beyond
            exact .inl ⟨beyond, rfl⟩
          · rename_i within
            exact .inr ⟨Bool.eq_false_of_not_eq_true within, rfl⟩

/-- What becomes of a write that passes every check. -/
theorem cas_owned {store : MemoryStore} {now : Int} {req : CasRequest} {row : Operation}
    (legal : OpState.canTransition req.fromState req.toState = true)
    (found : store.ops.get? req.operationId = some row)
    (token : row.fencingToken = req.fencingToken) (state : row.state = req.fromState)
    (live : row.state.terminal = false) :
    store.cas now req =
      if overflows now req then (.error .overflowError, store.put (tornRow now req row))
      else (.ok (some (casRow now req row)), store.commit now req row) := by
  rcases store.cas_cases now req with ⟨illegal, _⟩ | ⟨_, _, fenced⟩ |
    ⟨_, row', found', _, _, _, outcome⟩
  · cases legal.symm.trans illegal
  · rcases fenced row found with other | moved | ended
    · exact absurd token other
    · exact absurd state moved
    · cases live.symm.trans ended
  · cases found.symm.trans found'
    rcases outcome with ⟨beyond, same⟩ | ⟨within, same⟩
    · rw [same, if_pos beyond]
    · rw [same, within, if_neg Bool.false_ne_true]

theorem release_cases (store : MemoryStore) (now : Int) (id : UUID) (token : Nat) :
    (store.release now id token = store ∧
      ∀ row, store.ops.get? id = some row → row.fencingToken ≠ token) ∨
    (∃ row, store.ops.get? id = some row ∧ row.fencingToken = token ∧
      store.release now id token = store.put (releaseRow now row)) := by
  unfold release
  split
  · rename_i absent
    exact .inl ⟨rfl, fun row found => by simp [absent] at found⟩
  · rename_i op found
    split
    · rename_i fenced
      refine .inl ⟨rfl, fun row present => ?_⟩
      rw [found] at present
      cases present
      exact fenced
    · rename_i owned
      exact .inr ⟨op, found, by simpa using owned, rfl⟩

/-! ## What a call leaves alone -/

section Frame

variable {store : MemoryStore} {id : UUID}

/-- A write passes over a row that has ended. -/
theorem cas_settled (now : Int) (req : CasRequest)
    (settled : ∀ row, store.ops.get? id = some row → row.state.terminal = true) :
    (store.cas now req).2.ops.get? id = store.ops.get? id ∧
      (store.cas now req).2.eventsOf id = store.eventsOf id := by
  rcases store.cas_cases now req with ⟨_, same⟩ | ⟨_, same, _⟩ |
    ⟨_, row, found, _, _, live, outcome⟩
  · rw [same]
    exact ⟨rfl, rfl⟩
  · rw [same]
    exact ⟨rfl, rfl⟩
  · have other : id ≠ row.operationId := by
      rintro rfl
      rw [← store.keyed _ row found] at found
      cases live.symm.trans (settled row found)
    rcases outcome with ⟨_, same⟩ | ⟨_, same⟩
    · rw [same]
      exact ⟨(put_get? _ _ _).trans (if_neg other), rfl⟩
    · rw [same, commit_get?, eventsOf_commit, if_neg other, if_neg other.symm, List.append_nil]
      exact ⟨rfl, rfl⟩

variable (absent : store.ops.get? id = none)
include absent

theorem claim_absent (now : Int) (states : List OpState) (limit : Nat) (worker : String)
    (lease : Seconds) : (store.claim now states limit worker lease).2.ops.get? id = none := by
  rcases store.claim_row now states limit worker lease id with
    ⟨same, _⟩ | ⟨_, _, _, found, _⟩ | ⟨_, found, _⟩
  · exact same.trans absent
  · cases absent.symm.trans found
  · cases absent.symm.trans found

theorem cas_absent (now : Int) (req : CasRequest) :
    (store.cas now req).2.ops.get? id = none := by
  rw [(cas_settled now req fun row found => ?_).1]
  · exact absent
  · cases absent.symm.trans found

theorem release_absent (now : Int) (key : UUID) (token : Nat) :
    (store.release now key token).ops.get? id = none := by
  rcases store.release_cases now key token with ⟨same, _⟩ | ⟨row, found, _, same⟩
  · rw [same]
    exact absent
  · rw [same, put_get?, releaseRow_operationId, if_neg]
    · exact absent
    · rintro rfl
      rw [store.keyed _ row found, found] at absent
      cases absent

end Frame

end MemoryStore

end Sluice.Kernel
