/-
# Protocol.Portability -- which call sequences the two stores answer alike

`StoreAgreement` and `ClaimAgreement` compare the stores on one write and on one claim, over
equal tables.  Here both are run side by side from the beginning, through any sequence of
calls.  `Portable` lists, call by call, what keeps them together:

* intake: address, asset and amount fit their columns, and a new row brings nothing but the
  six columns the INSERT names;
* claim: its values fit their types, and every row that would be served has a lease that is
  over for both stores, room for one more token, and the same computable new lease
  (`ClaimPortable`);
* write: a legal one does not both renew and end, its values fit their columns, and if it finds
  its row, that is running, gets no transaction id that another row holds, and the event and
  the new lease are the same for both stores (`CasPortable`);
* release: a row that has ended is already as the memory store would leave it.

`stores_side_by_side`: the stores give the same answers and hold the same tables throughout,
exactly if every call is portable where it is made.
-/
import Sluice.Protocol.ClaimAgreement
import Sluice.Protocol.PostgresFencing

namespace Sluice.Kernel.PostgresStore

open Sluice.Theory
open MemoryStore (StoreCall claimRow releaseRow identity)

set_option autoImplicit false

/-- The same call, made of the database while nobody else holds a lock. -/
def ofStoreCall : StoreCall → PostgresCall
  | .insertNew op => .insertNew op
  | .claim states limit worker lease => .claim [] states limit worker lease
  | .cas req => .cas req
  | .release id token => .release id token

/-- Both stores give the same answer and are left with the same tables. -/
def Alike (store : MemoryStore) (pg : PostgresStore) (now : Int) : StoreCall → Prop
  | .insertNew op =>
      pg.insertNew now op = (.ok (store.insertNew now op).1, ofMemory (store.insertNew now op).2)
  | .claim states limit worker lease =>
      ClaimsAgree (store.claim now states limit worker lease)
        (pg.claimSkipping now [] states limit worker lease)
  | .cas req => Agrees (store.cas now req) (pg.cas now req)
  | .release id token => pg.release now id token = (.ok (), ofMemory (store.release now id token))

/-- Alike at every call. -/
def SideBySide : MemoryStore → PostgresStore → List (Int × StoreCall) → Prop
  | _, _, [] => True
  | store, pg, (now, call) :: calls => Alike store pg now call ∧
      SideBySide (store.perform now call) (pg.perform now (ofStoreCall call)) calls

/-- What can be asked of either store, where the memory store stands. -/
def Portable (store : MemoryStore) (now : Int) : StoreCall → Prop
  | .insertNew op => (plain op.toAddress.toList = true ∧ plain op.asset.toList = true) ∧
      0 < op.amountUnits ∧ op.amountUnits.natAbs < 10 ^ 38 ∧
      (store.ops.get? op.operationId = none →
        insertedRow now op = { op with createdAt := some now, updatedAt := some now })
  | .claim states limit worker lease => ClaimPortable store now states limit worker lease
  | .cas req => OpState.canTransition req.fromState req.toState = true → CasPortable store now req
  | .release id token => ∀ row, store.ops.get? id = some row → row.fencingToken = token →
      row.state.terminal = true → releaseRow now row = row

/-- Portable at every call. -/
def PortableAll : MemoryStore → List (Int × StoreCall) → Prop
  | _, [] => True
  | store, (now, call) :: calls =>
      Portable store now call ∧ PortableAll (store.perform now call) calls

/-- A new row comes later than all others, and only running operations are claimed. -/
def InOrder (store : MemoryStore) (now : Int) : StoreCall → Prop
  | .insertNew op => store.ops.get? op.operationId = none →
      ∀ id row, store.ops.get? id = some row → createdAt row < now
  | .claim states _ _ _ => ∀ s ∈ states, s.terminal = false
  | _ => True

def InOrderAll : MemoryStore → List (Int × StoreCall) → Prop
  | _, [] => True
  | store, (now, call) :: calls =>
      InOrder store now call ∧ InOrderAll (store.perform now call) calls

/-! ## One call -/

section Calls

variable (store : MemoryStore) (now : Int)

theorem insertNew_alike_iff (op : Operation) :
    Alike store (ofMemory store) now (.insertNew op) ↔ Portable store now (.insertNew op) := by
  rw [Alike, Portable, insertNew, ← Bool.and_eq_true]
  cases texts : plain op.toAddress.toList && plain op.asset.toList with
  | false => exact ⟨fun same => by simp at same, fun fits => absurd fits.1 Bool.false_ne_true⟩
  | true =>
  rw [Bool.not_true, if_neg Bool.false_ne_true, and_iff_right rfl]
  by_cases large : 10 ^ 38 ≤ op.amountUnits.natAbs
  · rw [if_pos large]
    exact ⟨fun same => by simp at same, fun fits => absurd fits.2.1 (by omega)⟩
  by_cases positive : 0 < op.amountUnits
  · rw [if_neg large, if_neg (not_le.mpr positive)]
    rcases store.insertNew_cases now op with ⟨existing, found, same⟩ | ⟨absent, same⟩
    · simp only [ofMemory, found, same, reduceCtorEq, false_implies, and_true, true_iff]
      exact ⟨positive, not_le.mp large⟩
    · have stored : insertedRow now op = { op with createdAt := some now, updatedAt := some now } →
          (ofMemory store).intake now op = ofMemory (store.insertRow now op) := by
        intro plain
        simp only [intake, ofMemory, MemoryStore.insertRow, MemoryStore.appendEvent,
          MemoryStore.put, plain]
      simp only [show (ofMemory store).operations.get? op.operationId = none from absent, same,
        Prod.mk.injEq, Except.ok.injEq, and_true]
      exact ⟨fun both => ⟨positive, not_le.mp large, fun _ => both.1⟩,
        fun fits => ⟨fits.2.2 absent, stored (fits.2.2 absent)⟩⟩
  · rw [if_neg large, if_pos (not_lt.mp positive)]
    exact ⟨fun same => by simp at same, fun fits => absurd fits.1 positive⟩

theorem release_alike_iff (id : UUID) (token : Nat) :
    Alike store (ofMemory store) now (.release id token) ↔
      Portable store now (.release id token) := by
  rw [Alike, Portable]
  rcases store.release_cases now id token with ⟨same, fenced⟩ | ⟨row, found, own, same⟩
  · rw [same]
    refine ⟨fun _ row found token => absurd token (fenced row found), fun _ => ?_⟩
    rcases (ofMemory store).release_cases now id token with kept | ⟨old, found, own, _⟩
    · exact kept
    · exact absurd own (fenced old found)
  subst own
  have key := store.keyed id row found
  have found_ : (ofMemory store).operations.get? id = some row := found
  rw [same]
  cases ended : row.state.terminal with
  | true =>
      have listed : row.state ∈ [OpState.confirmed, .failed, .rejected] := by
        simpa using (OpState.terminal_iff row.state).mp ended
      have kept : (ofMemory store).release now id row.fencingToken =
          (.ok (), ofMemory store) := by
        simp only [release, found_, listed, or_true, if_true]
      rw [kept]
      constructor
      · intro alike row' found' _ _
        rw [found] at found'
        cases found'
        have tables := congrArg (fun pg => pg.operations.get? id) (congrArg Prod.snd alike)
        simp only [ofMemory, MemoryStore.put_get?, MemoryStore.releaseRow_operationId, key, if_true,
          found, Option.some.injEq] at tables
        exact tables.symm
      · intro fits
        have still := fits row found rfl ended
        have table : store.ops.set id row = store.ops := by
          refine Dict.ext_keys (store.ops.keys_set found row) fun other => ?_
          rw [Dict.get?_set]
          split
          · subst other
            exact found.symm
          · rfl
        simp only [still, ofMemory, MemoryStore.put, key, table]
  | false =>
      have live : row.state ∉ [OpState.confirmed, .failed, .rejected] := by
        intro listed
        rw [(OpState.terminal_iff row.state).mpr (by simpa using listed)] at ended
        cases ended
      have guarded : opTransitionGuard now row
          { row with claimedBy := none, leaseExpiresAt := none } = .ok (releaseRow now row) :=
        opTransitionGuard_ok ended (by simp [OpState.canTransition])
      have written : (ofMemory store).release now id row.fencingToken =
          (.ok (), { ofMemory store with
            operations := store.ops.set id (releaseRow now row) }) := by
        simp only [release, found_, ne_eq, not_true_eq_false, live, or_self, if_false, guarded]
        rfl
      rw [written]
      refine ⟨fun _ row' found' _ ended' => ?_, fun _ => ?_⟩
      · rw [found] at found'
        cases found'
        rw [ended] at ended'
        cases ended'
      · simp only [ofMemory, MemoryStore.put, MemoryStore.releaseRow_operationId, key]

end Calls

/-! ## Whole sequences -/

/-- Rows have arrival numbers, given out in the order in which they were created. -/
structure Arrived (store : MemoryStore) : Prop where
  ordered : InArrivalOrder store
  numbered : ∀ id row, store.ops.get? id = some row →
    ∃ n, store.arrival.get? id = some n ∧ n < store.order

theorem Arrived.empty : Arrived MemoryStore.empty :=
  ⟨by decide, fun id row found => by simp [MemoryStore.empty] at found⟩

/-- Nothing but intake looks at arrival numbers and creation times. -/
theorem Arrived.same {store store' : MemoryStore} (arrived : Arrived store)
    (arrival : store'.arrival = store.arrival) (order : store'.order = store.order)
    (rows : ∀ id row', store'.ops.get? id = some row' →
      ∃ row, store.ops.get? id = some row ∧ identity row' = identity row) : Arrived store' := by
  have old : ∀ id row', store'.ops.get? id = some row' → ∃ row, store.ops.get? id = some row ∧
      createdAt row' = createdAt row ∧ store'.arrivalOf row' = store.arrivalOf row := by
    intro id row' found
    obtain ⟨row, found', same⟩ := rows id row' found
    have key : row'.operationId = row.operationId := congrArg Prod.fst same
    have stamp : row'.createdAt = row.createdAt := congrArg (·.2.2.2.2.2) same
    refine ⟨row, found', ?_, ?_⟩
    · rw [createdAt, createdAt, stamp]
    · rw [MemoryStore.arrivalOf, MemoryStore.arrivalOf, arrival, key]
  refine ⟨fun id id' row row' found found' apart => ?_, fun id row found => ?_⟩
  · obtain ⟨first, present, created, number⟩ := old id row found
    obtain ⟨second, present', created', number'⟩ := old id' row' found'
    rw [created, created', number, number']
    exact arrived.ordered id id' first second present present' apart
  · obtain ⟨row', found', _⟩ := old id row found
    rw [arrival, order]
    exact arrived.numbered id row' found'

theorem Arrived.insertRow {store : MemoryStore} (arrived : Arrived store) {now : Int}
    {op : Operation} (latest : ∀ id row, store.ops.get? id = some row → createdAt row < now) :
    Arrived (store.insertRow now op) := by
  have numbers (id : UUID) : (store.insertRow now op).arrival.get? id =
      if id = op.operationId then some store.order else store.arrival.get? id :=
    Dict.get?_set _ _ _ _
  -- a row is the new one, with the next number and the present instant, or as it was
  have rows : ∀ id row, (store.insertRow now op).ops.get? id = some row →
      (id = op.operationId ∧ createdAt row = now ∧
        (store.insertRow now op).arrivalOf row = store.order) ∨
      (store.ops.get? id = some row ∧ createdAt row < now ∧
        (store.insertRow now op).arrivalOf row = store.arrivalOf row ∧
        store.arrivalOf row < store.order) := by
    intro id row found
    have key := (store.insertRow now op).keyed id row found
    rw [MemoryStore.insertRow_get?] at found
    split at found
    · rename_i new
      cases found
      refine .inl ⟨new, rfl, ?_⟩
      simp [MemoryStore.arrivalOf, numbers]
    · rename_i other
      obtain ⟨n, number, below⟩ := arrived.numbered id row found
      refine .inr ⟨found, latest id row found, ?_, ?_⟩
      · simp only [MemoryStore.arrivalOf, numbers, key, if_neg other]
      · simpa only [MemoryStore.arrivalOf, key, number, Option.getD_some] using below
  refine ⟨fun id id' row row' found found' apart => ?_, fun id row found => ?_⟩
  · rcases rows id row found with ⟨new, created, number⟩ | ⟨present, created, number, below⟩ <;>
      rcases rows id' row' found' with ⟨new', created', number'⟩ |
        ⟨present', created', number', below'⟩
    · exact absurd (new.trans new'.symm) apart
    · rw [number, number', created]
      omega
    · rw [number, number', created']
      omega
    · rw [number, number']
      exact arrived.ordered id id' row row' present present' apart
  · rw [numbers]
    split
    · exact ⟨_, rfl, Nat.lt_succ_self _⟩
    · rename_i other
      rw [MemoryStore.insertRow_get?, if_neg other] at found
      obtain ⟨n, number, below⟩ := arrived.numbered id row found
      exact ⟨n, number, Nat.lt_succ_of_lt below⟩

/-- Other calls give out no numbers. -/
theorem perform_numbers (store : MemoryStore) (now : Int) {call : StoreCall}
    (later : ∀ op, call ≠ .insertNew op) :
    (store.perform now call).arrival = store.arrival ∧
      (store.perform now call).order = store.order ∧
      ∀ id, store.ops.get? id = none → (store.perform now call).ops.get? id = none := by
  cases call with
  | insertNew op => exact absurd rfl (later op)
  | claim states limit worker lease =>
      obtain ⟨_, _, arrival, order⟩ := store.claim_frame now states limit worker lease
      exact ⟨arrival, order, fun id absent => MemoryStore.claim_absent absent now _ _ _ _⟩
  | cas req =>
      rw [MemoryStore.perform, ← and_assoc]
      refine ⟨?_, fun id absent => MemoryStore.cas_absent absent now req⟩
      rcases store.cas_cases now req with ⟨_, same⟩ | ⟨_, same, _⟩ |
        ⟨_, _, _, _, _, _, ⟨_, same⟩ | ⟨_, same⟩⟩
      all_goals
        rw [same]
        exact ⟨rfl, rfl⟩
  | release key token =>
      rw [MemoryStore.perform, ← and_assoc]
      refine ⟨?_, fun id absent => MemoryStore.release_absent absent now key token⟩
      rcases store.release_cases now key token with ⟨same, _⟩ | ⟨_, _, _, same⟩
      all_goals
        rw [same]
        exact ⟨rfl, rfl⟩

theorem Arrived.perform {store : MemoryStore} (arrived : Arrived store) {now : Int}
    {call : StoreCall} (inOrder : InOrder store now call) : Arrived (store.perform now call) := by
  by_cases intake : ∃ op, call = .insertNew op
  · obtain ⟨op, rfl⟩ := intake
    rw [MemoryStore.perform]
    rcases store.insertNew_cases now op with ⟨_, _, same⟩ | ⟨absent, same⟩
    · rw [same]
      exact arrived
    · rw [same]
      exact arrived.insertRow (inOrder absent)
  obtain ⟨arrival, order, absent⟩ := perform_numbers store now
    fun op same => intake ⟨op, same⟩
  have opens : call.Opens := by
    cases call with
    | insertNew op => exact absurd ⟨op, rfl⟩ intake
    | claim | cas | release => trivial
  refine arrived.same arrival order fun id row' found' => ?_
  cases found : store.ops.get? id with
  | none =>
      rw [absent id found] at found'
      cases found'
  | some row =>
      obtain ⟨row'', found'', _, same⟩ :=
        (MemoryStore.perform_grows opens).rows id row found
      rw [found'] at found''
      cases found''
      exact ⟨row, rfl, same⟩

/-- One call, over equal tables. -/
theorem alike_iff {store : MemoryStore} (arrived : Arrived store) {now : Int} {call : StoreCall}
    (inOrder : InOrder store now call) :
    Alike store (ofMemory store) now call ↔ Portable store now call := by
  cases call with
  | insertNew op => exact insertNew_alike_iff store now op
  | claim states limit worker lease =>
      exact claimsAgree_iff arrived.ordered now inOrder limit worker lease
  | cas req => exact cas_alike_iff store now req
  | release id token => exact release_alike_iff store now id token

theorem Alike.tables {store : MemoryStore} {pg : PostgresStore} {now : Int} {call : StoreCall}
    (alike : Alike store pg now call) :
    pg.perform now (ofStoreCall call) = ofMemory (store.perform now call) := by
  cases call with
  | insertNew op => exact congrArg Prod.snd alike
  | claim states limit worker lease =>
      obtain ⟨_, _, _, _, _, same⟩ := alike
      exact same
  | cas req => exact alike.2
  | release id token => exact congrArg Prod.snd alike

theorem sideBySide_iff {store : MemoryStore} (arrived : Arrived store)
    {calls : List (Int × StoreCall)} (inOrder : InOrderAll store calls) :
    SideBySide store (ofMemory store) calls ↔ PortableAll store calls := by
  induction calls generalizing store with
  | nil => rfl
  | cons call calls ih =>
      obtain ⟨now, call⟩ := call
      obtain ⟨first, rest⟩ := inOrder
      rw [SideBySide, PortableAll, ← alike_iff arrived first]
      refine and_congr_right fun alike => ?_
      rw [alike.tables]
      exact ih (arrived.perform first) rest

/-- **The stores run side by side** -- same answers, same tables after every call -- exactly if
every call is portable where it is made. -/
theorem stores_side_by_side (calls : List (Int × StoreCall)) (inOrder : InOrderAll .empty calls) :
    SideBySide .empty empty calls ↔ PortableAll .empty calls :=
  sideBySide_iff .empty inOrder

/-- A request is validated under a lease that ends at 1000003, and claimed once more `later`. -/
def handover (later : Int) : List (Int × StoreCall) :=
  [(1, .insertNew {
      operationId := 1
      requestHash := []
      state := .requested
      toAddress := "TR7NHqjeKQxGTCi8q8ZY4pL8otSzgjLj6t"
      asset := "USDT-TRC20"
      amountUnits := 1 }),
    (2, .claim OpState.claimable 1 "w1" (.finite 30 0)),
    (3, .cas {
      operationId := 1
      fencingToken := 1
      fromState := .requested
      toState := .validated
      renewLeaseSeconds := some (.finite 1 0)
      workerId := some "w1" }),
    (later, .claim OpState.claimable 1 "w2" (.finite 30 0))]

theorem portable_claim {store : MemoryStore} {now : Int} {states : List OpState} {limit : Nat}
    {worker : String} {lease : Seconds}
    (typed : plain worker.toList = true ∧ int8 limit = true ∧ lease.makeInterval.isSome = true)
    (clear : ∀ entry ∈ store.ops.entries, entry.2.leaseExpiresAt ≠ some now ∧
      int8 (entry.2.fencingToken + 1) = true)
    (lands : (lease.after now).isSome = true ∧ lease.after now = lease.intervalAfter now) :
    Portable store now (.claim states limit worker lease) := by
  refine ⟨typed, fun id row found _ _ _ => ?_⟩
  obtain ⟨late, room⟩ := clear (id, row) ((Dict.get?_eq_some_iff _ _ _).mp found)
  obtain ⟨expiry, lands'⟩ := Option.isSome_iff_exists.mp lands.1
  exact ⟨late, room, expiry, lands', lands.2.symm.trans lands'⟩

/-- A tick after the lease the stores are still together; at its end they part. -/
theorem stores_side_by_side_until_lease_end :
    SideBySide .empty empty (handover 1000004) ∧ ¬SideBySide .empty empty (handover 1000003) := by
  have inOrder (later : Int) : InOrderAll .empty (handover later) := by
    refine ⟨fun _ id row found => by simp [MemoryStore.empty] at found, ?_, trivial, ?_, trivial⟩
    all_goals exact (by decide : ∀ s ∈ OpState.claimable, s.terminal = false)
  rw [stores_side_by_side _ (inOrder 1000004), stores_side_by_side _ (inOrder 1000003)]
  constructor
  · refine ⟨⟨by decide, by decide, by decide, fun _ => rfl⟩, ?_, ?_, ?_, trivial⟩
    · exact portable_claim (by decide +kernel) (by decide +kernel) (by decide +kernel)
    · refine fun _ => ⟨by decide +kernel, by decide, fun row _ _ state =>
        ⟨by rw [state]; rfl, by rintro _ ⟨⟩, by decide +kernel, ?_⟩⟩
      rintro lease ⟨⟩
      decide +kernel
    · exact portable_claim (by decide +kernel) (by decide +kernel) (by decide +kernel)
  · rintro ⟨_, _, _, clear, _⟩
    exact absurd rfl (clear.2 1 _ rfl (by decide) (by decide +kernel) (by decide +kernel)).1

end Sluice.Kernel.PostgresStore
