/-
# Protocol.ClaimAgreement -- when the two stores claim the same work

Both stores serve the head of a queue: the memory store by arrival number, the database by
`created_at`.  Where the two orders agree, the queues differ in one place only.  A lease
that ends exactly now is over for the memory store, which skips `lease > now`, and not yet
over for the database, which wants `lease < now()`.

The claim itself is the same wherever both can make it: the end of the lease has to be an
instant that both compute alike, and the worker's name, the limit and the new tokens have to
fit the database's types (`ClaimPortable`).

`claim_agrees_iff`: the stores agree exactly then.  The first of its two parts says what the
memory store claims.
-/
import Sluice.Kernel.PostgresStore
import Sluice.Theory.Queue

namespace Sluice.Kernel.PostgresStore

open Sluice.Theory
open MemoryStore (claimRow leased)

set_option autoImplicit false

/-- Rows have distinct creation times, in the order of their arrival. -/
def InArrivalOrder (store : MemoryStore) : Prop :=
  ∀ id id' row row', store.ops.get? id = some row → store.ops.get? id' = some row' → id ≠ id' →
    createdAt row ≠ createdAt row' ∧
      (store.arrivalOf row ≤ store.arrivalOf row' ↔ createdAt row ≤ createdAt row')

/-- Rows the memory store would claim in these states. -/
def claimable (store : MemoryStore) (now : Int) (states : List OpState) : List Operation :=
  store.ops.values.filter fun row => row.state ∈ states && !leased now row

/-- How many claimable rows are older than `row`. -/
def ahead (store : MemoryStore) (now : Int) (states : List OpState) (row : Operation) : Nat :=
  ((claimable store now states).filter fun other => createdAt other < createdAt row).length

/-- The same operations claimed with the same claim, and the same tables left. -/
def ClaimsAgree (memory : Except StoreError (List Operation) × MemoryStore)
    (postgres : Except PostgresError (List Operation) × PostgresStore) : Prop :=
  ∃ ops ops', memory.1 = .ok ops ∧ postgres.1 = .ok ops' ∧ (∀ op, op ∈ ops' ↔ op ∈ ops) ∧
    postgres.2 = ofMemory memory.2

/-- The claim fits the database's types, and every row that would be served is over its lease
for both stores, has room for one more token, and gets the same new lease from both. -/
def ClaimPortable (store : MemoryStore) (now : Int) (states : List OpState) (limit : Nat)
    (worker : String) (lease : Seconds) : Prop :=
  (plain worker.toList = true ∧ int8 limit = true ∧ lease.makeInterval.isSome = true) ∧
  ∀ id row, store.ops.get? id = some row → row.state ∈ states → leased now row = false →
    ahead store now states row < limit →
    row.leaseExpiresAt ≠ some now ∧ int8 (row.fencingToken + 1) = true ∧
      ∃ expiry, lease.after now = some expiry ∧ lease.intervalAfter now = some expiry

section Memory

variable {store : MemoryStore}

theorem InArrivalOrder.distinct (ordered : InArrivalOrder store) :
    ∀ a ∈ store.ops.values, ∀ b ∈ store.ops.values, createdAt a = createdAt b → a = b := by
  intro a left b right same
  obtain ⟨id, found⟩ := (Dict.mem_values_iff _ _).mp left
  obtain ⟨id', found'⟩ := (Dict.mem_values_iff _ _).mp right
  by_cases own : id = id'
  · rw [own, found'] at found
    exact (Option.some.inj found).symm
  · exact absurd same (ordered id id' a b found found' own).1

theorem InArrivalOrder.alike (ordered : InArrivalOrder store) :
    ∀ a ∈ store.ops.values, ∀ b ∈ store.ops.values,
      store.arrivalOf a ≤ store.arrivalOf b ↔ createdAt a ≤ createdAt b := by
  intro a left b right
  obtain ⟨id, found⟩ := (Dict.mem_values_iff _ _).mp left
  obtain ⟨id', found'⟩ := (Dict.mem_values_iff _ _).mp right
  by_cases own : id = id'
  · rw [own, found'] at found
    cases found
    simp
  · exact (ordered id id' a b found found' own).2

/-- The claimable rows, oldest first. -/
def queue (store : MemoryStore) (now : Int) (states : List OpState) : List Operation :=
  (claimable store now states).insertionSort fun a b => createdAt a ≤ createdAt b

theorem claimable_subset (now : Int) (states : List OpState) :
    ∀ row ∈ claimable store now states, row ∈ store.ops.values :=
  fun _ member => List.mem_of_mem_filter member

theorem queue_sorted (ordered : InArrivalOrder store) (now : Int) (states : List OpState) :
    (queue store now states).Pairwise fun a b => createdAt a < createdAt b := by
  have weak : (queue store now states).Pairwise fun a b => createdAt a ≤ createdAt b :=
    Queue.pairwise_insertionSort _
  have once : (queue store now states).Nodup :=
    (List.perm_insertionSort _ _).nodup_iff.mpr
      ((store.ops.values_nodup (·.operationId) store.keyed).filter _)
  refine (weak.and once).imp_of_mem fun {a b} left right both => ?_
  refine lt_of_le_of_ne both.1 fun same => both.2 ?_
  exact ordered.distinct a (claimable_subset now states a ((List.mem_insertionSort _).mp left))
    b (claimable_subset now states b ((List.mem_insertionSort _).mp right)) same

/-- The memory store serves the head of the queue. -/
theorem free_eq (ordered : InArrivalOrder store) (now : Int) (states : List OpState) :
    store.free now states = queue store now states := by
  have wanted : ∀ row ∈ store.ops.values.filter (fun op => op.state ∈ states),
      row ∈ store.ops.values := fun _ member => List.mem_of_mem_filter member
  have byCreation : store.candidates states =
      (store.ops.values.filter fun op => op.state ∈ states).insertionSort
        fun a b => createdAt a ≤ createdAt b :=
    Queue.insertionSort_congr fun a left b right =>
      ordered.alike a (wanted a left) b (wanted b right)
  rw [MemoryStore.free, byCreation, Queue.filter_insertionSort, List.filter_filter]
  · simp only [queue, claimable, Bool.and_comm]
  · exact fun a left b right => ordered.distinct a (wanted a left) b (wanted b right)

end Memory

section Postgres

variable {store : MemoryStore}

theorem unclaimed_eq (now : Int) (row : Operation) :
    unclaimed now row = (!leased now row && decide (row.leaseExpiresAt ≠ some now)) := by
  unfold unclaimed leased
  cases row.leaseExpiresAt with
  | none => rfl
  | some expiry =>
      simp only [ne_eq, Option.some.injEq]
      by_cases early : expiry < now
      · simp [early, early.le, early.ne]
      · by_cases same : expiry = now
        · simp [same]
        · simp [early, show now < expiry by omega]

/-- The database serves the same queue, without the rows whose lease ends now. -/
theorem picked_eq (ordered : InArrivalOrder store) (now : Int) (states : List OpState)
    (limit : Nat) :
    (ofMemory store).pickedSkipping now [] states limit =
      ((queue store now states).filter fun row => row.leaseExpiresAt ≠ some now).take limit := by
  have rows : (store.ops.values.filter fun row => row.state ∈ states && unclaimed now row &&
      decide (row.operationId ∉ ([] : List UUID))) =
      (claimable store now states).filter fun row => row.leaseExpiresAt ≠ some now := by
    rw [claimable, List.filter_filter]
    refine List.filter_congr fun row _ => ?_
    rw [unclaimed_eq, ← Bool.and_assoc, Bool.and_comm]
    simp [Bool.and_comm, Bool.and_left_comm]
  rw [pickedSkipping, show (ofMemory store).operations = store.ops from rfl, rows, queue,
    Queue.filter_insertionSort]
  exact fun a left b right => ordered.distinct a (claimable_subset now states a left)
    b (claimable_subset now states b right)

/-- Whose claim passes, and as what. -/
theorem takeOver_ok_iff {now : Int} {worker : String} {lease : Seconds} {old row : Operation} :
    takeOver now worker lease old = .ok row ↔
      (old.state.terminal = false ∧ int8 (old.fencingToken + 1) = true ∧
        (lease.intervalAfter now).isSome = true) ∧
      row = claimRow now worker ((lease.intervalAfter now).getD now) old := by
  have ended : old.state ∈ [OpState.confirmed, .failed, .rejected] ↔ old.state.terminal = true := by
    cases old.state <;> decide
  unfold takeOver
  cases lease.intervalAfter now with
  | none => simp
  | some expiry =>
      cases room : int8 (old.fencingToken + 1) with
      | false => simp
      | true =>
          simp only [opTransitionGuard, ended, Bool.not_true, Bool.false_eq_true, if_false, ne_eq,
            not_true_eq_false, false_and, Option.isSome_some, and_true, Option.getD_some]
          cases old.state.terminal with
          | true => simp
          | false =>
              simp only [Bool.false_eq_true, if_false, Except.ok.injEq, true_and]
              exact eq_comm

/-- All rows or none. -/
theorem mapM_takeOver_iff {now : Int} {worker : String} {lease : Seconds} :
    ∀ {rows out : List Operation}, rows.mapM (takeOver now worker lease) = .ok out ↔
      (∀ row ∈ rows, row.state.terminal = false ∧ int8 (row.fencingToken + 1) = true ∧
        (lease.intervalAfter now).isSome = true) ∧
      out = rows.map (claimRow now worker ((lease.intervalAfter now).getD now))
  | [], out => by
      rw [List.mapM_nil, List.map_nil]
      exact ⟨fun same => ⟨by simp, (Except.ok.inj same).symm⟩, fun same => by rw [same.2]; rfl⟩
  | row :: rows, out => by
      rw [List.mapM_cons, List.forall_mem_cons, List.map_cons]
      cases first : takeOver now worker lease row with
      | error e =>
          refine ⟨nofun, fun fits => ?_⟩
          cases first.symm.trans (takeOver_ok_iff.mpr ⟨fits.1.1, rfl⟩)
      | ok new =>
          obtain ⟨fits, rfl⟩ := takeOver_ok_iff.mp first
          rw [and_iff_right fits]
          cases rest : rows.mapM (takeOver now worker lease) with
          | error e =>
              refine ⟨nofun, fun others => ?_⟩
              cases rest.symm.trans (mapM_takeOver_iff.mpr ⟨others.1, rfl⟩)
          | ok news =>
              obtain ⟨others, rfl⟩ := mapM_takeOver_iff.mp rest
              exact ⟨fun passed => ⟨others, (Except.ok.inj passed).symm⟩,
                fun same => by rw [same.2]; rfl⟩

section Claim

variable {pg : PostgresStore} {now : Int} {states : List OpState} {limit : Nat} {worker : String}
  {lease : Seconds}

/-- What an answered claim was asked for, and whom it took. -/
theorem fits_of_claim {ops : List Operation}
    (returned : (pg.claim now states limit worker lease).1 = .ok ops) :
    (plain worker.toList = true ∧ int8 limit = true ∧ lease.makeInterval.isSome = true) ∧
      (∀ row ∈ pg.pickedSkipping now [] states limit, row.state.terminal = false ∧
        int8 (row.fencingToken + 1) = true ∧ (lease.intervalAfter now).isSome = true) ∧
      ops = (pg.pickedSkipping now [] states limit).map
        (claimRow now worker ((lease.intervalAfter now).getD now)) := by
  rw [claim, claimSkipping] at returned
  rw [← and_assoc (c := _ = true), ← Bool.and_eq_true, ← Bool.and_eq_true]
  cases typed : plain worker.toList && int8 limit && lease.makeInterval.isSome with
  | false =>
      rw [typed] at returned
      cases returned
  | true =>
      rw [typed, Bool.not_true, if_neg Bool.false_ne_true] at returned
      cases passed : (pg.pickedSkipping now [] states limit).mapM (takeOver now worker lease) with
      | error e =>
          rw [passed] at returned
          cases returned
      | ok rows =>
          rw [passed] at returned
          cases returned
          exact ⟨rfl, mapM_takeOver_iff.mp passed⟩

theorem claim_of_fits
    (typed : plain worker.toList = true ∧ int8 limit = true ∧ lease.makeInterval.isSome = true)
    (fits : ∀ row ∈ pg.pickedSkipping now [] states limit, row.state.terminal = false ∧
      int8 (row.fencingToken + 1) = true ∧ (lease.intervalAfter now).isSome = true)
    {ops : List Operation} (taken : (pg.pickedSkipping now [] states limit).map
      (claimRow now worker ((lease.intervalAfter now).getD now)) = ops) :
    pg.claim now states limit worker lease = (.ok ops, { pg with
      operations := pg.operations.mapValues fun id row =>
        (ops.find? fun op => op.operationId = id).getD row }) := by
  rw [claim, claimSkipping, typed.1, typed.2.1, typed.2.2, mapM_takeOver_iff.mpr ⟨fits, taken.symm⟩]
  rfl

end Claim

end Postgres

section Agreement

variable {store : MemoryStore}

theorem mem_queue {now : Int} {states : List OpState} {row : Operation} :
    row ∈ queue store now states ↔ store.ops.get? row.operationId = some row ∧
      row.state ∈ states ∧ leased now row = false := by
  rw [queue, List.mem_insertionSort, claimable, List.mem_filter, Dict.mem_values_iff]
  simp only [Bool.and_eq_true, decide_eq_true_eq, Bool.not_eq_true']
  refine and_congr_left fun _ => ⟨?_, fun found => ⟨_, found⟩⟩
  rintro ⟨id, found⟩
  rw [store.keyed id row found]
  exact found

/-- A row is served exactly if fewer claimable rows than the limit are older. -/
theorem mem_take_queue (ordered : InArrivalOrder store) {now : Int} {states : List OpState}
    {limit : Nat} {row : Operation} (waiting : row ∈ queue store now states) :
    row ∈ (queue store now states).take limit ↔ ahead store now states row < limit := by
  have same :
      ((queue store now states).filter fun other => createdAt other < createdAt row).length =
        ahead store now states row := ((List.perm_insertionSort _ _).filter _).length_eq
  rw [Queue.mem_take_iff limit (queue_sorted ordered now states) waiting, same]

theorem claimRow_injective {now : Int} {worker : String} {expiry expiry' : Int}
    {row row' : Operation} (found : store.ops.get? row.operationId = some row)
    (found' : store.ops.get? row'.operationId = some row')
    (same : claimRow now worker expiry row = claimRow now worker expiry' row') :
    row = row' ∧ expiry = expiry' := by
  have key := congrArg Operation.operationId same
  rw [MemoryStore.claimRow_operationId, MemoryStore.claimRow_operationId] at key
  rw [key, found'] at found
  exact ⟨(Option.some.inj found).symm, Option.some.inj (congrArg Operation.leaseExpiresAt same)⟩

/-- The condition, in terms of the rows served. -/
theorem claimPortable_iff (ordered : InArrivalOrder store) {now : Int} {states : List OpState}
    {limit : Nat} {worker : String} {lease : Seconds} :
    ClaimPortable store now states limit worker lease ↔
      (plain worker.toList = true ∧ int8 limit = true ∧ lease.makeInterval.isSome = true) ∧
      ∀ row ∈ (queue store now states).take limit,
        row.leaseExpiresAt ≠ some now ∧ int8 (row.fencingToken + 1) = true ∧
          ∃ expiry, lease.after now = some expiry ∧ lease.intervalAfter now = some expiry := by
  refine and_congr_right fun _ => ⟨fun fits row served => ?_,
    fun fits id row found wanted free early => ?_⟩
  · have waiting := List.mem_of_mem_take served
    obtain ⟨found, wanted, free⟩ := mem_queue.mp waiting
    exact fits _ row found wanted free ((mem_take_queue ordered waiting).mp served)
  · have waiting := mem_queue.mpr ⟨by rw [store.keyed id row found]; exact found, wanted, free⟩
    exact fits row ((mem_take_queue ordered waiting).mpr early)

/-- A claim that found somebody and raised nothing had a lease to give. -/
theorem claimed_of_served {now : Int} {states : List OpState} {limit : Nat} {worker : String}
    {lease : Seconds} {ops : List Operation} {row : Operation}
    (returned : (store.claim now states limit worker lease).1 = .ok ops)
    (served : row ∈ (store.free now states).take limit) :
    ∃ expiry, lease.after now = some expiry ∧
      ops = store.claimed now states limit worker expiry := by
  rcases store.claim_cases now states limit worker lease with
    ⟨expiry, lands, same⟩ | ⟨_, nobody, _⟩ | ⟨_, _, _, _, same⟩
  · rw [same] at returned
    cases returned
    exact ⟨expiry, lands, rfl⟩
  · rw [nobody] at served
    cases served
  · rw [same] at returned
    cases returned

theorem claim_of_nobody {now : Int} {states : List OpState} {limit : Nat}
    (nobody : (store.free now states).take limit = []) (worker : String) (lease : Seconds) :
    store.claim now states limit worker lease = (.ok [], store) := by
  rcases store.claim_cases now states limit worker lease with
    ⟨_, _, same⟩ | ⟨_, _, same⟩ | ⟨_, _, _, first, _⟩
  · rw [same, MemoryStore.claimed, nobody, List.map_nil, MemoryStore.withRows_nil]
  · exact same
  · cases nobody.symm.trans first

section Claims

variable {now : Int} {states : List OpState} {limit : Nat} {worker : String} {lease : Seconds}

theorem portable_of_agree (ordered : InArrivalOrder store)
    (agree : ClaimsAgree (store.claim now states limit worker lease)
      ((ofMemory store).claim now states limit worker lease)) :
    ClaimPortable store now states limit worker lease := by
  obtain ⟨ops, ops', memory, postgres, same, _⟩ := agree
  obtain ⟨typed, fits, rfl⟩ := fits_of_claim postgres
  refine (claimPortable_iff ordered).mpr ⟨typed, fun row served => ?_⟩
  -- the memory store claims the row, so the database has picked it
  obtain ⟨expiry, lands, rfl⟩ := claimed_of_served memory (by
    rw [free_eq ordered]
    exact served)
  have taken : claimRow now worker expiry row ∈ store.claimed now states limit worker expiry := by
    rw [MemoryStore.claimed, free_eq ordered]
    exact List.mem_map_of_mem served
  obtain ⟨other, picked, clash⟩ := List.mem_map.mp ((same _).mpr taken)
  obtain ⟨_, room, lands'⟩ := fits other picked
  rw [picked_eq ordered] at picked
  obtain ⟨waiting, late⟩ := List.mem_filter.mp (List.mem_of_mem_take picked)
  obtain ⟨rfl, rfl⟩ := claimRow_injective (mem_queue.mp waiting).1
    (mem_queue.mp (List.mem_of_mem_take served)).1 clash
  obtain ⟨expiry', lands'⟩ := Option.isSome_iff_exists.mp lands'
  rw [lands', Option.getD_some] at lands
  exact ⟨by simpa using late, room, expiry', lands, lands'⟩

theorem agree_of_portable (ordered : InArrivalOrder store)
    (running : ∀ s ∈ states, s.terminal = false)
    (portable : ClaimPortable store now states limit worker lease) :
    ClaimsAgree (store.claim now states limit worker lease)
      ((ofMemory store).claim now states limit worker lease) := by
  obtain ⟨typed, fits⟩ := (claimPortable_iff ordered).mp portable
  have rows : (ofMemory store).pickedSkipping now [] states limit =
      (queue store now states).take limit := by
    rw [picked_eq ordered]
    exact Queue.take_filter _ limit fun row served => by simpa using (fits row served).1
  rw [claim_of_fits typed ?_ rfl, rows]
  swap
  · rw [rows]
    intro row served
    obtain ⟨_, room, expiry, _, lands⟩ := fits row served
    have waiting := mem_queue.mp (List.mem_of_mem_take served)
    exact ⟨running _ waiting.2.1, room, by rw [lands]; rfl⟩
  cases first : (queue store now states).take limit with
  | nil =>
      rw [claim_of_nobody ((congrArg _ (free_eq ordered now states)).trans first)]
      exact ⟨[], [], rfl, rfl, fun _ => Iff.rfl, congrArg ofMemory store.withRows_nil⟩
  | cons row rest =>
      obtain ⟨_, _, expiry, lands, lands'⟩ := fits row (first ▸ List.mem_cons_self)
      rw [store.claim_of_some lands, lands', Option.getD_some, MemoryStore.claimed,
        free_eq ordered, first]
      exact ⟨_, _, rfl, rfl, fun _ => Iff.rfl, rfl⟩

end Claims

/-- Claims agree where the served rows do. -/
theorem claimsAgree_iff (ordered : InArrivalOrder store) (now : Int) {states : List OpState}
    (running : ∀ s ∈ states, s.terminal = false) (limit : Nat) (worker : String)
    (lease : Seconds) :
    ClaimsAgree (store.claim now states limit worker lease)
        ((ofMemory store).claim now states limit worker lease) ↔
      ClaimPortable store now states limit worker lease :=
  ⟨portable_of_agree ordered, agree_of_portable ordered running⟩

/-- **Both stores claim the same work** exactly if the claim fits the database's types and every
row in a wanted state that is not under a lease and has fewer claimable rows than the limit ahead
of it has no lease that ends now, room for another token, and the same computable new lease.
Where its leases can be computed, the memory store claims the oldest claimable rows, as many as
there are or as the limit allows. -/
theorem claim_agrees_iff (store : MemoryStore) (ordered : InArrivalOrder store) (now : Int)
    (states : List OpState) (running : ∀ s ∈ states, s.terminal = false) (limit : Nat)
    (worker : String) (lease : Seconds) :
    (∀ expiry, lease.after now = some expiry → ∃ ops,
      (store.claim now states limit worker lease).1 = .ok ops ∧
      ops.length = min limit (claimable store now states).length ∧
      ∀ op, op ∈ ops ↔ ∃ row, store.ops.get? row.operationId = some row ∧ row.state ∈ states ∧
        leased now row = false ∧ ahead store now states row < limit ∧
        op = claimRow now worker expiry row) ∧
    (ClaimsAgree (store.claim now states limit worker lease)
        ((ofMemory store).claim now states limit worker lease) ↔
      ClaimPortable store now states limit worker lease) := by
  refine ⟨fun expiry lands => ?_, claimsAgree_iff ordered now running limit worker lease⟩
  have claim : (store.claim now states limit worker lease).1 =
      .ok (((queue store now states).take limit).map (claimRow now worker expiry)) := by
    rw [store.claim_of_some lands, MemoryStore.claimed, free_eq ordered]
  refine ⟨_, claim, ?_, fun op => ?_⟩
  · rw [List.length_map, List.length_take, queue, List.length_insertionSort]
  · rw [List.mem_map]
    constructor
    · rintro ⟨row, served, rfl⟩
      have waiting := List.mem_of_mem_take served
      obtain ⟨found, wanted, free⟩ := mem_queue.mp waiting
      exact ⟨row, found, wanted, free, (mem_take_queue ordered waiting).mp served, rfl⟩
    · rintro ⟨row, found, wanted, free, early, rfl⟩
      exact ⟨row, (mem_take_queue ordered (mem_queue.mpr ⟨found, wanted, free⟩)).mpr early, rfl⟩

end Agreement

/-! ## A lease that ends -/

instance (store : MemoryStore) : Decidable (InArrivalOrder store) :=
  decidable_of_iff (∀ entry ∈ store.ops.entries, ∀ entry' ∈ store.ops.entries,
      entry.1 ≠ entry'.1 → createdAt entry.2 ≠ createdAt entry'.2 ∧
        (store.arrivalOf entry.2 ≤ store.arrivalOf entry'.2 ↔
          createdAt entry.2 ≤ createdAt entry'.2)) (by
    constructor
    · intro check id id' row row' found found' differ
      exact check (id, row) ((Dict.get?_eq_some_iff _ _ _).mp found) (id', row')
        ((Dict.get?_eq_some_iff _ _ _).mp found') differ
    · intro ordered entry member entry' member' differ
      exact ordered entry.1 entry'.1 entry.2 entry'.2 ((Dict.get?_eq_some_iff _ _ _).mpr member)
        ((Dict.get?_eq_some_iff _ _ _).mpr member') differ)

/-- Two requests, created at 1 and 3; the first one is claimed at 2, for a second. -/
def twoRequests : MemoryStore :=
  let request (id : UUID) : Operation := {
    operationId := id
    requestHash := []
    state := .requested
    toAddress := "TR7NHqjeKQxGTCi8q8ZY4pL8otSzgjLj6t"
    asset := "USDT-TRC20"
    amountUnits := 1 }
  let store := (MemoryStore.empty.insertNew 1 (request 1)).2
  let store := (store.claim 2 OpState.claimable 1 "w1" (.finite 1 0)).2
  (store.insertNew 3 (request 2)).2

/-- A tick after the lease both stores claim both requests. -/
theorem claim_agrees_after_lease : InArrivalOrder twoRequests ∧
    (∀ s ∈ OpState.claimable, s.terminal = false) ∧
    ((twoRequests.claim 1000003 OpState.claimable 2 "w2" (.finite 30 0)).1.toOption.map
      List.length) = some 2 ∧
    ClaimsAgree (twoRequests.claim 1000003 OpState.claimable 2 "w2" (.finite 30 0))
      ((ofMemory twoRequests).claim 1000003 OpState.claimable 2 "w2" (.finite 30 0)) := by
  have ordered : InArrivalOrder twoRequests := by decide +kernel
  have running : ∀ s ∈ OpState.claimable, s.terminal = false := by decide
  refine ⟨ordered, running, by decide +kernel, (claim_agrees_iff twoRequests ordered 1000003
    OpState.claimable running 2 "w2" (.finite 30 0)).2.mpr
      ⟨by decide +kernel, fun id row found _ _ _ => ?_⟩⟩
  have entries : ∀ entry ∈ twoRequests.ops.entries, entry.2.leaseExpiresAt ≠ some 1000003 ∧
      int8 (entry.2.fencingToken + 1) = true := by decide +kernel
  have entry := entries (id, row) ((Dict.get?_eq_some_iff _ _ _).mp found)
  exact ⟨entry.1, entry.2, 31000003, by decide +kernel, by decide +kernel⟩

/-- **One instant apart.**  At the end of the lease the memory store claims the first request,
and the database the second. -/
theorem claims_differ_at_lease_end : InArrivalOrder twoRequests ∧
    ((twoRequests.claim 1000002 OpState.claimable 1 "w2" (.finite 30 0)).1.toOption.map
      fun ops => ops.map (·.operationId)) = some [1] ∧
    (((ofMemory twoRequests).claim 1000002 OpState.claimable 1 "w2" (.finite 30 0)).1.toOption.map
      fun ops => ops.map (·.operationId)) = some [2] := by
  decide +kernel

end Sluice.Kernel.PostgresStore
