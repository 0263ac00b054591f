/-
# Protocol.StoreAgreement -- when the two stores agree on a write

Over equal tables `MemoryStore.cas` and `PostgresStore.cas` write the same row and the same
event, where they write.  They part in these ways:

* The memory store assigns `lease_expires_at` when a lease is renewed and clears it again
  when the target state is terminal; the UPDATE then names the column twice, which the
  database rejects.  That is the only way a column can be named twice (`setList_nodup_iff`).
* The memory store takes any value.  The database refuses what its columns do not take, in
  the statement (`sendable`) or, once a row matches, in the event (`recordable`).
* `timedelta` and `make_interval` round a number of seconds differently, and the memory store
  has half written the row when the sum leaves the calendar (`RenewsAlike`).
* The trigger refuses a write to a row that has ended, and the index an id that another row
  holds.

`cas_alike_iff` says that there is nothing else, and `cas_agrees_iff` is the case of a running
row and a free id.  `confirm_disagrees`: the pipeline renews on every write, so its
confirmations are among the rejected statements.
-/
import Sluice.Kernel.PostgresStore

namespace Sluice.Kernel.PostgresStore

open Sluice.Theory

set_option autoImplicit false

/-- Same answer, and afterwards the same rows and events. -/
def Agrees (memory : Except StoreError (Option Operation) × MemoryStore)
    (postgres : Except PostgresError (Option Operation) × PostgresStore) : Prop :=
  (match memory.1, postgres.1 with
    | .error (.illegalTransition e), .error (.illegalTransition e') => e = e'
    | .ok row, .ok row' => row = row'
    | _, _ => False) ∧
  postgres.2 = ofMemory memory.2

/-! ## The SET list -/

theorem option_columns {α : Type} (value : Option α) (clause : α → Clause) (column : Column)
    (named : ∀ a, (clause a).column = column) :
    ((value.map clause).toList.map Clause.column).Sublist [column] := by
  cases value <;> simp [named]

theorem clauses_columns (sets : Sets) :
    (sets.clauses.map Clause.column).Sublist
      ([Column.attempts] ++ [Column.broadcastAt] ++ [Column.confirmedAt] ++
        [Column.failureReason] ++ [Column.includedBlock] ++ [Column.lastError] ++
        [Column.signedTx] ++ [Column.txExpiration] ++ [Column.txid] ++ [Column.unsignedTx]) := by
  simp only [Sets.clauses, List.map_append]
  refine List.Sublist.append (.append (.append (.append (.append (.append (.append (.append
    (.append ?_ ?_) ?_) ?_) ?_) ?_) ?_) ?_) ?_) ?_
  all_goals exact option_columns _ _ _ fun _ => rfl

theorem leaseClauses_columns (now : Int) {req : CasRequest}
    (once : ¬(req.toState.terminal = true ∧ req.renewLeaseSeconds.isSome)) :
    ((leaseClauses now req).map Clause.column).Sublist [.claimedBy, .leaseExpiresAt] := by
  unfold leaseClauses
  cases renewal : req.renewLeaseSeconds with
  | none => cases req.toState.terminal <;> simp [Clause.column]
  | some lease =>
      have open_ : req.toState.terminal = false := by simpa [renewal] using once
      simp [open_, Clause.column]

/-- A column is named twice exactly when a terminal write also renews the lease. -/
theorem setList_nodup_iff (now : Int) (req : CasRequest) :
    ((setList now req).map Clause.column).Nodup ↔
      ¬(req.toState.terminal = true ∧ req.renewLeaseSeconds.isSome) := by
  constructor
  · rintro distinct ⟨ended, renewed⟩
    obtain ⟨lease, renewal⟩ := Option.isSome_iff_exists.mp renewed
    simp [setList, leaseClauses, ended, renewal, Clause.column, List.nodup_append] at distinct
  · intro once
    -- the list is a sublist of one in which every column occurs once
    have whole := ((List.Sublist.refl [Column.state]).append (clauses_columns req.sets)).append
      (leaseClauses_columns now once)
    have distinct := whole.nodup (by decide)
    simpa only [setList, List.map_append, List.map_cons, List.map_nil, Clause.column,
      List.append_assoc] using distinct

/-! ## The row it writes -/

/-- A column that is set only if there is a value keeps its old one otherwise. -/
theorem foldl_option {α : Type} (clause : α → Clause) (field : Operation → α)
    (same : ∀ row, (clause (field row)).assign row = row) (value : Option α) (row : Operation) :
    (value.map clause).toList.foldl Clause.assign row =
      (clause (value.getD (field row))).assign row := by
  cases value with
  | none => exact (same row).symm
  | some a => rfl

/-- Assigning the clauses of `sets` is applying `sets`. -/
theorem foldl_clauses (sets : Sets) (row : Operation) :
    sets.clauses.foldl Clause.assign row = sets.apply row := by
  simp only [Sets.clauses, List.foldl_append]
  -- one column at a time, so that the cases do not multiply
  rw [foldl_option .attempts (·.attempts) fun _ => rfl,
    foldl_option .broadcastAt (·.broadcastAt) fun _ => rfl,
    foldl_option .confirmedAt (·.confirmedAt) fun _ => rfl,
    foldl_option .failureReason (·.failureReason) fun _ => rfl,
    foldl_option .includedBlock (·.includedBlock) fun _ => rfl,
    foldl_option .lastError (·.lastError) fun _ => rfl,
    foldl_option .signedTx (·.signedTx) fun _ => rfl,
    foldl_option .txExpiration (·.txExpiration) fun _ => rfl,
    foldl_option .txid (·.txid) fun _ => rfl,
    foldl_option .unsignedTx (·.unsignedTx) fun _ => rfl]
  simp only [Clause.assign, Sets.apply]

/-- The row a committed statement leaves. -/
def writtenRow (now : Int) (req : CasRequest) (row : Operation) : Operation :=
  { (setList now req).foldl Clause.assign row with updatedAt := some now }

/-- Column by column. -/
theorem writtenRow_eq (now : Int) (req : CasRequest) (row : Operation) :
    writtenRow now req row = { req.sets.apply row with
      state := req.toState
      updatedAt := some now
      claimedBy := if req.toState.terminal then none else row.claimedBy
      leaseExpiresAt := if req.toState.terminal then none
        else match req.renewLeaseSeconds with
          | some lease => lease.intervalAfter now
          | none => row.leaseExpiresAt } := by
  simp only [writtenRow, setList, leaseClauses, List.foldl_append, foldl_clauses]
  cases req.renewLeaseSeconds <;> cases req.toState.terminal <;> rfl

@[simp] theorem writtenRow_operationId (now : Int) (req : CasRequest) (row : Operation) :
    (writtenRow now req row).operationId = row.operationId := by
  rw [writtenRow_eq]; rfl

theorem setList_operationId (now : Int) (req : CasRequest) (row : Operation) :
    ((setList now req).foldl Clause.assign row).operationId = row.operationId :=
  writtenRow_operationId now req row

@[simp] theorem writtenRow_fencingToken (now : Int) (req : CasRequest) (row : Operation) :
    (writtenRow now req row).fencingToken = row.fencingToken := by
  rw [writtenRow_eq]; rfl

@[simp] theorem writtenRow_state (now : Int) (req : CasRequest) (row : Operation) :
    (writtenRow now req row).state = req.toState := by
  rw [writtenRow_eq]

theorem setList_state (now : Int) (req : CasRequest) (row : Operation) :
    ((setList now req).foldl Clause.assign row).state = req.toState :=
  writtenRow_state now req row

@[simp] theorem writtenRow_identity (now : Int) (req : CasRequest) (row : Operation) :
    MemoryStore.identity (writtenRow now req row) = MemoryStore.identity row := by
  rw [writtenRow_eq]; rfl

/-- Both stores find the same end of the renewed lease. -/
def RenewsAlike (now : Int) (req : CasRequest) : Prop :=
  ∀ lease, req.renewLeaseSeconds = some lease → lease.after now = lease.intervalAfter now

theorem intervalAfter_of_recordable {now : Int} {req : CasRequest}
    (recorded : recordable now req = true) {lease : Seconds}
    (renewal : req.renewLeaseSeconds = some lease) :
    ∃ expiry, lease.intervalAfter now = some expiry := by
  simp only [recordable, renewal, Bool.and_eq_true] at recorded
  exact Option.isSome_iff_exists.mp recorded.1.1.1

/-- Then they write the same row. -/
theorem RenewsAlike.row {now : Int} {req : CasRequest} (alike : RenewsAlike now req)
    (recorded : recordable now req = true) :
    MemoryStore.overflows now req = false ∧
      ∀ row, writtenRow now req row = MemoryStore.casRow now req row := by
  cases renewal : req.renewLeaseSeconds with
  | none =>
      refine ⟨by simp [MemoryStore.overflows, renewal], fun row => ?_⟩
      rw [writtenRow_eq, MemoryStore.casRow_eq, renewal]
      rfl
  | some lease =>
      obtain ⟨expiry, lands⟩ := intervalAfter_of_recordable recorded renewal
      have lands' := (alike lease renewal).trans lands
      refine ⟨by simp [MemoryStore.overflows, renewal, lands'], fun row => ?_⟩
      rw [writtenRow_eq, MemoryStore.casRow_eq, renewal]
      simp only [lands, lands', Option.bind_some, Option.some_or]

/-- And not otherwise, unless the lease is dropped. -/
theorem RenewsAlike.of_row {now : Int} {req : CasRequest} {row : Operation}
    (once : ¬(req.toState.terminal = true ∧ req.renewLeaseSeconds.isSome))
    (within : MemoryStore.overflows now req = false)
    (same : writtenRow now req row = MemoryStore.casRow now req row) : RenewsAlike now req := by
  intro lease renewal
  have running : req.toState.terminal = false := by simpa [renewal] using once
  have ends := congrArg Operation.leaseExpiresAt same
  simp only [writtenRow_eq, MemoryStore.casRow_eq, renewal, running, Bool.false_eq_true, if_false,
    Option.bind_some] at ends
  cases lands : lease.after now with
  | none => simp [MemoryStore.overflows, renewal, lands] at within
  | some expiry => rw [ends, lands, Option.some_or]

/-! ## Trigger and index -/

/-- The trigger knows the transition table. -/
theorem mem_guardPairs {src dst : OpState} (legal : OpState.canTransition src dst = true)
    (changed : dst ≠ src) : (src, dst) ∈ guardPairs := by
  revert legal changed
  cases src <;> cases dst <;> decide

theorem opTransitionGuard_ok {now : Int} {old new : Operation} (live : old.state.terminal = false)
    (legal : OpState.canTransition old.state new.state = true) :
    opTransitionGuard now old new = .ok { new with updatedAt := some now } := by
  unfold opTransitionGuard
  rw [if_neg, if_neg]
  · rintro ⟨changed, outside⟩
    exact outside (mem_guardPairs legal changed)
  · intro ended
    have := (OpState.terminal_iff old.state).mpr (by simpa using ended)
    rw [live] at this
    cases this

theorem txidTaken_eq_false_iff (store : MemoryStore) (req : CasRequest) :
    (ofMemory store).txidTaken req = false ↔
      ∀ txid, req.sets.txid = some (some txid) → ∀ id other, store.ops.get? id = some other →
        id ≠ req.operationId → other.txid ≠ some txid := by
  constructor
  · intro free txid written id other found apart same
    simp only [txidTaken, written] at free
    have clear := List.any_eq_false.mp free (id, other) ((Dict.get?_eq_some_iff _ _ _).mp found)
    exact clear (by simp [apart, same])
  · intro free
    unfold txidTaken
    split
    · rename_i txid written
      refine List.any_eq_false.mpr fun entry member => ?_
      have found := (Dict.get?_eq_some_iff _ _ _).mpr member
      intro taken
      simp only [Bool.and_eq_true, decide_eq_true_eq] at taken
      exact free txid written entry.1 entry.2 found taken.1 taken.2
    · rfl

/-! ## What the statement does -/

section Cas

variable (pg : PostgresStore) (now : Int) {req : CasRequest}

theorem cas_illegal (illegal : OpState.canTransition req.fromState req.toState = false) :
    pg.cas now req = (.error (.illegalTransition ⟨req.fromState, req.toState⟩), pg) := by
  simp [cas, illegal]

theorem cas_unsendable (legal : OpState.canTransition req.fromState req.toState = true)
    (refused : sendable req = false) : pg.cas now req = (.error .dataError, pg) := by
  simp [cas, legal, refused]

/-- A renewal beside the end of the operation assigns the lease twice. -/
theorem cas_rejected (legal : OpState.canTransition req.fromState req.toState = true)
    (sent : sendable req = true)
    (clash : req.toState.terminal = true ∧ req.renewLeaseSeconds.isSome) :
    pg.cas now req = (.error .duplicateColumn, pg) := by
  have twice : ¬((setList now req).map Clause.column).Nodup := by
    rw [setList_nodup_iff]
    exact not_not.mpr clash
  simp [cas, legal, sent, twice]

theorem cas_fenced (legal : OpState.canTransition req.fromState req.toState = true)
    (sent : sendable req = true)
    (once : ¬(req.toState.terminal = true ∧ req.renewLeaseSeconds.isSome))
    (fenced : ∀ row, pg.operations.get? req.operationId = some row →
      row.fencingToken ≠ req.fencingToken ∨ row.state ≠ req.fromState) :
    pg.cas now req = (.ok none, pg) := by
  have distinct := (setList_nodup_iff now req).mpr once
  cases found : pg.operations.get? req.operationId with
  | none => simp [cas, legal, sent, distinct, found]
  | some row =>
      simp only [cas, legal, sent, distinct, found, if_pos (fenced row found)]
      rfl

/-- What becomes of a row that matches. -/
theorem cas_matched {row : Operation}
    (legal : OpState.canTransition req.fromState req.toState = true) (sent : sendable req = true)
    (once : ¬(req.toState.terminal = true ∧ req.renewLeaseSeconds.isSome))
    (found : pg.operations.get? req.operationId = some row)
    (token : row.fencingToken = req.fencingToken) (state : row.state = req.fromState) :
    pg.cas now req =
      if row.state.terminal then
        (.error (.checkViolation "operation is terminal and immutable"), pg)
      else if pg.txidTaken req then (.error .uniqueViolation, pg)
      else if recordable now req then
        (.ok (some (writtenRow now req row)), pg.commit now req (writtenRow now req row))
      else (.error .dataError, pg) := by
  have distinct := (setList_nodup_iff now req).mpr once
  cases ended : row.state.terminal with
  | true =>
      have listed : row.state ∈ [OpState.confirmed, .failed, .rejected] := by
        simpa using (OpState.terminal_iff row.state).mp ended
      have refused (new : Operation) : opTransitionGuard now row new =
          .error (.checkViolation "operation is terminal and immutable") := if_pos listed
      simp [cas, legal, sent, distinct, found, token, state, refused]
  | false =>
      have guarded : opTransitionGuard now row ((setList now req).foldl Clause.assign row) =
          .ok (writtenRow now req row) := by
        rw [opTransitionGuard_ok ended]
        · rfl
        · rw [setList_state, state]
          exact legal
      cases recorded : recordable now req <;>
        simp [cas, legal, sent, distinct, found, token, state, guarded, recorded]

end Cas

/-! ## Agreement -/

/-- The only error the stores have in common is that of an illegal transition. -/
theorem not_agrees_error {memory : Except StoreError (Option Operation) × MemoryStore}
    {pg : PostgresStore} {e : PostgresError} (other : ∀ illegal, e ≠ .illegalTransition illegal) :
    ¬ Agrees memory (.error e, pg) := by
  rintro ⟨same, _⟩
  split at same
  · rename_i answer
    exact other _ (Except.error.inj answer)
  · rename_i answer
    cases answer
  · exact same

/-- What the two stores make alike of a legal write. -/
def CasPortable (store : MemoryStore) (now : Int) (req : CasRequest) : Prop :=
  sendable req = true ∧ ¬(req.toState.terminal = true ∧ req.renewLeaseSeconds.isSome) ∧
  ∀ row, store.ops.get? req.operationId = some row → row.fencingToken = req.fencingToken →
    row.state = req.fromState → row.state.terminal = false ∧
      (∀ txid, req.sets.txid = some (some txid) → ∀ id other, store.ops.get? id = some other →
        id ≠ req.operationId → other.txid ≠ some txid) ∧
      recordable now req = true ∧ RenewsAlike now req

/-- Where both stores write, the rows can only differ in the end of the lease. -/
theorem written_alike_iff {store : MemoryStore} {now : Int} {req : CasRequest} {row : Operation}
    (legal : OpState.canTransition req.fromState req.toState = true)
    (once : ¬(req.toState.terminal = true ∧ req.renewLeaseSeconds.isSome))
    (found : store.ops.get? req.operationId = some row)
    (token : row.fencingToken = req.fencingToken) (state : row.state = req.fromState)
    (live : row.state.terminal = false) (recorded : recordable now req = true) :
    Agrees (store.cas now req) (.ok (some (writtenRow now req row)),
      (ofMemory store).commit now req (writtenRow now req row)) ↔ RenewsAlike now req := by
  rw [MemoryStore.cas_owned legal found token state live]
  constructor
  · intro agrees
    cases within : MemoryStore.overflows now req with
    | true =>
        rw [within, if_pos rfl] at agrees
        exact agrees.1.elim
    | false =>
        rw [within, if_neg Bool.false_ne_true] at agrees
        exact RenewsAlike.of_row once within (Option.some.inj agrees.1).symm
  · intro alike
    obtain ⟨within, rows⟩ := alike.row recorded
    have key := store.keyed _ _ found
    rw [within, if_neg Bool.false_ne_true, rows]
    refine ⟨rfl, ?_⟩
    simp [commit, ofMemory, MemoryStore.commit, MemoryStore.appendEvent, MemoryStore.put, key]

/-- The two stores on a row that passes the fencing check of both. -/
theorem matched_alike_iff {store : MemoryStore} {now : Int} {req : CasRequest} {row : Operation}
    (legal : OpState.canTransition req.fromState req.toState = true) (sent : sendable req = true)
    (once : ¬(req.toState.terminal = true ∧ req.renewLeaseSeconds.isSome))
    (found : store.ops.get? req.operationId = some row)
    (token : row.fencingToken = req.fencingToken) (state : row.state = req.fromState) :
    Agrees (store.cas now req) ((ofMemory store).cas now req) ↔
      row.state.terminal = false ∧
      (∀ txid, req.sets.txid = some (some txid) → ∀ id other, store.ops.get? id = some other →
        id ≠ req.operationId → other.txid ≠ some txid) ∧
      recordable now req = true ∧ RenewsAlike now req := by
  rw [cas_matched (ofMemory store) now legal sent once found token state,
    ← txidTaken_eq_false_iff store req]
  cases ended : row.state.terminal with
  | true => exact iff_of_false (not_agrees_error (by simp)) (by simp)
  | false =>
  cases (ofMemory store).txidTaken req with
  | true => exact iff_of_false (not_agrees_error (by simp)) (by simp)
  | false =>
  cases recorded : recordable now req with
  | false => exact iff_of_false (not_agrees_error (by simp)) (by simp)
  | true =>
      simp only [Bool.false_eq_true, if_false, if_true, true_and]
      exact written_alike_iff legal once found token state ended recorded

theorem cas_alike_iff (store : MemoryStore) (now : Int) (req : CasRequest) :
    Agrees (store.cas now req) ((ofMemory store).cas now req) ↔
      (OpState.canTransition req.fromState req.toState = true → CasPortable store now req) := by
  cases legal : OpState.canTransition req.fromState req.toState with
  | false =>
      rcases store.cas_cases now req with ⟨_, same⟩ | ⟨legal', _⟩ | ⟨legal', _⟩
      · rw [same, cas_illegal _ now legal]
        exact iff_of_true ⟨rfl, rfl⟩ fun legal' => absurd legal' Bool.false_ne_true
      all_goals cases legal.symm.trans legal'
  | true =>
  rw [forall_prop_of_true rfl]
  cases sent : sendable req with
  | false =>
      rw [cas_unsendable _ now legal sent]
      refine iff_of_false (not_agrees_error (by simp)) fun fits => ?_
      cases sent.symm.trans fits.1
  | true =>
  by_cases once : ¬(req.toState.terminal = true ∧ req.renewLeaseSeconds.isSome)
  swap
  · rw [cas_rejected _ now legal sent (not_not.mp once)]
    exact iff_of_false (not_agrees_error (by simp)) fun fits => absurd fits.2.1 once
  by_cases matched : ∃ row, store.ops.get? req.operationId = some row ∧
      row.fencingToken = req.fencingToken ∧ row.state = req.fromState
  · obtain ⟨row, found, token, state⟩ := matched
    rw [matched_alike_iff legal sent once found token state]
    refine ⟨fun alike => ⟨sent, once, fun row' found' _ _ => ?_⟩, fun fits =>
      fits.2.2 row found token state⟩
    cases found.symm.trans found'
    exact alike
  · -- neither finds a row to write
    have nobody : ∀ row, store.ops.get? req.operationId = some row →
        row.fencingToken ≠ req.fencingToken ∨ row.state ≠ req.fromState := by
      intro row found
      by_contra both
      rw [not_or, not_not, not_not] at both
      exact matched ⟨row, found, both⟩
    have same : store.cas now req = (.ok none, store) := by
      rcases store.cas_cases now req with ⟨illegal, _⟩ | ⟨_, same, _⟩ |
        ⟨_, row, found, token, state, _⟩
      · cases legal.symm.trans illegal
      · exact same
      · exact absurd ⟨row, found, token, state⟩ matched
    rw [same, cas_fenced (ofMemory store) now legal sent once nobody]
    refine iff_of_true ⟨rfl, rfl⟩ ⟨sent, once, fun row found token state => ?_⟩
    exact absurd ⟨row, found, token, state⟩ matched

/-- **The stores agree on a write from a live state** exactly when it is illegal, or when it does
not both renew the lease and end the operation, every value fits its column, and, if it finds
its row, the event's values fit too and both stores give the renewed lease the same end. -/
theorem cas_agrees_iff (store : MemoryStore) (now : Int) (req : CasRequest)
    (live : req.fromState.terminal = false)
    (free : ∀ txid, req.sets.txid = some (some txid) → ∀ id row,
      store.ops.get? id = some row → id ≠ req.operationId → row.txid ≠ some txid) :
    Agrees (store.cas now req) ((ofMemory store).cas now req) ↔
      (OpState.canTransition req.fromState req.toState = true →
        sendable req = true ∧ ¬(req.toState.terminal = true ∧ req.renewLeaseSeconds.isSome) ∧
        ((∃ row, store.ops.get? req.operationId = some row ∧ row.fencingToken = req.fencingToken ∧
          row.state = req.fromState) → recordable now req = true ∧ RenewsAlike now req)) := by
  rw [cas_alike_iff]
  refine forall_congr' fun _ => and_congr_right fun _ => and_congr_right fun _ => ?_
  constructor
  · rintro fits ⟨row, found, token, state⟩
    exact (fits row found token state).2.2
  · intro fits row found token state
    exact ⟨state ▸ live, free, fits ⟨row, found, token, state⟩⟩

/-- A table with one accepted payment, claimed under token 1. -/
def onePayment : MemoryStore := MemoryStore.empty.put {
  operationId := 1
  requestHash := []
  state := .broadcast
  toAddress := "TR7NHqjeKQxGTCi8q8ZY4pL8otSzgjLj6t"
  asset := "USDT-TRC20"
  amountUnits := 1
  claimedBy := some "w1"
  leaseExpiresAt := some 30
  fencingToken := 1 }

/-- The confirmation of that payment, with or without a renewed lease. -/
def confirmation (renewLeaseSeconds : Option Seconds) : CasRequest where
  operationId := 1
  fencingToken := 1
  fromState := .broadcast
  toState := .confirmed
  sets := { includedBlock := some (some 1001), confirmedAt := some (some 5) }
  renewLeaseSeconds := renewLeaseSeconds
  workerId := some "w1"

/-- Without a renewal both stores confirm the payment. -/
theorem confirm_agrees_unrenewed :
    Agrees (onePayment.cas 5 (confirmation none))
      ((ofMemory onePayment).cas 5 (confirmation none)) :=
  (cas_agrees_iff onePayment 5 (confirmation none) (by decide)
    (fun _ written => by cases written)).mpr fun _ =>
      ⟨by decide +kernel, by decide,
        fun _ => ⟨by decide +kernel, fun _ renewal => by cases renewal⟩⟩

/-- With the renewal the pipeline always asks for, the memory store confirms the payment
and the database rejects the statement. -/
theorem confirm_disagrees :
    ((onePayment.cas 5 (confirmation (some (.finite 30 0)))).1.toOption.bind
      fun row => row.map (·.state)) = some .confirmed ∧
    ((ofMemory onePayment).cas 5 (confirmation (some (.finite 30 0)))).1 = .error .duplicateColumn ∧
    ¬Agrees (onePayment.cas 5 (confirmation (some (.finite 30 0))))
      ((ofMemory onePayment).cas 5 (confirmation (some (.finite 30 0)))) := by
  have rejected : (ofMemory onePayment).cas 5 (confirmation (some (.finite 30 0))) =
      (.error .duplicateColumn, ofMemory onePayment) :=
    cas_rejected _ 5 (by decide) (by decide +kernel) (by decide)
  rw [rejected]
  exact ⟨by decide +kernel, rfl, not_agrees_error (by simp)⟩

end Sluice.Kernel.PostgresStore
