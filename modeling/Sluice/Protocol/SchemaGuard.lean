/-
# Protocol.SchemaGuard -- what the database holds to, whoever is connected

`001_schema.sql` promises a few things "before any application code runs".  They are proved
here of every sequence of store calls and hand-written transactions, in any mixture:

* one row per operation id, amounts positive and within the type, no transaction id on two
  rows, no event without its operation;
* a row with an event in its name stays, moves along the transition table only, and never
  changes again in any column once it is terminal.

The store is not treated apart: each of its calls is a transaction (`perform_transaction`).
-/
import Mathlib.Logic.Relation
import Sluice.Kernel.Schema
import Sluice.Protocol.ClaimAgreement
import Sluice.Protocol.StoreAgreement

namespace Sluice.Kernel.PostgresStore

open Sluice.Theory
open MemoryStore (claimRow releaseRow)

set_option autoImplicit false

/-! ## The trigger -/

/-- `b` may be entered from `a`. -/
def Enters (a b : OpState) : Prop := b ∈ a.transitions

/-- A later version of a row, as the trigger sees to it. -/
structure Guarded (old row : Operation) : Prop where
  path : Relation.ReflTransGen Enters old.state row.state
  frozen : old.state.terminal = true → row = old

theorem Guarded.refl (row : Operation) : Guarded row row := ⟨.refl, fun _ => rfl⟩

theorem Guarded.trans (a b c : Operation) (early : Guarded a b) (late : Guarded b c) :
    Guarded a c := by
  refine ⟨early.path.trans late.path, fun ended => ?_⟩
  have same := early.frozen ended
  subst same
  exact late.frozen ended

/-- The pairs of the trigger are in the transition table. -/
theorem enters_of_mem_guardPairs {src dst : OpState} (listed : (src, dst) ∈ guardPairs) :
    Enters src dst := by
  revert listed
  unfold Enters
  cases src <;> cases dst <;> decide

/-- Everything the trigger lets through. -/
theorem opTransitionGuard_inv {now : Int} {old new row : Operation}
    (passed : opTransitionGuard now old new = .ok row) :
    old.state.terminal = false ∧ (new.state = old.state ∨ Enters old.state new.state) ∧
      row = { new with updatedAt := some now } := by
  unfold opTransitionGuard at passed
  split at passed
  · cases passed
  rename_i running
  split at passed
  · cases passed
  rename_i legal
  cases passed
  refine ⟨?_, ?_, rfl⟩
  · revert running
    cases old.state <;> decide
  · by_cases same : new.state = old.state
    · exact .inl same
    · exact .inr (enters_of_mem_guardPairs (by_contra fun outside => legal ⟨same, outside⟩))

theorem trigger_eq_some {now : Int} {old new row : Operation} :
    (schema now).trigger old new = some row ↔ opTransitionGuard now old new = .ok row := by
  simp only [schema]
  cases opTransitionGuard now old new <;> simp [Except.toOption]

theorem trigger_guarded {now : Int} {old new row : Operation}
    (passed : (schema now).trigger old new = some row) : Guarded old row := by
  obtain ⟨running, moves, rfl⟩ := opTransitionGuard_inv (trigger_eq_some.mp passed)
  refine ⟨?_, fun ended => by rw [running] at ended; cases ended⟩
  rcases moves with same | enters
  · rw [show ({ new with updatedAt := some now } : Operation).state = old.state from same]
  · exact .single enters

/-! ## Statements -/

/-- What the constraints promise of both tables. -/
structure Sound (pg : PostgresStore) : Prop where
  table : ∀ now, (schema now).Holds pg.operations
  referenced : ∀ e ∈ pg.operationEvents, ∃ row, pg.operations.get? e.operationId = some row

/-- The constraints do not depend on the instant. -/
theorem holds_anytime {now : Int} {table : Dict UUID Operation} (holds : (schema now).Holds table)
    (now' : Int) : (schema now').Holds table :=
  ⟨holds.keyed, holds.checked, holds.unique⟩

/-- Nothing is taken back: events stay, and so do rows with an event, as guarded. -/
structure Keeps (pg pg' : PostgresStore) : Prop where
  events : pg.operationEvents <+: pg'.operationEvents
  rows : ∀ id row, pg.operations.get? id = some row →
    (∃ e ∈ pg.operationEvents, e.operationId = id) →
    ∃ row', pg'.operations.get? id = some row' ∧ Guarded row row'

theorem Keeps.refl (pg : PostgresStore) : Keeps pg pg :=
  ⟨List.prefix_rfl, fun _ row found _ => ⟨row, found, .refl row⟩⟩

theorem Keeps.trans {first second third : PostgresStore} (early : Keeps first second)
    (late : Keeps second third) : Keeps first third := by
  refine ⟨early.events.trans late.events, fun id row found noted => ?_⟩
  obtain ⟨middle, found', way⟩ := early.rows id row found noted
  obtain ⟨e, member, own⟩ := noted
  obtain ⟨last, found'', way'⟩ := late.rows id middle found' ⟨e, early.events.subset member, own⟩
  exact ⟨last, found'', .trans _ _ _ way way'⟩

section Statements

variable {now : Int} {pg pg' : PostgresStore}

theorem Sound.empty : Sound empty := ⟨fun _ => .empty, fun _ member => by cases member⟩

theorem get?_foldl_erase (table : Dict UUID Operation) (visits : List UUID) {id : UUID}
    (kept : id ∉ visits) : (visits.foldl Dict.erase table).get? id = table.get? id := by
  induction visits generalizing table with
  | nil => rfl
  | cons visit visits ih =>
      rw [List.mem_cons, not_or] at kept
      rw [List.foldl_cons, ih _ kept.2, Dict.get?_erase, if_neg kept.1]

theorem holds_foldl_erase {table : Dict UUID Operation} (visits : List UUID)
    (holds : (schema now).Holds table) : (schema now).Holds (visits.foldl Dict.erase table) := by
  induction visits generalizing table with
  | nil => exact holds
  | cons visit visits ih => exact ih (holds.erase visit)

/-- One statement, whatever it is. -/
theorem execute_keeps {statement : Statement} (sound : Sound pg)
    (done : pg.execute now statement = some pg') : Sound pg' ∧ Keeps pg pg' := by
  cases statement with
  | insertOperation row =>
      obtain ⟨table, inserted, rfl⟩ := Option.map_eq_some_iff.mp done
      obtain ⟨absent, _, same⟩ := TableRules.insert_cases inserted
      have kept : ∀ id old, pg.operations.get? id = some old → table.get? id = some old := by
        intro id old found
        rw [same, Dict.get?_set_of_ne _ _ (by rintro rfl; rw [absent] at found; cases found)]
        exact found
      refine ⟨⟨fun _ => holds_anytime ((sound.table now).insert inserted) _, fun e member => ?_⟩,
        List.prefix_rfl, fun id old found _ => ⟨old, kept id old found, .refl old⟩⟩
      obtain ⟨old, found⟩ := sound.referenced e member
      exact ⟨old, kept _ old found⟩
  | updateOperations visits assign keeps =>
      obtain ⟨table, updated, rfl⟩ := Option.map_eq_some_iff.mp done
      have rows : ∀ id old, pg.operations.get? id = some old →
          ∃ row, table.get? id = some row ∧ Guarded old row :=
        fun id old found => TableRules.update_row Guarded.refl Guarded.trans
          (fun _ _ _ passed => trigger_guarded passed) updated found
      refine ⟨⟨fun _ => holds_anytime ((sound.table now).update updated) _, fun e member => ?_⟩,
        List.prefix_rfl, fun id old found _ => rows id old found⟩
      obtain ⟨old, found⟩ := sound.referenced e member
      obtain ⟨row, found', _⟩ := rows _ old found
      exact ⟨row, found'⟩
  | deleteOperations visits =>
      simp only [execute] at done
      split at done
      · cases done
      · rename_i unreferenced
        cases done
        have kept : ∀ e ∈ pg.operationEvents, e.operationId ∉ visits := by
          intro e member visited
          exact unreferenced (List.any_eq_true.mpr ⟨e, member, by simpa using visited⟩)
        refine ⟨⟨fun now => holds_foldl_erase visits (sound.table now), fun e member => ?_⟩,
          List.prefix_rfl, ?_⟩
        · rw [get?_foldl_erase _ _ (kept e member)]
          exact sound.referenced e member
        · rintro id row found ⟨e, member, rfl⟩
          exact ⟨row, (get?_foldl_erase _ _ (kept e member)).trans found, .refl row⟩
  | insertEvent event =>
      simp only [execute] at done
      split at done
      · cases done
      · rename_i present
        cases done
        refine ⟨⟨sound.table, fun e member => ?_⟩, List.prefix_append _ _,
          fun id row found _ => ⟨row, found, .refl row⟩⟩
        rcases List.mem_append.mp member with old | new
        · exact sound.referenced e old
        · rw [List.mem_singleton.mp new]
          exact Option.ne_none_iff_exists'.mp (by simpa using present)

theorem transaction_keeps {statements : List Statement} (sound : Sound pg)
    (done : pg.transaction now statements = some pg') : Sound pg' ∧ Keeps pg pg' := by
  unfold transaction at done
  induction statements generalizing pg with
  | nil =>
      cases done
      exact ⟨sound, .refl _⟩
  | cons statement statements ih =>
      rw [List.foldlM_cons] at done
      obtain ⟨middle, first, rest⟩ := Option.bind_eq_some_iff.mp done
      obtain ⟨sound', kept⟩ := execute_keeps sound first
      obtain ⟨sound'', kept'⟩ := ih sound' rest
      exact ⟨sound'', kept.trans kept'⟩

end Statements

/-! ## The store's calls are transactions -/

section Calls

variable {now : Int} {pg : PostgresStore}

/-- Everything `cas` can do to the tables. -/
theorem cas_cases (pg : PostgresStore) (now : Int) (req : CasRequest) :
    (∃ answer, pg.cas now req = (answer, pg) ∧ ∀ row, answer ≠ .ok (some row)) ∨
    ∃ old, OpState.canTransition req.fromState req.toState = true ∧
      ¬(req.toState.terminal = true ∧ req.renewLeaseSeconds.isSome) ∧
      pg.operations.get? req.operationId = some old ∧ old.fencingToken = req.fencingToken ∧
      old.state = req.fromState ∧ old.state.terminal = false ∧ pg.txidTaken req = false ∧
      pg.cas now req =
        (.ok (some (writtenRow now req old)), pg.commit now req (writtenRow now req old)) := by
  cases legal : OpState.canTransition req.fromState req.toState with
  | false => exact .inl ⟨_, cas_illegal pg now legal, by simp⟩
  | true =>
  cases sent : sendable req with
  | false => exact .inl ⟨_, cas_unsendable pg now legal sent, by simp⟩
  | true =>
  by_cases once : ¬(req.toState.terminal = true ∧ req.renewLeaseSeconds.isSome)
  swap
  · exact .inl ⟨_, cas_rejected pg now legal sent (not_not.mp once), by simp⟩
  by_cases matched : ∃ old, pg.operations.get? req.operationId = some old ∧
      old.fencingToken = req.fencingToken ∧ old.state = req.fromState
  swap
  · refine .inl ⟨_, cas_fenced pg now legal sent once fun row found => ?_, by simp⟩
    by_contra both
    rw [not_or, not_not, not_not] at both
    exact matched ⟨row, found, both⟩
  obtain ⟨old, found, token, state⟩ := matched
  have same := cas_matched pg now legal sent once found token state
  cases ended : old.state.terminal with
  | true => exact .inl ⟨_, same.trans (if_pos ended), by simp⟩
  | false =>
  rw [if_neg (by rw [ended]; exact Bool.false_ne_true)] at same
  cases taken : pg.txidTaken req with
  | true => exact .inl ⟨_, same.trans (if_pos taken), by simp⟩
  | false =>
  rw [if_neg (by rw [taken]; exact Bool.false_ne_true)] at same
  cases recorded : recordable now req with
  | false =>
      exact .inl ⟨_, same.trans (if_neg (by rw [recorded]; exact Bool.false_ne_true)), by simp⟩
  | true =>
      exact .inr ⟨old, rfl, once, found, token, state, ended, rfl, same.trans (if_pos recorded)⟩

theorem check_congr {row old : Operation} (same : row.amountUnits = old.amountUnits) :
    (schema now).check row = (schema now).check old := by
  simp only [schema, same]

/-- The test `cas` makes is the one the index makes. -/
theorem writtenRow_not_taken (holds : (schema now).Holds pg.operations) {req : CasRequest}
    {old : Operation} (found : pg.operations.get? req.operationId = some old)
    (free : pg.txidTaken req = false) :
    (schema now).taken pg.operations req.operationId (writtenRow now req old) = false := by
  have column : (schema now).unique (writtenRow now req old) = req.sets.txid.getD old.txid := by
    rw [writtenRow_eq]
    rfl
  cases written : req.sets.txid with
  | none => exact holds.not_taken found (column.trans (by rw [written]; rfl))
  | some txid =>
      rw [written, Option.getD_some] at column
      rw [← Bool.not_eq_true, TableRules.taken_iff]
      rintro ⟨value, other, row, indexed, apart, found', indexed'⟩
      rw [column] at indexed
      subst indexed
      simp only [txidTaken, written] at free
      have clear := List.any_eq_false.mp free (other, row) ((Dict.get?_eq_some_iff _ _ _).mp found')
      exact clear (by simp [apart, show row.txid = some value from indexed'])

/-- A committed write is one UPDATE and one INSERT. -/
theorem cas_transaction (sound : Sound pg) (req : CasRequest) :
    ∃ statements, pg.transaction now statements = some (pg.cas now req).2 := by
  rcases pg.cas_cases now req with ⟨_, same, _⟩ |
    ⟨old, legal, _, found, _, state, live, free, same⟩
  · exact ⟨[], by rw [same]; rfl⟩
  have holds := sound.table now
  have key : old.operationId = req.operationId := holds.keyed _ _ found
  have passed : opTransitionGuard now old ((setList now req).foldl Clause.assign old) =
      .ok (writtenRow now req old) := by
    rw [opTransitionGuard_ok live (by rw [setList_state, state]; exact legal)]
    rfl
  have admitted :
      (schema now).admits pg.operations req.operationId (writtenRow now req old) = true :=
    TableRules.admits_iff.mpr ⟨(writtenRow_operationId now req old).trans key,
      (check_congr (by rw [writtenRow_eq]; rfl)).trans (holds.checked _ _ found),
      writtenRow_not_taken holds found free⟩
  refine ⟨[.updateOperations [req.operationId]
      (fun row => (setList now req).foldl Clause.assign row) (setList_operationId now req),
    .insertEvent ⟨req.operationId, some req.fromState, req.toState, req.workerId, req.fencingToken,
      req.detail, now, 0⟩], ?_⟩
  have visited : (schema now).updateRow (fun row => (setList now req).foldl Clause.assign row)
      pg.operations req.operationId =
        some (pg.operations.set req.operationId (writtenRow now req old)) :=
    TableRules.updateRow_eq found (trigger_eq_some.mpr passed) admitted
  rw [same]
  simp [transaction, execute, TableRules.update, visited, commit]

/-- A picked row is a row of the table, in a wanted state, and nobody's. -/
theorem mem_pickedSkipping (keyed : ∀ id row, pg.operations.get? id = some row →
    row.operationId = id) {locked : List UUID} {states : List OpState} {limit : Nat}
    {row : Operation} (member : row ∈ pg.pickedSkipping now locked states limit) :
    pg.operations.get? row.operationId = some row ∧ row.state ∈ states ∧
      unclaimed now row = true ∧ row.operationId ∉ locked := by
  have listed := (List.mem_insertionSort _).mp (List.mem_of_mem_take member)
  obtain ⟨present, wanted⟩ := List.mem_filter.mp listed
  obtain ⟨id, found⟩ := (Dict.mem_values_iff _ _).mp present
  simp only [Bool.and_eq_true, decide_eq_true_eq] at wanted
  rw [keyed id row found]
  exact ⟨found, wanted.1.1, wanted.1.2, keyed id row found ▸ wanted.2⟩

theorem pickedSkipping_ids_nodup (keyed : ∀ id row, pg.operations.get? id = some row →
    row.operationId = id) (locked : List UUID) (states : List OpState) (limit : Nat) :
    ((pg.pickedSkipping now locked states limit).map (·.operationId)).Nodup := by
  have ids : pg.operations.values.map (·.operationId) = pg.operations.keys := by
    rw [Dict.values, Dict.keys, List.map_map]
    refine List.map_congr_left fun entry member => ?_
    exact keyed entry.1 entry.2 ((Dict.get?_eq_some_iff _ _ _).mpr member)
  have whole : (pg.operations.values.map (·.operationId)).Nodup := ids ▸ pg.operations.nodup
  refine List.Nodup.sublist ((List.take_sublist _ _).map _) ?_
  refine ((List.perm_insertionSort _ _).map _).nodup_iff.mpr ?_
  exact whole.sublist (List.filter_sublist.map _)

/-- Everything a claim can do to the tables. -/
theorem claimSkipping_cases (pg : PostgresStore) (now : Int) (locked : List UUID)
    (states : List OpState) (limit : Nat) (worker : String) (lease : Seconds) :
    (∃ e, pg.claimSkipping now locked states limit worker lease = (.error e, pg)) ∨
    ∃ expiry, (∀ row ∈ pg.pickedSkipping now locked states limit, row.state.terminal = false) ∧
      pg.claimSkipping now locked states limit worker lease =
        (.ok ((pg.pickedSkipping now locked states limit).map (claimRow now worker expiry)),
          { pg with operations := pg.operations.mapValues fun id row =>
            (((pg.pickedSkipping now locked states limit).map (claimRow now worker expiry)).find?
              fun op => op.operationId = id).getD row }) := by
  unfold claimSkipping
  split
  · exact .inl ⟨_, rfl⟩
  · split
    · exact .inl ⟨_, rfl⟩
    · rename_i rows passed
      obtain ⟨fits, rfl⟩ := mapM_takeOver_iff.mp passed
      exact .inr ⟨_, fun row member => (fits row member).1, rfl⟩

theorem claim_transaction (sound : Sound pg) (locked : List UUID) (states : List OpState)
    (limit : Nat) (worker : String) (lease : Seconds) : ∃ statements,
      pg.transaction now statements =
        some (pg.claimSkipping now locked states limit worker lease).2 := by
  have holds := sound.table now
  rcases pg.claimSkipping_cases now locked states limit worker lease with
    ⟨e, same⟩ | ⟨expiry, live, same⟩
  · exact ⟨[], by rw [same]; rfl⟩
  let assign (old : Operation) : Operation := { old with
    claimedBy := some worker
    leaseExpiresAt := some expiry
    fencingToken := old.fencingToken + 1 }
  have updated : (schema now).update assign pg.operations
      ((pg.pickedSkipping now locked states limit).map (·.operationId)) = _ :=
    TableRules.update_eq (claimRow now worker expiry) _ pg.operations holds
      (pickedSkipping_ids_nodup holds.keyed locked states limit) fun old member => by
        obtain ⟨found, _⟩ := mem_pickedSkipping holds.keyed member
        refine ⟨found, trigger_eq_some.mpr ?_, rfl, ?_, rfl⟩
        · rw [opTransitionGuard_ok (live old member) (by simp [assign, OpState.canTransition])]
          rfl
        · exact (check_congr (by rfl)).trans (holds.checked _ _ found)
  refine ⟨[.updateOperations ((pg.pickedSkipping now locked states limit).map (·.operationId))
    assign fun _ => rfl], ?_⟩
  rw [same]
  simp only [transaction, List.foldlM_cons, List.foldlM_nil, execute, updated]
  rfl

/-- A release touches a live row under its token, or nothing. -/
theorem release_cases (pg : PostgresStore) (now : Int) (id : UUID) (token : Nat) :
    pg.release now id token = (.ok (), pg) ∨
    ∃ old, pg.operations.get? id = some old ∧ old.fencingToken = token ∧
      old.state.terminal = false ∧ pg.release now id token =
        (.ok (), { pg with operations := pg.operations.set id (releaseRow now old) }) := by
  unfold release
  split
  · exact .inl rfl
  rename_i old found
  split
  · exact .inl rfl
  rename_i owned
  rw [not_or, not_not] at owned
  have live : old.state.terminal = false := by
    have := owned.2
    revert this
    cases old.state <;> decide
  rw [opTransitionGuard_ok live (by simp [OpState.canTransition])]
  exact .inr ⟨old, found, owned.1, live, rfl⟩

theorem release_transaction (sound : Sound pg) (id : UUID) (token : Nat) :
    ∃ statements, pg.transaction now statements = some (pg.release now id token).2 := by
  rcases pg.release_cases now id token with same | ⟨old, found, _, live, same⟩
  · exact ⟨[], by rw [same]; rfl⟩
  have holds := sound.table now
  have admitted : (schema now).admits pg.operations id (releaseRow now old) = true :=
    TableRules.admits_iff.mpr ⟨(holds.keyed id old found : old.operationId = id),
      (check_congr rfl).trans (holds.checked id old found), holds.not_taken found rfl⟩
  have visited : (schema now).updateRow (fun old => { old with
      claimedBy := none, leaseExpiresAt := none }) pg.operations id =
        some (pg.operations.set id (releaseRow now old)) :=
    TableRules.updateRow_eq found
      (trigger_eq_some.mpr (opTransitionGuard_ok live (by simp [OpState.canTransition]))) admitted
  refine ⟨[.updateOperations [id] (fun old => { old with
    claimedBy := none, leaseExpiresAt := none }) fun _ => rfl], ?_⟩
  rw [same]
  simp [transaction, execute, TableRules.update, visited]

/-- A new row is stored if its amount fits and its id is new. -/
theorem insertNew_cases (pg : PostgresStore) (now : Int) (op : Operation) :
    (∃ answer, pg.insertNew now op = (answer, pg) ∧ ∀ row, answer ≠ .ok (row, true)) ∨
    (0 < op.amountUnits ∧ op.amountUnits.natAbs < 10 ^ 38 ∧
      pg.operations.get? op.operationId = none ∧
      pg.insertNew now op = (.ok (insertedRow now op, true), pg.intake now op)) := by
  unfold insertNew
  split
  · exact .inl ⟨_, rfl, by simp⟩
  split
  · exact .inl ⟨_, rfl, by simp⟩
  rename_i fits
  split
  · exact .inl ⟨_, rfl, by simp⟩
  rename_i positive
  split
  · exact .inl ⟨_, rfl, by simp⟩
  · rename_i absent
    exact .inr ⟨not_le.mp positive, not_le.mp fits, absent, rfl⟩

theorem insertNew_transaction (op : Operation) :
    ∃ statements, pg.transaction now statements = some (pg.insertNew now op).2 := by
  rcases pg.insertNew_cases now op with ⟨_, same, _⟩ | ⟨positive, fits, absent, same⟩
  · exact ⟨[], by rw [same]; rfl⟩
  have checked : (schema now).check (insertedRow now op) = true := by
    simp only [schema, insertedRow, Bool.and_eq_true, decide_eq_true_eq]
    exact ⟨positive, fits⟩
  have inserted : (schema now).insert pg.operations (insertedRow now op) =
      some (pg.operations.set op.operationId (insertedRow now op)) :=
    TableRules.insert_eq absent (TableRules.admits_iff.mpr ⟨rfl, checked, rfl⟩)
  refine ⟨[.insertOperation (insertedRow now op), .insertEvent ⟨op.operationId, none, op.state,
    none, 0, { intake := some true }, now, 0⟩], ?_⟩
  rw [same]
  simp [transaction, execute, inserted, intake]

/-- **Calls are transactions.**  What a call of the store does to the tables, some transaction
does. -/
theorem perform_transaction (sound : Sound pg) (call : PostgresCall) :
    ∃ statements, pg.transaction now statements = some (pg.perform now call) := by
  cases call with
  | insertNew op => exact insertNew_transaction op
  | claim locked states limit worker lease =>
      exact claim_transaction sound locked states limit worker lease
  | cas req => exact cas_transaction sound req
  | release id token => exact release_transaction sound id token

end Calls

/-! ## Sessions -/

theorem run_keeps {pg : PostgresStore} (sound : Sound pg) (now : Int) (session : Session) :
    Sound (session.run pg now) ∧ Keeps pg (session.run pg now) := by
  cases session with
  | call made =>
      obtain ⟨statements, done⟩ := perform_transaction sound made
      exact transaction_keeps sound done
  | sql statements =>
      simp only [Session.run]
      cases done : pg.transaction now statements with
      | none => exact ⟨sound, .refl pg⟩
      | some pg' => exact transaction_keeps sound done

theorem runAll_keeps {pg : PostgresStore} (sound : Sound pg) (sessions : List (Int × Session)) :
    Sound (pg.runAll sessions) ∧ Keeps pg (pg.runAll sessions) := by
  unfold runAll
  induction sessions generalizing pg with
  | nil => exact ⟨sound, .refl pg⟩
  | cons session sessions ih =>
      obtain ⟨sound', kept⟩ := run_keeps sound session.1 session.2
      obtain ⟨sound'', kept'⟩ := ih sound'
      exact ⟨sound'', kept.trans kept'⟩

/-- **The schema guards itself.**  After any sequence of store calls and hand-written
transactions the constraints hold: one row per id, a positive amount of at most 38 digits, no
transaction id on two rows, no event without its operation.  And from any moment of such a
sequence on, no event is lost, and a row that has an event stays: its state follows the
transition table, and if it was terminal then no column of it has changed. -/
theorem schema_guards (before after : List (Int × Session)) :
    let early := empty.runAll before
    let late := early.runAll after
    (∀ id row, late.get id = some row →
      row.operationId = id ∧ 0 < row.amountUnits ∧ row.amountUnits < 10 ^ 38) ∧
    (∀ id id' row row' txid, late.get id = some row → late.get id' = some row' →
      row.txid = some txid → row'.txid = some txid → id = id') ∧
    (∀ e ∈ late.operationEvents, ∃ row, late.get e.operationId = some row) ∧
    early.operationEvents <+: late.operationEvents ∧
    ∀ id row, early.get id = some row → (∃ e ∈ early.operationEvents, e.operationId = id) →
      ∃ row', late.get id = some row' ∧
        Relation.ReflTransGen (fun a b => b ∈ OpState.transitions a) row.state row'.state ∧
        (row.state.terminal = true → row' = row) := by
  intro early late
  obtain ⟨sound, _⟩ := runAll_keeps Sound.empty before
  obtain ⟨sound', kept⟩ := runAll_keeps sound after
  have holds := sound'.table 0
  refine ⟨fun id row found => ?_, holds.unique, sound'.referenced, kept.events,
    fun id row found noted => ?_⟩
  · have checked := holds.checked id row found
    simp only [schema, Bool.and_eq_true, decide_eq_true_eq] at checked
    exact ⟨holds.keyed id row found, checked.1, by omega⟩
  · obtain ⟨row', found', guarded⟩ := kept.rows id row found noted
    exact ⟨row', found', guarded.path, guarded.frozen⟩

end Sluice.Kernel.PostgresStore
