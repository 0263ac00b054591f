/-
# Protocol.PostgresFencing -- one writer and one history, in the database

What `Fencing` proves of the memory store, for the database store, whose claims may pass over
rows that others have locked.  Each call has one of three effects (`Effect`): it touches rows
without an event (claims, releases), takes in a row with its first event, or commits a write
with its event.  `LogOk` is kept by these three and needs nothing else of the store.
-/
import Sluice.Protocol.Fencing
import Sluice.Protocol.SchemaGuard

namespace Sluice.Kernel.PostgresStore

open Sluice.Theory
open MemoryStore (History claimRow releaseRow identity)

set_option autoImplicit false

/-- A version of a row that needs no event. -/
structure Touched (row row' : Operation) : Prop where
  state : row'.state = row.state
  token : row.fencingToken ≤ row'.fencingToken
  identity : identity row' = identity row

theorem Touched.refl (row : Operation) : Touched row row := ⟨rfl, le_refl _, rfl⟩

/-- Rows may be touched; the log is as it was. -/
structure Touches (pg pg' : PostgresStore) : Prop where
  events : pg'.operationEvents = pg.operationEvents
  next : pg'.nextEventId = pg.nextEventId
  absent : ∀ id, pg.operations.get? id = none → pg'.operations.get? id = none
  present : ∀ id row, pg.operations.get? id = some row →
    ∃ row', pg'.operations.get? id = some row' ∧ Touched row row'

/-- What one call may do to the tables at instant `now`. -/
inductive Effect (now : Int) (pg : PostgresStore) : PostgresStore → Prop
  | touch (pg' : PostgresStore) (touches : Touches pg pg') : Effect now pg pg'
  | intake (op : Operation) (requested : op.state = .requested)
      (absent : pg.operations.get? op.operationId = none) : Effect now pg (pg.intake now op)
  | commit (req : CasRequest) (row : Operation)
      (legal : OpState.canTransition req.fromState req.toState = true)
      (found : pg.operations.get? req.operationId = some row)
      (token : row.fencingToken = req.fencingToken) (state : row.state = req.fromState) :
      Effect now pg (pg.commit now req (writtenRow now req row))

section Touching

variable {now : Int} {pg pg' : PostgresStore}

theorem Touches.refl (pg : PostgresStore) : Touches pg pg :=
  ⟨rfl, rfl, fun _ none_ => none_, fun _ row found => ⟨row, found, .refl row⟩⟩

/-- A row after a touch was there before it. -/
theorem Touches.before (touches : Touches pg pg') {id : UUID} {row' : Operation}
    (found' : pg'.operations.get? id = some row') :
    ∃ row, pg.operations.get? id = some row ∧ Touched row row' := by
  cases found : pg.operations.get? id with
  | none =>
      rw [touches.absent id found] at found'
      cases found'
  | some row =>
      obtain ⟨row'', found'', touched⟩ := touches.present id row found
      rw [found'] at found''
      cases found''
      exact ⟨row, rfl, touched⟩

theorem claim_touches (keyed : ∀ id row, pg.operations.get? id = some row → row.operationId = id)
    (locked : List UUID) (states : List OpState) (limit : Nat) (worker : String)
    (lease : Seconds) : Touches pg (pg.claimSkipping now locked states limit worker lease).2 := by
  rcases pg.claimSkipping_cases now locked states limit worker lease with
    ⟨e, same⟩ | ⟨expiry, _, same⟩
  · rw [same]
    exact .refl pg
  rw [same]
  refine ⟨rfl, rfl, fun id none_ => by simp [none_], fun id row found => ?_⟩
  rw [Dict.get?_mapValues, found, Option.map_some]
  refine ⟨_, rfl, ?_⟩
  cases search : ((pg.pickedSkipping now locked states limit).map
      (claimRow now worker expiry)).find? fun op => op.operationId = id with
  | none => exact .refl row
  | some op =>
      -- the claimed row is this one, with the next token
      obtain ⟨old, picked, rfl⟩ := List.mem_map.mp (List.mem_of_find?_eq_some search)
      have named := List.find?_some search
      have own : old.operationId = id := of_decide_eq_true named
      have here := (mem_pickedSkipping keyed picked).1
      rw [own, found] at here
      cases here
      exact ⟨rfl, Nat.le_succ _, rfl⟩

theorem release_touches (id : UUID) (token : Nat) : Touches pg (pg.release now id token).2 := by
  rcases pg.release_cases now id token with same | ⟨old, found, _, _, same⟩
  · rw [same]
    exact .refl pg
  rw [same]
  refine ⟨rfl, rfl, fun id' none_ => ?_, fun id' row found' => ?_⟩
  · refine (Dict.get?_set_of_ne _ _ ?_).trans none_
    rintro rfl
    rw [found] at none_
    cases none_
  · rw [Dict.get?_set]
    split
    · rename_i same
      rw [same, found] at found'
      cases found'
      exact ⟨_, rfl, rfl, le_refl _, rfl⟩
    · exact ⟨row, found', .refl row⟩

/-- A new row is in its first state. -/
def PostgresCall.Opens : PostgresCall → Prop
  | .insertNew op => op.state = .requested
  | .claim .. | .cas _ | .release .. => True

theorem perform_effect (sound : Sound pg) (now : Int) {call : PostgresCall}
    (opens : call.Opens) : Effect now pg (pg.perform now call) := by
  cases call with
  | insertNew op =>
      simp only [perform]
      rcases pg.insertNew_cases now op with ⟨_, same, _⟩ | ⟨_, _, absent, same⟩
      · rw [same]
        exact .touch pg (.refl pg)
      · rw [same]
        exact .intake op opens absent
  | claim locked states limit worker lease =>
      exact .touch _ (claim_touches (sound.table now).keyed locked states limit worker lease)
  | cas req =>
      simp only [perform]
      rcases pg.cas_cases now req with ⟨_, same, _⟩ |
        ⟨old, legal, _, found, token, state, _, _, same⟩
      · rw [same]
        exact .touch pg (.refl pg)
      · rw [same]
        exact .commit req old legal found token state
  | release id token => exact .touch _ (release_touches id token)

end Touching

/-! ## Growth -/

/-- Rows stay, keep their identity and never lose token. -/
def Grows (pg pg' : PostgresStore) : Prop :=
  ∀ id row, pg.operations.get? id = some row → ∃ row', pg'.operations.get? id = some row' ∧
    row.fencingToken ≤ row'.fencingToken ∧ identity row' = identity row

section Effects

variable {now : Int} {pg pg' : PostgresStore}

theorem Effect.grows (effect : Effect now pg pg') : Grows pg pg' := by
  intro id row found
  cases effect with
  | touch pg' touches =>
      obtain ⟨row', found', touched⟩ := touches.present id row found
      exact ⟨row', found', touched.token, touched.identity⟩
  | intake op requested absent =>
      refine ⟨row, (Dict.get?_set_of_ne _ _ ?_).trans found, le_refl _, rfl⟩
      rintro rfl
      rw [absent] at found
      cases found
  | commit req old legal present token state =>
      simp only [PostgresStore.commit, Dict.get?_set]
      split
      · rename_i same
        rw [same, present] at found
        cases found
        exact ⟨_, rfl, (writtenRow_fencingToken _ _ _).ge, writtenRow_identity _ _ _⟩
      · exact ⟨row, found, le_refl _, rfl⟩

/-! ## The log -/

/-- The events of one operation, as they were appended. -/
def logOf (pg : PostgresStore) (id : UUID) : List Event :=
  pg.operationEvents.filter fun e => e.operationId = id

structure LogOk (pg : PostgresStore) : Prop where
  ordered : pg.operationEvents.Pairwise fun a b => a.seq < b.seq
  fresh : ∀ e ∈ pg.operationEvents, e.seq < pg.nextEventId
  absent : ∀ id, pg.operations.get? id = none → pg.logOf id = []
  present : ∀ id row, pg.operations.get? id = some row → History (pg.logOf id) row

/-- `ORDER BY event_id` is the order of appending. -/
theorem LogOk.events_eq (ok : LogOk pg) (id : UUID) : pg.events id = pg.logOf id := by
  refine List.Pairwise.insertionSort_eq ?_
  exact (ok.ordered.imp fun {a b} earlier => Nat.le_of_lt earlier).sublist List.filter_sublist

/-- A row and its log after one event of operation `key`. -/
theorem LogOk.append (ok : LogOk pg) {key : UUID} {row' : Operation} {e : Event}
    (own : e.operationId = key) (seq : e.seq = pg.nextEventId)
    (history : History (pg.logOf key ++ [e]) row') :
    LogOk ⟨pg.operations.set key row', pg.operationEvents ++ [e], pg.nextEventId + 1⟩ := by
  obtain ⟨ordered, fresh⟩ := numbered_append ok.ordered ok.fresh seq
  obtain ⟨absent, present⟩ := MemoryStore.histories_append ok.absent ok.present own
    (fun id => Dict.get?_set pg.operations key id row') history
  exact ⟨ordered, fresh, absent, present⟩

theorem LogOk.effect (ok : LogOk pg) (effect : Effect now pg pg') : LogOk pg' := by
  cases effect with
  | touch pg' touches =>
      have log : pg'.logOf = pg.logOf := by
        funext id
        rw [logOf, logOf, touches.events]
      refine ⟨touches.events ▸ ok.ordered, ?_, fun id none_ => ?_, fun id row' found' => ?_⟩
      · rw [touches.events, touches.next]
        exact ok.fresh
      · rw [log]
        cases found : pg.operations.get? id with
        | none => exact ok.absent id found
        | some row =>
            obtain ⟨row', found', _⟩ := touches.present id row found
            rw [none_] at found'
            cases found'
      · obtain ⟨row, found, touched⟩ := touches.before found'
        rw [log]
        exact (ok.present id row found).row touched.state touched.token
  | intake op requested absent =>
      refine ok.append rfl rfl ?_
      rw [show pg.logOf op.operationId = [] from ok.absent _ absent]
      exact ⟨⟨_, [], rfl, rfl, requested⟩, .singleton _, ⟨_, rfl, rfl⟩, by simp⟩
  | commit req row legal found token state =>
      refine ok.append rfl rfl ?_
      refine (ok.present _ row found).append (by rw [state]) (writtenRow_state _ _ _).symm ?_
        token.symm (writtenRow_fencingToken _ _ _)
      rw [writtenRow_state, state]
      exact legal

end Effects

/-! ## Sequences of calls -/

def performAll (pg : PostgresStore) (calls : List (Int × PostgresCall)) : PostgresStore :=
  calls.foldl (fun pg call => pg.perform call.1 call.2) pg

/-- What holds of the tables after any calls. -/
structure Kept (pg : PostgresStore) : Prop where
  sound : Sound pg
  log : LogOk pg

theorem Kept.empty : Kept empty := ⟨.empty, .nil, by simp [PostgresStore.empty], fun _ _ => rfl,
  by simp [PostgresStore.empty]⟩

theorem Kept.perform {pg : PostgresStore} (kept : Kept pg) (now : Int) {call : PostgresCall}
    (opens : call.Opens) : Kept (pg.perform now call) ∧ Grows pg (pg.perform now call) := by
  have effect := perform_effect kept.sound now opens
  exact ⟨⟨(run_keeps kept.sound now (.call call)).1, kept.log.effect effect⟩, effect.grows⟩

theorem Kept.performAll {pg : PostgresStore} (kept : Kept pg) (calls : List (Int × PostgresCall))
    (opens : ∀ call ∈ calls, call.2.Opens) :
    Kept (pg.performAll calls) ∧ Grows pg (pg.performAll calls) := by
  unfold PostgresStore.performAll
  induction calls generalizing pg with
  | nil => exact ⟨kept, fun _ row found => ⟨row, found, le_refl _, rfl⟩⟩
  | cons call calls ih =>
      obtain ⟨first, rest⟩ := List.forall_mem_cons.mp opens
      obtain ⟨kept', grown⟩ := kept.perform call.1 first
      obtain ⟨kept'', grown'⟩ := ih kept' rest
      refine ⟨kept'', fun id row found => ?_⟩
      obtain ⟨middle, found', up, same⟩ := grown id row found
      obtain ⟨last, found'', up', same'⟩ := grown' id middle found'
      exact ⟨last, found'', up.trans up', same'.trans same⟩

theorem find?_of_nodup {ops : List Operation} (distinct : (ops.map (·.operationId)).Nodup)
    {op : Operation} (member : op ∈ ops) :
    ops.find? (fun other => other.operationId = op.operationId) = some op := by
  cases search : ops.find? fun other => other.operationId = op.operationId with
  | none =>
      have absent := List.find?_eq_none.mp search op member
      simp at absent
  | some other =>
      have named := List.find?_some search
      rw [List.inj_on_of_nodup_map distinct (List.mem_of_find?_eq_some search) member
        (of_decide_eq_true named)]

/-- A claim returns an operation once, with the next token, as the row it leaves. -/
theorem claimSkipping_spec {pg : PostgresStore} (kept : Kept pg) {now : Int} {locked : List UUID}
    {states : List OpState} {limit : Nat} {worker : String} {lease : Seconds} {ops : List Operation}
    (answer : (pg.claimSkipping now locked states limit worker lease).1 = .ok ops) :
    (ops.map (·.operationId)).Nodup ∧ ∀ op ∈ ops,
      (∃ row expiry, pg.operations.get? op.operationId = some row ∧
        op = claimRow now worker expiry row) ∧
      (pg.claimSkipping now locked states limit worker lease).2.operations.get? op.operationId =
        some op := by
  have keyed := (kept.sound.table now).keyed
  rcases pg.claimSkipping_cases now locked states limit worker lease with
    ⟨e, same⟩ | ⟨expiry, _, same⟩
  · rw [same] at answer
    cases answer
  rw [same] at answer ⊢
  cases answer
  have distinct : (((pg.pickedSkipping now locked states limit).map
      (claimRow now worker expiry)).map (·.operationId)).Nodup := by
    rw [List.map_map]
    exact pickedSkipping_ids_nodup keyed locked states limit
  refine ⟨distinct, fun op member => ?_⟩
  obtain ⟨row, picked, rfl⟩ := List.mem_map.mp member
  have found := (mem_pickedSkipping keyed picked).1
  refine ⟨⟨row, expiry, found, rfl⟩, ?_⟩
  rw [Dict.get?_mapValues, find?_of_nodup distinct member]
  simp [found]

/-- A write below the row's token is not there. -/
theorem cas_stale {pg : PostgresStore} {row : Operation} (now : Int) (req : CasRequest)
    (found : pg.operations.get? req.operationId = some row)
    (stale : req.fencingToken < row.fencingToken) : (pg.cas now req).2 = pg := by
  rcases pg.cas_cases now req with ⟨_, same, _⟩ | ⟨old, _, _, found', token, _⟩
  · rw [same]
  · rw [found] at found'
    cases found'
    omega

theorem release_stale {pg : PostgresStore} {row : Operation} (now : Int) {id : UUID} {token : Nat}
    (found : pg.operations.get? id = some row) (stale : token < row.fencingToken) :
    (pg.release now id token).2 = pg := by
  rcases pg.release_cases now id token with same | ⟨old, found', owned, _⟩
  · rw [same]
  · rw [found] at found'
    cases found'
    omega

/-- **Fencing in the database.**  Take any calls, then a claim that passes over any locked
rows, then any further calls.  One claim returns an operation once.  A later claim of it
returns a greater token; a `cas` or `release` with a smaller token does nothing.  The events of
every operation, as `events` lists them, are one history from intake to the present state of
its row. -/
theorem database_single_writer (before : List (Int × PostgresCall)) (now : Int)
    (locked : List UUID) (states : List OpState) (limit : Nat) (worker : String)
    (lease : Seconds) (after : List (Int × PostgresCall))
    (opens : ∀ call ∈ before ++ after, call.2.Opens) :
    let claimed := (empty.performAll before).claimSkipping now locked states limit worker lease
    let later := claimed.2.performAll after
    (∀ ops, claimed.1 = .ok ops → (ops.map (·.operationId)).Nodup ∧ ∀ op ∈ ops, ∀ now',
      (∀ locked' states' limit' worker' lease' ops',
        (later.claimSkipping now' locked' states' limit' worker' lease').1 = .ok ops' →
        ∀ op' ∈ ops', op'.operationId = op.operationId → op.fencingToken < op'.fencingToken) ∧
      (∀ req : CasRequest, req.operationId = op.operationId →
        req.fencingToken < op.fencingToken → (later.cas now' req).2 = later) ∧
      ∀ token < op.fencingToken, (later.release now' op.operationId token).2 = later) ∧
    ∀ id, (later.get id = none ∧ later.events id = []) ∨
      ∃ row, later.get id = some row ∧ History (later.events id) row := by
  intro claimed later
  obtain ⟨early, late⟩ := List.forall_mem_append.mp opens
  obtain ⟨kept₀, _⟩ := Kept.empty.performAll before early
  have kept₁ : Kept claimed.2 :=
    (kept₀.perform now (show (PostgresCall.claim locked states limit worker lease).Opens from
      trivial)).1
  obtain ⟨kept, grown⟩ := kept₁.performAll after late
  refine ⟨fun ops answer => ?_, fun id => ?_⟩
  · obtain ⟨distinct, spec⟩ := claimSkipping_spec kept₀ answer
    refine ⟨distinct, fun op member now' => ?_⟩
    -- the row of a claimed operation still carries at least the claim's token
    obtain ⟨row, found, up, _⟩ := grown _ _ (spec op member).2
    refine ⟨fun locked' states' limit' worker' lease' ops' answer' op' member' same => ?_,
      fun req same stale => ?_, fun token stale => ?_⟩
    · obtain ⟨⟨row', _, found', taken⟩, _⟩ := (claimSkipping_spec kept answer').2 op' member'
      rw [same] at found'
      cases found.symm.trans found'
      rw [taken, MemoryStore.claimRow_fencingToken]
      omega
    · exact cas_stale now' req (same ▸ found) (by omega)
    · exact release_stale now' found (by omega)
  · have log : LogOk later := kept.log
    rw [log.events_eq]
    cases found : later.get id with
    | none => exact .inl ⟨rfl, log.absent id found⟩
    | some row => exact .inr ⟨row, rfl, log.present id row found⟩

/-- A request on its own. -/
def oneRequest : List (Int × PostgresCall) :=
  [(1, .insertNew {
      operationId := 1
      requestHash := []
      state := .requested
      toAddress := "TR7NHqjeKQxGTCi8q8ZY4pL8otSzgjLj6t"
      asset := "USDT-TRC20"
      amountUnits := 1 })]

/-- Whatever becomes of that request, its first claimant is fenced out by the next one. -/
theorem database_single_writer_request :
    (∃ ops, ((empty.performAll oneRequest).claimSkipping 2 [] OpState.claimable 1 "w1"
      (.finite 30 0)).1 = .ok ops ∧ ops.map (·.fencingToken) = [1]) ∧
    ∀ ops, ((empty.performAll oneRequest).claimSkipping 2 [] OpState.claimable 1 "w1"
        (.finite 30 0)).1 = .ok ops →
      ∀ op ∈ ops, ∀ ops', (((empty.performAll oneRequest).claimSkipping 2 [] OpState.claimable 1
          "w1" (.finite 30 0)).2.claimSkipping 40000000 [] OpState.claimable 1 "w2"
            (.finite 30 0)).1 = .ok ops' →
        ∀ op' ∈ ops', op'.operationId = op.operationId → op.fencingToken < op'.fencingToken := by
  refine ⟨⟨_, rfl, by decide +kernel⟩, fun ops answer op member => ?_⟩
  have opens : ∀ call ∈ oneRequest ++ [], call.2.Opens := by simp [oneRequest, PostgresCall.Opens]
  exact (((database_single_writer oneRequest 2 [] OpState.claimable 1 "w1" (.finite 30 0) []
    opens).1 ops answer).2 op member 40000000).1 [] OpState.claimable 1 "w2" (.finite 30 0)

end Sluice.Kernel.PostgresStore
