/-
# Protocol.Fencing -- one writer per row, one coherent log

Everything a store method does is one of the five changes of `Changes`, or what a `cas`
leaves whose new lease ends beyond the calendar (`tornRow`).  For callers of any kind with
tokens and states of any age:

* `Grows`: rows are never removed, their tokens never fall, their identity columns never
  change, and the log is only appended to.  A torn row is no exception.
* `LogOk`: the events of a row form one history, from intake to the row's present state,
  along the transition table and with tokens that never fall (`History`).  A write that moves
  the row and is then torn breaks it (`Tears`): the row has moved and the log has not.
* `single_writer`: both, with the fencing of stale callers, over whole call sequences.
-/
import Mathlib.Data.List.Chain
import Sluice.Kernel.MemoryStore
import Sluice.Theory.Lists

namespace Sluice.Kernel.MemoryStore

open Sluice.Theory

set_option autoImplicit false

/-- What one call may do to the store at instant `now`. -/
inductive Changes (now : Int) (store : MemoryStore) : MemoryStore → Prop
  | still : Changes now store store
  | insert (op : Operation) (requested : op.state = .requested)
      (absent : store.ops.get? op.operationId = none) : Changes now store (store.insertRow now op)
  | claim (states : List OpState) (limit : Nat) (worker : String) (lease : Seconds) :
      Changes now store (store.claim now states limit worker lease).2
  | commit (req : CasRequest) (row : Operation)
      (legal : OpState.canTransition req.fromState req.toState = true)
      (found : store.ops.get? req.operationId = some row)
      (token : row.fencingToken = req.fencingToken) (state : row.state = req.fromState)
      (live : row.state.terminal = false) : Changes now store (store.commit now req row)
  | release (row : Operation) (found : store.ops.get? row.operationId = some row) :
      Changes now store (store.put (releaseRow now row))

section Methods

variable (now : Int) (store : MemoryStore)

theorem insertNew_changes {op : Operation} (requested : op.state = .requested) :
    Changes now store (store.insertNew now op).2 := by
  rcases store.insertNew_cases now op with ⟨existing, _, same⟩ | ⟨absent, inserted⟩
  · rw [same]; exact .still
  · rw [inserted]; exact .insert op requested absent

theorem cas_changes {req : CasRequest} (within : overflows now req = false) :
    Changes now store (store.cas now req).2 := by
  rcases store.cas_cases now req with ⟨_, same⟩ | ⟨_, same, _⟩ |
    ⟨legal, row, found, token, state, live, ⟨beyond, _⟩ | ⟨_, same⟩⟩
  · rw [same]; exact .still
  · rw [same]; exact .still
  · rw [within] at beyond
    cases beyond
  · rw [same]; exact .commit req row legal found token state live

theorem release_changes (id : UUID) (token : Nat) :
    Changes now store (store.release now id token) := by
  rcases store.release_cases now id token with ⟨same, _⟩ | ⟨row, found, _, same⟩
  · rw [same]; exact .still
  · rw [same]
    have key := store.keyed id row found
    exact .release row (key ▸ found)

end Methods

/-! ## Growth -/

/-- Rows stay, keep their identity and never lose token; events are only appended. -/
structure Grows (store store' : MemoryStore) : Prop where
  rows : ∀ id row, store.ops.get? id = some row → ∃ row', store'.ops.get? id = some row' ∧
    row.fencingToken ≤ row'.fencingToken ∧ identity row' = identity row
  events : store.events <+: store'.events

theorem Grows.refl (store : MemoryStore) : Grows store store :=
  ⟨fun _ row found => ⟨row, found, le_refl _, rfl⟩, List.prefix_rfl⟩

theorem Grows.trans {first second third : MemoryStore} (early : Grows first second)
    (late : Grows second third) : Grows first third := by
  refine ⟨fun id row found => ?_, early.events.trans late.events⟩
  obtain ⟨middle, present, up, same⟩ := early.rows id row found
  obtain ⟨last, present', up', same'⟩ := late.rows id middle present
  exact ⟨last, present', up.trans up', same'.trans same⟩

theorem eventsOf_extends {store store' : MemoryStore} (grown : Grows store store') (id : UUID) :
    store.eventsOf id <+: store'.eventsOf id :=
  grown.events.filter _

theorem allTxids_subset {store store' : MemoryStore} (grown : Grows store store') (id : UUID) :
    store.allTxids id ⊆ store'.allTxids id :=
  ((eventsOf_extends grown id).filterMap _).subset

section Step

variable {now : Int} {store store' : MemoryStore}

/-- A row rewritten in place. -/
theorem put_grows {old row : Operation} (found : store.ops.get? row.operationId = some old)
    (token : old.fencingToken ≤ row.fencingToken) (same : identity row = identity old) :
    Grows store (store.put row) := by
  refine ⟨fun id present found' => ?_, List.prefix_rfl⟩
  rw [put_get?]
  split
  · rename_i own
    rw [own, found] at found'
    cases found'
    exact ⟨_, rfl, token, same⟩
  · exact ⟨present, found', le_refl _, rfl⟩

theorem Changes.grows (step : Changes now store store') : Grows store store' := by
  cases step with
  | still => exact .refl store
  | insert op requested absent =>
      refine ⟨fun id row found => ⟨row, ?_, le_refl _, rfl⟩, List.prefix_append _ _⟩
      have other : id ≠ op.operationId := by
        rintro rfl
        rw [absent] at found
        cases found
      rw [insertRow_get?, if_neg other]
      exact found
  | claim states limit worker lease =>
      refine ⟨fun id row found => ?_,
        (store.claim_frame now states limit worker lease).1 ▸ List.prefix_rfl⟩
      rcases store.claim_row now states limit worker lease id with
        ⟨same, _⟩ | ⟨row', _, _, found', _, _, _, _, _, after⟩ | ⟨row', found', _, _, _, _, after⟩
      · exact ⟨row, same.trans found, le_refl _, rfl⟩
      · cases found.symm.trans found'
        exact ⟨_, after, Nat.le_succ _, claimRow_identity _ _ _ _⟩
      · cases found.symm.trans found'
        exact ⟨_, after, le_refl _, halfClaimed_identity _ _⟩
  | commit req row legal found token state live =>
      have key := store.keyed _ _ found
      refine ⟨fun id old present => ?_, List.prefix_append _ _⟩
      rw [commit_get?]
      split
      · rename_i same
        rw [same, key, found] at present
        cases present
        exact ⟨_, rfl, (casRow_fencingToken _ _ _).ge, casRow_identity _ _ _⟩
      · exact ⟨old, present, le_refl _, rfl⟩
  | release row found => exact put_grows found (Nat.le_refl _) rfl

/-! ## The log -/

/-- `b` may follow `a` in the log of one operation. -/
structure Successor (a b : Event) : Prop where
  fromState : b.fromState = some a.toState
  legal : a.toState ≠ b.toState → b.toState ∈ a.toState.transitions
  token : a.fencingToken ≤ b.fencingToken

/-- The log of one operation, up to its row as it stands. -/
structure History (events : List Event) (row : Operation) : Prop where
  first : ∃ intake rest, events = intake :: rest ∧ intake.fromState = none ∧
    intake.toState = .requested
  chain : events.IsChain Successor
  last : ∃ e, events.getLast? = some e ∧ e.toState = row.state
  tokens : ∀ e ∈ events, e.fencingToken ≤ row.fencingToken

/-- A row may move on without an event if it keeps its state and does not lose token. -/
theorem History.row {events : List Event} {row row' : Operation} (history : History events row)
    (state : row'.state = row.state) (token : row.fencingToken ≤ row'.fencingToken) :
    History events row' :=
  ⟨history.first, history.chain, state ▸ history.last,
    fun e member => (history.tokens e member).trans token⟩

theorem History.append {events : List Event} {row row' : Operation} {e : Event}
    (history : History events row) (fromState : e.fromState = some row.state)
    (toState : e.toState = row'.state) (legal : OpState.canTransition row.state row'.state = true)
    (token : e.fencingToken = row.fencingToken) (token' : row'.fencingToken = row.fencingToken) :
    History (events ++ [e]) row' := by
  obtain ⟨last, isLast, lastState⟩ := history.last
  refine ⟨?_, ?_, ⟨e, by simp, toState⟩, ?_⟩
  · obtain ⟨intake, rest, rfl, start⟩ := history.first
    exact ⟨intake, rest ++ [e], rfl, start⟩
  · refine history.chain.append (.singleton e) fun x isX y isY => ?_
    rw [isLast] at isX
    cases isX
    cases isY
    refine ⟨by rw [fromState, lastState], fun changed => ?_, ?_⟩
    · rw [lastState, toState] at changed ⊢
      simpa [OpState.canTransition, changed] using legal
    · rw [token]
      exact history.tokens last (List.mem_of_getLast? isLast)
  · intro x member
    rcases List.mem_append.mp member with old | new
    · rw [token']
      exact history.tokens x old
    · rw [List.mem_singleton.mp new, token, token']

/-- Only the first event comes from nowhere. -/
theorem History.intake {events : List Event} {row : Operation} (history : History events row) :
    (events.filter fun e => e.fromState = none).length = 1 := by
  obtain ⟨intake, rest, rfl, start, _⟩ := history.first
  have later : ∀ (rest : List Event) (first : Event), (first :: rest).IsChain Successor →
      rest.filter (fun e => e.fromState = none) = [] := by
    intro rest
    induction rest with
    | nil => exact fun _ _ => rfl
    | cons e rest ih =>
        intro first chain
        obtain ⟨follows, chain'⟩ := List.isChain_cons_cons.mp chain
        simpa [follows.fromState] using ih e chain'
  simpa [start] using later rest intake history.chain

/-- The logs of all rows, once one row is written together with its event. -/
theorem histories_append {rows rows' : UUID → Option Operation} {log : List Event}
    {row : Operation} {e : Event} {key : UUID}
    (absent : ∀ id, rows id = none → log.filter (fun e => e.operationId = id) = [])
    (present : ∀ id row, rows id = some row →
      History (log.filter fun e => e.operationId = id) row)
    (own : e.operationId = key) (after : ∀ id, rows' id = if id = key then some row else rows id)
    (history : History (log.filter (fun e => e.operationId = key) ++ [e]) row) :
    (∀ id, rows' id = none → (log ++ [e]).filter (fun e => e.operationId = id) = []) ∧
      ∀ id row, rows' id = some row →
        History ((log ++ [e]).filter fun e => e.operationId = id) row := by
  refine ⟨fun id none_ => ?_, fun id row' found => ?_⟩
  · rw [after] at none_
    split at none_
    · cases none_
    · rename_i other
      rw [filter_snoc, own, if_neg (Ne.symm other), List.append_nil]
      exact absent id none_
  · rw [after] at found
    rw [filter_snoc, own]
    split at found
    · rename_i same
      cases found
      rw [if_pos same.symm, same]
      exact history
    · rename_i other
      rw [if_neg (Ne.symm other), List.append_nil]
      exact present id row' found

structure LogOk (store : MemoryStore) : Prop where
  ordered : store.events.Pairwise fun a b => a.seq < b.seq
  fresh : ∀ e ∈ store.events, e.seq < store.eventSeq
  absent : ∀ id, store.ops.get? id = none → store.eventsOf id = []
  present : ∀ id row, store.ops.get? id = some row → History (store.eventsOf id) row

/-- A row rewritten in its state needs no event. -/
theorem LogOk.put (ok : LogOk store) {old row : Operation}
    (found : store.ops.get? row.operationId = some old) (state : row.state = old.state)
    (token : row.fencingToken = old.fencingToken) : LogOk (store.put row) := by
  refine ⟨ok.ordered, ok.fresh, fun id none_ => ?_, fun id present found' => ?_⟩
  · rw [put_get?] at none_
    split at none_
    · cases none_
    · exact ok.absent id none_
  · rw [put_get?] at found'
    split at found'
    · rename_i own
      cases found'
      exact own ▸ (ok.present _ old found).row state token.ge
    · exact ok.present id present found'

/-- A row written together with its event. -/
theorem LogOk.record (ok : LogOk store) {row : Operation} {e : Event} {key : UUID}
    (log : store'.events = store.events ++ [e]) (next : store'.eventSeq = store.eventSeq + 1)
    (rows : ∀ id, store'.ops.get? id = if id = key then some row else store.ops.get? id)
    (own : e.operationId = key) (seq : e.seq = store.eventSeq)
    (history : History (store.eventsOf key ++ [e]) row) : LogOk store' := by
  obtain ⟨ordered, fresh⟩ := numbered_append ok.ordered ok.fresh seq
  obtain ⟨absent, present⟩ := histories_append ok.absent ok.present own rows history
  rw [← log] at ordered fresh absent present
  exact ⟨ordered, next ▸ fresh, absent, present⟩

theorem LogOk.changes (ok : LogOk store) (step : Changes now store store') : LogOk store' := by
  cases step with
  | still => exact ok
  | insert op requested absent =>
      refine ok.record rfl rfl (insertRow_get? store now op) rfl rfl ?_
      rw [ok.absent _ absent]
      exact ⟨⟨_, [], rfl, rfl, requested⟩, .singleton _, ⟨_, rfl, rfl⟩, by simp⟩
  | claim states limit worker lease =>
      obtain ⟨events, seq, _⟩ := store.claim_frame now states limit worker lease
      refine ⟨events ▸ ok.ordered, events ▸ seq ▸ ok.fresh, fun id none_ => ?_,
        fun id row found => ?_⟩ <;>
        rw [claim_eventsOf] <;>
        rcases store.claim_row now states limit worker lease id with
          ⟨same, _⟩ | ⟨old, _, _, found', _, _, _, _, _, after⟩ | ⟨old, found', _, _, _, _, after⟩
      · exact ok.absent id (same ▸ none_)
      · cases none_.symm.trans after
      · cases none_.symm.trans after
      · exact ok.present id row (same ▸ found)
      · obtain rfl := Option.some.inj (found.symm.trans after)
        exact (ok.present id old found').row rfl (Nat.le_succ _)
      · obtain rfl := Option.some.inj (found.symm.trans after)
        exact (ok.present id old found').row rfl (le_refl _)
  | commit req row legal found token state live =>
      have key := store.keyed _ _ found
      refine ok.record rfl rfl (commit_get? store now req row) rfl rfl ?_
      refine (ok.present _ row (key ▸ found)).append (by rw [state])
        (casRow_state _ _ _).symm ?_ token.symm (casRow_fencingToken _ _ _)
      rw [casRow_state, state]
      exact legal
  | release row found => exact ok.put found rfl rfl

theorem empty_logOk : LogOk empty :=
  ⟨.nil, by simp [empty], fun _ _ => rfl, by simp [empty]⟩

end Step

/-! ## Sequences of calls -/

/-- A call to the store, by anybody. -/
inductive StoreCall where
  | insertNew (op : Operation)
  | claim (states : List OpState) (limit : Nat) (worker : String) (lease : Seconds)
  | cas (req : CasRequest)
  | release (id : UUID) (token : Nat)

/-- A new row is in its first state. -/
def StoreCall.Opens : StoreCall → Prop
  | .insertNew op => op.state = .requested
  | .claim .. | .cas _ | .release .. => True

/-- The store after one call made at `now`. -/
def perform (store : MemoryStore) (now : Int) : StoreCall → MemoryStore
  | .insertNew op => (store.insertNew now op).2
  | .claim states limit worker lease => (store.claim now states limit worker lease).2
  | .cas req => (store.cas now req).2
  | .release id token => store.release now id token

def performAll (store : MemoryStore) (calls : List (Int × StoreCall)) : MemoryStore :=
  calls.foldl (fun store call => store.perform call.1 call.2) store

/-- The call is a write that passes the fencing check, moves the row and cannot compute its
new lease. -/
def Tears (store : MemoryStore) (now : Int) : StoreCall → Prop
  | .cas req => req.toState ∈ req.fromState.transitions ∧ overflows now req = true ∧
      ∃ row, store.ops.get? req.operationId = some row ∧
        row.fencingToken = req.fencingToken ∧ row.state = req.fromState
  | .insertNew _ | .claim .. | .release .. => False

section Sequences

variable {store : MemoryStore} {now : Int} {call : StoreCall}

variable (store now) in
/-- A call makes one of the changes, or leaves a torn row. -/
theorem perform_cases (opens : call.Opens) :
    Changes now store (store.perform now call) ∨
      ∃ req row, call = .cas req ∧ OpState.canTransition req.fromState req.toState = true ∧
        store.ops.get? req.operationId = some row ∧ row.fencingToken = req.fencingToken ∧
        row.state = req.fromState ∧ overflows now req = true ∧
        store.perform now call = store.put (tornRow now req row) := by
  cases call with
  | insertNew op => exact .inl (insertNew_changes now store opens)
  | claim states limit worker lease => exact .inl (.claim states limit worker lease)
  | cas req =>
      cases within : overflows now req with
      | false => exact .inl (cas_changes now store within)
      | true =>
          rcases store.cas_cases now req with ⟨_, same⟩ | ⟨_, same, _⟩ |
            ⟨legal, row, found, token, state, _, ⟨_, same⟩ | ⟨within', _⟩⟩
          · exact .inl (by rw [perform, same]; exact .still)
          · exact .inl (by rw [perform, same]; exact .still)
          · exact .inr ⟨req, row, rfl, legal, found, token, state, within, by rw [perform, same]⟩
          · cases within.symm.trans within'
  | release id token => exact .inl (release_changes now store id token)

theorem perform_grows (opens : call.Opens) : Grows store (store.perform now call) := by
  rcases perform_cases store now opens with
    changes | ⟨req, row, rfl, _, found, _, _, _, same⟩
  · exact changes.grows
  · rw [same]
    have own : store.ops.get? (tornRow now req row).operationId = some row := by
      rw [show (tornRow now req row).operationId = row.operationId from rfl,
        store.keyed _ row found]
      exact found
    exact put_grows own (Nat.le_refl _) rfl

theorem LogOk.perform (ok : LogOk store) (opens : call.Opens) (whole : ¬ Tears store now call) :
    LogOk (store.perform now call) := by
  rcases perform_cases store now opens with
    changes | ⟨req, row, rfl, legal, found, token, state, beyond, same⟩
  · exact ok.changes changes
  · rw [same]
    have key := store.keyed _ row found
    -- the write does not move the row, or it would tear it
    have still : req.toState = req.fromState := by
      by_contra moves
      refine whole ⟨?_, beyond, row, found, token, state⟩
      simpa [OpState.canTransition, Ne.symm moves] using legal
    exact ok.put (key ▸ found) (still.trans state.symm) rfl

variable (store) in
theorem performAll_grows (calls : List (Int × StoreCall)) (opens : ∀ call ∈ calls, call.2.Opens) :
    Grows store (store.performAll calls) := by
  induction calls generalizing store with
  | nil => exact .refl store
  | cons call calls ih =>
      obtain ⟨first, rest⟩ := List.forall_mem_cons.mp opens
      exact (perform_grows first).trans (ih _ rest)

theorem LogOk.performAll (ok : LogOk store) (calls : List (Int × StoreCall))
    (opens : ∀ call ∈ calls, call.2.Opens)
    (whole : ∀ earlier call, earlier ++ [call] <+: calls →
      ¬ Tears (store.performAll earlier) call.1 call.2) : LogOk (store.performAll calls) := by
  induction calls generalizing store with
  | nil => exact ok
  | cons call calls ih =>
      obtain ⟨first, rest⟩ := List.forall_mem_cons.mp opens
      refine ih (ok.perform first (whole [] call ?_)) rest fun earlier later early => ?_
      · exact List.prefix_append [call] calls
      · exact whole (call :: earlier) later ((List.prefix_cons_inj call).mpr early)

/-- The events of every row, in the order of their numbers, are one history that ends in the
row's state. -/
structure Coherent (store : MemoryStore) : Prop where
  ordered : store.events.Pairwise fun a b => a.seq < b.seq
  rows : ∀ id, (store.ops.get? id = none ∧ store.eventsOf id = []) ∨
    ∃ row, store.ops.get? id = some row ∧ History (store.eventsOf id) row

theorem LogOk.coherent (ok : LogOk store) : Coherent store := by
  refine ⟨ok.ordered, fun id => ?_⟩
  cases found : store.ops.get? id with
  | none => exact .inl ⟨rfl, ok.absent id found⟩
  | some row => exact .inr ⟨row, rfl, ok.present id row found⟩

/-- The log does not know of the state a torn write has set. -/
theorem Tears.not_coherent (tears : Tears store now call) (coherent : Coherent store) :
    ¬ Coherent (store.perform now call) := by
  cases call with
  | insertNew _ | claim | release => cases tears
  | cas req =>
      obtain ⟨moves, beyond, row, found, token, state⟩ := tears
      have key := store.keyed _ row found
      have live : row.state.terminal = false := by
        rw [state]
        exact OpState.terminal_of_mem_transitions moves
      have legal : OpState.canTransition req.fromState req.toState = true := by
        simp [OpState.canTransition, moves]
      have torn : store.perform now (.cas req) = store.put (tornRow now req row) := by
        rw [perform, cas_owned legal found token state live, if_pos beyond]
      intro coherent'
      rw [torn] at coherent'
      have events : (store.put (tornRow now req row)).eventsOf req.operationId =
          store.eventsOf req.operationId := rfl
      have found' : (store.put (tornRow now req row)).ops.get? req.operationId =
          some (tornRow now req row) := by
        rw [put_get?]
        exact if_pos key.symm
      have before : History (store.eventsOf req.operationId) row := by
        rcases coherent.rows req.operationId with ⟨absent, _⟩ | ⟨row', present, history⟩
        · cases found.symm.trans absent
        · cases found.symm.trans present
          exact history
      have after : History (store.eventsOf req.operationId) (tornRow now req row) := by
        rcases coherent'.rows req.operationId with ⟨absent, _⟩ | ⟨row', present, history⟩
        · cases found'.symm.trans absent
        · cases found'.symm.trans present
          exact history
      obtain ⟨e, isLast, here⟩ := before.last
      obtain ⟨e', isLast', there⟩ := after.last
      cases isLast.symm.trans isLast'
      have still : req.toState = req.fromState := there.symm.trans (here.trans state)
      rw [still] at moves
      exact OpState.not_mem_transitions_self _ moves

end Sequences

/-- A write below the row's token is not there. -/
theorem cas_stale {store : MemoryStore} {row : Operation} (now : Int) (req : CasRequest)
    (found : store.ops.get? req.operationId = some row)
    (stale : req.fencingToken < row.fencingToken) : (store.cas now req).2 = store := by
  rcases store.cas_cases now req with ⟨_, same⟩ | ⟨_, same, _⟩ | ⟨_, row', found', token, _⟩
  · rw [same]
  · rw [same]
  · rw [found] at found'
    cases found'
    omega

theorem release_stale {store : MemoryStore} {row : Operation} (now : Int) {id : UUID} {token : Nat}
    (found : store.ops.get? id = some row) (stale : token < row.fencingToken) :
    store.release now id token = store := by
  rcases store.release_cases now id token with ⟨same, _⟩ | ⟨row', found', owned, _⟩
  · exact same
  · rw [found] at found'
    cases found'
    omega

/-- What holds once a claim has returned `ops`, after any further calls: a later claim of one
of them returns a greater token, and nobody with a smaller one changes anything. -/
def Fences (later : MemoryStore) (ops : List Operation) : Prop :=
  (ops.map (·.operationId)).Nodup ∧
  ∀ op ∈ ops,
    (∀ now states limit worker lease ops',
      (later.claim now states limit worker lease).1 = .ok ops' →
      ∀ op' ∈ ops', op'.operationId = op.operationId → op.fencingToken < op'.fencingToken) ∧
    (∀ now (req : CasRequest), req.operationId = op.operationId →
      req.fencingToken < op.fencingToken → (later.cas now req).2 = later) ∧
    ∀ now, ∀ token < op.fencingToken, later.release now op.operationId token = later

theorem claim_fences {store : MemoryStore} {now : Int} {states : List OpState} {limit : Nat}
    {worker : String} {lease : Seconds} {ops : List Operation}
    (returned : (store.claim now states limit worker lease).1 = .ok ops) {later : MemoryStore}
    (grown : Grows (store.claim now states limit worker lease).2 later) : Fences later ops := by
  refine ⟨claim_ids_nodup returned, fun op member => ?_⟩
  -- the row of a claimed operation still carries at least the claim's token
  obtain ⟨row, found, up, _⟩ := grown.rows _ _ (mem_claim returned member).2
  refine ⟨fun now' states' limit' worker' lease' ops' returned' op' member' same => ?_,
    fun now' req same stale => ?_, fun now' token stale => ?_⟩
  · obtain ⟨⟨row', expiry, found', _, _, _, taken⟩, _⟩ := mem_claim returned' member'
    rw [same, found] at found'
    cases found'
    rw [taken, claimRow_fencingToken]
    omega
  · exact cas_stale now' req (same ▸ found) (by omega)
  · exact release_stale now' found (by omega)

/-- **Fencing.**  Take any calls.  Every claim among them fences out whoever holds a smaller
token, from then on.  The log of every row is one history that ends in the row's state, all
the way, exactly if no `cas` that passes the fencing check moves a row to whose new lease it
cannot compute an end. -/
theorem single_writer (calls : List (Int × StoreCall)) (opens : ∀ call ∈ calls, call.2.Opens) :
    (∀ before now states limit worker lease after,
      calls = before ++ (now, .claim states limit worker lease) :: after →
      ∀ ops, ((empty.performAll before).claim now states limit worker lease).1 = .ok ops →
        Fences (empty.performAll calls) ops) ∧
    ((∀ earlier, earlier <+: calls → Coherent (empty.performAll earlier)) ↔
      ∀ earlier call, earlier ++ [call] <+: calls →
        ¬ Tears (empty.performAll earlier) call.1 call.2) := by
  constructor
  · rintro before now states limit worker lease after rfl ops returned
    have later := (List.forall_mem_cons.mp (List.forall_mem_append.mp opens).2).2
    rw [performAll, List.foldl_append, List.foldl_cons]
    exact claim_fences returned (performAll_grows _ after later)
  · constructor
    · intro coherent earlier call early tears
      refine tears.not_coherent (coherent earlier ((List.prefix_append _ _).trans early)) ?_
      have after := coherent (earlier ++ [call]) early
      rw [performAll, List.foldl_append] at after
      exact after
    · intro whole earlier early
      refine (empty_logOk.performAll earlier (fun call member => ?_)
        fun first call start => ?_).coherent
      · exact opens call (early.subset member)
      · exact whole first call (start.trans early)

/-- One withdrawal is requested, claimed and moved on; its holder renews the lease by `lease`. -/
def renewal (lease : Seconds) : List (Int × StoreCall) :=
  [(0, .insertNew {
      operationId := 1
      requestHash := []
      state := .requested
      toAddress := "nowhere"
      asset := "USDT-TRC20"
      amountUnits := 1 }),
    (0, .claim OpState.claimable 10 "w1" (.finite 30 0)),
    (0, .cas {
      operationId := 1
      fencingToken := 1
      fromState := .requested
      toState := .validated
      renewLeaseSeconds := some lease })]

/-- A lease of half a minute leaves a coherent log all the way. -/
theorem single_writer_plain :
    ((empty.performAll (renewal (.finite 30 0))).eventsOf 1).map (·.toState) =
      [.requested, .validated] ∧
    ∀ earlier, earlier <+: renewal (.finite 30 0) → Coherent (empty.performAll earlier) := by
  have opens : ∀ call ∈ renewal (.finite 30 0), call.2.Opens := by
    intro call member
    simp only [renewal, List.mem_cons, List.not_mem_nil, or_false] at member
    rcases member with rfl | rfl | rfl
    · rfl
    · trivial
    · trivial
  refine ⟨by decide +kernel, (single_writer (renewal (.finite 30 0)) opens).2.mpr ?_⟩
  intro earlier call early tears
  have member : call ∈ renewal (.finite 30 0) :=
    early.subset (List.mem_append_right _ List.mem_cons_self)
  simp only [renewal, List.mem_cons, List.not_mem_nil, or_false] at member
  rcases member with rfl | rfl | rfl
  · exact tears
  · exact tears
  · exact absurd tears.2.1 (by decide +kernel)

/-- **A state the log does not know.**  The lease is renewed by `10 ^ 12` seconds: the call
raises after it has moved the row, and before it has recorded the move. -/
theorem torn_write : ∃ row,
    (empty.performAll (renewal (.finite (10 ^ 12) 0))).ops.get? 1 = some row ∧
    row.state = .validated ∧
    ((empty.performAll (renewal (.finite (10 ^ 12) 0))).eventsOf 1).map (·.toState) =
      [.requested] := by
  refine ⟨_, rfl, ?_, ?_⟩ <;> decide +kernel

end Sluice.Kernel.MemoryStore
