/-
# Protocol.Terminal -- what can still happen to a row that has ended

No claim returns a terminal row, no `cas` writes to one and no insertion replaces one.  But
`release` looks at the token only: whoever still holds the row's token stamps it anew, after
the row has ended.  That is all that can happen (`perform_terminal`), so a terminal row is
immutable in a sequence of calls exactly if no such release changes it.
-/
import Sluice.Protocol.Fencing

namespace Sluice.Kernel.MemoryStore

open Sluice.Theory

set_option autoImplicit false

/-- Workers claim in all the states that can go on. -/
def StoreCall.ByWorkers : StoreCall → Prop
  | .claim states _ _ _ => states = OpState.claimable
  | .insertNew _ | .cas _ | .release .. => True

def Releases (row : Operation) (call : StoreCall) : Prop :=
  call = .release row.operationId row.fencingToken

/-- A release at `now` would find nothing to change. -/
def Released (now : Int) (row : Operation) : Prop :=
  row.claimedBy = none ∧ row.leaseExpiresAt = none ∧ row.updatedAt = some now

section Terminal

variable {store : MemoryStore} {id : UUID} {row : Operation}

theorem releaseRow_eq_iff (now : Int) : releaseRow now row = row ↔ Released now row := by
  constructor
  · intro same
    exact ⟨(congrArg (·.claimedBy) same).symm, (congrArg (·.leaseExpiresAt) same).symm,
      (congrArg (·.updatedAt) same).symm⟩
  · rintro ⟨claimedBy, lease, updatedAt⟩
    unfold releaseRow
    rw [← claimedBy, ← lease, ← updatedAt]

/-- What any call does to a terminal row and to its log: a release of it stamps it, and
nothing else touches it. -/
theorem perform_terminal (found : store.ops.get? id = some row)
    (ended : row.state.terminal = true) (now : Int) {call : StoreCall} (workers : call.ByWorkers) :
    (store.perform now call).eventsOf id = store.eventsOf id ∧
      (¬ Releases row call ∧ (store.perform now call).ops.get? id = some row ∨
        Releases row call ∧ (store.perform now call).ops.get? id = some (releaseRow now row)) := by
  have key := store.keyed id row found
  cases call with
  | insertNew op =>
      rcases store.insertNew_cases now op with ⟨_, _, same⟩ | ⟨absent, inserted⟩
      · rw [perform, same]
        exact ⟨rfl, .inl ⟨by rintro ⟨⟩, found⟩⟩
      · have other : id ≠ op.operationId := by
          rintro rfl
          cases absent.symm.trans found
        rw [perform, inserted, eventsOf_insertRow, if_neg other.symm, List.append_nil,
          insertRow_get?, if_neg other]
        exact ⟨rfl, .inl ⟨by rintro ⟨⟩, found⟩⟩
  | claim states limit worker lease =>
      rw [StoreCall.ByWorkers] at workers
      subst workers
      have live : ∀ old, store.ops.get? id = some old → old.state ∉ OpState.claimable := by
        intro old found' wanted
        cases found.symm.trans found'
        cases ((OpState.mem_claimable_iff _).mp wanted).symm.trans ended
      refine ⟨store.claim_eventsOf now _ limit worker lease id, .inl ⟨by rintro ⟨⟩, ?_⟩⟩
      rcases store.claim_row now OpState.claimable limit worker lease id with
        ⟨same, _⟩ | ⟨old, _, _, found', wanted, _⟩ | ⟨old, found', wanted, _⟩
      · exact same.trans found
      · exact absurd wanted (live old found')
      · exact absurd wanted (live old found')
  | cas req =>
      have settled : ∀ old, store.ops.get? id = some old → old.state.terminal = true := by
        intro old found'
        cases found.symm.trans found'
        exact ended
      obtain ⟨kept, events⟩ := cas_settled now req settled
      exact ⟨events, .inl ⟨by rintro ⟨⟩, kept.trans found⟩⟩
  | release id' token =>
      rcases store.release_cases now id' token with ⟨same, fenced⟩ | ⟨old, found', owned, same⟩
      · rw [perform, same]
        refine ⟨rfl, .inl ⟨?_, found⟩⟩
        rintro ⟨rfl, rfl⟩
        exact fenced row (key ▸ found) rfl
      · have key' := store.keyed id' old found'
        rw [perform, same]
        refine ⟨rfl, ?_⟩
        rw [put_get?, releaseRow_operationId]
        by_cases own : id = old.operationId
        · rw [if_pos own]
          rw [← key', ← own, found] at found'
          cases found'
          exact .inr ⟨by rw [Releases, ← owned, ← key'], rfl⟩
        · rw [if_neg own]
          refine .inl ⟨?_, found⟩
          rintro ⟨rfl, rfl⟩
          exact own (key.symm.trans key'.symm)

theorem perform_terminal_iff (found : store.ops.get? id = some row)
    (ended : row.state.terminal = true) (now : Int) {call : StoreCall} (workers : call.ByWorkers) :
    (store.perform now call).ops.get? id = some row ↔ (Releases row call → Released now row) := by
  rcases (perform_terminal found ended now workers).2 with ⟨other, same⟩ | ⟨releases, stamped⟩
  · exact ⟨fun _ releases => absurd releases other, fun _ => same⟩
  · rw [stamped, Option.some.injEq, releaseRow_eq_iff]
    exact ⟨fun still _ => still, fun still => still releases⟩

/-- **Terminal rows.**  Take any store and any calls on it, with claims made by workers.  A row
that has ended stays as it is, with its log, through all of them exactly if no call releases it
under its own token, other than at the instant it already carries and without a claim to drop. -/
theorem terminal_immutable_iff (found : store.ops.get? id = some row)
    (ended : row.state.terminal = true) (calls : List (Int × StoreCall))
    (workers : ∀ call ∈ calls, call.2.ByWorkers) :
    (∀ earlier, earlier <+: calls → (store.performAll earlier).ops.get? id = some row ∧
      (store.performAll earlier).eventsOf id = store.eventsOf id) ↔
    ∀ call ∈ calls, Releases row call.2 → Released call.1 row := by
  induction calls generalizing store with
  | nil =>
      refine ⟨fun _ => List.forall_mem_nil _, fun _ earlier early => ?_⟩
      rw [List.prefix_nil.mp early]
      exact ⟨found, rfl⟩
  | cons call calls ih =>
      obtain ⟨worker, workers⟩ := List.forall_mem_cons.mp workers
      have log := (perform_terminal found ended call.1 worker).1
      rw [List.forall_mem_cons, ← perform_terminal_iff found ended call.1 worker]
      constructor
      · intro kept
        have first := (kept [call] (List.prefix_append [call] calls)).1
        refine ⟨first, (ih first workers).mp fun earlier early => ?_⟩
        obtain ⟨row', log'⟩ := kept (call :: earlier) (List.prefix_cons_inj call |>.mpr early)
        exact ⟨row', log'.trans log.symm⟩
      · rintro ⟨first, rest⟩ earlier early
        rcases List.prefix_cons_iff.mp early with rfl | ⟨later, rfl, early'⟩
        · exact ⟨found, rfl⟩
        · obtain ⟨row', log'⟩ := (ih first workers).mpr rest later early'
          exact ⟨row', log'.trans log⟩

end Terminal

/-- A request that was claimed at 1 and rejected at 2. -/
def oneRejection : MemoryStore := empty.performAll
  [(0, .insertNew {
      operationId := 1
      requestHash := []
      state := .requested
      toAddress := "nowhere"
      asset := "USDT-TRC20"
      amountUnits := 1 }),
    (1, .claim OpState.claimable 10 "w1" (.finite 30 0)),
    (2, .cas {
      operationId := 1
      fencingToken := 1
      fromState := .requested
      toState := .rejected
      sets := { failureReason := some (some "invalid destination address") } })]

theorem terminal_immutable_others : ∃ row, oneRejection.ops.get? 1 = some row ∧
    row.state.terminal = true ∧ row.fencingToken = 1 ∧
    ∀ earlier, earlier <+: [(3, .release 1 0),
        (4, .claim OpState.claimable 10 "w2" (.finite 30 0)), (5, .insertNew row)] →
      (oneRejection.performAll earlier).ops.get? 1 = some row ∧
        (oneRejection.performAll earlier).eventsOf 1 = oneRejection.eventsOf 1 := by
  obtain ⟨row, found⟩ := Option.isSome_iff_exists.mp
    (show (oneRejection.ops.get? 1).isSome = true by decide)
  have facts : (oneRejection.ops.get? 1).all (fun row => row.state.terminal &&
      row.fencingToken = 1) = true := by decide
  rw [found, Option.all_some, Bool.and_eq_true, decide_eq_true_eq] at facts
  refine ⟨row, found, facts.1, facts.2, (terminal_immutable_iff found facts.1 _ ?_).mpr ?_⟩
  · simp [StoreCall.ByWorkers]
  intro call member releases
  rw [Releases, facts.2] at releases
  simp only [List.mem_cons, List.not_mem_nil, or_false] at member
  rcases member with rfl | rfl | rfl
  · exact absurd (StoreCall.release.inj releases).2 (by decide)
  · cases releases
  · cases releases

/-- **A rejected row that changes.**  The holder of its token releases it one tick later, and
`updated_at` moves. -/
theorem terminal_row_stamped : ∃ row row', oneRejection.ops.get? 1 = some row ∧
    row.state = .rejected ∧ row.updatedAt = some 2 ∧
    (oneRejection.performAll [(3, .release 1 1)]).ops.get? 1 = some row' ∧
    row'.updatedAt = some 3 :=
  ⟨_, _, rfl, rfl, rfl, rfl, rfl⟩

end Sluice.Kernel.MemoryStore
