/-
# Protocol.Lifetime -- every operation's life is bounded by its build attempts

Three edges lead back to `signing`, and each of them counts an attempt.  Between two
attempts the state only climbs, so attempts and state together bound how often the state
has changed (`changesBound`) and how often a send was announced (`sendsBound`); a write
raises a count by no more than it raises the bound (`Write.covers`).  The builder stops at
`max_build_attempts`, so the bounds are finite: a row past the builder has an attempt left.

The attempts are written from a snapshot, `op.attempts + 1`.  That the snapshot is the row
is what fencing is for, and what a `Commit` says.
-/
import Sluice.Protocol.DoubleSpend
import Mathlib.Data.List.Dedup
import Mathlib.Data.List.Perm.Subperm

namespace Sluice.Protocol

open Sluice.Theory Sluice.Kernel

set_option autoImplicit false

/-- The event took the operation from one state to another. -/
def changesState (e : Event) : Bool := e.fromState.any (· ≠ e.toState)

/-- The event announced a send. -/
def announces (e : Event) : Bool := e.fromState = some .signed ∧ e.toState = .broadcasting

/-- State changes after `attempts` retirements, at most, under a limit of `most`. -/
def changesBound (most attempts : Int) : OpState → Int
  | .requested => 0
  | .validated => 1
  | .signing => 4 * attempts + 2
  | .signed => 4 * attempts + 3
  | .broadcasting => 4 * attempts + 4
  | .broadcast => 4 * attempts + 5
  | .confirmed | .failed | .rejected => 4 * most + 3

/-- Announced sends, at most. -/
def sendsBound (most attempts : Int) : OpState → Int
  | .requested | .validated | .signing | .signed => attempts
  | .broadcasting | .broadcast | .confirmed => attempts + 1
  | .failed | .rejected => most

/-- What a row has used up, given the events of its operation.  A row with an envelope has an
attempt left: the builder looked. -/
structure Spent (most : Int) (row : Operation) (events : List Event) : Prop where
  natural : 0 ≤ row.attempts
  within : row.attempts ≤ most
  left : row.txid.isSome = true → row.attempts < most
  changes : (events.countP changesState : Int) ≤ changesBound most row.attempts row.state
  sends : (events.countP announces : Int) ≤ sendsBound most row.attempts row.state

/-- What a write leaves covers what it adds to the counts. -/
structure Covers (most : Int) (op : Operation) (toState : OpState) (attempts : Int)
    (txid : Option Hex) : Prop where
  natural : 0 ≤ attempts
  within : attempts ≤ most
  left : txid.isSome = true → attempts < most
  changes : changesBound most op.attempts op.state + (if op.state = toState then 0 else 1) ≤
    changesBound most attempts toState
  sends : sendsBound most op.attempts op.state +
    (if op.state = .signed ∧ toState = .broadcasting then 1 else 0) ≤
    sendsBound most attempts toState

section Writes

variable {D : Deployment} {p : Moment} {t : Nat} {op : Operation} {toState : OpState} {sets : Sets}
  {detail : Detail}

theorem Write.covers {most : Int} (limit : D.cfg.maxBuildAttempts ≤ most)
    (write : Write D p t op toState sets detail) (shape : Shape D op)
    (natural : 0 ≤ op.attempts) (within : op.attempts ≤ most)
    (left : op.txid.isSome = true → op.attempts < most) :
    Covers most op toState (sets.attempts.getD op.attempts) (sets.txid.getD op.txid) := by
  have spare : ∀ {tx}, op.signedTx = some tx → op.attempts < most := by
    intro tx signed
    exact left (by rw [(shape.sealed_of_signed signed).txid]; rfl)
  cases write with
  | reject state | validate state | startSigning state | giveUp state | sign state
  | writeAhead state | accepted state | noted state | found state =>
      refine ⟨natural, within, left, ?_, ?_⟩
      all_goals
        simp only [state, changesBound, sendsBound, Option.getD_none, reduceCtorEq, and_true,
          and_false, if_true, if_false]
        omega
  | build state open_ =>
      refine ⟨natural, within, fun _ => open_.trans_le limit, ?_, ?_⟩
      all_goals
        simp only [state, changesBound, sendsBound, Option.getD_none, reduceCtorEq, and_false,
          if_true, if_false]
        omega
  | hardReject state tx signed | confirm state tx signed | reverted state tx signed =>
      have spare := spare signed
      refine ⟨natural, within, left, ?_, ?_⟩
      all_goals
        simp only [state, changesBound, sendsBound, Option.getD_none, reduceCtorEq, and_false,
          if_false]
        omega
  | dropUnsent state tx signed =>
      have spare := spare signed
      refine ⟨Int.add_nonneg natural (by decide), spare, by simp [retireSets], ?_, ?_⟩
      all_goals
        simp only [state, retireSets, changesBound, sendsBound, Option.getD_some, reduceCtorEq,
          and_false, if_false]
        omega
  | retire state tx signed =>
      have spare := spare signed
      refine ⟨Int.add_nonneg natural (by decide), spare, by simp [retireSets], ?_, ?_⟩
      all_goals
        rcases state with state | state
        all_goals
          simp only [state, retireSets, changesBound, sendsBound, Option.getD_some, reduceCtorEq,
            and_false, if_false]
          omega
  | breadcrumb =>
      have still : ¬ (op.state = .signed ∧ op.state = .broadcasting) := by
        rintro ⟨signed, broadcasting⟩
        cases signed.symm.trans broadcasting
      exact ⟨natural, within, left, by simp, by simp [still]⟩

end Writes

section Rows

variable {D : Deployment} {row : Operation} {events : List Event}

/-- The bounds of a row are within those of its whole life. -/
theorem Spent.bounds {most : Int} (spent : Spent most row events) (shape : Shape D row) :
    changesBound most row.attempts row.state ≤ 4 * most + 3 ∧
      sendsBound most row.attempts row.state ≤ most := by
  have natural := spent.natural
  have within := spent.within
  have spare : (∃ tx, Sealed D row tx) → row.attempts < most := by
    rintro ⟨tx, stored⟩
    exact spent.left (by rw [stored.txid]; rfl)
  unfold Shape at shape
  cases state : row.state with
  | requested | validated | signing | failed | rejected =>
      simp only [changesBound, sendsBound]
      omega
  | signed | broadcasting | broadcast | confirmed =>
      rw [state] at shape
      have := spare shape
      simp only [changesBound, sendsBound]
      omega

end Rows

section Runs

variable {D : Deployment} {p : Moment} {c : Run} {id : UUID} {row : Operation}

theorem Commit.spent {most : Int} (limit : D.cfg.maxBuildAttempts ≤ most) (commit : Commit D p)
    (shape : Shape D commit.op)
    (spent : Spent most commit.op (p.world.store.eventsOf commit.op.operationId)) :
    Spent most commit.row (commit.step.after.store.eventsOf commit.op.operationId) := by
  have covers := commit.write.covers limit shape spent.natural spent.within spent.left
  have state : commit.row.state = commit.toState := MemoryStore.casRow_state _ _ _
  have attempts : commit.row.attempts = commit.sets.attempts.getD commit.op.attempts :=
    MemoryStore.casRow_attempts _ _ _
  have txid : commit.row.txid = commit.sets.txid.getD commit.op.txid :=
    MemoryStore.casRow_txid _ _ _
  refine ⟨attempts ▸ covers.natural, attempts ▸ covers.within, ?_, ?_, ?_⟩
  · rw [txid, attempts]
    exact covers.left
  · have one : (if changesState commit.event = true then 1 else 0 : Int) =
        if commit.op.state = commit.toState then 0 else 1 := by
      by_cases same : commit.op.state = commit.toState <;> simp [changesState, Commit.event, same]
    have before := spent.changes
    have after := covers.changes
    rw [commit.eventsOf, List.countP_append, List.countP_singleton, state, attempts]
    push_cast
    rw [one]
    omega
  · have one : (if announces commit.event = true then 1 else 0 : Int) =
        if commit.op.state = .signed ∧ commit.toState = .broadcasting then 1 else 0 := by
      simp [announces, Commit.event]
    have before := spent.sends
    have after := covers.sends
    rw [commit.eventsOf, List.countP_append, List.countP_singleton, state, attempts]
    push_cast
    rw [one]
    omega

theorem Passed.spent {most : Int} (natural : 0 ≤ most) (limit : D.cfg.maxBuildAttempts ≤ most)
    (passed : Passed D p) : ∀ id row, p.world.store.ops.get? id = some row →
      Spent most row (p.world.store.eventsOf id) := by
  refine passed.row_induction
    (J := fun p id row => Spent most row (p.world.store.eventsOf id)) ?_ ?_
  · -- one event, and it is not from any state
    intro p payload op w' _ _ valid _ events
    rw [Point.log_world, Label.after_acted, events, (validated_row valid).row]
    exact ⟨le_refl _, natural, nofun, le_refl _, le_refl _⟩
  intro p step id row row' passed _ _ found goes spent
  have key := p.world.store.keyed id row found
  subst key
  cases goes with
  | kept claimedBy leaseExpiresAt token updatedAt stamp log =>
      rw [Point.log_world, log]
      exact ⟨spent.natural, spent.within, spent.left, spent.changes, spent.sends⟩
  | written commit was source =>
      subst was source
      exact commit.spent limit (passed.inv.rows _ _ found).shape spent

/-- The transactions sent for an operation. -/
def sentTxids (trace : List Step) (id : UUID) : List Hex :=
  (trace.filterMap sending).filterMap fun sent => if sent.1 = id then some sent.2.txid else none

theorem mem_sentTxids {trace : List Step} {txid : Hex} :
    txid ∈ sentTxids trace id ↔
      ∃ step ∈ trace, ∃ tx, sending step = some (id, tx) ∧ tx.txid = txid := by
  simp only [sentTxids, List.mem_filterMap, Prod.exists]
  constructor
  · rintro ⟨other, tx, ⟨step, member, sent⟩, named⟩
    split at named
    · rename_i same
      cases named
      exact ⟨step, member, tx, same ▸ sent, rfl⟩
    · cases named
  · rintro ⟨step, member, tx, sent, rfl⟩
    exact ⟨id, tx, ⟨step, member, sent⟩, if_pos rfl⟩

/-- Every transaction sent was announced. -/
theorem sentTxids_le (reached : D.Reachable c) (id : UUID) :
    (sentTxids c.point.trace id).dedup.length ≤
      (c.point.world.store.eventsOf id).countP announces := by
  let announced := ((c.point.world.store.eventsOf id).filter announces).filterMap (·.detail.txid)
  have subset : (sentTxids c.point.trace id).dedup ⊆ announced := by
    intro txid member
    obtain ⟨step, logged, tx, sent, rfl⟩ := mem_sentTxids.mp (List.mem_dedup.mp member)
    obtain ⟨e, present, intent⟩ := sending_announced reached logged sent
    refine List.mem_filterMap.mpr ⟨e, List.mem_filter.mpr ⟨List.mem_filter.mpr ⟨present, ?_⟩, ?_⟩,
      intent.txid⟩
    · exact decide_eq_true intent.operationId
    · exact decide_eq_true ⟨intent.fromState, intent.toState⟩
  calc (sentTxids c.point.trace id).dedup.length
      ≤ announced.length := ((List.nodup_dedup _).subperm subset).length_le
    _ ≤ ((c.point.world.store.eventsOf id).filter announces).length :=
        List.length_filterMap_le _ _
    _ = (c.point.world.store.eventsOf id).countP announces := List.countP_eq_length_filter.symm

/-- **A bounded life.**  Whatever the interleaving and however long the run: no row has used
more than `max_build_attempts` attempts, no operation announced more sends than that, so no
more of its transactions were sent, and its state changed at most four times for each attempt
and three times besides. -/
theorem life_bounded (natural : 0 ≤ D.cfg.maxBuildAttempts) (reached : D.Reachable c)
    (found : c.point.world.store.ops.get? id = some row) :
    row.attempts ≤ D.cfg.maxBuildAttempts ∧
    ((c.point.world.store.eventsOf id).countP announces : Int) ≤ D.cfg.maxBuildAttempts ∧
    ((sentTxids c.point.trace id).dedup.length : Int) ≤ D.cfg.maxBuildAttempts ∧
    ((c.point.world.store.eventsOf id).countP changesState : Int) ≤
      4 * D.cfg.maxBuildAttempts + 3 := by
  have passed : Passed D c.point := ⟨c, reached, rfl⟩
  have spent := passed.spent natural (le_refl _) id row found
  have bounds := spent.bounds (passed.inv.rows id row found).shape
  refine ⟨spent.within, spent.sends.trans bounds.2, ?_, spent.changes.trans bounds.1⟩
  exact (Int.ofNat_le.mpr (sentTxids_le reached id)).trans (spent.sends.trans bounds.2)

/-- With one attempt allowed, a withdrawal that is sent, never mined and given up uses up all
of its life. -/
theorem life_bounded_attained : ∃ c row,
    { Sample.deployment with cfg := { maxBuildAttempts := 1 } }.Reachable c ∧
    c.point.world.store.ops.get? 0x11111111111141118111111111111111 = some row ∧
    row.attempts = 1 ∧ row.attempts ≤ 1 ∧
    (c.point.world.store.eventsOf 0x11111111111141118111111111111111).countP changesState =
      4 * 1 + 3 := by
  obtain ⟨c, reached, done⟩ := reachable_of_schedule
    (D := { Sample.deployment with cfg := { maxBuildAttempts := 1 } })
    (fun c => (c.point.world.store.ops.get? 0x11111111111141118111111111111111).any
        (fun row => row.attempts = 1) &&
      (c.point.world.store.eventsOf 0x11111111111141118111111111111111).countP changesState = 7)
    Sample.epoch (by decide)
    ([.act (.submit (Sample.request "11111111111141118111111111111111" "1")), .spawn "a"] ++
      Sample.serves 0 15 ++ [.act (.advance (600 * second)), .act (.produceBlocks 3)] ++
      Sample.serves 0 5) (by decide +kernel)
  obtain ⟨present, count⟩ := Bool.and_eq_true_iff.mp done
  obtain ⟨row, found, attempts⟩ := (Option.any_eq_true _ _).mp present
  exact ⟨c, row, reached, found, of_decide_eq_true attempts,
    (life_bounded (by decide) reached found).1, of_decide_eq_true count⟩

end Runs

end Sluice.Protocol
