/-
# Protocol.Idle -- what an idle answer means

`run_once` claims the `claim_batch` oldest free rows and answers how many of them advanced.
An answer of zero says that none of these moved on; it says nothing about the rows behind them,
and since rows that stay are released at once and remain the oldest, a worker with a full batch
of them never gets to the rest (`idle_behind_parked`).  And a row that sinks is not counted
either, though its state has changed.

`idle_iff` gives the exact condition on the rows, the clock and the chain beforehand.  It holds
of every state of every run in which at most `claim_batch` rows are free and none of them is
about to sink (`unblocked_of_few`).
-/
import Sluice.Protocol.Alone

namespace Sluice.Protocol

open Sluice.Theory Sluice.Kernel
open MemoryStore (claimRow releaseRow leased)

set_option autoImplicit false

/-! ## Driving -/

/-- The operations of a batch were looked at and given back. -/
structure GivenBack (D : Deployment) (w : World) (ops : List Operation) (w' : World) : Prop where
  view : SameView w w'
  others : ∀ id, (∀ op ∈ ops, op.operationId ≠ id) →
    w'.store.ops.get? id = w.store.ops.get? id
  rows : ∀ op ∈ ops, ∃ row, w'.store.ops.get? op.operationId = some row ∧
    row.state = rested D w op ∧ row.signedTx = op.signedTx ∧ row.attempts = op.attempts ∧
    row.leaseExpiresAt = none

/-- A row as a claimant holds it. -/
structure Taken (D : Deployment) (w : World) (op : Operation) : Prop where
  found : w.store.ops.get? op.operationId = some op
  live : op.state.terminal = false
  shape : Shape D op

section Drive

variable {D : Deployment} {w w₁ : World} {op next : Operation} {worker : String}

theorem Lingers.trans {last : Operation} {w₂ : World} (early : Lingers w op next w₁)
    (late : Lingers w₁ next last w₂) : Lingers w op last w₂ := by
  refine ⟨early.view.trans late.view, fun id other => ?_, late.operationId.trans early.operationId,
    late.fencingToken.trans early.fencingToken, late.signedTx.trans early.signedTx,
    late.attempts.trans early.attempts⟩
  rw [late.others id (by rw [early.operationId]; exact other), early.others id other]

/-- A row that has not moved on is given back. -/
theorem Lingers.release {advanced : Nat} (lingers : Lingers w op next w₁)
    (stored : w₁.store.ops.get? op.operationId = some next) (state : next.state = rested D w op)
    {held : Operation} (id : held.operationId = op.operationId)
    (token : held.fencingToken = op.fencingToken) :
    ∃ w', (Worker.release held advanced).run D.alone w₁ = (.ok advanced, w') ∧
      GivenBack D w [op] w' := by
  have released : w₁.store.release w₁.now held.operationId held.fencingToken =
      w₁.store.put (releaseRow w₁.now next) := by
    simp [MemoryStore.release, id, token, stored, lingers.fencingToken]
  have key : (releaseRow w₁.now next).operationId = op.operationId := lingers.operationId
  refine ⟨{ w₁ with store := w₁.store.put (releaseRow w₁.now next) }, ?_, ?_⟩
  · show (Except.ok advanced, { w₁ with store := w₁.store.release w₁.now held.operationId _ }) = _
    rw [released]
  have view := lingers.view
  refine ⟨⟨view.now, view.txs, view.blockTime, view.head, view.solidityLag, view.signer⟩,
    fun id other => ?_, fun op' member => ?_⟩
  · have other := other op List.mem_cons_self
    rw [MemoryStore.put_get?, key, if_neg (Ne.symm other), lingers.others id (Ne.symm other)]
  · cases List.mem_singleton.mp member
    refine ⟨releaseRow w₁.now next, ?_, state, lingers.signedTx, lingers.attempts, rfl⟩
    rw [MemoryStore.put_get?, key, if_pos rfl]

/-- The breadcrumb leaves a row as it is, up to the note. -/
theorem breadcrumb_lingers (D : Deployment) (op : Operation) (worker : String)
    (stored : w₁.store.ops.get? next.operationId = some next)
    (id : op.operationId = next.operationId) :
    ∃ written row w₂, D.alone (.cas (breadcrumb op worker)) w₁ = (.ok written, w₂) ∧
      w₂.store.ops.get? next.operationId = some row ∧ row.state = next.state ∧
      Lingers w₁ next row w₂ := by
  have answer : D.alone (.cas (breadcrumb op worker)) w₁ =
      ((w₁.store.cas w₁.now (breadcrumb op worker)).1,
        { w₁ with store := (w₁.store.cas w₁.now (breadcrumb op worker)).2 }) := rfl
  rw [answer]
  rcases w₁.store.cas_cases w₁.now (breadcrumb op worker) with ⟨illegal, _⟩ | ⟨_, same, _⟩ |
    ⟨_, row, found, _, state, _, ⟨beyond, _⟩ | ⟨_, same⟩⟩
  · simp [breadcrumb, snapshotRequest, OpState.canTransition] at illegal
  · rw [same]
    exact ⟨none, next, w₁, rfl, stored, rfl, .refl w₁, fun _ _ => rfl, rfl, rfl, rfl, rfl⟩
  · cases beyond
  · have found : w₁.store.ops.get? op.operationId = some row := found
    rw [id, stored] at found
    cases found
    rw [same]
    refine ⟨_, MemoryStore.casRow w₁.now (breadcrumb op worker) next, _, rfl, ?_, ?_,
      ⟨rfl, rfl, rfl, rfl, rfl, rfl⟩, fun other ne => ?_, ?_, ?_, ?_, ?_⟩
    · rw [MemoryStore.commit_get?, if_pos rfl]
    · rw [MemoryStore.casRow_state]
      exact state.symm
    · rw [MemoryStore.commit_get?, if_neg ne]
    · exact MemoryStore.casRow_operationId _ _ _
    · exact MemoryStore.casRow_fencingToken _ _ _
    · rw [MemoryStore.casRow_signedTx]
      rfl
    · rw [MemoryStore.casRow_attempts]
      rfl

/-- How the loop goes on after a macro step that returned. -/
theorem driveLoop_run {steps advanced : Nat}
    (stepped : (D.step op worker).run D.alone w = (.ok next, w₁)) :
    (Worker.driveLoop D.toPipeline worker (steps + 1) op advanced).run D.alone w =
      (if next.state.terminal then (pure 1 : Handler Nat)
        else if next.state = op.state then Worker.release next advanced
        else Worker.driveLoop D.toPipeline worker steps next 1).run D.alone w₁ := by
  show Program.run D.alone (Program.bind (Program.attempt (D.step op worker)) _) w = _
  rw [Program.run_bind, Program.run_attempt, stepped]
  by_cases same : next.state = op.state <;> simp [same]

/-- What a worker does after a handler has raised. -/
def fallBack (op : Operation) (advanced : Nat)
    (written : Except StoreError (Option Operation)) : Handler Nat :=
  match written with
  | .error e => Program.raise (.store e)
  | .ok _ => Worker.release op advanced

/-- How it goes on after one that raised. -/
theorem driveLoop_raised {steps advanced : Nat} {e : Exn}
    (fault : e ≠ .lostClaim ∧ ∀ point, e ≠ .simulatedCrash point)
    (stepped : (D.step op worker).run D.alone w = (.error e, w₁)) :
    (Worker.driveLoop D.toPipeline worker (steps + 1) op advanced).run D.alone w =
      (fallBack op advanced (D.alone (.cas (breadcrumb op worker)) w₁).1).run D.alone
        (D.alone (.cas (breadcrumb op worker)) w₁).2 := by
  have after : (Worker.driveLoop D.toPipeline worker (steps + 1) op advanced).run D.alone w = _ :=
    Program.run_bind _ _ _ _
  rw [after, Program.run_attempt, stepped]
  cases e with
  | lostClaim => exact absurd rfl fault.1
  | simulatedCrash point => exact absurd rfl (fault.2 point)
  | store | overflowError | typeError | keyError => rfl

/-- Once a row has advanced, its drive counts. -/
theorem driveLoop_advanced (steps : Nat) (op : Operation) (w : World) :
    ((Worker.driveLoop D.toPipeline worker steps op 1).run D.alone w).1 ≠ .ok 0 := by
  induction steps generalizing op w with
  | zero => exact nofun
  | succ steps ih =>
      rcases stepped : (D.step op worker).run D.alone w with ⟨exn | next, w'⟩
      · by_cases fault : exn ≠ .lostClaim ∧ ∀ point, exn ≠ .simulatedCrash point
        · rw [driveLoop_raised fault stepped]
          cases (D.alone (.cas (breadcrumb op worker)) w').1 with
          | error | ok => exact nofun
        · have after : (Worker.driveLoop D.toPipeline worker (steps + 1) op 1).run D.alone w = _ :=
            Program.run_bind _ _ _ _
          rw [after, Program.run_attempt, stepped]
          cases exn with
          | lostClaim | simulatedCrash => exact nofun
          | store | overflowError | typeError | keyError => exact absurd ⟨nofun, nofun⟩ fault
      · rw [driveLoop_run stepped]
        split
        · exact nofun
        · split
          · exact nofun
          · exact ih next w'

theorem rested_live (live : op.state.terminal = false) : (rested D w op).terminal = false := by
  cases look : outlook D w op with
  | moves | stays => rw [rested, look]; exact live
  | sinks => rcases sinks_cases look with ⟨_, state⟩ | ⟨_, state⟩ <;> rw [state] <;> rfl

theorem drive_idle (worker : String) (season : D.InSeason w.now) (taken : Taken D w op)
    (calm : trouble w = 0) (look : outlook D w op ≠ .moves) :
    ∃ w', (Worker.drive D.toPipeline worker op).run D.alone w = (.ok 0, w') ∧
      GivenBack D w [op] w' := by
  have ends := step_ends worker season taken.found taken.live taken.shape
  unfold Program.Yields at ends
  rw [Worker.drive, maxStepsPerClaim]
  generalize run : (D.step op worker).run D.alone w = ended at ends
  obtain ⟨outcome, w₁⟩ := ended
  cases ends with
  | calmer less => omega
  | moved moves => exact absurd moves look
  | @stayed next _ stays stored same lingers =>
      rw [driveLoop_run run, if_neg (by rw [same, taken.live]; simp), if_pos same]
      exact lingers.release stored (same.trans (rested_of_stays stays).symm) lingers.operationId
        lingers.fencingToken
  | @raised e next _ fault _ stored state lingers =>
      obtain ⟨written, row, w₂, answer, stored', same, lingers'⟩ :=
        breadcrumb_lingers D op worker (lingers.operationId.symm ▸ stored)
          lingers.operationId.symm
      rw [driveLoop_raised (by rcases fault with rfl | rfl <;> exact ⟨nofun, nofun⟩) run, answer]
      exact (lingers.trans lingers').release (lingers.operationId ▸ stored') (same.trans state)
        rfl rfl

theorem drive_moves (worker : String) (season : D.InSeason w.now) (taken : Taken D w op)
    (calm : trouble w = 0) (look : outlook D w op = .moves) :
    ((Worker.drive D.toPipeline worker op).run D.alone w).1 ≠ .ok 0 := by
  have ends := step_ends worker season taken.found taken.live taken.shape
  unfold Program.Yields at ends
  rw [Worker.drive, maxStepsPerClaim]
  generalize run : (D.step op worker).run D.alone w = ended at ends
  obtain ⟨outcome, w₁⟩ := ended
  cases ends with
  | calmer less => omega
  | moved _ stored changed =>
      rw [driveLoop_run run, if_neg changed]
      split
      · exact nofun
      · exact driveLoop_advanced _ _ _
  | stayed stays => cases look.symm.trans stays
  | raised _ other => exact absurd look other

/-- The reports of a batch are added up. -/
theorem driveAll_of_ok {rest : List Operation} {advanced : Nat} {w₁ : World}
    (driven : (Worker.drive D.toPipeline worker op).run D.alone w = (.ok advanced, w₁)) :
    (Worker.driveAll D.toPipeline worker (op :: rest)).run D.alone w =
      (((Worker.driveAll D.toPipeline worker rest).run D.alone w₁).1.map (advanced + ·),
        ((Worker.driveAll D.toPipeline worker rest).run D.alone w₁).2) := by
  refine (Program.run_bind _ _ _ _).trans ?_
  rw [driven]
  refine (Program.run_bind _ _ _ _).trans ?_
  rcases (Worker.driveAll D.toPipeline worker rest).run D.alone w₁ with ⟨exn | others, w₂⟩ <;> rfl

theorem map_eq_ok_zero {outcome : Except Exn Nat} {advanced : Nat} :
    outcome.map (advanced + ·) = .ok 0 ↔ advanced = 0 ∧ outcome = .ok 0 := by
  cases outcome <;> simp [Except.map]

theorem driveAll_awake (rest : List Operation)
    (counts : ((Worker.drive D.toPipeline worker op).run D.alone w).1 ≠ .ok 0) :
    ((Worker.driveAll D.toPipeline worker (op :: rest)).run D.alone w).1 ≠ .ok 0 := by
  rcases driven : (Worker.drive D.toPipeline worker op).run D.alone w with ⟨exn | advanced, w₁⟩
  · have ended : (Worker.driveAll D.toPipeline worker (op :: rest)).run D.alone w = _ :=
      Program.run_bind _ _ _ _
    rw [ended, driven]
    exact nofun
  · rw [driveAll_of_ok driven]
    intro idle
    rw [driven, (map_eq_ok_zero.mp idle).1] at counts
    exact counts rfl

theorem GivenBack.cons {rest : List Operation} {w₁ w₂ : World} (first : GivenBack D w [op] w₁)
    (others : GivenBack D w₁ rest w₂)
    (elsewhere : ∀ other ∈ rest, other.operationId ≠ op.operationId) :
    GivenBack D w (op :: rest) w₂ := by
  have seen : ∀ other, rested D w₁ other = rested D w other := fun other => by
    unfold rested
    rw [outlook_congr first.view rfl rfl rfl]
  refine ⟨first.view.trans others.view, fun id other => ?_, List.forall_mem_cons.mpr ⟨?_, ?_⟩⟩
  · obtain ⟨here, there⟩ := List.forall_mem_cons.mp other
    rw [others.others id there, first.others id (by simpa using here)]
  · rw [others.others op.operationId elsewhere]
    exact first.rows op List.mem_cons_self
  · simpa only [seen] using others.rows

/-- A batch is reported idle exactly if nothing of it moves on, and then it is given back. -/
theorem driveAll_ends (worker : String) (ops : List Operation) : ∀ w : World,
    D.InSeason w.now → trouble w = 0 → (ops.map (·.operationId)).Nodup →
    (∀ op ∈ ops, Taken D w op) →
    (((Worker.driveAll D.toPipeline worker ops).run D.alone w).1 = .ok 0 ↔
      ∀ op ∈ ops, outlook D w op ≠ .moves) ∧
    ((∀ op ∈ ops, outlook D w op ≠ .moves) →
      GivenBack D w ops ((Worker.driveAll D.toPipeline worker ops).run D.alone w).2) := by
  induction ops with
  | nil =>
      intro w _ _ _ _
      exact ⟨⟨fun _ => List.forall_mem_nil _, fun _ => rfl⟩,
        fun _ => ⟨.refl w, fun _ _ => rfl, List.forall_mem_nil _⟩⟩
  | cons op rest ih =>
      intro w season calm distinct taken
      obtain ⟨fresh, distinct⟩ := List.nodup_cons.mp distinct
      obtain ⟨taken₀, taken⟩ := List.forall_mem_cons.mp taken
      rw [List.forall_mem_cons]
      by_cases look : outlook D w op = .moves
      · -- this row advances, whatever comes after it
        have counts := driveAll_awake rest (drive_moves worker season taken₀ calm look)
        exact ⟨⟨fun idle => absurd idle counts, fun all => absurd look all.1⟩,
          fun all => absurd look all.1⟩
      · obtain ⟨w₁, driven, back⟩ := drive_idle worker season taken₀ calm look
        have elsewhere : ∀ other ∈ rest, other.operationId ≠ op.operationId :=
          fun other member same => fresh (List.mem_map.mpr ⟨other, member, same⟩)
        have calm₁ : trouble w₁ = 0 := by
          have less := run_trouble D w (Worker.drive D.toPipeline worker op)
          rw [driven, calm] at less
          exact Nat.le_zero.mp less
        have taken₁ : ∀ other ∈ rest, Taken D w₁ other := by
          intro other member
          obtain ⟨found, live, shape⟩ := taken other member
          refine ⟨?_, live, shape⟩
          rw [back.others _ (by simpa using (elsewhere other member).symm)]
          exact found
        have seen : ∀ other, outlook D w₁ other = outlook D w other :=
          fun other => outlook_congr back.view rfl rfl rfl
        obtain ⟨idle, returned⟩ := ih w₁ (back.view.now ▸ season) calm₁ distinct taken₁
        simp only [seen] at idle returned
        rw [driveAll_of_ok driven, map_eq_ok_zero, idle]
        exact ⟨and_congr_left fun _ => by simp [look],
          fun all => back.cons (returned all.2) elsewhere⟩

end Drive

/-! ## One round -/

/-- The free rows, in order of arrival. -/
def waiting (w : World) : List Operation := w.store.free w.now OpState.claimable

/-- The rows that the next round claims. -/
def batch (D : Deployment) (w : World) : List Operation := (waiting w).take D.cfg.claimBatch

/-- Where the next batch comes to rest its rows stay, and so do the rows behind it. -/
def Quiet (D : Deployment) (w : World) : Prop :=
  (∀ op ∈ batch D w, outlook D w { op with state := rested D w op } = .stays) ∧
    ∀ op ∈ (waiting w).drop D.cfg.claimBatch, outlook D w op = .stays

instance (D : Deployment) (w : World) : Decidable (Quiet D w) :=
  inferInstanceAs (Decidable (_ ∧ _))

/-- If a round can claim and nothing that it claims moves on, then all is quiet. -/
def Unblocked (D : Deployment) (w : World) : Prop :=
  D.InSeason w.now → (∀ op ∈ batch D w, outlook D w op ≠ .moves) → Quiet D w

/-- A macro step on a fresh claim of this row would leave its state. -/
def StaysPut (D : Deployment) (w : World) (row : Operation) : Prop :=
  ∀ worker expiry, D.cfg.leaseSeconds.after w.now = some expiry →
    (D.step (claimRow w.now worker expiry row) worker).Yields D.alone
      (fun outcome w' => ∃ next, w'.store.ops.get? row.operationId = some next ∧
        next.state = row.state ∧ ∀ op, outcome = .ok op → op = next)
      { w with store := w.store.put (claimRow w.now worker expiry row) }

/-- Every free row would stay. -/
def Idle (D : Deployment) (w : World) : Prop :=
  ∀ id row, w.store.ops.get? id = some row → row.state.terminal = false →
    leased w.now row = false → StaysPut D w row

section Round

variable {D : Deployment} {w w' : World} {op row : Operation} {worker : String} {expiry : Int}

theorem mem_waiting : op ∈ waiting w ↔ w.store.ops.get? op.operationId = some op ∧
    op.state.terminal = false ∧ leased w.now op = false := by
  simp only [waiting, MemoryStore.free, MemoryStore.candidates, List.mem_filter,
    List.mem_insertionSort, decide_eq_true_eq, OpState.mem_claimable_iff, Dict.mem_values_iff,
    Bool.not_eq_true']
  constructor
  · rintro ⟨⟨⟨id, found⟩, live⟩, free⟩
    rw [w.store.keyed id op found]
    exact ⟨found, live, free⟩
  · rintro ⟨found, live, free⟩
    exact ⟨⟨⟨_, found⟩, live⟩, free⟩

theorem Shape.claimRow (shape : Shape D row) (now : Int) (worker : String) (expiry : Int) :
    Shape D (claimRow now worker expiry row) :=
  shape.congr rfl rfl rfl rfl rfl rfl rfl rfl

/-- Staying put is the outlook of a row that stays. -/
theorem staysPut_iff (season : D.InSeason w.now) (calm : trouble w = 0) (member : row ∈ waiting w)
    (shape : Shape D row) : StaysPut D w row ↔ outlook D w row = .stays := by
  obtain ⟨_, live, _⟩ := mem_waiting.mp member
  have ends : ∀ worker expiry, (D.step (claimRow w.now worker expiry row) worker).Yields D.alone
      (StepEnds D { w with store := w.store.put (claimRow w.now worker expiry row) }
        (claimRow w.now worker expiry row))
      { w with store := w.store.put (claimRow w.now worker expiry row) } := fun worker expiry =>
    step_ends worker season (by rw [MemoryStore.put_get?, if_pos rfl]) live
      (Shape.claimRow shape w.now worker expiry)
  have seen : ∀ worker expiry,
      outlook D { w with store := w.store.put (claimRow w.now worker expiry row) }
        (claimRow w.now worker expiry row) = outlook D w row := fun worker expiry =>
    outlook_congr ⟨rfl, rfl, rfl, rfl, rfl, rfl⟩ rfl rfl rfl
  constructor
  · intro stays
    obtain ⟨expiry, lands⟩ := Option.isSome_iff_exists.mp season
    obtain ⟨next, stored, same, returned⟩ := stays "" expiry lands
    have ends := ends "" expiry
    unfold Program.Yields at ends
    rw [← seen "" expiry]
    generalize Program.run D.alone _ _ = ended at ends stored returned
    obtain ⟨outcome, w'⟩ := ended
    cases ends with
    | calmer less => exact absurd (less.trans_eq calm) (Nat.not_lt_zero _)
    | moved _ stored' changed =>
        cases stored.symm.trans stored'
        exact absurd same changed
    | stayed look => exact look
    | raised _ look stored' state =>
        cases stored.symm.trans stored'
        -- a sunk row is in another state
        cases sinks : outlook D _ (claimRow w.now "" expiry row) with
        | moves => exact absurd sinks look
        | stays => rfl
        | sinks =>
            have same : rested D _ (claimRow w.now "" expiry row) = row.state :=
              state.symm.trans same
            rcases sinks_cases sinks with ⟨was, is⟩ | ⟨was, is⟩
            · cases (is.symm.trans same).trans was
            · cases (is.symm.trans same).trans was
  · intro look worker expiry lands
    have ends := ends worker expiry
    have look := (seen worker expiry).trans look
    unfold Program.Yields at ends ⊢
    generalize Program.run D.alone _ _ = ended at ends ⊢
    obtain ⟨outcome, w'⟩ := ended
    cases ends with
    | calmer less => exact absurd (less.trans_eq calm) (Nat.not_lt_zero _)
    | moved moves => cases look.symm.trans moves
    | stayed _ stored same =>
        exact ⟨_, stored, same, fun op returned => by cases returned; rfl⟩
    | raised _ _ stored state =>
        refine ⟨_, stored, state.trans (rested_of_stays look), ?_⟩
        rintro _ ⟨⟩

/-- The world right after a round's claim. -/
def afterClaim (D : Deployment) (w : World) (worker : String) : World :=
  { w with store := (w.store.claim w.now OpState.claimable D.cfg.claimBatch worker
      D.cfg.leaseSeconds).2 }

theorem outlook_claimed (row : Operation) :
    outlook D (afterClaim D w worker) (claimRow w.now worker expiry row) = outlook D w row :=
  outlook_congr ⟨rfl, rfl, rfl, rfl, rfl, rfl⟩ rfl rfl rfl

theorem claim_batch (worker : String) (lands : D.cfg.leaseSeconds.after w.now = some expiry) :
    (w.store.claim w.now OpState.claimable D.cfg.claimBatch worker D.cfg.leaseSeconds).1 =
      .ok ((batch D w).map (claimRow w.now worker expiry)) := by
  rw [w.store.claim_of_some lands]
  rfl

theorem runOnce_run (lands : D.cfg.leaseSeconds.after w.now = some expiry) :
    (Worker.runOnce D.toPipeline worker).run D.alone w =
      (Worker.driveAll D.toPipeline worker ((batch D w).map (claimRow w.now worker expiry))).run
        D.alone (afterClaim D w worker) := by
  have claimed : D.alone (.claim OpState.claimable D.cfg.claimBatch worker D.cfg.leaseSeconds) w =
      (.ok ((batch D w).map (claimRow w.now worker expiry)), afterClaim D w worker) :=
    Prod.ext (claim_batch worker lands) rfl
  show Program.run D.alone (Program.bind (Program.ask _) _) w = _
  rw [Program.run_bind, Program.ask, Program.run, claimed]
  rfl

/-- What a round claims it has taken. -/
theorem taken_of_claimed (shapes : ∀ id row, w.store.ops.get? id = some row → Shape D row)
    (lands : D.cfg.leaseSeconds.after w.now = some expiry)
    (member : op ∈ (batch D w).map (claimRow w.now worker expiry)) :
    Taken D (afterClaim D w worker) op := by
  obtain ⟨⟨row, expiry', found, wanted, _, _, rfl⟩, stored⟩ :=
    MemoryStore.mem_claim (claim_batch _ lands) member
  exact ⟨stored, (OpState.mem_claimable_iff _).mp wanted, Shape.claimRow (shapes _ _ found) _ _ _⟩

/-- A row and what it looks like after a round that gave everything back. -/
structure Alike (D : Deployment) (w : World) (row : Operation) (w' : World) (row' : Operation) :
    Prop where
  signedTx : row'.signedTx = row.signedTx
  attempts : row'.attempts = row.attempts
  leased : leased w'.now row' = leased w.now row
  state : row ∈ batch D w ∧ row'.state = rested D w row ∨
    row ∉ batch D w ∧ row'.state = row.state

theorem GivenBack.alike (id : UUID) (lands : D.cfg.leaseSeconds.after w.now = some expiry)
    (back : GivenBack D (afterClaim D w worker)
      ((batch D w).map (claimRow w.now worker expiry)) w') :
    (w.store.ops.get? id = none ∧ w'.store.ops.get? id = none) ∨
      ∃ row row', w.store.ops.get? id = some row ∧ w'.store.ops.get? id = some row' ∧
        Alike D w row w' row' := by
  have now : w'.now = w.now := back.view.now
  have claimed := claim_batch worker lands
  rcases w.store.claim_row w.now OpState.claimable D.cfg.claimBatch worker D.cfg.leaseSeconds id
    with ⟨same, elsewhere⟩ | ⟨row, expiry', ops, found, _, free, lands', answer, member, _⟩ |
      ⟨_, _, _, _, beyond, _⟩
  · have elsewhere := elsewhere _ claimed
    have same : w'.store.ops.get? id = w.store.ops.get? id := (back.others id elsewhere).trans same
    rw [same]
    cases found : w.store.ops.get? id with
    | none => exact .inl ⟨rfl, rfl⟩
    | some row =>
        refine .inr ⟨row, row, rfl, rfl, rfl, rfl, by rw [now], .inr ⟨fun member => ?_, rfl⟩⟩
        exact elsewhere _ (List.mem_map_of_mem member) (w.store.keyed id row found)
  · cases lands.symm.trans lands'
    cases claimed.symm.trans answer
    obtain ⟨row', found', state, signed, attempts, lease⟩ := back.rows _ member
    have key := w.store.keyed id row found
    rw [MemoryStore.claimRow_operationId, key] at found'
    refine .inr ⟨row, row', found, found', signed, attempts, by rw [free, leased, lease],
      .inl ⟨?_, ?_⟩⟩
    · obtain ⟨old, taken, same⟩ := List.mem_map.mp member
      have old_found := (mem_waiting.mp (List.mem_of_mem_take taken)).1
      have ids := congrArg Operation.operationId same
      rw [MemoryStore.claimRow_operationId, MemoryStore.claimRow_operationId] at ids
      rw [ids, key, found] at old_found
      cases old_found
      exact taken
    · rw [state]
      unfold rested
      rw [outlook_claimed]
      rfl
  · cases lands.symm.trans beyond

theorem alike_waiting {row' : Operation} (view : SameView w w')
    (found : w.store.ops.get? row.operationId = some row)
    (found' : w'.store.ops.get? row'.operationId = some row') (alike : Alike D w row w' row') :
    (row' ∈ waiting w' ↔ row ∈ waiting w) ∧
      outlook D w' row' = outlook D w { row with state := row'.state } := by
  have live : row.state.terminal = false ↔ row'.state.terminal = false := by
    rcases alike.state with ⟨member, state⟩ | ⟨_, state⟩
    · have live := (mem_waiting.mp (List.mem_of_mem_take member)).2.1
      rw [state, rested_live live, live]
    · rw [state]
  rw [mem_waiting, mem_waiting, alike.leased, ← live]
  exact ⟨by simp [found, found'], outlook_congr view rfl alike.signedTx alike.attempts⟩

/-- After a round that gave everything back, the free rows stay exactly if those of the batch
have come to rest and the others stayed before. -/
theorem GivenBack.stays_iff (lands : D.cfg.leaseSeconds.after w.now = some expiry)
    (back : GivenBack D (afterClaim D w worker)
      ((batch D w).map (claimRow w.now worker expiry)) w') :
    (∀ op ∈ waiting w', outlook D w' op = .stays) ↔ Quiet D w := by
  have claim : SameView w (afterClaim D w worker) := ⟨rfl, rfl, rfl, rfl, rfl, rfl⟩
  have view := claim.trans back.view
  have split : ∀ {row}, row ∈ waiting w → row ∈ batch D w ∨
      row ∈ (waiting w).drop D.cfg.claimBatch := fun {row} member =>
    List.mem_append.mp ((List.take_append_drop D.cfg.claimBatch (waiting w)).symm ▸ member)
  constructor
  · intro all
    -- every free row has its counterpart afterwards
    have after : ∀ row ∈ waiting w, ∃ row', Alike D w row w' row' ∧
        outlook D w { row with state := row'.state } = .stays := by
      intro row member
      obtain ⟨found, _⟩ := mem_waiting.mp member
      rcases back.alike row.operationId lands with ⟨absent, _⟩ | ⟨_, row', found₀, found', alike⟩
      · cases found.symm.trans absent
      cases found.symm.trans found₀
      have key := w'.store.keyed _ _ found'
      obtain ⟨free, same⟩ := alike_waiting view found (key ▸ found') alike
      exact ⟨row', alike, same ▸ all row' (free.mpr member)⟩
    refine ⟨fun row member => ?_, fun row member => ?_⟩
    · obtain ⟨row', alike, stays⟩ := after row (List.mem_of_mem_take member)
      rcases alike.state with ⟨_, state⟩ | ⟨behind, _⟩
      · rw [← state]
        exact stays
      · exact absurd member behind
    · obtain ⟨row', alike, stays⟩ := after row (List.mem_of_mem_drop member)
      rcases alike.state with ⟨taken, _⟩ | ⟨_, state⟩
      · have distinct : (waiting w).Nodup :=
          List.Nodup.of_map _ (w.store.free_ids_nodup w.now OpState.claimable)
        rw [← List.take_append_drop D.cfg.claimBatch (waiting w)] at distinct
        exact absurd member (List.disjoint_of_nodup_append distinct taken)
      · rw [state] at stays
        exact stays
  · rintro ⟨rests, stays⟩ row' member
    obtain ⟨found', _⟩ := mem_waiting.mp member
    rcases back.alike row'.operationId lands with ⟨_, absent⟩ | ⟨row, _, found, found₀, alike⟩
    · cases found'.symm.trans absent
    cases found'.symm.trans found₀
    have key := w.store.keyed _ _ found
    obtain ⟨free, same⟩ := alike_waiting view (key ▸ found) found' alike
    rw [same]
    rcases alike.state with ⟨taken, state⟩ | ⟨behind, state⟩
    · rw [state]
      exact rests row taken
    · rw [state]
      exact stays row ((split (free.mp member)).resolve_left behind)

/-- In season, a round answers zero exactly if nothing that it claims moves on. -/
theorem runOnce_ends (worker : String) (season : D.InSeason w.now) (calm : trouble w = 0)
    (shapes : ∀ id row, w.store.ops.get? id = some row → Shape D row) :
    (((Worker.runOnce D.toPipeline worker).run D.alone w).1 = .ok 0 ↔
      ∀ op ∈ batch D w, outlook D w op ≠ .moves) ∧
    (((Worker.runOnce D.toPipeline worker).run D.alone w).1 = .ok 0 →
      ((∀ op ∈ waiting ((Worker.runOnce D.toPipeline worker).run D.alone w).2,
        outlook D ((Worker.runOnce D.toPipeline worker).run D.alone w).2 op = .stays) ↔
      Quiet D w)) := by
  obtain ⟨expiry, lands⟩ := Option.isSome_iff_exists.mp season
  have distinct := MemoryStore.claim_ids_nodup
    (claim_batch worker lands)
  obtain ⟨idle, back⟩ := driveAll_ends (D := D) worker _ (afterClaim D w worker) season calm
    distinct fun op member => taken_of_claimed shapes lands member
  rw [List.forall_mem_map] at idle back
  simp only [outlook_claimed] at idle back
  rw [runOnce_run lands]
  refine ⟨idle, fun zero => ?_⟩
  exact (back (idle.mp zero)).stays_iff lands

end Round

/-! ## Runs -/

section Runs

variable {D : Deployment} {c : Run}

theorem Idle.iff_stays (passed : Passed D c.point) (season : D.InSeason c.point.world.now)
    (calm : trouble c.point.world = 0) : Idle D c.point.world ↔
      ∀ op ∈ waiting c.point.world, outlook D c.point.world op = .stays := by
  have shapes : ∀ id row, c.point.world.store.ops.get? id = some row → Shape D row :=
    fun id row found => (passed.inv.rows id row found).shape
  constructor
  · intro idle row member
    obtain ⟨found, live, free⟩ := mem_waiting.mp member
    exact (staysPut_iff season calm member (shapes _ _ found)).mp (idle _ row found live free)
  · intro all id row found live free
    have key := c.point.world.store.keyed id row found
    have member := mem_waiting.mpr ⟨key ▸ found, live, free⟩
    exact (staysPut_iff season calm member (shapes _ _ found)).mpr (all row member)

/-- A worker that runs alone does not move the clock. -/
theorem run_now {X α : Type} (program : Program Call Reply X α) (w : World) :
    (program.run D.alone w).2.now = w.now :=
  Program.run_keeps (J := fun w' => w'.now = w.now)
    (fun call w' same => by cases call <;> exact same) program w rfl

/-- After a round that answered zero, the free rows stay put exactly if all was quiet before. -/
theorem idle_after {worker : String} {w' : World} (reached : D.Reachable c)
    (calm : trouble c.point.world = 0)
    (ended : (Worker.runOnce D.toPipeline worker).run D.alone c.point.world = (.ok 0, w')) :
    Idle D w' ↔ (D.InSeason c.point.world.now → Quiet D c.point.world) := by
  have now := run_now (D := D) (Worker.runOnce D.toPipeline worker) c.point.world
  rw [ended] at now
  by_cases season : D.InSeason c.point.world.now
  swap
  · -- nobody can claim anything
    refine ⟨fun _ hopes => absurd hopes season, fun _ id row _ _ _ worker expiry lands => ?_⟩
    rw [now] at lands
    exact absurd (Option.isSome_iff_exists.mpr ⟨expiry, lands⟩) season
  have passed : Passed D c.point := ⟨c, reached, rfl⟩
  have same := (runOnce_ends worker season calm fun id row found =>
    (passed.inv.rows id row found).shape).2 (congrArg Prod.fst ended)
  have calm' := run_trouble D c.point.world (Worker.runOnce D.toPipeline worker)
  obtain ⟨c', later, world⟩ := runsOnce_exists D worker c
  rw [ended] at same calm' world
  rw [calm] at calm'
  subst world
  rw [Idle.iff_stays ⟨c', reachable_later reached later.reaches, rfl⟩
    ((show c'.point.world.now = _ from now) ▸ season) (Nat.le_zero.mp calm'), same]
  exact ⟨fun quiet _ => quiet, fun quiet => quiet season⟩

/-- Where the last round of `drain` begins. -/
def lastRound (D : Deployment) (worker : String) : Nat → World → World
  | 0, w => w
  | rounds + 1, w =>
      match (Worker.runOnce D.toPipeline worker).run D.alone w with
      | (.ok advanced, w') => if advanced = 0 then w else lastRound D worker rounds w'
      | (.error _, _) => w

theorem drainLoop_run (rounds : Nat) (worker : String) (w : World) :
    (Worker.drainLoop D.toPipeline worker (rounds + 1)).run D.alone w =
      match (Worker.runOnce D.toPipeline worker).run D.alone w with
      | (.ok advanced, w') =>
          if advanced = 0 then (.ok (), w')
          else (Worker.drainLoop D.toPipeline worker rounds).run D.alone w'
      | (.error error, w') => (.error (.raised error), w') := by
  refine (Program.run_bind _ _ _ _).trans ?_
  rw [Program.run_attempt]
  rcases (Worker.runOnce D.toPipeline worker).run D.alone w with ⟨error | advanced, w'⟩
  · rfl
  · dsimp only
    split <;> rfl

/-- When `drain` returns, its last round answered zero. -/
theorem drainLoop_ends (worker : String) (rounds : Nat) : ∀ (c : Run) (w' : World),
    D.Reachable c → trouble c.point.world = 0 →
    (Worker.drainLoop D.toPipeline worker rounds).run D.alone c.point.world = (.ok (), w') →
    ∃ c₁, D.machine.Reaches c c₁ ∧ c₁.point.world = lastRound D worker rounds c.point.world ∧
      trouble c₁.point.world = 0 ∧
      (Worker.runOnce D.toPipeline worker).run D.alone c₁.point.world = (.ok 0, w') := by
  induction rounds with
  | zero => exact fun c w' _ _ done => by cases done
  | succ rounds ih =>
      intro c w' reached calm done
      rw [drainLoop_run] at done
      rw [lastRound]
      rcases round : (Worker.runOnce D.toPipeline worker).run D.alone c.point.world with
        ⟨error | advanced, w₁⟩
      · rw [round] at done
        cases done
      rw [round] at done
      dsimp only at done ⊢
      split at done
      · rename_i none_
        cases done
        exact ⟨c, .refl, by rw [if_pos none_], calm, by rw [round, none_]⟩
      · rename_i some_
        rw [if_neg some_]
        obtain ⟨c', later, world⟩ := runsOnce_exists D worker c
        have calm' := run_trouble D c.point.world (Worker.runOnce D.toPipeline worker)
        rw [← world, calm] at calm'
        rw [round] at world
        obtain ⟨c₁, later₁, at₁, calm₁, last⟩ := ih c' w' (reachable_later reached later.reaches)
          (Nat.le_zero.mp calm') (by rw [world]; exact done)
        exact ⟨c₁, later.reaches.trans later₁, by rw [at₁, world], calm₁, last⟩

/-- Nothing is hidden behind a batch that takes every free row, if none of them sinks. -/
theorem unblocked_of_few {w : World} (few : (waiting w).length ≤ D.cfg.claimBatch)
    (afloat : ∀ op ∈ waiting w, outlook D w op ≠ .sinks) : Unblocked D w := by
  intro _ still
  refine ⟨fun op member => ?_, by rw [List.drop_eq_nil_of_le few]; exact List.forall_mem_nil _⟩
  have stays : outlook D w op = .stays := by
    cases look : outlook D w op with
    | moves => exact absurd look (still op member)
    | stays => rfl
    | sinks => exact absurd look (afloat op (List.mem_of_mem_take member))
  rw [rested_of_stays stays]
  exact stays

/-- **An idle answer.**  Let one worker run alone, without scripted faults or armed crash
points, from any state of any run.  That an answer of zero means that every free row would
stay put holds exactly if the state is unblocked.  When `drain` returns, its last round answered
zero, and then every free row would stay put exactly if the state in which that round began was
unblocked. -/
theorem idle_iff (reached : D.Reachable c) (calm : trouble c.point.world = 0) (worker : String) :
    ((∀ w', (Worker.runOnce D.toPipeline worker).run D.alone c.point.world = (.ok 0, w') →
      Idle D w') ↔ Unblocked D c.point.world) ∧
    ∀ w', (Worker.drain D.toPipeline worker).run D.alone c.point.world = (.ok (), w') →
      (∃ c₁, D.machine.Reaches c c₁ ∧ c₁.point.world = lastRound D worker 1000 c.point.world) ∧
        (Worker.runOnce D.toPipeline worker).run D.alone (lastRound D worker 1000 c.point.world) =
          (.ok 0, w') ∧
        (Idle D w' ↔ Unblocked D (lastRound D worker 1000 c.point.world)) := by
  have answers : ∀ {c : Run}, D.Reachable c → trouble c.point.world = 0 →
      D.InSeason c.point.world.now →
      (((Worker.runOnce D.toPipeline worker).run D.alone c.point.world).1 = .ok 0 ↔
        ∀ op ∈ batch D c.point.world, outlook D c.point.world op ≠ .moves) :=
    fun {c} reached calm season => (runOnce_ends worker season calm fun id row found =>
      ((Passed.inv ⟨c, reached, rfl⟩).rows id row found).shape).1
  constructor
  · constructor
    · intro idle season still
      have ended : (Worker.runOnce D.toPipeline worker).run D.alone c.point.world = (.ok 0, _) :=
        Prod.ext ((answers reached calm season).mpr still) rfl
      exact (idle_after reached calm ended).mp (idle _ ended) season
    · intro unblocked w' ended
      refine (idle_after reached calm ended).mpr fun season => unblocked season ?_
      exact (answers reached calm season).mp (congrArg Prod.fst ended)
  · intro w' drained
    obtain ⟨c₁, later, at₁, calm₁, last⟩ := drainLoop_ends worker 1000 c w' reached calm drained
    have reached₁ := reachable_later reached later
    refine ⟨⟨c₁, later, at₁⟩, at₁ ▸ last, ?_⟩
    rw [← at₁, idle_after reached₁ calm₁ last]
    refine ⟨fun quiet season _ => quiet season, fun unblocked season => unblocked season ?_⟩
    exact (answers reached₁ calm₁ season).mp (congrArg Prod.fst last)

/-- One withdrawal is waiting for its block; the worker's next round has nothing to do and
answers so. -/
theorem idle_iff_waiting : ∃ c w', Sample.deployment.Reachable c ∧ trouble c.point.world = 0 ∧
    (Worker.runOnce Sample.deployment.toPipeline "a").run Sample.deployment.alone c.point.world =
      (.ok 0, w') ∧ (waiting w').length = 1 ∧ Idle Sample.deployment w' := by
  obtain ⟨c, reached, done⟩ := reachable_of_schedule (D := Sample.deployment)
    (fun c => decide (trouble c.point.world = 0 ∧
      (waiting c.point.world).length ≤ Sample.deployment.cfg.claimBatch ∧
      ∀ op ∈ waiting c.point.world, outlook Sample.deployment c.point.world op ≠ .sinks) &&
      match (Worker.runOnce Sample.deployment.toPipeline "a").run Sample.deployment.alone
        c.point.world with
      | (.ok advanced, w') => advanced = 0 && (waiting w').length = 1
      | (.error _, _) => false) Sample.epoch (by decide)
    ([.act (.submit (Sample.request "11111111111141118111111111111111" "1")), .spawn "a"] ++
      Sample.serves 0 17) (by decide +kernel)
  rw [Bool.and_eq_true, decide_eq_true_eq] at done
  obtain ⟨⟨calm, few, afloat⟩, round⟩ := done
  split at round
  · rename_i advanced w' ended
    rw [Bool.and_eq_true, decide_eq_true_eq, decide_eq_true_eq] at round
    rw [round.1] at ended
    exact ⟨c, w', reached, calm, ended, round.2,
      (idle_iff reached calm "a").1.mpr (unblocked_of_few few afloat) w' ended⟩
  · cases round

namespace Sample

/-- One operation per round. -/
def narrow : Deployment := { deployment with cfg := { claimBatch := 1 } }

end Sample

/-- The worker took the first withdrawal to the chain, where it waits for its block and fills
every batch.  A second one has just been requested: the next round answers zero, `drain`
returns, and the second one was not touched. -/
theorem idle_behind_parked : 1 ≤ Sample.narrow.cfg.claimBatch ∧ ∃ c w',
    Sample.narrow.Reachable c ∧ trouble c.point.world = 0 ∧
    (Worker.runOnce Sample.narrow.toPipeline "a").run Sample.narrow.alone c.point.world =
      (.ok 0, w') ∧
    (Worker.drain Sample.narrow.toPipeline "a").run Sample.narrow.alone c.point.world =
      (.ok (), w') ∧ ¬ Idle Sample.narrow w' := by
  refine ⟨by decide, ?_⟩
  obtain ⟨c, reached, done⟩ := reachable_of_schedule (D := Sample.narrow)
    (fun c => decide (trouble c.point.world = 0 ∧ Sample.narrow.InSeason c.point.world.now ∧
      ¬ Quiet Sample.narrow c.point.world) &&
      match (Worker.runOnce Sample.narrow.toPipeline "a").run Sample.narrow.alone c.point.world with
      | (.ok advanced, _) => advanced = 0
      | (.error _, _) => false) Sample.epoch (by decide)
    ([.act (.submit (Sample.request "11111111111141118111111111111111" "1")), .spawn "a"] ++
      Sample.serves 0 17 ++
      [.act (.submit (Sample.request "22222222222242228222222222222222" "1"))]) (by decide +kernel)
  rw [Bool.and_eq_true, decide_eq_true_eq] at done
  obtain ⟨⟨calm, season, unquiet⟩, round⟩ := done
  split at round
  · rename_i advanced w' ended
    rw [decide_eq_true_eq] at round
    rw [round] at ended
    have drained : (Worker.drain Sample.narrow.toPipeline "a").run Sample.narrow.alone
        c.point.world = (.ok (), w') := by
      rw [Worker.drain, drainLoop_run, ended]
      rfl
    refine ⟨c, w', reached, calm, ended, drained, ?_⟩
    rw [idle_after reached calm ended]
    exact fun quiet => unquiet (quiet season)
  · cases round

end Runs

end Sluice.Protocol
