/-
# Protocol.PostgresRuns -- over the database no operation ever ends

Every write of a worker either renews the lease or leaves the state as it is (`Proper`).  The
database refuses a statement that renews the lease and ends the operation, since it would
assign one column twice; and a write that keeps a state cannot enter a terminal one.  So over
whole runs, whatever the workers, the node and the database do, no row is ever terminal
(`never_settles`), although the payments themselves go through.
-/
import Sluice.Kernel.PostgresSystem
import Sluice.Protocol.Passes
import Sluice.Protocol.PostgresFencing

namespace Sluice.Protocol

open Sluice.Theory Sluice.Kernel
open PostgresStore (Kept PostgresCall writtenRow)

set_option autoImplicit false

section Serve

variable {D : Deployment} {w w' : PostgresWorld}

/-- Everything a write can do to the database and answer. -/
theorem servePostgres_cas {choice : PostgresChoice} {req : CasRequest}
    {reply : Except StoreError (Option Operation)}
    (moved : D.servePostgres choice (.cas req) w = some (reply, w')) :
    (w' = w ∧ ∀ row, reply ≠ .ok (some row)) ∨
    ∃ old, ¬(req.toState.terminal = true ∧ req.renewLeaseSeconds.isSome) ∧
      w.store.operations.get? req.operationId = some old ∧ old.fencingToken = req.fencingToken ∧
      old.state = req.fromState ∧ old.state.terminal = false ∧
      reply = .ok (some (writtenRow w.now req old)) ∧
      w.store.perform w.now (.cas req) =
        w.store.commit w.now req (writtenRow w.now req old) ∧
      w' = { w with store := w.store.perform w.now (.cas req) } := by
  simp only [Deployment.servePostgres] at moved
  rcases w.store.cas_cases w.now req with ⟨answer, same, refused⟩ |
    ⟨old, _, once, found, token, state, live, _, same⟩
  · left
    rw [same] at moved
    cases answer with
    | ok row =>
        cases moved
        exact ⟨rfl, fun row same => refused row (by cases same; rfl)⟩
    | error e => cases e <;> cases moved <;> exact ⟨rfl, by simp⟩
  · rw [same, Option.some.injEq, Prod.mk.injEq] at moved
    obtain ⟨rfl, rfl⟩ := moved
    have stored : w.store.perform w.now (.cas req) = _ := congrArg Prod.snd same
    exact .inr ⟨old, once, found, token, state, live, rfl, stored, by rw [stored]⟩

/-- Everything a claim can do and answer. -/
theorem servePostgres_claim {choice : PostgresChoice} {states : List OpState} {limit : Nat}
    {worker : String} {lease : Seconds} {reply : Except StoreError (List Operation)}
    (moved : D.servePostgres choice (.claim states limit worker lease) w = some (reply, w')) :
    w' = { w with
      store := w.store.perform w.now (.claim choice.locked states limit worker lease) } ∧
    ∀ rows, reply = .ok rows → ∃ ops,
      (w.store.claimSkipping w.now choice.locked states limit worker lease).1 = .ok ops ∧
        rows.Perm ops := by
  simp only [Deployment.servePostgres] at moved
  rcases w.store.claimSkipping_cases w.now choice.locked states limit worker lease with
    ⟨e, same⟩ | ⟨expiry, _, same⟩
  · rw [same] at moved
    cases moved
    exact ⟨by simp [PostgresStore.perform, same], by simp⟩
  · rw [same] at moved
    dsimp only at moved
    split at moved
    · rename_i perm
      cases moved
      refine ⟨by simp [PostgresStore.perform, same], fun rows given => ⟨_, by rw [same], ?_⟩⟩
      cases given
      exact perm
    · cases moved

/-- Beside the workers only a submission reaches the database. -/
theorem actPostgres_store {action : Act} (moved : D.actPostgres action w = some w') :
    w'.store = w.store ∨
      ∃ op, op.state = .requested ∧ w'.store = w.store.perform w.now (.insertNew op) := by
  cases action with
  | submit payload =>
      cases moved
      simp only [submitToPostgres]
      split
      · exact .inl rfl
      · rename_i op valid
        right
        refine ⟨op, by rw [(validated_row valid).row], ?_⟩
        split
        · rename_i e store inserted
          simp [PostgresStore.perform, inserted]
        · rename_i row created store inserted
          split <;> simp [PostgresStore.perform, inserted]
  | advance delta =>
      obtain ⟨_, _, same⟩ := Option.map_eq_some_iff.mp moved
      cases same
      exact .inl rfl
  | produceBlocks | script | arm =>
      cases moved
      exact .inl rfl

/-- The database answers as any store does. -/
theorem servePostgres_credible {choice : PostgresChoice} {call : Call} {reply : Reply call}
    (kept : Kept w.store) (moved : D.servePostgres choice call w = some (reply, w')) :
    Credible call reply := by
  cases call with
  | claim states limit worker lease =>
      rcases reply with e | rows
      · trivial
      obtain ⟨ops, answer, same⟩ := (servePostgres_claim moved).2 rows rfl
      exact ((same.map _).nodup_iff).mpr (PostgresStore.claimSkipping_spec kept answer).1
  | cas req =>
      rcases servePostgres_cas moved with ⟨_, refused⟩ | ⟨old, _, found, token, _, _, rfl, _⟩
      · rcases reply with e | _ | row
        · trivial
        · trivial
        · exact absurd rfl (refused row)
      · have key := (kept.sound.table w.now).keyed _ _ found
        exact ⟨(PostgresStore.writtenRow_operationId _ _ _).trans key,
          (PostgresStore.writtenRow_fencingToken _ _ _).trans token,
          PostgresStore.writtenRow_state _ _ _⟩
  | findTx txid =>
      simp only [Deployment.servePostgres] at moved
      obtain ⟨_, served, same⟩ := Option.map_eq_some_iff.mp moved
      cases same
      exact serve_credible served
  | release | now | refBlock | broadcast | solidNow | solidBlock | here => trivial

end Serve

/-! ## Runs -/

/-- No operation has ended, and the log tells of no end. -/
structure Unsettled (pg : PostgresStore) : Prop where
  rows : ∀ id row, pg.operations.get? id = some row → row.state.terminal = false
  events : ∀ e ∈ pg.operationEvents, e.toState.terminal = false

section Steps

variable {D : Deployment} {w w' : PostgresWorld} {pg pg' : PostgresStore}

theorem Unsettled.touches (open_ : Unsettled pg) (touches : PostgresStore.Touches pg pg') :
    Unsettled pg' := by
  refine ⟨fun id row' found' => ?_, by rw [touches.events]; exact open_.events⟩
  obtain ⟨row, found, touched⟩ := touches.before found'
  rw [touched.state]
  exact open_.rows id row found

theorem Unsettled.intake (open_ : Unsettled pg) (now : Int) {op : Operation}
    (requested : op.state = .requested) : Unsettled (pg.insertNew now op).2 := by
  rcases pg.insertNew_cases now op with ⟨_, same, _⟩ | ⟨_, _, _, same⟩
  · rw [same]
    exact open_
  rw [same]
  refine ⟨fun id row found => ?_, fun e member => ?_⟩
  · rw [PostgresStore.intake, Dict.get?_set] at found
    split at found
    · cases found
      rw [PostgresStore.insertedRow, requested]
      rfl
    · exact open_.rows id row found
  · rcases List.mem_append.mp member with old | new
    · exact open_.events e old
    · rw [List.mem_singleton.mp new, requested]
      rfl

/-- A write that a worker makes does not end an operation. -/
theorem Unsettled.commit (open_ : Unsettled pg) {now : Int} {req : CasRequest} {row : Operation}
    (running : req.toState.terminal = false) (state : row.state = req.toState) :
    Unsettled (pg.commit now req row) := by
  refine ⟨fun id row' found => ?_, fun e member => ?_⟩
  · rw [PostgresStore.commit, Dict.get?_set] at found
    split at found
    · cases found
      rw [state]
      exact running
    · exact open_.rows id row' found
  · rcases List.mem_append.mp member with old | new
    · exact open_.events e old
    · rw [List.mem_singleton.mp new]
      exact running

/-- The database refuses a worker's write into a terminal state. -/
theorem proper_write_refused {worker : String} {choice : PostgresChoice} {req : CasRequest}
    {reply : Except StoreError (Option Operation)} (proper : Proper D.cfg worker (.cas req))
    (moved : D.servePostgres choice (.cas req) w = some (reply, w'))
    (ends : req.toState.terminal = true) : w' = w ∧ ∀ row, reply ≠ .ok (some row) := by
  rcases servePostgres_cas moved with refused | ⟨old, once, _, _, state, live, _⟩
  · exact refused
  · rcases proper.2 with renewed | same
    · exact absurd ⟨ends, by simp [renewed]⟩ once
    · rw [state, same, ends] at live
      cases live

/-- A call does to the database what a call of the store does, or nothing. -/
theorem servePostgres_store {choice : PostgresChoice} {call : Call} {reply : Reply call}
    (moved : D.servePostgres choice call w = some (reply, w')) :
    w'.store = w.store ∨ ∃ made : PostgresCall, made.Opens ∧
      w'.store = w.store.perform w.now made := by
  cases call with
  | claim states limit worker lease =>
      obtain ⟨rfl, _⟩ := servePostgres_claim moved
      exact .inr ⟨.claim choice.locked states limit worker lease, trivial, rfl⟩
  | cas req =>
      rcases servePostgres_cas moved with ⟨rfl, _⟩ | ⟨_, _, _, _, _, _, _, _, rfl⟩
      · exact .inl rfl
      · exact .inr ⟨.cas req, trivial, rfl⟩
  | release id token =>
      cases moved
      exact .inr ⟨.release id token, trivial, rfl⟩
  | broadcast id token tx worker =>
      obtain ⟨answer, _, same⟩ := Option.map_eq_some_iff.mp moved
      cases same
      exact .inl rfl
  | now | refBlock | findTx | solidNow | solidBlock | here =>
      cases moved
      exact .inl rfl

/-- Nor does any other call of a worker. -/
theorem Unsettled.serve {choice : PostgresChoice} {call : Call} {reply : Reply call}
    {worker : String} (open_ : Unsettled w.store) (kept : Kept w.store)
    (proper : Proper D.cfg worker call)
    (moved : D.servePostgres choice call w = some (reply, w')) : Unsettled w'.store := by
  cases call with
  | claim states limit name lease =>
      obtain ⟨rfl, _⟩ := servePostgres_claim moved
      exact open_.touches (PostgresStore.claim_touches (kept.sound.table w.now).keyed _ _ _ _ _)
  | cas req =>
      rcases servePostgres_cas moved with ⟨rfl, _⟩ | ⟨old, _, _, _, _, _, rfl, stored, rfl⟩
      · exact open_
      · have running : req.toState.terminal = false := by
          by_contra ends
          exact (proper_write_refused proper moved (by simpa using ends)).2 _ rfl
        rw [stored]
        exact open_.commit running (PostgresStore.writtenRow_state _ _ _)
  | release id token =>
      cases moved
      exact open_.touches (PostgresStore.release_touches id token)
  | broadcast id token tx name =>
      obtain ⟨answer, _, same⟩ := Option.map_eq_some_iff.mp moved
      cases same
      exact open_
  | now | refBlock | findTx | solidNow | solidBlock | here =>
      cases moved
      exact open_

end Steps

section Runs

variable {D : Deployment} {c : PostgresRun}

theorem reachablePostgres_kept (reached : D.ReachablePostgres c) : Kept c.point.world.store := by
  obtain ⟨now, lag, delay, signer, calendar, start⟩ := reached
  induction start with
  | refl => exact .empty
  | @tail middle last _ step kept =>
      obtain ⟨entry, rfl⟩ | ⟨action, world, moved, rfl⟩ |
        ⟨t, choice, request, next, reply, world, _, moved, rfl⟩ :=
          D.postgresMachine.step_cases step
      · exact kept
      · rcases actPostgres_store moved with same | ⟨op, requested, same⟩
        · exact same ▸ kept
        · exact same ▸ (kept.perform _ (show (PostgresCall.insertNew op).Opens from requested)).1
      · rcases servePostgres_store moved with same | ⟨made, opens, same⟩
        · exact same ▸ kept
        · exact same ▸ (kept.perform _ opens).1

/-- Every call of a run was answered in a database that is in order. -/
theorem servedPostgres (reached : D.ReachablePostgres c) {t : Nat} {choice : PostgresChoice}
    {call : Call} {reply : Reply call} {w w' : PostgresWorld}
    (logged : .served t choice call reply w w' ∈ c.point.trace) :
    Kept w.store ∧ D.servePostgres choice call w = some (reply, w') := by
  obtain ⟨now, lag, delay, signer, calendar, start⟩ := reached
  obtain ⟨newer, older, trace⟩ := List.append_of_mem logged
  obtain ⟨c₀, _, before, _, _, at₀, _⟩ := D.postgresMachine.reaches_past start trace
  have kept := reachablePostgres_kept ⟨now, lag, delay, signer, calendar, before⟩
  rw [at₀] at kept
  exact ⟨kept, (Machine.served_of_mem start logged).1⟩

/-- Every thread is some worker's pass: what it calls next, and has called, is proper. -/
theorem postgres_proper (reached : D.ReachablePostgres c) {t : Nat} {program : Handler Nat}
    (found : c.pool[t]? = some program) :
    ∃ worker, (∀ call next, program = .call call next → Proper D.cfg worker call) ∧
      ∀ said ∈ heard t c.point.trace, Proper D.cfg worker said.1 := by
  have entries : ∀ worker, (D.postgresMachine.entry worker).Tells Credible (Fits D.cfg worker)
      Tally := fun _ => runOnce_tally fun _ _ given => given
  obtain ⟨now, lag, delay, signer, calendar, start⟩ := id reached
  have given : ∀ thread choice call reply w w',
      .served thread choice call reply w w' ∈ c.point.trace → Credible call reply := by
    intro thread choice call reply w w' logged
    obtain ⟨kept, moved⟩ := servedPostgres reached logged
    exact servePostgres_credible kept moved
  obtain ⟨worker, tells, fits⟩ := Machine.tells entries start given found
  refine ⟨worker, ?_, fun said member => ?_⟩
  · rintro call next rfl
    exact tells.1.2.1
  · obtain ⟨before, after, split⟩ := List.append_of_mem member
    exact (fits before said after split).2.1

theorem reachablePostgres_unsettled (reached : D.ReachablePostgres c) :
    Unsettled c.point.world.store := by
  obtain ⟨now, lag, delay, signer, calendar, start⟩ := reached
  induction start with
  | refl => exact ⟨by simp [Configuration.start, PostgresWorld.fresh, PostgresStore.empty],
      by simp [Configuration.start, PostgresWorld.fresh, PostgresStore.empty]⟩
  | @tail middle last before step open_ =>
      have kept := reachablePostgres_kept ⟨now, lag, delay, signer, calendar, before⟩
      obtain ⟨entry, rfl⟩ | ⟨action, world, moved, rfl⟩ |
        ⟨t, choice, call, next, reply, world, pending, moved, rfl⟩ :=
          D.postgresMachine.step_cases step
      · exact open_
      · rcases actPostgres_store moved with same | ⟨op, requested, same⟩
        · exact same ▸ open_
        · exact same ▸ open_.intake _ requested
      · obtain ⟨worker, calls, _⟩ :=
          postgres_proper ⟨now, lag, delay, signer, calendar, before⟩ pending
        exact open_.serve kept (calls call next rfl) moved

/-- **Over the database no operation ever ends.**  Whatever workers, node and database do, no
row is terminal and no event enters a terminal state; and every write by which a worker meant
to end an operation was refused, with nothing changed. -/
theorem never_settles (reached : D.ReachablePostgres c) :
    (∀ id row, c.point.world.store.get id = some row → row.state.terminal = false) ∧
    (∀ e ∈ c.point.world.store.operationEvents, e.toState.terminal = false) ∧
    ∀ t choice req reply w w', .served t choice (.cas req) reply w w' ∈ c.point.trace →
      req.toState.terminal = true → w' = w ∧ ∀ row, reply ≠ .ok (some row) := by
  have open_ := reachablePostgres_unsettled reached
  refine ⟨open_.rows, open_.events, fun t choice req reply w w' logged ends => ?_⟩
  obtain ⟨now, lag, delay, signer, calendar, start⟩ := id reached
  have bound := (Machine.served_of_mem start logged).2
  obtain ⟨worker, _, named⟩ := postgres_proper reached (List.getElem?_eq_getElem bound)
  have proper := named ⟨.cas req, reply⟩ (mem_heard.mpr ⟨choice, w, w', logged⟩)
  exact proper_write_refused proper (servedPostgres reached logged).2 ends

end Runs

/-! ## A payment that is never confirmed -/

/-- A database without locks that returns claimed rows as it found them. -/
def unhurried (w : PostgresWorld) : Call → PostgresChoice
  | .claim states limit worker lease =>
      { returned := match (w.store.claimSkipping w.now [] states limit worker lease).1 with
          | .ok ops => ops
          | .error _ => [] }
  | _ => {}

/-- `n` calls of thread `t`. -/
def driven (D : Deployment) (t : Nat) : Nat → PostgresRun → Option PostgresRun
  | 0, c => some c
  | n + 1, c =>
      match c.pool[t]? with
      | some (.call call _) =>
          (D.postgresMachine.perform c (.serve t (unhurried c.point.world call))).bind
            (driven D t n)
      | _ => none

theorem reaches_of_driven {D : Deployment} {t n : Nat} {c c' : PostgresRun}
    (done : driven D t n c = some c') : D.postgresMachine.Reaches c c' := by
  induction n generalizing c with
  | zero =>
      cases done
      exact .refl
  | succ n ih =>
      unfold driven at done
      split at done
      · obtain ⟨middle, performed, rest⟩ := Option.bind_eq_some_iff.mp done
        exact .head ⟨_, performed⟩ (ih rest)
      · cases done

namespace Sample

/-- One request, sent by worker "a" and mined; then worker "b" finds it solid. -/
def paidUnconfirmed : Option PostgresRun := do
  let c ← deployment.postgresMachine.performAll (.start (.fresh epoch))
    [.act (.submit (request "11111111111141118111111111111111" "1")), .spawn "a"]
  let c ← driven deployment 0 17 c
  let c ← deployment.postgresMachine.performAll c [.act (.produceBlocks 4), .spawn "b"]
  driven deployment 1 7 c

theorem reachable_paidUnconfirmed (good : PostgresRun → Bool)
    (done : paidUnconfirmed.any good = true) :
    ∃ c, deployment.ReachablePostgres c ∧ good c = true := by
  obtain ⟨c, done, holds⟩ := (Option.any_eq_true _ _).mp done
  simp only [paidUnconfirmed, Option.bind_eq_bind, Option.bind_eq_some_iff] at done
  obtain ⟨c₁, first, c₂, second, c₃, third, last⟩ := done
  refine ⟨c, ⟨epoch, _, _, _, by decide, (Machine.reaches_of_performAll first).trans ?_⟩, holds⟩
  exact (reaches_of_driven second).trans
    ((Machine.reaches_of_performAll third).trans (reaches_of_driven last))

end Sample

/-- The payment is on the chain, both workers are done, and the operation waits. -/
theorem never_settles_paid : ∃ c, Sample.deployment.ReachablePostgres c ∧
    (c.point.world.node.txs.values.map (·.receipt) = [some .success] ∧
      c.point.world.store.operations.values.map (fun row => (row.state, row.lastError)) =
        [(.broadcast, some "handler exception (see logs)")]) ∧
    ∀ id row, c.point.world.store.get id = some row → row.state.terminal = false := by
  obtain ⟨c, reached, shown⟩ := Sample.reachable_paidUnconfirmed (fun c =>
    c.point.world.node.txs.values.map (·.receipt) = [some .success] ∧
      c.point.world.store.operations.values.map (fun row => (row.state, row.lastError)) =
        [(.broadcast, some "handler exception (see logs)")]) (by decide +kernel)
  exact ⟨c, reached, by simpa using shown, (never_settles reached).1⟩

end Sluice.Protocol
