/-
# Protocol.Passes -- who did what in a run

What `Conduct` proves of one pass holds of every thread of every run, because the world gives
credible replies only (`serve_credible`).  Three consequences that whoever runs the fleet
relies on:

* `crashes_accounted`: the crash switch and the dead workers tell the same story, and a
  worker that died has asked nothing since;
* `work_attributed`: every event and every send bears the name of the one worker to which
  the operation was handed under that token;
* `pass_count`: what `run_once` returns is never more than the operations it moved, and is
  exactly that if none of its writes was turned down.
-/
import Sluice.Protocol.Conduct
import Sluice.Protocol.Evidence
import Sluice.Theory.Lists

namespace Sluice.Protocol

open Sluice.Theory Sluice.Kernel

set_option autoImplicit false

section Threads

variable {D : Deployment} {w w' : World} {c : Run}

theorem serve_credible {choice : Option BroadcastCode} {call : Call} {reply : Reply call}
    (moved : D.serve choice call w = some (reply, w')) : Credible call reply := by
  cases call with
  | claim states limit worker lease =>
      obtain ⟨answer, _⟩ := serve_claim moved
      rcases reply with e | ops
      · trivial
      · exact MemoryStore.claim_ids_nodup answer.symm
  | cas req =>
      obtain ⟨rfl, _⟩ := serve_cas moved
      rcases w.store.cas_cases w.now req with ⟨_, same⟩ | ⟨_, same, _⟩ |
        ⟨_, old, found, token, _, _, ⟨_, same⟩ | ⟨_, same⟩⟩
      · rw [same]
        trivial
      · rw [same]
        trivial
      · rw [same]
        trivial
      · rw [same]
        exact ⟨(MemoryStore.casRow_operationId _ _ _).trans (w.store.keyed _ _ found),
          (MemoryStore.casRow_fencingToken _ _ _).trans token, MemoryStore.casRow_state _ _ _⟩
  | findTx txid =>
      obtain ⟨_, ⟨_, rfl⟩ | rfl⟩ := serve_findTx moved
      · trivial
      intro verdict
      rcases w.node.statusOf_cases w.now (w.node.txs.get? txid) with
        ⟨other, _⟩ | ⟨other, _⟩ | ⟨_, _, _, _, found⟩
      · cases verdict.symm.trans other
      · cases verdict.symm.trans other
      · rw [found]
        rfl
  | release | now | refBlock | broadcast | solidNow | solidBlock | here => trivial

/-- Every thread is some worker's pass, judged by what it has asked and heard. -/
theorem thread_conduct (reached : D.Reachable c) {t : Nat} {program : Handler Nat}
    (found : c.pool[t]? = some program) :
    ∃ worker, program.Tells Credible (fun d => Fits D.cfg worker (heard t c.point.trace ++ d))
        (fun d => Tally (heard t c.point.trace ++ d)) ∧
      ∀ before said after, heard t c.point.trace = before ++ said :: after →
        Fits D.cfg worker before said.1 := by
  obtain ⟨now, lag, delay, signer, _, start⟩ := reached
  have entries : ∀ worker, (D.machine.entry worker).Tells Credible (Fits D.cfg worker) Tally :=
    fun _ => runOnce_tally fun _ _ given => given
  have judged := Machine.tells entries start
    (fun _ _ _ _ _ _ logged => serve_credible (Machine.served_of_mem start logged).1) found
  exact judged

/-- All calls of a thread are made under one name. -/
theorem thread_named (reached : D.Reachable c) (t : Nat) :
    ∃ worker, ∀ said ∈ heard t c.point.trace, Proper D.cfg worker said.1 := by
  cases found : c.pool[t]? with
  | some program =>
      obtain ⟨worker, _, fits⟩ := thread_conduct reached found
      refine ⟨worker, fun said member => ?_⟩
      obtain ⟨before, after, split⟩ := List.append_of_mem member
      exact (fits before said after split).2.1
  | none =>
      obtain ⟨now, lag, delay, signer, _, start⟩ := reached
      refine ⟨"", fun said member => ?_⟩
      rw [(Machine.goes start).2 t (List.getElem?_eq_none_iff.mp found)] at member
      cases member

end Threads

/-! ## Crashes -/

/-- The crash a thread has ended with. -/
def casualty : Handler Nat → Option CrashPoint
  | .fail (.simulatedCrash point) => some point
  | _ => none

/-- How often a point was armed. -/
def armings (point : CrashPoint) : List Step → Nat
  | [] => 0
  | .acted (.arm armed times) _ _ :: older =>
      (if point = armed then times else 0) + armings point older
  | _ :: older => armings point older

section Crashes

variable {D : Deployment} {w w' : World} {c : Run}

/-- A call uses up one arming if it kills, and none otherwise. -/
theorem serve_crash {choice : Option BroadcastCode} {call : Call} {reply : Reply call}
    (moved : D.serve choice call w = some (reply, w')) :
    w'.crash.tripped = w.crash.tripped ++ deathOf ⟨call, reply⟩ ∧
      ∀ point, w'.crash.armed point + (deathOf ⟨call, reply⟩).count point =
        w.crash.armed point := by
  cases call with
  | here struck =>
      simp only [Deployment.serve, CrashSwitch.here, Option.some.injEq, Prod.mk.injEq] at moved
      obtain ⟨rfl, rfl⟩ := moved
      split
      · rename_i armed
        refine ⟨rfl, fun point => ?_⟩
        by_cases same : point = struck
        · subst same
          simp only [deathOf, if_true, List.count_singleton_self]
          omega
        · simp [deathOf, same, Ne.symm same]
      · exact ⟨(List.append_nil _).symm, fun point => rfl⟩
  | broadcast id token tx worker =>
      rcases broadcast_cases moved with ⟨_, _, rfl⟩ | ⟨_, _, _, _, _, rfl⟩ <;>
        exact ⟨(List.append_nil _).symm, fun point => rfl⟩
  | claim | cas | release | now | refBlock | findTx | solidNow | solidBlock =>
      cases moved
      exact ⟨(List.append_nil _).symm, fun point => rfl⟩

theorem act_crash {action : Act} (moved : D.act action w = some w') (older : List Step) :
    w'.crash.tripped = w.crash.tripped ∧ ∀ point,
      armings point (.acted action w w' :: older) + w.crash.armed point =
        w'.crash.armed point + armings point older := by
  cases action with
  | arm armed times =>
      cases moved
      refine ⟨rfl, fun point => ?_⟩
      by_cases same : point = armed
      · simp only [armings, CrashSwitch.arm, if_pos same]
        omega
      · simp only [armings, CrashSwitch.arm, if_neg same]
        omega
  | advance delta =>
      obtain ⟨rfl, _⟩ := act_advance moved
      exact ⟨rfl, fun point => Nat.add_comm _ _⟩
  | submit | produceBlocks | script =>
      cases moved
      exact ⟨rfl, fun point => Nat.add_comm _ _⟩

theorem reachable_armings (reached : D.Reachable c) (point : CrashPoint) :
    armings point c.point.trace =
      c.point.world.crash.armed point + c.point.world.crash.tripped.count point := by
  refine passed_induction (J := fun p => armings point p.trace =
    p.world.crash.armed point + p.world.crash.tripped.count point) (fun _ _ _ _ _ => rfl) ?_
    ⟨c, reached, rfl⟩
  intro p step _ _ stride agree
  cases stride.origin with
  | acted action w' was moved =>
      subst was
      obtain ⟨tripped, armed⟩ := act_crash moved p.trace
      have armed := armed point
      simp only [Point.log_trace, Point.log_world, Label.after_acted, tripped]
      omega
  | served t choice call reply w' was allowed moved =>
      subst was
      obtain ⟨tripped, armed⟩ := serve_crash moved
      have armed := armed point
      simp only [Point.log_trace, Point.log_world, Label.after_served, tripped, List.count_append,
        armings]
      omega

/-- The crash a thread has ended with is the one it met. -/
theorem thread_deaths (reached : D.Reachable c) {t : Nat} {program : Handler Nat}
    (found : c.pool[t]? = some program) :
    deaths (heard t c.point.trace) = (casualty program).toList := by
  obtain ⟨worker, tells, _⟩ := thread_conduct reached found
  cases program with
  | done n => simpa [struck, casualty] using Tally.died tells
  | fail e =>
      have died := Tally.died tells
      rw [List.append_nil] at died
      rw [died]
      cases e with
      | simulatedCrash point => rfl
      | lostClaim | store | overflowError | typeError | keyError => rfl
  | call request next =>
      have alive := tells.1.1
      rwa [List.append_nil] at alive

theorem reachable_casualties (reached : D.Reachable c) :
    (c.pool.filterMap casualty).Perm c.point.world.crash.tripped := by
  obtain ⟨now, lag, delay, signer, calendar, start⟩ := reached
  induction start with
  | refl => exact .refl _
  | @tail middle last before step ih =>
      have reached' : D.Reachable last := ⟨now, lag, delay, signer, calendar, before.tail step⟩
      obtain ⟨entry, rfl⟩ | ⟨action, world, moved, rfl⟩ |
        ⟨t, choice, request, next, reply, world, pending, moved, rfl⟩ := D.machine.step_cases step
      · -- a new thread is alive: it makes its first call
        rw [List.filterMap_append, show [D.machine.entry entry].filterMap casualty = [] from rfl,
          List.append_nil]
        exact ih
      · rw [Point.log_world, Label.after_acted, (act_crash moved []).1]
        exact ih
      · -- the dialogue of the caller grows by this call, and so does the list of deaths
        have bound : t < middle.pool.length := (List.getElem?_eq_some_iff.mp pending).1
        have alive : deaths (heard t middle.point.trace) = [] :=
          thread_deaths ⟨now, lag, delay, signer, calendar, before⟩ pending
        have met := thread_deaths reached' (t := t) (List.getElem?_set_self bound)
        rw [Point.log_trace, heard_cons, Label.saidBy_self, deaths_append, alive, deaths_cons,
          deaths_nil, List.nil_append, List.append_nil] at met
        rw [Point.log_world, Label.after_served, (serve_crash moved).1]
        refine (filterMap_set_perm _ pending rfl).trans ?_
        rw [← met]
        exact ih.append_right _

/-- A worker that died has asked nothing since. -/
theorem last_word (reached : D.Reachable c) {t : Nat} {point : CrashPoint}
    (dead : c.pool[t]? = some (.fail (.simulatedCrash point))) :
    (heard t c.point.trace).getLast? = some ⟨.here point, true⟩ := by
  obtain ⟨worker, _, fits⟩ := thread_conduct reached dead
  have met := thread_deaths reached dead
  rcases List.eq_nil_or_concat' (heard t c.point.trace) with none_ | ⟨before, said, split⟩
  · rw [none_] at met
    cases met
  · have alive := (fits before said [] split).1
    rw [split, deaths_append, alive, List.nil_append, deaths_cons, deaths_nil,
      List.append_nil] at met
    rw [split, List.getLast?_concat]
    obtain ⟨call, reply⟩ := said
    cases call with
    | here struck =>
        cases reply with
        | true =>
            cases met
            rfl
        | false => cases met
    | claim | cas | release | now | refBlock | broadcast | findTx | solidNow | solidBlock =>
        cases met

/-- **No crash is swallowed and none is made up.**  In every run the crash points that struck
are, one for one, those of the threads that ended in a crash; every arming has struck or is
still there; and the last call of such a thread is the one that killed it, so it gave up no
lease and wrote nothing on its way out. -/
theorem crashes_accounted (reached : D.Reachable c) :
    (c.pool.filterMap casualty).Perm c.point.world.crash.tripped ∧
    (∀ point, armings point c.point.trace =
      c.point.world.crash.armed point + c.point.world.crash.tripped.count point) ∧
    ∀ t point, c.pool[t]? = some (.fail (.simulatedCrash point)) →
      (heard t c.point.trace).getLast? = some ⟨.here point, true⟩ :=
  ⟨reachable_casualties reached, reachable_armings reached, fun _ _ => last_word reached⟩

/-- A worker that dies between its envelope and its signature. -/
theorem crashes_accounted_mid_sign : ∃ c, Sample.deployment.Reachable c ∧
    c.pool.filterMap casualty = [.signBetweenBuildAndSign] ∧
    (c.pool.filterMap casualty).Perm c.point.world.crash.tripped := by
  obtain ⟨c, reached, dead⟩ := reachable_of_schedule (D := Sample.deployment)
    (fun c => c.pool.filterMap casualty = [.signBetweenBuildAndSign]) Sample.epoch (by decide)
    ([.act (.submit (Sample.request "11111111111141118111111111111111" "1")),
      .act (.arm .signBetweenBuildAndSign 1), .spawn "a"] ++ Sample.serves 0 7) (by decide +kernel)
  exact ⟨c, reached, by simpa using dead, (crashes_accounted reached).1⟩

end Crashes

/-! ## Names -/

/-- Operation `id` was handed to `worker` under `token`. -/
def HandedTo (trace : List Step) (id : UUID) (token : Nat) (worker : String) : Prop :=
  ∃ step ∈ trace, ∃ op ∈ claims step, op.operationId = id ∧ op.fencingToken = token ∧
    op.claimedBy = some worker

section Names

variable {D : Deployment} {w w' : World} {c : Run} {t : Nat} {id : UUID} {token : Nat}

/-- A claim hands its rows to the worker of its thread. -/
theorem claims_signed (reached : D.Reachable c) {step : Step} (member : step ∈ c.point.trace)
    {op : Operation} (listed : op ∈ claims step) :
    ∃ t, step.thread? = some t ∧ ∀ worker,
      (∀ said ∈ heard t c.point.trace, Proper D.cfg worker said.1) →
      op.claimedBy = some worker := by
  obtain ⟨_, _, stride, _⟩ := step_past reached member
  cases stride.origin with
  | acted action w' was moved =>
      rw [was] at listed
      cases listed
  | served t choice call reply w' was allowed moved =>
      rw [was] at listed member
      refine ⟨t, by rw [was]; rfl, fun worker named => ?_⟩
      have proper := named ⟨call, reply⟩ (mem_heard.mpr ⟨choice, _, w', member⟩)
      cases call with
      | claim states limit name lease =>
          obtain ⟨answer, _⟩ := serve_claim moved
          rcases reply with e | ops
          · cases listed
          obtain ⟨⟨row, _, _, _, _, _, rfl⟩, _⟩ := MemoryStore.mem_claim answer.symm listed
          exact congrArg some proper.2.2.1
      | cas | release | now | refBlock | broadcast | findTx | solidNow | solidBlock | here =>
          cases listed

theorem Claimed.handed (reached : D.Reachable c) {worker : String}
    (named : ∀ said ∈ heard t c.point.trace, Proper D.cfg worker said.1) {older : List Step}
    {w : World} (earlier : older ⊆ c.point.trace) (claimed : Claimed ⟨w, older⟩ t id token) :
    HandedTo c.point.trace id token worker := by
  obtain ⟨step, member, own, op, listed, same, same'⟩ := claimed
  obtain ⟨t', own', signed⟩ := claims_signed reached (earlier member) listed
  rw [own] at own'
  cases own'
  exact ⟨step, earlier member, op, listed, same, same', signed worker named⟩

theorem HandedTo.unique (reached : D.Reachable c) {a b : String}
    (first : HandedTo c.point.trace id token a) (second : HandedTo c.point.trace id token b) :
    a = b := by
  obtain ⟨step, member, op, listed, same, same', name⟩ := first
  obtain ⟨step', member', op', listed', same₁, same₁', name'⟩ := second
  obtain ⟨t, own, signed⟩ := claims_signed reached member listed
  obtain ⟨t', own', signed'⟩ := claims_signed reached member' listed'
  have one : t = t' := (Passed.inv ⟨c, reached, rfl⟩).unique t t' id token
    ⟨step, member, own, op, listed, same, same'⟩ ⟨step', member', own', op', listed', same₁, same₁'⟩
  subst one
  obtain ⟨worker, named⟩ := thread_named reached t
  rw [signed worker named] at name
  rw [signed' worker named] at name'
  exact Option.some.inj (name.symm.trans name')

/-- A committed write is made by the thread that had claimed the row, under its name. -/
theorem Commit.attributed (reached : D.Reachable c) {p₀ : Moment} (commit : Commit D p₀)
    {newer : List Step} (trace : c.point.trace = newer ++ commit.step :: p₀.trace) :
    HandedTo c.point.trace commit.op.operationId commit.op.fencingToken commit.worker := by
  obtain ⟨worker, named⟩ := thread_named reached commit.thread
  have spoken : commit.step ∈ c.point.trace := by simp [trace]
  have proper := named ⟨.cas commit.req, .ok (some commit.row)⟩
    (mem_heard.mpr ⟨commit.choice, _, _, spoken⟩)
  have name : commit.worker = worker := Option.some.inj proper.1
  subst name
  refine Claimed.handed reached named (fun step member => ?_) commit.claimed
  rw [trace]
  exact List.mem_append_right _ (.tail _ member)

/-- What is logged was sent by a thread that had claimed the operation, under its name. -/
theorem entry_attributed (reached : D.Reachable c) {step : Step} (member : step ∈ c.point.trace)
    {entry : BroadcastLogEntry} (logged : entryOf step = some entry) :
    ∃ worker id token, entry.worker = some worker ∧ HandedTo c.point.trace id token worker ∧
      entry.txid ∈ c.point.world.store.allTxids id := by
  obtain ⟨newer, older, trace⟩ := List.append_of_mem member
  obtain ⟨c₀, _, _, _, _, at₀, _, stride⟩ := reachable_past reached trace
  cases stride.origin with
  | acted action w' was moved =>
      rw [was] at logged
      cases logged
  | served t choice call reply w' was allowed moved =>
      rw [was] at logged member
      cases call with
      | broadcast id token tx worker =>
          obtain ⟨outcome, _, rfl⟩ := Option.map_eq_some_iff.mp logged
          obtain ⟨worker', named⟩ := thread_named reached t
          have proper : worker = worker' :=
            named ⟨.broadcast id token tx worker, reply⟩ (mem_heard.mpr ⟨choice, _, _, member⟩)
          subst proper
          obtain ⟨e, logged, intent⟩ := sending_announced reached member
            (show sending _ = some (id, tx) from rfl)
          have claimed := allowed.1
          rw [at₀] at claimed
          refine ⟨worker, id, token, rfl, claimed.handed reached named fun step older => ?_,
            intent.assigned logged⟩
          rw [trace]
          exact List.mem_append_right _ (.tail _ older)
      | claim | cas | release | now | refBlock | findTx | solidNow | solidBlock | here =>
          cases logged

/-- Tokens are handed out one by one. -/
theorem Passed.handed {p : Moment} (passed : Passed D p) : ∀ id row,
    p.world.store.ops.get? id = some row → ∀ token, 0 < token → token ≤ row.fencingToken →
      ∃ worker, HandedTo p.trace id token worker := by
  refine passed.row_induction (J := fun p id row => ∀ token, 0 < token →
    token ≤ row.fencingToken → ∃ worker, HandedTo p.trace id token worker) ?_ ?_
  · intro p payload op w' _ _ valid _ _ token positive old
    rw [(validated_row valid).row] at old
    exact absurd old (not_le.mpr positive)
  intro p step id row row' passed passed' _ found goes past token positive old
  have before (old : token ≤ row.fencingToken) :
      ∃ worker, HandedTo (p.log step).trace id token worker := by
    obtain ⟨worker, label, member, handed⟩ := past token positive old
    exact ⟨worker, label, .tail _ member, handed⟩
  cases goes with
  | kept claimedBy leaseExpiresAt fencingToken updatedAt stamp log lease issued =>
      rcases issued with rfl | ⟨rfl, listed⟩
      · exact before old
      rcases Nat.lt_or_ge row.fencingToken token with new | old
      · obtain ⟨c, reached, at_⟩ := passed'
        have member : step ∈ c.point.trace := at_ ▸ List.mem_cons_self
        obtain ⟨t, _, signed⟩ := claims_signed reached member listed
        obtain ⟨worker, named⟩ := thread_named reached t
        have last : row.fencingToken + 1 = token := Nat.le_antisymm new old
        exact ⟨worker, step, List.mem_cons_self, _, listed, p.world.store.keyed id row found, last,
          signed worker named⟩
      · exact before old
  | written commit _ source =>
      subst source
      rw [Commit.row, MemoryStore.casRow_fencingToken] at old
      exact before old

/-- **Everything done bears a name.**  Every fencing token that an operation has had was handed to
exactly one worker.  Every event but an intake names the worker to which its operation was handed
under the event's token, and every entry of the broadcast log names a worker to which an operation
with that transaction was handed. -/
theorem work_attributed (reached : D.Reachable c) :
    (∀ id token a b, HandedTo c.point.trace id token a → HandedTo c.point.trace id token b →
      a = b) ∧
    (∀ id row, c.point.world.store.ops.get? id = some row → ∀ token, 0 < token →
      token ≤ row.fencingToken → ∃ worker, HandedTo c.point.trace id token worker) ∧
    (∀ e ∈ c.point.world.store.events, e.fromState ≠ none → ∃ worker, e.workerId = some worker ∧
      HandedTo c.point.trace e.operationId e.fencingToken worker) ∧
    ∀ entry ∈ c.point.world.node.broadcastLog, ∃ worker id token, entry.worker = some worker ∧
      HandedTo c.point.trace id token worker ∧ entry.txid ∈ c.point.world.store.allTxids id := by
  have passed : Passed D c.point := ⟨c, reached, rfl⟩
  refine ⟨fun id token a b => HandedTo.unique reached, passed.handed, fun e logged changed => ?_,
    fun entry listed => ?_⟩
  · obtain ⟨p₀, commit, newer, _, _, trace, rfl⟩ := passed.logged e logged changed
    exact ⟨commit.worker, rfl, commit.attributed reached trace⟩
  · rw [passed.wire] at listed
    obtain ⟨step, member, logged⟩ := List.mem_filterMap.mp listed
    exact entry_attributed reached (List.mem_reverse.mp member) logged

/-- A worker takes over from one whose lease ran out, and both are on record. -/
theorem work_attributed_takeover : ∃ c, Sample.deployment.Reachable c ∧
    c.point.world.store.events.map (·.workerId) = [none, some "a", some "b"] ∧
    ∀ e ∈ c.point.world.store.events, e.fromState ≠ none → ∃ worker, e.workerId = some worker ∧
      HandedTo c.point.trace e.operationId e.fencingToken worker := by
  obtain ⟨c, reached, shown⟩ := reachable_of_schedule (D := Sample.deployment)
    (fun c => c.point.world.store.events.map (·.workerId) = [none, some "a", some "b"])
    Sample.epoch (by decide)
    ([.act (.submit (Sample.request "11111111111141118111111111111111" "1")), .spawn "a"] ++
      Sample.serves 0 2 ++ [.act (.advance (61 * second)), .spawn "b"] ++ Sample.serves 1 2)
    (by decide +kernel)
  exact ⟨c, reached, by simpa using shown, (work_attributed reached).2.2.1⟩

end Names

/-! ## Counts -/

/-- The step is a write that the store turned down. -/
def turnedDown : Step → Bool
  | .served _ _ (.cas _) (.ok (some _)) _ _ => false
  | .served _ _ (.cas _) _ _ _ => true
  | _ => false

/-- Thread `t` changed the state of operation `id`. -/
def MovedBy (trace : List Step) (t : Nat) (id : UUID) : Prop :=
  ∃ step ∈ trace, step.thread? = some t ∧ ∃ req row, committed step = some (req, row) ∧
    req.operationId = id ∧ req.fromState ≠ req.toState

section Counts

variable {D : Deployment} {c : Run} {t : Nat}

theorem mem_moves_heard {trace : List Step} {id : UUID} :
    id ∈ moves (heard t trace) ↔ MovedBy trace t id := by
  simp only [moves, List.mem_flatMap, mem_heard]
  constructor
  · rintro ⟨⟨call, reply⟩, ⟨choice, w, w', member⟩, moved⟩
    refine ⟨_, member, rfl, ?_⟩
    cases call with
    | cas req =>
        rcases reply with e | _ | row
        · cases moved
        · cases moved
        · simp only [moveOf] at moved
          split at moved
          · cases moved
          · rename_i changed
            exact ⟨req, row, rfl, (List.mem_singleton.mp moved).symm, changed⟩
    | claim | release | now | refBlock | broadcast | findTx | solidNow | solidBlock | here =>
        cases moved
  · rintro ⟨step, member, own, req, row, done, rfl, changed⟩
    cases step with
    | acted action w w' => cases own
    | served thread choice call reply w w' =>
        cases own
        refine ⟨⟨call, reply⟩, ⟨choice, w, w', member⟩, ?_⟩
        cases call with
        | cas req' =>
            rcases reply with e | _ | row'
            · cases done
            · cases done
            · cases done
              simp [moveOf, changed]
        | claim | release | now | refBlock | broadcast | findTx | solidNow | solidBlock | here =>
            cases done

theorem rough_heard {trace : List Step}
    (smooth : ∀ step ∈ trace, step.thread? = some t → turnedDown step = false) :
    rough (heard t trace) = false := by
  rw [rough, List.any_eq_false]
  rintro ⟨call, reply⟩ said
  obtain ⟨choice, w, w', member⟩ := mem_heard.mp said
  have kept := smooth _ member rfl
  cases call with
  | cas req =>
      rcases reply with e | _ | row
      · cases kept
      · cases kept
      · exact Bool.false_ne_true
  | claim | release | now | refBlock | broadcast | findTx | solidNow | solidBlock | here =>
      exact Bool.false_ne_true

/-- What thread `t` left under a claim changes by its own commits only. -/
theorem standing_log {p : Moment} {step : Step} (stride : Stride D p step) (t : Nat) (id : UUID)
    (token : Nat) :
    (∃ commit : Commit D p, step = commit.step ∧ commit.thread = t ∧
      commit.op.operationId = id ∧ commit.op.fencingToken = token ∧
      standing id token (heard t (p.log step).trace) = some commit.toState) ∨
    ((∀ commit : Commit D p, step = commit.step → commit.op.operationId = id →
        commit.op.fencingToken = token → commit.thread ≠ t) ∧
      standing id token (heard t (p.log step).trace) = standing id token (heard t p.trace)) := by
  rw [Point.log_trace, heard_cons, standing_append]
  by_cases mine : ∃ commit : Commit D p, step = commit.step ∧ commit.thread = t ∧
      commit.op.operationId = id ∧ commit.op.fencingToken = token
  · obtain ⟨commit, rfl, rfl, rfl, rfl⟩ := mine
    refine .inl ⟨commit, rfl, rfl, rfl, rfl, ?_⟩
    rw [Commit.step, Label.saidBy_self]
    simp [standing, leftBy, Commit.req, snapshotRequest]
  · refine .inr ⟨fun commit was id token own => mine ⟨commit, was, own, id, token⟩, ?_⟩
    suffices none_ : standing id token (step.saidBy t) = none by rw [none_]; rfl
    cases step with
    | acted => rfl
    | served thread choice call reply before after =>
        by_cases own : thread = t
        · subst own
          rw [Label.saidBy_self]
          cases call with
          | cas req =>
              rcases reply with e | _ | row
              · rfl
              · rfl
              obtain ⟨commit, was, rfl, _⟩ := stride.commits req row rfl
              have thread : commit.thread = thread := by cases was; rfl
              by_cases here : commit.op.operationId = id ∧ commit.op.fencingToken = token
              · exact absurd ⟨commit, was, thread, here⟩ mine
              · simp [standing, leftBy, Commit.req, snapshotRequest, here]
          | claim | release | now | refBlock | broadcast | findTx | solidNow | solidBlock
          | here => rfl
        · rw [Label.saidBy_of_ne own]
          rfl

/-- While its claim stands, a row is where the last write of its holder left it. -/
theorem Passed.holder_left {p : Moment} (passed : Passed D p) :
    ∀ t id token state, standing id token (heard t p.trace) = some state →
      Claimed p t id token ∧ ∀ row, p.world.store.ops.get? id = some row →
        row.fencingToken = token → row.state = state := by
  refine passed_induction (J := fun p => ∀ t id token state,
    standing id token (heard t p.trace) = some state →
      Claimed p t id token ∧ ∀ row, p.world.store.ops.get? id = some row →
        row.fencingToken = token → row.state = state) ?_ ?_ passed
  · intro _ _ _ _ _ t id token state left
    cases left
  intro p step passed passed' stride ih t id token state left
  rcases standing_log stride t id token with ⟨commit, rfl, rfl, rfl, rfl, now_⟩ | ⟨foreign, same⟩
  · cases now_.symm.trans left
    refine ⟨commit.claimed.log, fun row found _ => ?_⟩
    cases commit.stored.symm.trans found
    exact MemoryStore.casRow_state _ _ _
  · obtain ⟨claimed, stands⟩ := ih t id token state (same.symm.trans left)
    refine ⟨claimed.log, fun row' found' owned => ?_⟩
    -- the row had this token before: tokens only grow, and this one was claimed
    obtain ⟨row, found, up⟩ := passed.inv.backed t id token claimed
    obtain ⟨_, after, up', _⟩ := stride.advances.store.grows.rows id row found
    cases after.symm.trans found'
    have before := stands row found (by omega)
    obtain ⟨_, after, goes⟩ := stride.goes found
    cases after.symm.trans found'
    cases goes with
    | kept => exact before
    | written commit was source =>
        have id_ : commit.op.operationId = id := source ▸ p.world.store.keyed id row found
        have token_ : commit.op.fencingToken = token := by rw [source]; omega
        have claimed' := commit.claimed
        rw [id_, token_] at claimed'
        exact absurd (passed.inv.unique _ _ _ _ claimed' claimed) (foreign commit was id_ token_)

/-- The store keeps the writes of a claim apart: it commits each from where the last one led. -/
theorem Passed.consistent {p : Moment} (passed : Passed D p) (t : Nat) :
    Consistent (heard t p.trace) := by
  refine passed_induction (J := fun p => Consistent (heard t p.trace)) ?_ ?_ passed
  · intro _ _ _ _ _ before req row after split
    simp at split
  intro p step passed _ stride ih
  rw [Point.log_trace, heard_cons]
  cases step with
  | acted => rwa [Label.saidBy, List.append_nil]
  | served thread choice call reply before after =>
      by_cases own : thread = t
      · subst own
        rw [Label.saidBy_self]
        refine ih.snoc fun req row same state left => ?_
        cases same
        obtain ⟨commit, was, rfl, _⟩ := stride.commits req row rfl
        exact (passed.holder_left _ _ _ _ left).2 commit.op commit.found rfl
      · rwa [Label.saidBy_of_ne own, List.append_nil]

/-- **An honest count.**  A worker that has finished its pass returned at most the number of
operations whose state its own writes changed, and exactly that number if the store turned down
none of its writes. -/
theorem pass_count (reached : D.Reachable c) {n : Nat} (ended : c.pool[t]? = some (.done n)) :
    ∃ ids : Finset UUID, (∀ id, id ∈ ids ↔ MovedBy c.point.trace t id) ∧ n ≤ ids.card ∧
      ((∀ step ∈ c.point.trace, step.thread? = some t → turnedDown step = false) →
        n = ids.card) := by
  obtain ⟨worker, tally, _⟩ := thread_conduct reached ended
  have tally : Tally (heard t c.point.trace) (.ok n) := by
    rw [← List.append_nil (heard t c.point.trace)]
    exact tally
  refine ⟨(moves (heard t c.point.trace)).toFinset, fun id => ?_, tally.most n rfl,
    fun smooth => tally.exact n rfl (rough_heard smooth) (Passed.consistent ⟨c, reached, rfl⟩ t)⟩
  rw [List.mem_toFinset, mem_moves_heard]

def returned (n : Nat) : Handler Nat → Bool
  | .done m => m = n
  | _ => false

theorem eq_done_of_returned {n : Nat} (found : c.pool[t]?.any (returned n) = true) :
    c.pool[t]? = some (.done n) := by
  obtain ⟨program, found, back⟩ := (Option.any_eq_true _ _).mp found
  rw [found]
  cases program with
  | done m => rw [of_decide_eq_true back]
  | fail e => cases back
  | call request next => cases back

/-- One request, taken as far as it goes in one pass. -/
theorem pass_count_one : ∃ c, Sample.deployment.Reachable c ∧
    ∃ ids : Finset UUID, (∀ id, id ∈ ids ↔ MovedBy c.point.trace 0 id) ∧ 1 ≤ ids.card ∧
      ((∀ step ∈ c.point.trace, step.thread? = some 0 → turnedDown step = false) →
        1 = ids.card) := by
  obtain ⟨c, reached, ended⟩ := reachable_of_schedule (D := Sample.deployment)
    (fun c => c.pool[0]?.any (returned 1)) Sample.epoch (by decide)
    ([.act (.submit (Sample.request "11111111111141118111111111111111" "1")), .spawn "a"] ++
      Sample.serves 0 17) (by decide +kernel)
  exact ⟨c, reached, pass_count reached (eq_done_of_returned ended)⟩

/-- The count can fall short: worker "b" takes a validated operation to `signing`, is overtaken
by "c" before its next write, and returns 0. -/
example : ∃ c, Sample.deployment.Reachable c ∧ c.pool[1]? = some (.done 0) ∧
    MovedBy c.point.trace 1 0x11111111111141118111111111111111 := by
  obtain ⟨c, reached, shown⟩ := reachable_of_schedule (D := Sample.deployment)
    (fun c => c.pool[1]?.any (returned 0) &&
      moves (heard 1 c.point.trace) = [0x11111111111141118111111111111111]) Sample.epoch (by decide)
    ([.act (.submit (Sample.request "11111111111141118111111111111111" "1")), .spawn "a"] ++
      Sample.serves 0 2 ++ [.act (.advance (61 * second)), .spawn "b"] ++ Sample.serves 1 2 ++
      [.act (.advance (61 * second)), .spawn "c"] ++ Sample.serves 2 1 ++ Sample.serves 1 3)
    (by decide +kernel)
  rw [Bool.and_eq_true, decide_eq_true_eq] at shown
  exact ⟨c, reached, eq_done_of_returned shown.1, mem_moves_heard.mp (by simp [shown.2])⟩

end Counts

end Sluice.Protocol
