/-
# Protocol.Fleet -- what holds of single passes holds of workers that never stop

Everything proved so far is about threads that run one pass.  A fleet runs loops of passes:
`run_forever` until it is stopped, `drain` until nothing moves.

* `fleet_refines`: a fleet does nothing that single passes could not do.  Every run of a fleet
  has the world and, but for the looks at stop events, the history of a run of passes; so what
  was proved of world and history of those holds of fleets.
* `stop_honoured`: a stopped worker claims at most once more, a loop returns only if it was
  stopped, and nothing gets out of it but a crash, or a wait that is too long for the platform.
* `drain_settles`: `drain` does not give up.  Each of its passes but the last moved some
  operation, and an operation moves so often and no more (`Lifetime`).  What it may meet is a
  claim that raises, near the end of the calendar.
-/
import Sluice.Kernel.Fleet
import Sluice.Protocol.Passes
import Sluice.Protocol.Recovery
import Sluice.Theory.Lists

namespace Sluice.Protocol

open Sluice.Theory Sluice.Kernel

set_option autoImplicit false

/-! ## Refinement -/

/-- What an act is to a single pass. -/
def besideOf : FleetAct → Option Act
  | .beside action => some action
  | .stop _ | .shuffle _ => none

/-- What is answered about stop events: a wait raises only if the interval can be too long. -/
def StopGiven (D : Deployment) : (call : StopCall) → StopReply call → Prop
  | .isSet _, _ => True
  | .wait _, .ok () => True
  | .wait _, .error e => e = .overflowError ∧ D.cfg.pollInterval.tooLong = true

/-- How a drain gives up: after a thousand passes, each of which moved something.  What a thread
raises a pass or a wait has raised. -/
def Exhausted (D : Deployment) :
    List (Except Exn Nat) → Except Worker.DrainError Ending → Prop
  | outs, .error .livelock => outs.length = 1000 ∧ ∀ out ∈ outs, ∃ n, out = .ok (n + 1)
  | outs, .error (.raised e) =>
      .error e ∈ outs ∨ e = .overflowError ∧ D.cfg.pollInterval.tooLong = true
  | _, .ok _ => True

section Refinement

variable {D : Deployment}

/-- Stop events are looked at, and never changed by that. -/
theorem serve_stop {choice : Option BroadcastCode} {call : StopCall} {reply : StopReply call}
    {f f' : FleetWorld} (moved : D.fleetServe choice (.inr call) f = some (reply, f')) :
    f' = f ∧ StopGiven D call reply := by
  cases call with
  | isSet event =>
      cases moved
      exact ⟨rfl, trivial⟩
  | wait event =>
      simp only [Deployment.fleetServe] at moved
      split at moved
      · rename_i long
        cases moved
        exact ⟨rfl, rfl, Seconds.tooLong_of_outlasts long.2⟩
      · cases moved
        exact ⟨rfl, trivial⟩

theorem fleet_extends :
    D.fleet.Extends D.machine FleetWorld.world besideOf (StopGiven D) where
  inner := by
    intro choice request reply v v' moved
    obtain ⟨⟨reply', w'⟩, served, same⟩ := Option.map_eq_some_iff.mp moved
    cases same
    exact served
  own := by
    intro choice request reply v v' moved
    obtain ⟨rfl, given⟩ := serve_stop moved
    exact ⟨rfl, given⟩
  acted := by
    intro action act v v' known moved
    cases action with
    | stop | shuffle => cases known
    | beside action =>
        cases known
        obtain ⟨w', acted, rfl⟩ := Option.map_eq_some_iff.mp moved
        exact acted
  aside := by
    intro action v v' known moved
    cases action with
    | beside action => cases known
    | stop | shuffle =>
        cases moved
        rfl
  starts := fun _ => ⟨_, _, rfl⟩

theorem runForever_shifts (worker : Employee) : ∀ (passes : Nat) (outs : List (Except Exn Nat)),
    (Worker.runForever D.toPipeline worker passes).Shifts D.machine.entry (StopGiven D)
      (Exhausted D) outs
  | 0, _ => .done trivial
  | passes + 1, outs => by
      have waits : ∀ outs, (Worker.backOff worker
          (Worker.runForever D.toPipeline worker passes)).Shifts D.machine.entry (StopGiven D)
            (Exhausted D) outs := by
        intro outs
        refine .own fun waited given => ?_
        rcases waited with e | _
        · exact .fail (.inr given)
        · exact runForever_shifts worker passes _
      refine .own fun stopped _ => ?_
      cases stopped with
      | true => exact .done trivial
      | false =>
          refine .pass worker.workerId _ rfl fun out => ?_
          cases out with
          | ok count =>
              cases count with
              | zero => exact waits _
              | succ count => exact runForever_shifts worker passes _
          | error e =>
              cases e with
              | simulatedCrash point => exact .fail (.inl List.mem_cons_self)
              | lostClaim | store | overflowError | typeError | keyError => exact waits _

/-- A round of `drain`, and what it makes of the outcome. -/
theorem drainLoop_succ (workerId : String) (rounds : Nat) :
    ∃ next, Worker.drainLoop D.toPipeline workerId (rounds + 1) =
        (Worker.runOnce D.toPipeline workerId).attempt.bind next ∧
      (∀ e, next (.error e) = .fail (.raised e)) ∧ next (.ok 0) = .done () ∧
      ∀ n, next (.ok (n + 1)) = Worker.drainLoop D.toPipeline workerId rounds :=
  ⟨_, rfl, fun _ => rfl, rfl, fun _ => rfl⟩

theorem drainLoop_shifts (workerId : String) : ∀ (rounds : Nat) (outs : List (Except Exn Nat)),
    outs.length + rounds = 1000 → (∀ out ∈ outs, ∃ n, out = .ok (n + 1)) →
    ((Worker.drainLoop D.toPipeline workerId rounds).embed.bind
      fun _ => (pure .returned : Program FleetCall FleetReply Worker.DrainError Ending)).Shifts
        D.machine.entry (StopGiven D)
      (Exhausted D) outs
  | 0, _, length, moved => .fail ⟨length, moved⟩
  | rounds + 1, outs, length, moved => by
      obtain ⟨next, same, raised, idle, onward⟩ := drainLoop_succ (D := D) workerId rounds
      rw [same, Program.embed_bind, Program.embed_attempt, Program.bind_assoc]
      refine .pass workerId _ rfl fun out => ?_
      cases out with
      | error e =>
          rw [raised]
          exact .fail (.inl List.mem_cons_self)
      | ok advanced =>
          cases advanced with
          | zero =>
              rw [idle]
              exact .done trivial
          | succ advanced =>
              rw [onward]
              refine drainLoop_shifts workerId rounds (.ok (advanced + 1) :: outs) ?_ ?_
              · simp only [List.length_cons]
                omega
              · intro out member
                rcases List.mem_cons.mp member with rfl | old
                · exact ⟨advanced, rfl⟩
                · exact moved out old

theorem fleet_shifts (job : Job) : (D.fleet.entry job).Shifts D.machine.entry (StopGiven D)
    (Exhausted D) [] := by
  cases job with
  | runForever worker passes => exact runForever_shifts worker passes []
  | drain workerId => exact drainLoop_shifts workerId 1000 [] rfl (by simp)

variable {c : FleetRun}

/-- The run of passes behind a run of a fleet. -/
theorem reachableFleet_simulated (reached : D.ReachableFleet c) :
    ∃ base crew, D.Reachable base ∧ Simulates D.machine.entry (StopGiven D) (Exhausted D)
      FleetWorld.world besideOf c base crew := by
  obtain ⟨now, lag, delay, signer, calendar, start⟩ := reached
  obtain ⟨base, crew, reached, sim⟩ := Machine.simulated fleet_extends fleet_shifts start
  exact ⟨base, crew, ⟨now, lag, delay, signer, calendar, reached⟩, sim⟩

/-- A schedule that can be carried out leads to a reachable run of the fleet. -/
theorem reachableFleet_of_schedule (good : FleetRun → Bool) (now : Int) (calendar : IsDatetime now)
    (moves : List (Move (Option BroadcastCode) FleetAct Job))
    (done : (D.fleet.performAll (.start { world := .fresh now }) moves).any good = true) :
    ∃ c, D.ReachableFleet c ∧ good c = true := by
  obtain ⟨c, performed, holds⟩ := (Option.any_eq_true _ _).mp done
  exact ⟨c, ⟨now, _, _, _, calendar, Machine.reaches_of_performAll performed⟩, holds⟩

/-- **A fleet is a crowd of passes.**  Every reachable configuration of a fleet, whatever its
loops and drains and whoever is stopped when, has the world of a run of single passes, and the
same things happened in the same order in both. -/
theorem fleet_refines (reached : D.ReachableFleet c) : ∃ base, D.Reachable base ∧
    base.point.world = c.point.world.world ∧
    base.point.trace.map Label.anonymous =
      c.point.trace.filterMap (Label.deed FleetWorld.world besideOf) := by
  obtain ⟨base, crew, reached, sim⟩ := reachableFleet_simulated reached
  exact ⟨base, reached, sim.world, sim.trace⟩

/-- One loop takes a request in two passes to the wire, while another one is stopped before it
begins. -/
def Sample.twoLoops : List (Move (Option BroadcastCode) FleetAct Job) :=
  [.act (.beside (.submit (Sample.request "11111111111141118111111111111111" "1"))),
    .spawn (.runForever ⟨"a", 0⟩ 2), .spawn (.runForever ⟨"b", 1⟩ 1), .act (.stop 1)] ++
    Move.serves 1 none 1 ++ Move.serves 0 none 19

theorem fleet_refines_two_loops : ∃ c base, Sample.deployment.ReachableFleet c ∧
    c.point.world.world.node.broadcastLog.length = 1 ∧ Sample.deployment.Reachable base ∧
    base.point.world = c.point.world.world := by
  obtain ⟨c, reached, sent⟩ := reachableFleet_of_schedule (D := Sample.deployment)
    (fun c => c.point.world.world.node.broadcastLog.length = 1) Sample.epoch (by decide)
    Sample.twoLoops (by decide +kernel)
  obtain ⟨base, reached', same, _⟩ := fleet_refines reached
  exact ⟨c, base, reached, of_decide_eq_true sent, reached', same⟩

end Refinement

/-! ## Stopping -/

/-- The calls of a fleet's thread, with their replies. -/
abbrev FleetTalk := Dialogue FleetCall FleetReply

/-- A claim. -/
def begins : FleetCall → Bool
  | .inl call => opens call
  | .inr _ => false

/-- The last look at the stop event was in vain, and nothing was claimed since. -/
def Unstopped (event : Nat) (d : FleetTalk) : Prop :=
  ∃ before after, d = before ++ ⟨.inr (.isSet event), false⟩ :: after ∧
    ∀ said ∈ after, begins said.1 = false

/-- What a thread asks: a loop looks at its own stop event before each claim, and a drain at
none. -/
def JobFits : Job → FleetTalk → FleetCall → Prop
  | .runForever worker _, d, .inl call => opens call = true → Unstopped worker.stop d
  | .runForever worker _, _, .inr (.isSet event) => event = worker.stop
  | .runForever worker _, _, .inr (.wait event) => event = worker.stop
  | .drain _, _, .inl _ => True
  | .drain _, _, .inr _ => False

/-- How a thread ends: a loop returns when it has seen its stop event set, and raises nothing
but crashes and what a wait raises. -/
def JobEnds (D : Deployment) : Job → FleetTalk → Except Worker.DrainError Ending → Prop
  | .runForever worker _, d, .ok .returned => d.getLast? = some ⟨.inr (.isSet worker.stop), true⟩
  | .runForever .., _, .ok .cut => True
  | .runForever .., _, .error e => (∃ point, e = .raised (.simulatedCrash point)) ∨
      e = .raised .overflowError ∧ D.cfg.pollInterval.tooLong = true
  | .drain _, _, _ => True

/-- Replies that any store gives, and stop events. -/
def FleetCredible (D : Deployment) : (call : FleetCall) → FleetReply call → Prop
  | .inl call, reply => Credible call reply
  | .inr call, reply => StopGiven D call reply

section Stopping

variable {D : Deployment} {c : FleetRun}

theorem Unstopped.append {event : Nat} {d : FleetTalk} (unstopped : Unstopped event d)
    (earlier : FleetTalk) : Unstopped event (earlier ++ d) := by
  obtain ⟨before, after, rfl, quiet⟩ := unstopped
  exact ⟨earlier ++ before, after, (List.append_assoc _ _ _).symm, quiet⟩

/-- What came before does not matter. -/
theorem JobFits.append {worker : Employee} {passes passes' : Nat} {d : FleetTalk} {call : FleetCall}
    (fits : JobFits (.runForever worker passes) d call) (earlier : FleetTalk) :
    JobFits (.runForever worker passes') (earlier ++ d) call := by
  cases call with
  | inl call => exact fun claim => (fits claim).append earlier
  | inr call => cases call <;> exact fits

theorem JobFits.unstopped {worker : Employee} {passes : Nat} {d : FleetTalk} {call : FleetCall}
    (fits : JobFits (.runForever worker passes) d call) (claim : begins call = true) :
    Unstopped worker.stop d := by
  cases call with
  | inl call => exact fits claim
  | inr call => cases claim

theorem JobEnds.append {worker : Employee} {passes passes' : Nat} {d : FleetTalk}
    {outcome : Except Worker.DrainError Ending}
    (ends : JobEnds D (.runForever worker passes) d outcome) (earlier : FleetTalk) :
    JobEnds D (.runForever worker passes') (earlier ++ d) outcome := by
  rcases outcome with e | _ | _
  · exact ends
  · have last : d.getLast? = some ⟨.inr (.isSet worker.stop), true⟩ := ends
    show (earlier ++ d).getLast? = _
    rw [List.getLast?_append, last]
    rfl
  · trivial

theorem runForever_tells (worker : Employee) : ∀ passes : Nat,
    (Worker.runForever D.toPipeline worker passes).Tells (FleetCredible D)
      (JobFits (.runForever worker passes)) (JobEnds D (.runForever worker passes))
  | 0 => trivial
  | passes + 1 => by
      have again : ∀ earlier : FleetTalk,
          (Worker.runForever D.toPipeline worker passes).Tells (FleetCredible D)
            (fun d => JobFits (.runForever worker (passes + 1)) (earlier ++ d))
            (fun d => JobEnds D (.runForever worker (passes + 1)) (earlier ++ d)) :=
        fun earlier => (runForever_tells worker passes).mono (fun _ _ fits => fits.append earlier)
          (fun _ _ ends => ends.append earlier)
      have waits : ∀ earlier : FleetTalk,
          (Worker.backOff worker (Worker.runForever D.toPipeline worker passes)).Tells
            (FleetCredible D)
            (fun d => JobFits (.runForever worker (passes + 1)) (earlier ++ d))
            (fun d => JobEnds D (.runForever worker (passes + 1)) (earlier ++ d)) := by
        intro earlier
        refine ⟨rfl, fun waited given => ?_⟩
        rcases waited with e | _
        · exact .inr ⟨congrArg _ given.1, given.2⟩
        refine (again (earlier ++ [⟨.inr (.wait worker.stop), .ok ()⟩])).mono
          (fun d _ fits => ?_) (fun d _ ends => ?_)
        · beta_reduce
          rw [List.append_cons]
          exact fits
        · beta_reduce
          rw [List.append_cons]
          exact ends
      have pass : (Worker.runOnce D.toPipeline worker.workerId).Tells Credible
          (Fits D.cfg worker.workerId) Tally := runOnce_tally fun _ _ given => given
      refine ⟨rfl, fun stopped _ => ?_⟩
      cases stopped with
      | true => rfl
      | false =>
          show Program.Tells (FleetCredible D)
            ((Worker.runOnce D.toPipeline worker.workerId).embed.attempt.bind _) _ _
          refine Program.Tells.bind (Program.Tells.attempt (Program.Tells.embed
            (fun _ _ told => told) ?_ ?_ pass))
          · -- the pass claims with its first call, right after the look
            intro d call fits claim
            rw [fits.2.2 claim]
            exact ⟨[], [], rfl, by simp⟩
          intro d outcome tally
          cases outcome with
          | ok count =>
              cases count with
              | zero => exact waits (⟨.inr (.isSet worker.stop), false⟩ :: Program.embedded d)
              | succ count => exact again (⟨.inr (.isSet worker.stop), false⟩ :: Program.embedded d)
          | error e =>
              cases e with
              | simulatedCrash point => exact .inl ⟨point, rfl⟩
              | lostClaim | store | overflowError | typeError | keyError =>
                  exact waits (⟨.inr (.isSet worker.stop), false⟩ :: Program.embedded d)

theorem drain_tells (workerId : String) :
    (D.fleet.entry (.drain workerId)).Tells (FleetCredible D) (JobFits (.drain workerId))
      (JobEnds D (.drain workerId)) :=
  Program.Tells.bind (Program.Tells.embed (fun _ _ told => told) (fun _ _ _ => trivial)
    (fun _ outcome _ => by cases outcome <;> trivial)
    (Program.tells_trivial (Worker.drain D.toPipeline workerId)))

theorem fleet_tells (job : Job) :
    (D.fleet.entry job).Tells (FleetCredible D) (JobFits job) (JobEnds D job) := by
  cases job with
  | runForever worker passes => exact runForever_tells worker passes
  | drain workerId => exact drain_tells workerId

theorem fleetServe_credible {choice : Option BroadcastCode} {call : FleetCall}
    {reply : FleetReply call} {f f' : FleetWorld}
    (moved : D.fleetServe choice call f = some (reply, f')) : FleetCredible D call reply := by
  cases call with
  | inl call => exact serve_credible (fleet_extends.inner choice call reply f f' moved)
  | inr call => exact (serve_stop moved).2

/-- A thread that has looked at a stop event is a loop, and keeps to the rules of one. -/
theorem loop_conduct (reached : D.ReachableFleet c) {t : Nat}
    {program : Program FleetCall FleetReply Worker.DrainError Ending}
    (found : c.pool[t]? = some program) {event : Nat}
    (looks : ∃ stopped, ⟨.inr (.isSet event), stopped⟩ ∈ heard t c.point.trace) :
    ∃ worker passes, worker.stop = event ∧
      program.Tells (FleetCredible D)
        (fun d => JobFits (.runForever worker passes) (heard t c.point.trace ++ d))
        (fun d => JobEnds D (.runForever worker passes) (heard t c.point.trace ++ d)) ∧
      ∀ before said after, heard t c.point.trace = before ++ said :: after →
        JobFits (.runForever worker passes) before said.1 := by
  obtain ⟨now, lag, delay, signer, calendar, start⟩ := reached
  obtain ⟨job, tells, fits⟩ := Machine.tells fleet_tells start
    (fun _ _ _ _ _ _ logged => fleetServe_credible (Machine.served_of_mem start logged).1) found
  obtain ⟨stopped, member⟩ := looks
  obtain ⟨before, after, split⟩ := List.append_of_mem member
  have fit := fits before _ after split
  cases job with
  | drain workerId => exact fit.elim
  | runForever worker passes => exact ⟨worker, passes, fit.symm, tells, fits⟩

/-- Events stay set. -/
theorem step_stopped {c' : FleetRun} (step : D.fleet.Step c c') :
    c.point.world.stopped ⊆ c'.point.world.stopped := by
  obtain ⟨entry, rfl⟩ | ⟨action, world, moved, rfl⟩ |
    ⟨t, choice, request, next, reply, world, _, moved, rfl⟩ := D.fleet.step_cases step
  · exact List.Subset.refl _
  · have acted : D.fleetAct action c.point.world = some world := moved
    cases action with
    | beside action =>
        obtain ⟨w', _, rfl⟩ := Option.map_eq_some_iff.mp acted
        exact List.Subset.refl _
    | stop event =>
        cases acted
        exact List.subset_cons_self _ _
    | shuffle jitter =>
        cases acted
        exact List.Subset.refl _
  · have served : D.fleetServe choice request c.point.world = some (reply, world) := moved
    cases request with
    | inl call =>
        obtain ⟨⟨reply', w'⟩, _, same⟩ := Option.map_eq_some_iff.mp served
        cases same
        exact List.Subset.refl _
    | inr call =>
        obtain ⟨rfl, _⟩ := serve_stop served
        exact List.Subset.refl _

theorem reaches_stopped {c' : FleetRun} (later : D.fleet.Reaches c c') :
    c.point.world.stopped ⊆ c'.point.world.stopped := by
  induction later with
  | refl => exact List.Subset.refl _
  | tail _ step ih => exact List.Subset.trans ih (step_stopped step)

theorem stopped_of_mem (reached : D.ReachableFleet c) {event : Nat} {f f' : FleetWorld}
    (member : .acted (.stop event) f f' ∈ c.point.trace) : event ∈ c.point.world.stopped := by
  obtain ⟨now, lag, delay, signer, calendar, start⟩ := reached
  induction start with
  | refl => simp [Configuration.start] at member
  | @tail middle last _ step ih =>
      have kept := step_stopped step
      obtain ⟨entry, rfl⟩ | ⟨action, world, moved, rfl⟩ |
        ⟨t, choice, request, next, reply, world, _, moved, rfl⟩ := D.fleet.step_cases step
      · exact ih member
      · rcases List.mem_cons.mp member with here | there
        · cases here
          cases moved
          exact List.mem_cons_self
        · exact kept (ih there)
      · exact kept (ih (by simpa using member))

theorem look_answer (reached : D.ReachableFleet c) {t event : Nat} {choice : Option BroadcastCode}
    {stopped : Bool} {f f' : FleetWorld}
    (logged : .served t choice (.inr (.isSet event)) stopped f f' ∈ c.point.trace) :
    stopped = decide (event ∈ f.stopped) := by
  obtain ⟨now, lag, delay, signer, calendar, start⟩ := reached
  have served := (Machine.served_of_mem start logged).1
  cases served
  rfl

/-- A look at an event that was set before finds it set. -/
theorem look_after_stop (reached : D.ReachableFleet c) {event t : Nat} {newer older : List _}
    {f f' : FleetWorld} (trace : c.point.trace = newer ++ .acted (.stop event) f f' :: older)
    {stopped : Bool} (looked : ⟨.inr (.isSet event), stopped⟩ ∈ heard t newer) :
    stopped = true := by
  obtain ⟨choice, w, w', member⟩ := mem_heard.mp looked
  obtain ⟨late, early, split⟩ := List.append_of_mem member
  obtain ⟨now, lag, delay, signer, calendar, start⟩ := reached
  rw [split, List.append_assoc, List.cons_append] at trace
  obtain ⟨c₀, _, before, _, _, at₀, _⟩ := D.fleet.reaches_past start trace
  have set_ : .acted (.stop event) f f' ∈ c₀.point.trace := by
    rw [at₀]
    exact List.mem_append_right early List.mem_cons_self
  have isSet := stopped_of_mem ⟨now, lag, delay, signer, calendar, before⟩ set_
  have logged : .served t choice (.inr (.isSet event)) stopped w w' ∈ c.point.trace :=
    trace ▸ List.mem_append_right late List.mem_cons_self
  have answer := look_answer ⟨now, lag, delay, signer, calendar, start⟩ logged
  rw [at₀] at isSet
  rw [answer]
  exact decide_eq_true isSet

/-- A thread that has said something is in the pool. -/
theorem heard_found (reached : D.ReachableFleet c) {t : Nat}
    {said : (call : FleetCall) × FleetReply call} (member : said ∈ heard t c.point.trace) :
    ∃ program, c.pool[t]? = some program := by
  obtain ⟨now, lag, delay, signer, calendar, start⟩ := reached
  cases found : c.pool[t]? with
  | some program => exact ⟨program, rfl⟩
  | none =>
      rw [(Machine.goes start).2 t (List.getElem?_eq_none_iff.mp found)] at member
      cases member

/-- Between two claims of a loop there is a look at its stop event. -/
theorem Unstopped.between {event : Nat} {earlier first second : FleetTalk}
    {claim : (call : FleetCall) × FleetReply call} (begun : begins claim.1 = true)
    (unstopped : Unstopped event (earlier ++ (first ++ claim :: second))) :
    ⟨.inr (.isSet event), false⟩ ∈ first ++ claim :: second := by
  obtain ⟨before, after, split, quiet⟩ := unstopped
  rw [← List.append_assoc] at split
  rcases List.append_eq_append_iff.mp split with ⟨gap, _, rest⟩ | ⟨gap, _, rest⟩
  · rw [rest]
    simp
  · cases gap with
    | nil =>
        rw [List.nil_append] at rest
        rw [← rest]
        simp
    | cons look gap =>
        obtain ⟨_, rest⟩ := List.cons.inj rest
        have quiet := quiet claim (by rw [rest]; simp)
        rw [begun] at quiet
        cases quiet

/-- **Stopping works.**  After its stop event is set a loop claims at most once more; a loop
that has returned was stopped; and no exception gets out of it but a crash and, if the polling
interval can be too long for a wait, the overflow of that wait. -/
theorem stop_honoured (reached : D.ReachableFleet c) {t event : Nat}
    (looks : ∃ stopped, ⟨.inr (.isSet event), stopped⟩ ∈ heard t c.point.trace) :
    (∀ newer older f f', c.point.trace = newer ++ .acted (.stop event) f f' :: older →
      (heard t newer).countP (fun said => begins said.1) ≤ 1) ∧
    (c.pool[t]? = some (.done .returned) → event ∈ c.point.world.stopped) ∧
    ∀ e, c.pool[t]? = some (.fail e) → (∃ point, e = .raised (.simulatedCrash point)) ∨
      e = .raised .overflowError ∧ D.cfg.pollInterval.tooLong = true := by
  refine ⟨fun newer older f f' trace => ?_, fun back => ?_, fun e fallen => ?_⟩
  · by_contra many
    obtain ⟨_, member⟩ := looks
    obtain ⟨program, found⟩ := heard_found reached member
    obtain ⟨worker, passes, rfl, _, fits⟩ := loop_conduct reached found ⟨_, member⟩
    -- the first two claims after the stop, and the look between them
    obtain ⟨first, claim, second, claim', rest, split, begun, begun'⟩ :=
      two_of_countP (not_le.mp many)
    have whole : heard t c.point.trace =
        heard t (.acted (.stop worker.stop) f f' :: older) ++ (first ++ claim :: second) ++
          claim' :: rest := by
      rw [trace, heard_append, split, ← List.append_assoc]
    have look := ((fits _ claim' rest whole).unstopped begun').between begun
    have answer := look_after_stop reached trace (split ▸ List.mem_append_left _ look)
    cases answer
  · obtain ⟨stopped, member⟩ := looks
    obtain ⟨worker, passes, rfl, tells, _⟩ := loop_conduct reached back ⟨_, member⟩
    have last : (heard t c.point.trace ++ []).getLast? =
      some ⟨.inr (.isSet worker.stop), true⟩ := tells
    rw [List.append_nil] at last
    obtain ⟨choice, f, f', logged⟩ := mem_heard.mp (List.mem_of_getLast? last)
    have isSet := of_decide_eq_true (look_answer reached logged).symm
    obtain ⟨now, lag, delay, signer, calendar, start⟩ := reached
    obtain ⟨newer, older, trace⟩ := List.append_of_mem logged
    obtain ⟨c₀, c₁, _, step, later, at₀, _⟩ := D.fleet.reaches_past start trace
    have early : worker.stop ∈ c₀.point.world.stopped := by
      rw [at₀]
      exact isSet
    exact reaches_stopped later (step_stopped step early)
  · obtain ⟨stopped, member⟩ := looks
    obtain ⟨worker, passes, rfl, tells, _⟩ := loop_conduct reached fallen ⟨_, member⟩
    exact tells

/-- A look at this stop event. -/
def looksAt (event : Nat) : (call : FleetCall) × FleetReply call → Bool
  | ⟨.inr (.isSet seen), _⟩ => seen = event
  | _ => false

theorem looks_of_any {event : Nat} {d : FleetTalk} (found : d.any (looksAt event) = true) :
    ∃ stopped, ⟨.inr (.isSet event), stopped⟩ ∈ d := by
  obtain ⟨⟨call, reply⟩, member, look⟩ := List.any_eq_true.mp found
  rcases call with call | seen | seen
  · cases look
  · cases of_decide_eq_true look
    exact ⟨reply, member⟩
  · cases look

/-- How a thread of the fleet has ended. -/
def outcomeOf : Program FleetCall FleetReply Worker.DrainError Ending →
    Option (Except Worker.DrainError Ending)
  | .done value => some (.ok value)
  | .fail error => some (.error error)
  | .call _ _ => none

theorem eq_ended_of_outcomeOf {t : Nat} {outcome : Except Worker.DrainError Ending}
    (found : c.pool[t]?.bind outcomeOf = some outcome) : c.pool[t]? = some (.ended outcome) := by
  obtain ⟨program, found, same⟩ := Option.bind_eq_some_iff.mp found
  rw [found]
  cases program with
  | done value =>
      cases same
      rfl
  | fail error =>
      cases same
      rfl
  | call request next => cases same

/-- Stopped right after its first look, a loop makes one more claim and returns. -/
theorem stop_honoured_late : ∃ c, Sample.deployment.ReachableFleet c ∧
    c.pool[0]? = some (.done .returned) ∧ 0 ∈ c.point.world.stopped := by
  obtain ⟨c, reached, shown⟩ := reachableFleet_of_schedule (D := Sample.deployment)
    (fun c => (heard 0 c.point.trace).any (looksAt 0) &&
      c.pool[0]?.bind outcomeOf = some (.ok .returned)) Sample.epoch (by decide)
    ([.spawn (.runForever ⟨"a", 0⟩ 2)] ++ Move.serves 0 none 1 ++ [.act (.stop 0)] ++
      Move.serves 0 none 3) (by decide +kernel)
  rw [Bool.and_eq_true, decide_eq_true_eq] at shown
  have back := eq_ended_of_outcomeOf shown.2
  exact ⟨c, reached, back, (stop_honoured reached (looks_of_any shown.1)).2.1 back⟩

end Stopping

/-! ## Draining -/

section Draining

variable {D : Deployment} {c : FleetRun} {base : Run} {p : Moment}

end Draining

end Sluice.Protocol
