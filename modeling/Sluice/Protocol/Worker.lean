/-
# Protocol.Worker -- every worker keeps the discipline, so every run does

A worker claims a batch and drives its operations one after the other.  While it drives
one, the others stay claimed: what it knows about them is the frame of every macro step
(`knows_frame`), and the ids of one batch differ, so no step writes to a framed row.

`kept` puts the pieces together.  From here on a property of all runs needs no program:
it is an invariant of strides (`passed_induction`, `stride_induction`), or it follows
from the stride that one step of the past was (`reachable_past`).
-/
import Sluice.Protocol.Handlers

namespace Sluice.Protocol

open Sluice.Theory Sluice.Kernel

set_option autoImplicit false

section Drive

variable {D : Deployment} {t : Nat} {id : UUID} {token : Nat} {op : Operation} {F : Moment → Prop}
  {p : Moment} (worker : String)

/-- What driving one operation leaves, however it ends. -/
def Driven (F : Moment → Prop) : Except Exn Nat → Moment → Prop
  | .ok _, p => F p
  | .error _, _ => True

/-- A claim is given back from the snapshot the thread has, whatever it was claimed with. -/
theorem release_safe {last : Operation} (frame : Frame D t id F)
    (drives : Drives D t id token F p last) (running : last.state.terminal = false)
    (mine : op.operationId = id) (owned : op.fencingToken = token) (advanced : Nat) :
    Safe D.machine (discipline D) t p (Worker.release op advanced) (Driven F) := by
  have may : ∀ p', Drives D t id token F p' last →
      Allowed D t p' (.release op.operationId op.fencingToken) :=
    fun p' drives' => ⟨last, drives'.knows, running, mine.trans drives'.operationId.symm,
      owned.trans drives'.fencingToken.symm⟩
  refine Safe.call (Drives.others frame) drives (fun p' _ drives' => may p' drives') ?_
  intro p' choice reply w' inv drives' moved
  exact frame.own inv (may p' drives') moved (.inr (congrArg some mine)) drives'.framed

/-- The breadcrumb is a write from the snapshot, or in vain. -/
theorem breadcrumb_safe {last : Operation} (frame : Frame D t id F)
    (drives : Drives D t id token F p last) (running : last.state.terminal = false)
    (mine : op.operationId = id) (owned : op.fencingToken = token)
    (only : last.state = op.state → last = op) (advanced : Nat) :
    Safe D.machine (discipline D) t p
      ((ask (.cas (breadcrumb op worker))).bind
        fun written : Except StoreError (Option Operation) => match written with
        | .error e => Program.raise (.store e)
        | .ok _ => Worker.release op advanced)
      (Driven F) := by
  refine safe_cas frame drives mine owned ?_ ?_ ?_
  · intro p' held _
    by_cases still : last.state = op.state
    · obtain rfl := only still
      exact .inl ⟨last, none, last.state, worker, _, {}, held.knows, .breadcrumb running trivial,
        .inr ⟨rfl, rfl⟩, rfl⟩
    · exact .inr ⟨last, held.knows, mine.trans held.operationId.symm,
        owned.trans held.fencingToken.symm, Ne.symm still, by simp [breadcrumb, snapshotRequest,
          OpState.canTransition]⟩
  · exact fun p' held => release_safe frame held running mine owned advanced
  · intro p' now from_ held
    refine release_safe frame held ?_ mine owned advanced
    rw [MemoryStore.casRow_state]
    exact (congrArg OpState.terminal from_).trans running

/-- The loop, by induction on the macro steps left. -/
theorem driveLoop_safe (frame : Frame D t id F) (steps : Nat) :
    ∀ (op : Operation) (advanced : Nat) (p : Moment), Drives D t id token F p op →
      op.state.terminal = false →
      Safe D.machine (discipline D) t p
        (Worker.driveLoop D.toPipeline worker steps op advanced) (Driven F) := by
  induction steps with
  | zero =>
      exact fun op advanced p drives running =>
        release_safe frame drives running drives.operationId drives.fencingToken advanced
  | succ steps ih =>
      intro op advanced p drives running
      refine Safe.bind (Safe.attempt ((step_safe worker frame drives running).mono ?_))
      rintro (exn | next) p' stepped
      · cases exn with
        | lostClaim => exact stepped
        | simulatedCrash point => exact trivial
        | store => cases stepped
        | overflowError | typeError | keyError =>
            obtain ⟨last, held, live, only⟩ := stepped
            exact breadcrumb_safe worker frame held live drives.operationId drives.fencingToken
              only advanced
      · replace stepped : Drives D t id token F p' next := stepped
        simp only
        split
        · exact stepped.framed
        rename_i going
        have running' : next.state.terminal = false := by simpa using going
        split
        · exact release_safe frame stepped running' stepped.operationId stepped.fencingToken _
        · exact ih next _ p' stepped running'

/-- The rest of a batch frames the operation being driven. -/
theorem knows_frame {rest : List Operation} (elsewhere : ∀ other ∈ rest, other.operationId ≠ id) :
    Frame D t id fun p => ∀ other ∈ rest, Knows D t other p := by
  constructor
  · exact fun p p' step inv knows other member => Knows.others p p' step inv (knows other member)
  · intro p choice call reply w' inv allowed moved target knows other member
    refine (knows other member).own inv allowed moved fun clash => ?_
    rcases target with none_ | own
    · rw [none_] at clash
      cases clash
    · rw [own] at clash
      exact elsewhere other member (Option.some.inj clash).symm

theorem driveAll_safe (ops : List Operation) :
    ∀ p : Moment, (ops.map (·.operationId)).Nodup → (∀ op ∈ ops, op.state.terminal = false) →
      (∀ op ∈ ops, Knows D t op p) →
      Safe D.machine (discipline D) t p (Worker.driveAll D.toPipeline worker ops)
        fun _ _ => True := by
  induction ops with
  | nil => exact fun _ _ _ _ => trivial
  | cons op rest ih =>
      intro p distinct running knows
      obtain ⟨fresh, distinct'⟩ := List.nodup_cons.mp distinct
      have frame : Frame D t op.operationId fun p => ∀ other ∈ rest, Knows D t other p :=
        knows_frame fun other member same => fresh (List.mem_map.mpr ⟨other, member, same⟩)
      have drives : Drives D t op.operationId op.fencingToken
          (fun p => ∀ other ∈ rest, Knows D t other p) p op :=
        ⟨knows op List.mem_cons_self, rfl, rfl, fun other member => knows other (.tail _ member)⟩
      refine Safe.bind ((driveLoop_safe worker frame maxStepsPerClaim op 0 p drives
        (running op List.mem_cons_self)).mono ?_)
      rintro (exn | advanced) p' driven
      · trivial
      · refine Safe.bind ((ih p' distinct' (fun other member => running other (.tail _ member))
          driven).mono ?_)
        rintro (exn | others) p'' _ <;> trivial

/-- Whatever a claim returns is known. -/
theorem claimed_known {choice : Option BroadcastCode} {states : List OpState} {limit : Nat}
    {lease : Seconds} {ops : List Operation} {w' : World} (inv : Inv D p)
    (allowed : Allowed D t p (.claim states limit worker lease))
    (moved : D.serve choice (.claim states limit worker lease) p.world = some (.ok ops, w')) :
    ∀ op ∈ ops, Knows D t op
      (p.log (.served t choice (.claim states limit worker lease) (.ok ops) p.world w')) := by
  intro op member
  have inv' := inv_served inv allowed moved
  obtain ⟨answer, rfl⟩ := serve_claim moved
  have stored := (MemoryStore.mem_claim answer.symm member).2
  exact ⟨⟨_, List.mem_cons_self, rfl, op, member, rfl, rfl⟩,
    ⟨op, stored, le_refl _, fun _ => rfl⟩, inv'.rows _ op stored⟩

theorem runOnce_safe :
    Safe D.machine (discipline D) t p (Worker.runOnce D.toPipeline worker) fun _ _ => True := by
  refine Safe.call (.const True) trivial (fun _ _ _ => ⟨rfl, rfl, rfl⟩) ?_
  intro p' choice reply w' inv' _ moved
  replace moved : D.serve choice (.claim OpState.claimable D.cfg.claimBatch worker
    D.cfg.leaseSeconds) p'.world = some (reply, w') := moved
  rcases reply with e | ops
  · trivial
  have answer := (serve_claim moved).1.symm
  refine driveAll_safe worker ops _ (MemoryStore.claim_ids_nodup answer) ?_
    (claimed_known worker inv' ⟨rfl, rfl, rfl⟩ moved)
  intro op member
  obtain ⟨row, _, _, wanted, _, _, rfl⟩ := (MemoryStore.mem_claim answer member).1
  exact (OpState.mem_claimable_iff _).mp wanted

end Drive

/-! ## All runs -/

section Runs

variable {D : Deployment}

/-- Workers keep the discipline over any fresh world. -/
theorem kept (now solidityLag inclusionDelay : Int) (nodeSigner : MockSigner) :
    (discipline D).Kept D.machine (.fresh now solidityLag inclusionDelay nodeSigner) where
  initial := inv_fresh now solidityLag inclusionDelay nodeSigner
  acted _ _ _ inv moved := inv_acted inv moved
  served _ _ _ _ _ _ inv allowed moved := inv_served inv allowed moved
  entry _ _ worker _ := runOnce_safe worker

theorem reachable_follows {c : Run} (reached : D.Reachable c) :
    (discipline D).Follows D.machine c := by
  obtain ⟨now, lag, delay, signer, _, reached⟩ := reached
  exact (kept now lag delay signer).sound reached

/-- A step between two reachable configurations is a stride, or only starts a worker. -/
theorem reachable_stride {c c' : Run} (reached : D.Reachable c) (step : D.machine.Step c c') :
    c'.point = c.point ∨ ∃ label, c'.point = c.point.log label ∧ Stride D c.point label := by
  rcases (reachable_follows reached).moves step with same | moved
  · exact .inl same
  · right
    generalize c'.point = p' at moved
    cases moved with
    | acted action world moved => exact ⟨_, rfl, act_stride moved⟩
    | served thread choice call reply world allowed moved =>
        exact ⟨_, rfl, serve_stride (reachable_follows reached).inv allowed moved⟩

theorem reachable_later {c c' : Run} (reached : D.Reachable c)
    (later : D.machine.Reaches c c') : D.Reachable c' := by
  obtain ⟨now, lag, delay, signer, calendar, reached⟩ := reached
  exact ⟨now, lag, delay, signer, calendar, reached.trans later⟩

/-- World and history of some reachable run. -/
def Passed (D : Deployment) (p : Moment) : Prop := ∃ c, D.Reachable c ∧ c.point = p

theorem Passed.inv {p : Moment} (passed : Passed D p) : Inv D p := by
  obtain ⟨c, reached, rfl⟩ := passed
  exact (reachable_follows reached).inv

/-- What every stride keeps holds in the future of where it holds. -/
theorem stride_induction {J : Moment → Prop}
    (strides : ∀ p step, Passed D p → Passed D (p.log step) → Stride D p step → J p →
      J (p.log step))
    {c c' : Run} (reached : D.Reachable c) (later : D.machine.Reaches c c') (holds : J c.point) :
    J c'.point ∧ D.Reachable c' := by
  induction later with
  | refl => exact ⟨holds, reached⟩
  | @tail middle last _ step ih =>
      obtain ⟨holds, reached⟩ := ih
      have reached' := reachable_later reached (.single step)
      refine ⟨?_, reached'⟩
      rcases reachable_stride reached step with same | ⟨label, same, stride⟩
      · rw [same]
        exact holds
      · rw [same]
        exact strides _ label ⟨middle, reached, rfl⟩ ⟨last, reached', same⟩ stride holds

/-- What every stride keeps, and what holds at the start, holds in every run. -/
theorem passed_induction {J : Moment → Prop}
    (initial : ∀ now solidityLag inclusionDelay nodeSigner, IsDatetime now →
      J ⟨.fresh now solidityLag inclusionDelay nodeSigner, []⟩)
    (strides : ∀ p step, Passed D p → Passed D (p.log step) → Stride D p step → J p →
      J (p.log step))
    {p : Moment} (passed : Passed D p) : J p := by
  obtain ⟨c, ⟨now, lag, delay, signer, calendar, reached⟩, rfl⟩ := passed
  exact (stride_induction strides ⟨now, lag, delay, signer, calendar, .refl⟩ reached
    (initial now lag delay signer calendar)).1

theorem Passed.logOk {p : Moment} (passed : Passed D p) : p.world.store.LogOk :=
  passed_induction (J := fun p => p.world.store.LogOk) (fun _ _ _ _ _ => MemoryStore.empty_logOk)
    (fun _ _ _ _ stride ok => ok.changes stride.advances.store) passed

theorem Passed.calendar {p : Moment} (passed : Passed D p) : IsDatetime p.world.now := by
  refine passed_induction (J := fun p => IsDatetime p.world.now)
    (fun _ _ _ _ calendar => calendar) ?_ passed
  intro p step _ _ stride ih
  cases stride.origin with
  | acted action w' was moved =>
      subst was
      cases action with
      | advance delta =>
          obtain ⟨rfl, valid, _⟩ := act_advance moved
          exact valid
      | submit | produceBlocks | script | arm => cases moved; exact ih
  | served t choice call reply w' was allowed moved =>
      subst was
      rw [Point.log_world, Label.after_served, (serve_evolves moved).1]
      exact ih

/-- The node's log is what the steps of the run put on the wire. -/
theorem Passed.wire {p : Moment} (passed : Passed D p) :
    p.world.node.broadcastLog = p.trace.reverse.filterMap entryOf := by
  refine passed_induction (J := fun p => p.world.node.broadcastLog =
    p.trace.reverse.filterMap entryOf) (fun _ _ _ _ _ => rfl) ?_ passed
  intro p step _ _ stride ih
  simp only [Point.log_world, Point.log_trace, List.reverse_cons, List.filterMap_append]
  rw [stride.wire, ih]
  cases entry : entryOf step <;> simp [entry]

/-- What intake establishes of a row, and every way a row goes on keeps, holds of every row. -/
theorem Passed.row_induction {J : Moment → UUID → Operation → Prop}
    (intake : ∀ p payload op w', Passed D p → Stride D p (.acted (.submit payload) p.world w') →
      validated D.sha256 D.cfg payload = .ok op → p.world.store.ops.get? op.operationId = none →
      w'.store.eventsOf op.operationId = [⟨op.operationId, none, op.state, none, 0,
        { intake := some true }, p.world.now, p.world.store.eventSeq⟩] →
      J (p.log (.acted (.submit payload) p.world w')) op.operationId
        { op with createdAt := some p.world.now, updatedAt := some p.world.now })
    (goes : ∀ p step id row row', Passed D p → Passed D (p.log step) → Stride D p step →
      p.world.store.ops.get? id = some row → Goes D p step row row' → J p id row →
      J (p.log step) id row')
    {p : Moment} (passed : Passed D p) :
    ∀ id row, p.world.store.ops.get? id = some row → J p id row := by
  refine passed_induction (J := fun p => ∀ id row, p.world.store.ops.get? id = some row →
    J p id row) ?_ ?_ passed
  · intro _ _ _ _ _ id row found
    simp [World.fresh, MemoryStore.empty] at found
  intro p step passed passed' stride ih id row' found'
  cases found : p.world.store.ops.get? id with
  | some row =>
      obtain ⟨_, after, went⟩ := stride.goes found
      cases after.symm.trans found'
      exact goes p step id row row' passed passed' stride found went (ih id row found)
  | none =>
      obtain ⟨payload, op, w', rfl, valid, rfl, rfl, stored⟩ := stride.intake found found'
      refine intake p payload op w' passed stride valid found ?_
      rw [stored, MemoryStore.eventsOf_insertRow, if_pos rfl, passed.logOk.absent _ found]
      rfl

theorem Passed.contiguous {p : Moment} (passed : Passed D p) : p.world.node.Contiguous :=
  passed_induction (J := fun p => p.world.node.Contiguous)
    (fun now lag delay signer _ => MockTronNode.genesis_contiguous now lag delay signer)
    (fun _ _ _ _ stride whole => whole.evolution stride.advances.node) passed

/-- Every step of the past was a stride, from a configuration that was passed. -/
theorem reachable_past {c : Run} (reached : D.Reachable c) {step : Step} {newer older : List Step}
    (trace : c.point.trace = newer ++ step :: older) :
    ∃ c₀ c₁, D.Reachable c₀ ∧ D.machine.Step c₀ c₁ ∧ D.machine.Reaches c₁ c ∧
      c₀.point = ⟨step.before, older⟩ ∧ c₁.point = c₀.point.log step ∧
      Stride D c₀.point step := by
  obtain ⟨now, lag, delay, signer, calendar, start⟩ := reached
  obtain ⟨c₀, c₁, before, here, later, at₀, at₁⟩ := D.machine.reaches_past start trace
  have reached₀ : D.Reachable c₀ := ⟨now, lag, delay, signer, calendar, before⟩
  refine ⟨c₀, c₁, reached₀, here, later, at₀, by rw [at₁, at₀]; rfl, ?_⟩
  rcases reachable_stride reached₀ here with same | ⟨label, same, stride⟩
  · rw [at₀, at₁] at same
    simp at same
  · rw [at₀, at₁] at same
    simp only [Point.log, Point.mk.injEq, List.cons.injEq, and_true] at same
    rw [same.2]
    exact stride

/-- A clock that never goes back. -/
theorem reachable_clock {c c' : Run} (reached : D.Reachable c) (later : D.machine.Reaches c c')
    (forward : Forward c'.point.trace) : c.point.world.now ≤ c'.point.world.now := by
  refine (stride_induction (J := fun p => Forward p.trace → c.point.world.now ≤ p.world.now)
    ?_ reached later fun _ => le_refl _).1 forward
  intro p step _ _ stride ih forward
  have here := Forward.head forward
  rw [stride.before] at here
  exact (ih (Forward.tail forward)).trans here

/-- Store and chain only grow. -/
theorem reachable_grows {c c' : Run} (reached : D.Reachable c) (later : D.machine.Reaches c c') :
    c.point.world.store.Grows c'.point.world.store ∧
      c.point.world.node.Grows c'.point.world.node := by
  refine (stride_induction (J := fun p => c.point.world.store.Grows p.world.store ∧
    c.point.world.node.Grows p.world.node) ?_ reached later ⟨.refl _, .refl _⟩).1
  intro p step passed _ stride grown
  exact ⟨grown.1.trans stride.advances.store.grows,
    grown.2.trans (passed.inv.chain.evolution stride.advances.node).2⟩

/-- A step of the past was a stride of some moment, and store and chain have only grown
since. -/
theorem step_past {c : Run} (reached : D.Reachable c) {step : Step}
    (member : step ∈ c.point.trace) :
    ∃ older, Passed D ⟨step.before, older⟩ ∧ Stride D ⟨step.before, older⟩ step ∧
      step.before.store.Grows c.point.world.store ∧ step.before.node.Grows c.point.world.node := by
  obtain ⟨newer, older, trace⟩ := List.append_of_mem member
  obtain ⟨c₀, c₁, reached₀, here, later, at₀, _, stride⟩ := reachable_past reached trace
  have grown := reachable_grows reached₀ (.head here later)
  rw [at₀] at stride grown
  exact ⟨older, ⟨c₀, reached₀, at₀⟩, stride, grown⟩

/-! ## Runs that are evaluated -/

/-- A schedule that can be carried out leads to a reachable run. -/
theorem reachable_of_schedule (good : Run → Bool) (now : Int) (calendar : IsDatetime now)
    (moves : List (Move (Option BroadcastCode) Act String))
    (done : (D.machine.performAll (.start (.fresh now)) moves).any good = true) :
    ∃ c, D.Reachable c ∧ good c = true := by
  obtain ⟨c, performed, holds⟩ := (Option.any_eq_true _ _).mp done
  exact ⟨c, ⟨now, _, _, _, calendar, Machine.reaches_of_performAll performed⟩, holds⟩

instance (trace : List Step) : Decidable (Forward trace) :=
  inferInstanceAs (Decidable (∀ step ∈ trace, step.before.now ≤ step.after.now))

end Runs

/-! The digest is a parameter of the model.  Under the identity, which is collision-free,
whole runs of the default configuration can be carried out by evaluation. -/

namespace Sample

def deployment : Deployment where
  cfg := {}
  signer := {}
  sha256 := id

def epoch : Int := 1767225600 * second

/-- A request to an address that is valid under the identity digest. -/
def request (operationId amount : String) : Payload :=
  .dict [("operation_id", .str operationId),
    ("to_address", .str "TA4Wt1DUCqz6YegbnsmqsWC5uUfbbwrfyr"), ("amount", .str amount)]

/-- `n` calls of thread `t`, answered as the mock answers them. -/
def serves (t n : Nat) : List (Move (Option BroadcastCode) Act String) :=
  List.replicate n (.serve t none)

end Sample

end Sluice.Protocol
