/-
# Protocol.Recovery -- no operation is stranded while the calendar lasts

There is no recovery code.  Whatever a crash leaves behind (a lease nobody will give back, a
half-built envelope, bytes that may or may not be out) is a row like any other: its lease ends
(`Passed.leases`), and some later worker claims it and takes it from where it stands.

From any state of any run, let time pass until every lease and every deadline is over, let
more blocks come than the solidity lag, and let one fresh worker make one round.  No row stays
then (`awake`), so the round uses up a scripted fault or an armed crash point, or changes the
state of a row, and the log shows it (`logged_change`).  Both are bounded: faults and crash
points are finitely many and workers make no new ones, and the life of a row is bounded by its
build attempts (`Passed.spent`).  So finitely many rounds finish every row (`never_stranded`).

Every round takes time, and `datetime` ends with the year 9999.  How long a round has to wait
follows from the configuration (`pace`), and `Roomy` says that the years left are enough for
all of them.  With a lease that reaches beyond the calendar no claim ever succeeds, and every
row stays where it is for good (`lease_beyond_calendar`).
-/
import Sluice.Protocol.Dates
import Sluice.Protocol.Idle
import Sluice.Protocol.Lifetime
import Sluice.Theory.Lists

namespace Sluice.Protocol

open Sluice.Theory Sluice.Kernel
open MemoryStore (claimRow leased Successor LogOk)

set_option autoImplicit false

/-! ## Leases end -/

section Leases

variable {D : Deployment} {c c' : Run}

/-- Once a lease can be computed, it can be computed from then on. -/
theorem reachable_season (reached : D.Reachable c) (later : D.machine.Reaches c c')
    (season : D.InSeason c.point.world.now) : D.InSeason c'.point.world.now := by
  refine (stride_induction (J := fun p => D.InSeason p.world.now) ?_ reached later season).1
  intro p step _ _ stride season
  cases stride.origin with
  | acted action w' was moved =>
      subst was
      exact act_season moved season
  | served t choice call reply w' was allowed moved =>
      subst was
      rw [Point.log_world, Label.after_served, (serve_evolves moved).1]
      exact season

/-- Under a forward clock, no lease reaches further than one lease from now. -/
theorem Passed.leases {p : Moment} (passed : Passed D p) (forward : Forward p.trace) {id : UUID}
    {row : Operation} (found : p.world.store.ops.get? id = some row) {expiry : Int}
    (held : row.leaseExpiresAt = some expiry) :
    ∃ latest, D.cfg.leaseSeconds.after p.world.now = some latest ∧ expiry ≤ latest := by
  obtain ⟨step, member, lands⟩ := (passed.dates id row found).lease expiry held
  obtain ⟨c, reached, rfl⟩ := passed
  obtain ⟨newer, older, trace⟩ := List.append_of_mem member
  obtain ⟨c₀, c₁, reached₀, here, later, at₀, _⟩ := reachable_past reached trace
  have then_ : c₀.point.world.now = step.before.now := by rw [at₀]
  have clock := reachable_clock reached₀ (.head here later) forward
  have season := reachable_season reached₀ (.head here later) (by
    rw [Deployment.InSeason, then_, lands]
    rfl)
  obtain ⟨latest, lands'⟩ := Option.isSome_iff_exists.mp season
  refine ⟨latest, lands', ?_⟩
  obtain ⟨span, spans, rfl, _⟩ := Seconds.after_eq_some_iff.mp lands
  obtain ⟨span', spans', rfl, _⟩ := Seconds.after_eq_some_iff.mp lands'
  cases spans.symm.trans spans'
  omega

end Leases

/-! ## Every change of state is logged -/

section Log

/-- Along the log of one operation the state stays until an event changes it. -/
theorem state_of_quiet (later : List Event) : ∀ first : Event,
    (first :: later).IsChain Successor → (∀ e ∈ later, changesState e = false) →
      ∀ last, (first :: later).getLast? = some last → last.toState = first.toState := by
  induction later with
  | nil =>
      intro first _ _ last isLast
      cases isLast
      rfl
  | cons next later ih =>
      intro first chain quiet last isLast
      obtain ⟨follows, chain⟩ := List.isChain_cons_cons.mp chain
      obtain ⟨stays, quiet⟩ := List.forall_mem_cons.mp quiet
      have same : first.toState = next.toState := by
        simpa [changesState, follows.fromState] using stays
      rw [same]
      exact ih next chain quiet last (by simpa using isLast)

/-- If a row is found in another state later on, the log has grown by an event that changed
the state. -/
theorem logged_change {store store' : MemoryStore} {id : UUID} {row row' : Operation}
    (grown : store.Grows store') (ok : LogOk store) (ok' : LogOk store')
    (found : store.ops.get? id = some row) (found' : store'.ops.get? id = some row')
    (changed : row'.state ≠ row.state) :
    store.events.countP changesState < store'.events.countP changesState := by
  obtain ⟨newer, events⟩ := grown.events
  obtain ⟨last, isLast, state⟩ := (ok.present id row found).last
  obtain ⟨last', isLast', state'⟩ := (ok'.present id row' found').last
  have chain := (ok'.present id row' found').chain
  obtain ⟨older, split⟩ := List.getLast?_eq_some_iff.mp isLast
  have whole : store'.eventsOf id =
      older ++ last :: newer.filter fun e => e.operationId = id := by
    rw [MemoryStore.eventsOf, ← events, List.filter_append]
    change store.eventsOf id ++ _ = _
    rw [split, List.append_assoc]
    rfl
  rw [whole] at chain isLast'
  rw [← events, List.countP_append]
  refine Nat.lt_add_of_pos_right (List.countP_pos_iff.mpr ?_)
  by_contra none_
  push Not at none_
  refine changed ?_
  rw [← state, ← state']
  refine state_of_quiet _ last (List.isChain_append.mp chain).2.1 (fun e member => ?_) last' ?_
  · exact Bool.not_eq_true _ ▸ none_ e (List.mem_filter.mp member).1
  · rw [List.getLast?_append_of_ne_nil _ (List.cons_ne_nil _ _)] at isLast'
    exact isLast'

def changes (w : World) : Nat := w.store.events.countP changesState

/-- All of them, at most, over the life of this many rows. -/
def lifeBound (D : Deployment) (rows : Nat) : Nat :=
  rows * (4 * max D.cfg.maxBuildAttempts 0 + 3).toNat

theorem Passed.changes_le {D : Deployment} {p : Moment} (passed : Passed D p) {keys : List UUID}
    (known : ∀ id row, p.world.store.ops.get? id = some row → id ∈ keys) :
    changes p.world ≤ lifeBound D keys.length := by
  have ok := passed.logOk
  refine countP_le_mul (fun e => e.operationId) changesState keys _ (fun e member => ?_)
    fun id _ => ?_
  · cases found : p.world.store.ops.get? e.operationId with
    | some row => exact known _ row found
    | none =>
        have none_ := ok.absent _ found
        have logged : e ∈ p.world.store.eventsOf e.operationId :=
          List.mem_filter.mpr ⟨member, decide_eq_true rfl⟩
        rw [none_] at logged
        cases logged
  · change (p.world.store.eventsOf id).countP changesState ≤ _
    cases found : p.world.store.ops.get? id with
    | none =>
        rw [ok.absent _ found]
        exact Nat.zero_le _
    | some row =>
        have spent := passed.spent (le_max_right _ 0) (le_max_left _ _) id row found
        have bound := spent.changes.trans (spent.bounds (passed.inv.rows id row found).shape).1
        omega

end Log

/-! ## A worker alone -/

/-- Every clock reading so far, the clock itself and the head of the chain lie in this range. -/
structure ClockWithin (low high : Int) (p : Moment) : Prop where
  past : ∀ step ∈ p.trace, low ≤ step.before.now ∧ step.before.now ≤ high
  now : low ≤ p.world.now ∧ p.world.now ≤ high
  chain : p.world.node.headTime ≤ high

theorem ClockWithin.log {low high later : Int} {p : Moment} {step : Step}
    (within : ClockWithin low high p)
    (before : step.before = p.world) (wider : high ≤ later)
    (now : low ≤ step.after.now ∧ step.after.now ≤ later)
    (chain : step.after.node.headTime ≤ later) : ClockWithin low later (p.log step) := by
  refine ⟨List.forall_mem_cons.mpr ⟨?_, fun old member => ?_⟩, now, chain⟩
  · rw [before]
    exact ⟨within.now.1, within.now.2.trans wider⟩
  · exact ⟨(within.past old member).1, (within.past old member).2.trans wider⟩

/-- What calls alone keep: they make no rows and meet no new trouble. -/
structure Onward (low high : Int) (w : World) (p : Moment) : Prop where
  rows : ∀ id, w.store.ops.get? id = none → p.world.store.ops.get? id = none
  calm : trouble p.world ≤ trouble w
  within : ClockWithin low high p

section Alone

variable {D : Deployment} {worker : String} {c c' : Run} {low high : Int}

theorem alone_absent (call : Call) (w : World) (id : UUID) (absent : w.store.ops.get? id = none) :
    (D.alone call w).2.store.ops.get? id = none := by
  cases call with
  | claim states limit worker lease => exact MemoryStore.claim_absent absent w.now _ _ _ _
  | cas req => exact MemoryStore.cas_absent absent w.now req
  | release key token => exact MemoryStore.release_absent absent w.now key token
  | now | refBlock | broadcast | findTx | solidNow | solidBlock | here => exact absent

theorem alone_headTime (call : Call) (w : World) :
    (D.alone call w).2.node.headTime = w.node.headTime := by
  cases call with
  | broadcast id token tx worker =>
      rw [alone_broadcast]
      unfold MockTronNode.broadcast
      simp only
      repeat' split
      all_goals rfl
  | findTx txid =>
      show (w.node.findTx w.now txid).2.headTime = _
      rw [(MockTronNode.findTx_cases w.node w.now txid).1]
      rfl
  | claim | cas | release | now | refBlock | solidNow | solidBlock | here => rfl

/-- A thread that is answered alone gets on. -/
theorem serves_onward {t n : Nat} {w : World}
    (done : D.machine.performAll c (Move.serves t none n) = some c')
    (start : Onward low high w c.point) : Onward low high w c'.point := by
  refine Machine.performAll_serves (J := Onward low high w) ?_ n done start
  intro p call reply world served on
  have answer : D.alone call p.world = (reply, world) :=
    Option.some.inj ((D.serve_eq_alone call p.world).symm.trans served)
  have absent := fun id => alone_absent (D := D) call p.world id
  have calm := alone_trouble D p.world call
  have time := alone_headTime (D := D) call p.world
  rw [answer] at absent calm time
  refine ⟨fun id none_ => absent id (on.rows id none_), calm.trans on.calm,
    on.within.log rfl (le_refl _) ?_ (time.trans_le on.within.chain)⟩
  rw [Label.after_served, (serve_evolves served).1]
  exact on.within.now

/-- Answered alone, a thread goes through the first part of its program. -/
theorem serves_through {α : Type} {program : Handler α} {rest : α → Handler Nat} {t : Nat}
    (pending : c.pool[t]? = some (program.bind rest)) {value : α} {w : World}
    (ran : program.run D.alone c.point.world = (.ok value, w)) :
    ∃ n c', D.machine.performAll c (Move.serves t none n) = some c' ∧ c'.point.world = w ∧
      c'.pool = c.pool.set t (rest value) := by
  obtain ⟨n, c', done, world, pool⟩ := Machine.performAll_bind (M := D.machine) D.serve_eq_alone
    rest program c pending
  rw [ran] at world pool
  exact ⟨n, c', done, world, pool⟩

theorem claim_run {w : World} {ops : List Operation}
    (claimed : (w.store.claim w.now OpState.claimable D.cfg.claimBatch worker
      D.cfg.leaseSeconds).1 = .ok ops) :
    (ask (Call.claim OpState.claimable D.cfg.claimBatch worker D.cfg.leaseSeconds)).run D.alone w =
      (.ok (.ok ops), afterClaim D w worker) := by
  show (Except.ok (w.store.claim w.now OpState.claimable D.cfg.claimBatch worker
    D.cfg.leaseSeconds).1, afterClaim D w worker) = _
  rw [claimed]

/-- A round of a fresh worker, with a stop on the way where its first macro step has ended. -/
theorem runsOnce_through (worker : String) (c : Run) {first : Operation} {others : List Operation}
    (claimed : (c.point.world.store.claim c.point.world.now OpState.claimable D.cfg.claimBatch
      worker D.cfg.leaseSeconds).1 = .ok (first :: others)) :
    ∃ c₁ c' n n', RunsOnce D worker c c' ∧
      D.machine.performAll ⟨c.point, c.pool ++ [Worker.runOnce D.toPipeline worker]⟩
        (Move.serves c.pool.length none n) = some c₁ ∧
      D.machine.performAll c₁ (Move.serves c.pool.length none n') = some c' ∧
      c₁.point.world =
        ((D.step first worker).run D.alone (afterClaim D c.point.world worker)).2 := by
  -- the claim
  obtain ⟨n₀, c₀, done₀, world₀, pool₀⟩ := serves_through (t := c.pool.length)
    (c := ⟨c.point, c.pool ++ [Worker.runOnce D.toPipeline worker]⟩) List.getElem?_concat_length
    (claim_run claimed)
  rw [List.set_append_right _ _ (le_refl _), Nat.sub_self, List.set_cons_zero] at pool₀
  -- the first macro step
  have split : Worker.driveAll D.toPipeline worker (first :: others) =
      ((D.step first worker).attempt).bind _ := Program.bind_assoc _ _ _
  obtain ⟨n₁, c₁, done₁, world₁, pool₁⟩ := serves_through (t := c.pool.length) (c := c₀)
    (by rw [pool₀]; exact List.getElem?_concat_length.trans (congrArg some split))
    (Program.run_attempt D.alone _ _)
  rw [pool₀, List.set_append_right _ _ (le_refl _), Nat.sub_self, List.set_cons_zero] at pool₁
  -- and the rest of the round
  obtain ⟨n₂, c', done₂, _, pool₂⟩ := Machine.performAll_bind (M := D.machine) D.serve_eq_alone
    Program.done _ c₁ (by rw [pool₁, Program.bind_done]; exact List.getElem?_concat_length)
  rw [pool₁, List.set_append_right _ _ (le_refl _), Nat.sub_self, List.set_cons_zero] at pool₂
  have begun : D.machine.performAll ⟨c.point, c.pool ++ [Worker.runOnce D.toPipeline worker]⟩
      (Move.serves c.pool.length none (n₀ + n₁)) = some c₁ := by
    rw [Move.serves, List.replicate_add]
    exact Machine.performAll_append done₀ done₁
  refine ⟨c₁, c', n₀ + n₁, n₂, ⟨n₀ + n₁ + n₂, ?_, ?_⟩, begun, done₂, by rw [world₁, world₀]⟩
  · rw [Move.serves, List.replicate_add]
    exact Machine.performAll_append begun done₂
  · split at pool₂
    · exact .inl ⟨_, pool₂⟩
    · exact .inr ⟨_, pool₂⟩

end Alone

/-! ## Waking everything up -/

section Wake

variable {D : Deployment} {w : World} {row : Operation}

/-- Once time is up everywhere and this shows on the chain, no row stays: what is not in a block
is dead, and what is in a block is solid. -/
theorem outlook_ne_stays (fits : IsDatetime (w.now + D.cfg.txTtlSeconds))
    (lapsed : ∀ tx, row.signedTx = some tx →
      IsDatetime (deadline D tx) ∧ deadline D tx ≤ w.node.solidNow)
    (dead : ∀ txid rec, w.node.txs.get? txid = some rec → rec.tx.expiration ≤ w.now)
    (solid : ∀ txid rec block, w.node.txs.get? txid = some rec → rec.includedBlock = some block →
      block ≤ w.node.solidBlock) : outlook D w row ≠ .stays := by
  cases state : row.state with
  | validated =>
      rw [outlook_validated state]
      split <;> decide
  | signing =>
      rw [outlook_signing state, unbuildable]
      simp [fits]
  | signed =>
      cases signed : row.signedTx with
      | none => simp [outlook, state, signed]
      | some tx =>
          rw [outlook_signed state signed, sendOutlook]
          split <;> decide
  | broadcasting =>
      cases signed : row.signedTx with
      | none => simp [outlook, state, signed]
      | some tx =>
          obtain ⟨valid, late⟩ := lapsed tx signed
          rw [outlook_broadcasting state signed, reconcileOutlook]
          simp [valid, late]
  | broadcast =>
      cases signed : row.signedTx with
      | none => simp [outlook, state, signed]
      | some tx =>
          obtain ⟨valid, late⟩ := lapsed tx signed
          rw [outlook_broadcast state signed, awaitOutlook, statusNow]
          cases found : w.node.txs.get? tx.txid with
          | none => simp [MockTronNode.statusOf, valid, late]
          | some rec =>
              cases included : rec.includedBlock with
              | none => simp [MockTronNode.statusOf, included, dead _ rec found, valid, late]
              | some block =>
                  simp [MockTronNode.statusOf, included, solid _ rec block found included]
  | requested | confirmed | failed | rejected => simp [outlook, state]

end Wake

/-! ## Room in the calendar -/

/-- Waiting this long outlasts a lease and every deadline. -/
def wait (D : Deployment) (span : Int) : Int :=
  max 0 (max span (max D.cfg.txTtlSeconds
    (D.cfg.txTtlSeconds + D.cfg.expirationSafetySeconds)))

def enoughBlocks (lag : Int) : Nat := (max lag 0 + 1).toNat

def pace (D : Deployment) (span lag : Int) : Int := wait D span + enoughBlocks lag * millisecond

/-- From a range of clock readings on, the calendar has room for so many rounds: nothing that is
computed falls out of it at either end. -/
structure Roomy (D : Deployment) (span lag low high : Int) (rounds : Nat) : Prop where
  lease : D.cfg.leaseSeconds.timedelta = some span
  floor : ∀ d ∈ [0, span, D.cfg.txTtlSeconds,
    D.cfg.txTtlSeconds + D.cfg.expirationSafetySeconds], datetimeMin ≤ low + d
  ceiling : high + (rounds + 1) * pace D span lag ≤ datetimeMax

section Room

variable {D : Deployment} {p : Moment} {span lag low high : Int} {rounds : Nat} {id : UUID}
  {row : Operation}

theorem wait_nonneg (D : Deployment) (span : Int) : 0 ≤ wait D span := le_max_left _ _

theorem wait_le_pace (D : Deployment) (span lag : Int) : wait D span ≤ pace D span lag := by
  unfold pace millisecond
  omega

/-- A round that there is room for, and the room it leaves. -/
theorem Roomy.next (room : Roomy D span lag low high (rounds + 1)) :
    high + pace D span lag + pace D span lag ≤ datetimeMax ∧
      Roomy D span lag low (high + pace D span lag) rounds := by
  have ceiling := room.ceiling
  have some_ : 0 ≤ pace D span lag := (wait_nonneg D span).trans (wait_le_pace D span lag)
  have left : 0 ≤ (rounds : Int) * pace D span lag := Int.mul_nonneg (Int.natCast_nonneg _) some_
  push_cast at ceiling
  simp only [Int.add_mul, Int.one_mul] at ceiling
  refine ⟨by omega, room.lease, room.floor, ?_⟩
  simp only [Int.add_mul, Int.one_mul]
  omega

theorem lease_over (passed : Passed D p) (within : ClockWithin low high p)
    (spans : D.cfg.leaseSeconds.timedelta = some span) {now : Int} (late : high + span ≤ now)
    (found : p.world.store.ops.get? id = some row) : leased now row = false := by
  unfold leased
  split
  · rename_i expiry held
    obtain ⟨step, member, lands⟩ := (passed.dates id row found).lease expiry held
    obtain ⟨span', spans', rfl, _⟩ := Seconds.after_eq_some_iff.mp lands
    cases spans.symm.trans spans'
    have early := (within.past step member).2
    exact decide_eq_false (by omega)
  · rfl

/-- Whatever was sent is dead by then, and new blocks change nothing about that. -/
theorem records_dead (passed : Passed D p) (within : ClockWithin low high p) {now : Int}
    (late : high + D.cfg.txTtlSeconds ≤ now) {count : Nat} {txid : Hex} {rec : TxRecord}
    (present : (p.world.node.produceBlocks now count).txs.get? txid = some rec) :
    rec.tx.expiration ≤ now := by
  obtain ⟨before, present', same⟩ := produceBlocks_record now _ present
  obtain ⟨step, member, date⟩ := passed.record_date present'
  have early := (within.past step member).2
  rw [same, date]
  omega

/-- Waiting and new blocks, as far as there is room for them, wake everything up. -/
theorem awake (passed : Passed D p) (within : ClockWithin low high p)
    (room : Roomy D span p.world.node.solidityLag low high (rounds + 1)) {w : World}
    (now : w.now = high + wait D span)
    (node : w.node = p.world.node.produceBlocks w.now (enoughBlocks p.world.node.solidityLag))
    (found : p.world.store.ops.get? id = some row) :
    leased w.now row = false ∧ outlook D w row ≠ .stays := by
  obtain ⟨spare, _⟩ := room.next
  have slower := wait_le_pace D span p.world.node.solidityLag
  obtain ⟨low₀, low₁, low₂, low₃⟩ : datetimeMin ≤ low ∧ datetimeMin ≤ low + span ∧
      datetimeMin ≤ low + D.cfg.txTtlSeconds ∧
      datetimeMin ≤ low + (D.cfg.txTtlSeconds + D.cfg.expirationSafetySeconds) := by
    simpa using room.floor
  obtain ⟨long₀, long₁, long₂, long₃⟩ : 0 ≤ wait D span ∧ span ≤ wait D span ∧
      D.cfg.txTtlSeconds ≤ wait D span ∧
      D.cfg.txTtlSeconds + D.cfg.expirationSafetySeconds ≤ wait D span := by
    simp [wait]
  have bounds := within.now
  have many : p.world.node.solidityLag < enoughBlocks p.world.node.solidityLag ∧
      0 < enoughBlocks p.world.node.solidityLag := by
    unfold enoughBlocks
    omega
  have chain := within.chain
  obtain ⟨deep, solid⟩ := MockTronNode.produceBlocks_solid passed.inv.chain
    passed.contiguous many.1 many.2 (show datetimeMin ≤ w.now by omega)
    (by unfold pace at spare slower; omega)
  have ok := (passed.inv.chain.evolution (MockTronNode.produceBlocks_evolves D.sha256 w.now
    p.world.node (enoughBlocks p.world.node.solidityLag))).1
  rw [← node] at deep solid ok
  have dead : ∀ txid rec, w.node.txs.get? txid = some rec → rec.tx.expiration ≤ w.now := by
    intro txid rec present
    rw [node] at present
    exact records_dead passed within (by omega) present
  refine ⟨lease_over passed within room.lease (by omega) found,
    outlook_ne_stays ⟨by omega, by omega⟩ (fun tx signed => ?_) dead
      fun txid rec block present included => ?_⟩
  · obtain ⟨_, step, member, date⟩ :=
      (passed.dates id row found).expires (passed.inv.rows id row found).shape signed
    have early := within.past step member
    have due : deadline D tx = step.before.now +
        (D.cfg.txTtlSeconds + D.cfg.expirationSafetySeconds) := by
      rw [deadline, date]
      omega
    rw [due]
    exact ⟨⟨by omega, by omega⟩, by omega⟩
  · -- the block is an old one: nothing that is dead gets into a new one
    obtain ⟨t, time, early⟩ := ok.timely txid rec block present included
    have expired := dead txid rec present
    rw [node] at time
    rcases MockTronNode.produceBlocks_time w.now _ time with old | new
    · exact (passed.inv.chain.below _ _ old).trans deep.le
    · omega

end Room

/-! ## Rounds -/

/-- What keeping the system up takes: time passes, blocks come, a fresh worker makes a round
while every other one stays stopped. -/
inductive Upkeep (D : Deployment) (c : Run) : Run → Prop
  | advance (delta : Int) (forward : 0 ≤ delta) (c' : Run)
      (moved : D.machine.perform c (.act (.advance delta)) = some c') : Upkeep D c c'
  | produceBlocks (n : Nat) (c' : Run)
      (moved : D.machine.perform c (.act (.produceBlocks n)) = some c') : Upkeep D c c'
  | runOnce (worker : String) (c' : Run) (runs : RunsOnce D worker c c') : Upkeep D c c'

section Rounds

variable {D : Deployment} {c : Run} {span low high : Int} {rounds : Nat} {id : UUID}
  {row : Operation}

theorem Upkeep.reaches {c' : Run} (kept : Upkeep D c c') : D.machine.Reaches c c' := by
  cases kept with
  | advance delta forward _ moved => exact .single ⟨_, moved⟩
  | produceBlocks n _ moved => exact .single ⟨_, moved⟩
  | runOnce worker _ runs => exact runs.reaches

theorem upkeep_reaches {c' : Run} (kept : Relation.ReflTransGen (Upkeep D) c c') :
    D.machine.Reaches c c' := by
  induction kept with
  | refl => exact .refl
  | tail _ last ih => exact ih.trans last.reaches

/-- A macro step from a row that does not stay meets trouble or changes the state. -/
theorem step_gets_on {w : World} {op : Operation} (worker : String) (season : D.InSeason w.now)
    (taken : Taken D w op) (look : outlook D w op ≠ .stays) :
    trouble ((D.step op worker).run D.alone w).2 < trouble w ∨
      ∃ next, ((D.step op worker).run D.alone w).2.store.ops.get? op.operationId = some next ∧
        next.state ≠ op.state := by
  have ends := step_ends worker season taken.found taken.live taken.shape
  unfold Program.Yields at ends
  generalize (D.step op worker).run D.alone w = ended at ends
  obtain ⟨outcome, w'⟩ := ended
  cases ends with
  | calmer less => exact .inl less
  | moved _ stored changed => exact .inr ⟨_, stored, changed⟩
  | stayed stays => exact absurd stays look
  | raised _ still stored state =>
      refine .inr ⟨_, stored, ?_⟩
      cases sinks : outlook D w op with
      | moves => exact absurd sinks still
      | stays => exact absurd sinks look
      | sinks =>
          rw [state]
          rcases sinks_cases sinks with ⟨was, is⟩ | ⟨was, is⟩ <;> rw [was, is] <;> decide

/-- A round over free rows of which none stays meets trouble or changes a state. -/
theorem round_gets_on (worker : String) (batch : 1 ≤ D.cfg.claimBatch) (reached : D.Reachable c)
    (within : ClockWithin low high c.point) (season : D.InSeason c.point.world.now)
    (awake : ∀ id row, c.point.world.store.ops.get? id = some row →
      leased c.point.world.now row = false ∧ outlook D c.point.world row ≠ .stays)
    (found : c.point.world.store.ops.get? id = some row) (live : row.state.terminal = false) :
    ∃ c', RunsOnce D worker c c' ∧ Onward low high c.point.world c'.point ∧
      (trouble c'.point.world < trouble c.point.world ∨
        changes c.point.world < changes c'.point.world) := by
  have passed : Passed D c.point := ⟨c, reached, rfl⟩
  obtain ⟨expiry, lands⟩ := Option.isSome_iff_exists.mp season
  have member : row ∈ waiting c.point.world :=
    mem_waiting.mpr ⟨c.point.world.store.keyed id row found ▸ found, live, (awake id row found).1⟩
  -- the oldest free row is the first one to be driven
  obtain ⟨first, others, queue⟩ :
      ∃ first others, Protocol.batch D c.point.world = first :: others := by
    refine List.exists_cons_of_ne_nil fun none_ => ?_
    rcases List.take_eq_nil_iff.mp none_ with zero | none_
    · omega
    · rw [none_] at member
      cases member
  have taken := List.mem_of_mem_take
    (queue ▸ List.mem_cons_self : first ∈ Protocol.batch D c.point.world)
  obtain ⟨found₀, _, _⟩ := mem_waiting.mp taken
  have claimed := claim_batch worker lands
  rw [queue, List.map_cons] at claimed
  obtain ⟨c₁, c', n, n', runs, begun, ended, world₁⟩ := runsOnce_through worker c claimed
  have later₁ : D.machine.Reaches c c₁ :=
    .head ⟨.spawn worker, rfl⟩ (Machine.reaches_of_performAll begun)
  have reached₁ := reachable_later reached later₁
  have grown := (reachable_grows reached₁ (Machine.reaches_of_performAll ended)).1
  have on₁ : Onward low high c.point.world c₁.point :=
    serves_onward begun ⟨fun _ absent => absent, le_refl _, within⟩
  have on' : Onward low high c₁.point.world c'.point :=
    serves_onward ended ⟨fun _ absent => absent, le_refl _, on₁.within⟩
  refine ⟨c', runs, ⟨fun id absent => on'.rows id (on₁.rows id absent), on'.calm.trans on₁.calm,
    on'.within⟩, ?_⟩
  have moves : ∀ next, c₁.point.world.store.ops.get? first.operationId = some next →
      next.state ≠ first.state → changes c.point.world < changes c'.point.world :=
    fun next stored changed => (logged_change (reachable_grows reached later₁).1 passed.logOk
      (Passed.logOk ⟨c₁, reached₁, rfl⟩) found₀ stored changed).trans_le
        grown.events.sublist.countP_le
  have held : Taken D (afterClaim D c.point.world worker)
      (claimRow c.point.world.now worker expiry first) :=
    taken_of_claimed (fun id row found => (passed.inv.rows id row found).shape) lands
      (by rw [queue]; exact List.mem_cons_self)
  have look : outlook D (afterClaim D c.point.world worker)
      (claimRow c.point.world.now worker expiry first) ≠ .stays := by
    rw [outlook_claimed]
    exact (awake _ first found₀).2
  have season : D.InSeason (afterClaim D c.point.world worker).now := season
  rcases step_gets_on worker season held look with less | ⟨next, stored, changed⟩
  · rw [← world₁] at less
    exact .inl (on'.calm.trans_lt less)
  · rw [← world₁] at stored
    exact .inr (moves next stored changed)

theorem perform_act {action : Act} {w' : World} (moved : D.act action c.point.world = some w') :
    D.machine.perform c (.act action) =
      some ⟨c.point.log (.acted action c.point.world w'), c.pool⟩ := by
  simp only [Machine.perform, Deployment.machine, moved]

/-- Wait and let blocks come: nothing stays any more. -/
theorem exists_awake (reached : D.Reachable c) (within : ClockWithin low high c.point)
    (room : Roomy D span c.point.world.node.solidityLag low high (rounds + 1)) :
    ∃ c', Relation.ReflTransGen (Upkeep D) c c' ∧
      ClockWithin low (high + pace D span c.point.world.node.solidityLag) c'.point ∧
      D.InSeason c'.point.world.now ∧ c'.point.world.store = c.point.world.store ∧
      trouble c'.point.world = trouble c.point.world ∧
      ∀ id row, c'.point.world.store.ops.get? id = some row →
        leased c'.point.world.now row = false ∧ outlook D c'.point.world row ≠ .stays := by
  have passed : Passed D c.point := ⟨c, reached, rfl⟩
  generalize lagging : c.point.world.node.solidityLag = lag at *
  have bounds := within.now
  have chain := within.chain
  have long := wait_nonneg D span
  have slower := wait_le_pace D span lag
  have short : span ≤ wait D span := by simp [wait]
  obtain ⟨spare, _⟩ := room.next
  obtain ⟨low₀, low₁, _⟩ := List.forall_mem_cons.mp room.floor |>.imp id List.forall_mem_cons.mp
  -- the clock goes to where everything is over
  obtain ⟨now, set⟩ : ∃ now, now = high + wait D span := ⟨_, rfl⟩
  have season : D.InSeason now := Option.isSome_iff_exists.mpr
    ⟨_, Seconds.after_eq_some_iff.mpr ⟨span, room.lease, rfl, by omega, by omega⟩⟩
  let w₁ : World := { c.point.world with now := now }
  let w₂ : World := { w₁ with node := w₁.node.produceBlocks now (enoughBlocks lag) }
  let c₁ : Run := ⟨c.point.log (.acted (.advance (now - c.point.world.now)) c.point.world w₁),
    c.pool⟩
  let c₂ : Run := ⟨c₁.point.log (.acted (.produceBlocks (enoughBlocks lag)) w₁ w₂), c.pool⟩
  have waited : Upkeep D c c₁ := by
    refine .advance (now - c.point.world.now) (by omega) c₁ (perform_act ?_)
    have same : c.point.world.now + (now - c.point.world.now) = now := by omega
    rw [Deployment.act, same, if_pos ⟨⟨by omega, by omega⟩, fun _ => season⟩]
  have blocks : Upkeep D c₁ c₂ := .produceBlocks _ c₂ (perform_act rfl)
  obtain ⟨_, time⟩ := MockTronNode.produceBlocks_head (show datetimeMin ≤ now by omega)
    (enoughBlocks lag) c.point.world.node (by unfold pace at spare slower; omega)
  have within₁ : ClockWithin low (high + pace D span lag) c₁.point :=
    within.log rfl (by omega) ⟨by show low ≤ now; omega, by show now ≤ _; omega⟩
      (by show c.point.world.node.headTime ≤ _; omega)
  refine ⟨c₂, .tail (.single waited) blocks, within₁.log rfl (le_refl _) within₁.now ?_, season,
    rfl, ?_, fun id row found => ?_⟩
  · show (c.point.world.node.produceBlocks now (enoughBlocks lag)).headTime ≤ _
    unfold pace
    omega
  · obtain ⟨_, sends, queries⟩ :=
      MockTronNode.produceBlocks_frame now (enoughBlocks lag) c.point.world.node
    show (c.point.world.node.produceBlocks now (enoughBlocks lag)).broadcastFaults.length +
      (c.point.world.node.produceBlocks now (enoughBlocks lag)).queryFaults.length + _ = _
    rw [sends, queries]
    rfl
  · exact awake passed within (lagging.symm ▸ room) set (by rw [lagging]; rfl) found

/-- Then start one worker: trouble goes or a state changes. -/
theorem exists_round (worker : String) (batch : 1 ≤ D.cfg.claimBatch) (reached : D.Reachable c)
    (within : ClockWithin low high c.point)
    (room : Roomy D span c.point.world.node.solidityLag low high (rounds + 1))
    (found : c.point.world.store.ops.get? id = some row) (live : row.state.terminal = false) :
    ∃ c', Relation.ReflTransGen (Upkeep D) c c' ∧
      Onward low (high + pace D span c.point.world.node.solidityLag) c.point.world c'.point ∧
      (trouble c'.point.world < trouble c.point.world ∨
        changes c.point.world < changes c'.point.world) := by
  obtain ⟨c₁, kept, within₁, season, store, calm, awake⟩ := exists_awake reached within room
  obtain ⟨c', runs, on, progress⟩ := round_gets_on worker batch
    (reachable_later reached (upkeep_reaches kept)) within₁ season awake (store.symm ▸ found) live
  have rows := on.rows
  rw [store] at rows
  have same : changes c₁.point.world = changes c.point.world := by rw [changes, store, changes]
  exact ⟨c', kept.tail (.runOnce worker c' runs), ⟨rows, on.calm.trans calm.le, on.within⟩,
    calm ▸ same ▸ progress⟩

def outstanding (D : Deployment) (rows : Nat) (w : World) : Nat :=
  lifeBound D rows - changes w + trouble w

/-- Round after round, everything finishes. -/
theorem exists_finished (worker : String) (batch : 1 ≤ D.cfg.claimBatch) (keys : List UUID)
    (left : Nat) : ∀ (c : Run) (high : Int), outstanding D keys.length c.point.world < left →
      D.Reachable c → ClockWithin low high c.point →
      Roomy D span c.point.world.node.solidityLag low high left →
      (∀ id, id ∉ keys → c.point.world.store.ops.get? id = none) →
      ∃ c', Relation.ReflTransGen (Upkeep D) c c' ∧
        (∀ id, c.point.world.store.ops.get? id = none → c'.point.world.store.ops.get? id = none) ∧
        ∀ id row, c'.point.world.store.ops.get? id = some row → row.state.terminal = true := by
  induction left with
  | zero => exact fun c _ few => absurd few (Nat.not_lt_zero _)
  | succ left ih =>
      intro c high few reached within room known
      by_cases finished : ∀ id row, c.point.world.store.ops.get? id = some row →
          row.state.terminal = true
      · exact ⟨c, .refl, fun _ absent => absent, finished⟩
      push Not at finished
      obtain ⟨id, row, found, live⟩ := finished
      obtain ⟨c₁, kept, on, progress⟩ :=
        exists_round worker batch reached within room found (by simpa using live)
      have later := upkeep_reaches kept
      have reached₁ := reachable_later reached later
      obtain ⟨stores, nodes⟩ := reachable_grows reached later
      have known₁ : ∀ id, id ∉ keys → c₁.point.world.store.ops.get? id = none :=
        fun id stranger => on.rows id (known id stranger)
      have bounded : changes c₁.point.world ≤ lifeBound D keys.length := by
        refine Passed.changes_le ⟨c₁, reached₁, rfl⟩ fun id row found => ?_
        by_contra stranger
        cases (known₁ id stranger).symm.trans found
      have grown : changes c.point.world ≤ changes c₁.point.world :=
        stores.events.sublist.countP_le
      have calm := on.calm
      obtain ⟨c', kept', absent, finished⟩ := ih c₁ _ (by unfold outstanding at few ⊢; omega)
        reached₁ on.within (nodes.lag ▸ room.next.2) known₁
      exact ⟨c', kept.trans kept', fun id none_ => absent id (on.rows id none_), finished⟩

/-- **Nothing is stranded.**  In every state of every run, however workers were interleaved,
crashed, fenced or fed with faults: no lease of a row that is still live reaches further than
one lease from now, if the clock never went back; and if the calendar has room from there, some
waiting, some new blocks and some rounds of fresh workers, nobody else moving, take every
operation to its end.  One round per scripted fault and armed crash point is enough room,
besides those for the rows. -/
theorem never_stranded (batch : 1 ≤ D.cfg.claimBatch) (reached : D.Reachable c) :
    (Forward c.point.trace → ∀ id row, c.point.world.store.ops.get? id = some row →
      row.state.terminal = false → ∀ expiry, row.leaseExpiresAt = some expiry →
        ∃ latest, D.cfg.leaseSeconds.after c.point.world.now = some latest ∧ expiry ≤ latest) ∧
    ∀ span low high, ClockWithin low high c.point →
      Roomy D span c.point.world.node.solidityLag low high
        (lifeBound D c.point.world.store.ops.keys.length + trouble c.point.world + 1) →
      ∃ c', Relation.ReflTransGen (Upkeep D) c c' ∧
        (∀ id, c'.point.world.store.ops.get? id = none ↔ c.point.world.store.ops.get? id = none) ∧
        ∀ id row, c'.point.world.store.ops.get? id = some row → row.state.terminal = true := by
  refine ⟨fun forward id row found _ expiry held => Passed.leases ⟨c, reached, rfl⟩ forward found
    held, fun span low high within room => ?_⟩
  obtain ⟨c', kept, absent, finished⟩ := exists_finished "recovery" batch
    c.point.world.store.ops.keys _ c high (by unfold outstanding; omega) reached within room
    fun id stranger => by
      cases found : c.point.world.store.ops.get? id with
      | none => rfl
      | some row => exact absurd ((Dict.mem_keys_iff _ _).mpr ⟨row, found⟩) stranger
  refine ⟨c', kept, fun id => ⟨fun none_ => ?_, absent id⟩, finished⟩
  cases found : c.point.world.store.ops.get? id with
  | none => rfl
  | some row =>
      obtain ⟨row', found', _⟩ :=
        (reachable_grows reached (upkeep_reaches kept)).1.rows id row found
      cases none_.symm.trans found'

/-- A worker dies between build and signature, holding the row; with the next one the
withdrawal still gets to its end. -/
theorem never_stranded_half_built : 1 ≤ Sample.deployment.cfg.claimBatch ∧ ∃ c row,
    Sample.deployment.Reachable c ∧ c.point.world.crash.tripped = [.signBetweenBuildAndSign] ∧
    c.point.world.store.ops.get? 0x11111111111141118111111111111111 = some row ∧
    row.state = .signing ∧ row.unsignedTx.isSome = true ∧ leased c.point.world.now row = true ∧
    ∃ c' row', Relation.ReflTransGen (Upkeep Sample.deployment) c c' ∧
      c'.point.world.store.ops.get? 0x11111111111141118111111111111111 = some row' ∧
      row'.state.terminal = true := by
  refine ⟨by decide, ?_⟩
  obtain ⟨c, reached, done⟩ := reachable_of_schedule (D := Sample.deployment)
    (fun c => decide (c.point.world.crash.tripped = [.signBetweenBuildAndSign]) &&
      ((c.point.world.store.ops.get? 0x11111111111141118111111111111111).any fun row =>
        row.state = .signing && row.unsignedTx.isSome && leased c.point.world.now row) &&
      decide ((∀ step ∈ c.point.trace, step.before.now = Sample.epoch) ∧
        c.point.world.now = Sample.epoch ∧ c.point.world.node.headTime ≤ Sample.epoch ∧
        c.point.world.node.solidityLag = 2 ∧ lifeBound Sample.deployment
          c.point.world.store.ops.keys.length + trouble c.point.world + 1 = 24))
    Sample.epoch (by decide)
    ([.act (.submit (Sample.request "11111111111141118111111111111111" "1")),
      .act (.arm .signBetweenBuildAndSign 1), .spawn "a"] ++ Sample.serves 0 7) (by decide +kernel)
  simp only [Bool.and_eq_true, decide_eq_true_eq, Option.any_eq_true] at done
  obtain ⟨⟨died, row, found, ⟨state, built⟩, held⟩, past, now, head, lag, rounds⟩ := done
  have within : ClockWithin Sample.epoch Sample.epoch c.point :=
    ⟨fun step member => by simp [past step member], by simp [now], head⟩
  obtain ⟨c', kept, same, finished⟩ := (never_stranded (by decide) reached).2 (30 * second)
    Sample.epoch Sample.epoch within
    (by rw [lag, rounds]; exact ⟨by decide +kernel, by decide, by decide⟩)
  refine ⟨c, row, reached, died, found, state, built, held, c', ?_⟩
  cases found' : c'.point.world.store.ops.get? 0x11111111111141118111111111111111 with
  | none =>
      rw [same, found] at found'
      cases found'
  | some row' => exact ⟨row', kept, rfl, finished _ row' found'⟩

/-- Where no lease can be computed, a row is never written. -/
theorem state_of_endless {c' : Run} (endless : ∀ now, IsDatetime now → ¬ D.InSeason now)
    (reached : D.Reachable c) (found : c.point.world.store.ops.get? id = some row)
    (later : D.machine.Reaches c c') :
    ∃ row', c'.point.world.store.ops.get? id = some row' ∧ row'.state = row.state := by
  refine (stride_induction (J := fun p => ∃ row', p.world.store.ops.get? id = some row' ∧
    row'.state = row.state) ?_ reached later ⟨row, found, rfl⟩).1
  rintro p step passed _ stride ⟨row', found', same⟩
  obtain ⟨next, after, goes⟩ := stride.goes found'
  refine ⟨next, after, ?_⟩
  cases goes with
  | kept => exact same
  | written commit => exact absurd commit.season (endless _ passed.calendar)

namespace Sample

/-- A lease of some thirty thousand years. -/
def endless : Deployment := { deployment with cfg := { leaseSeconds := .finite 1000000000000 0 } }

theorem endless_season (now : Int) (calendar : IsDatetime now) : ¬ endless.InSeason now := by
  intro season
  obtain ⟨expiry, lands⟩ := Option.isSome_iff_exists.mp season
  obtain ⟨span, spans, rfl, valid⟩ := Seconds.after_eq_some_iff.mp lands
  have long : span = 1000000000000000000 := Option.some.inj
    (spans.symm.trans (show endless.cfg.leaseSeconds.timedelta = _ by decide +kernel))
  unfold IsDatetime datetimeMin datetimeMax at *
  omega

end Sample

/-- **A lease beyond the calendar.**  Every claim raises, so whatever is done a request stays a
request. -/
theorem lease_beyond_calendar : 1 ≤ Sample.endless.cfg.claimBatch ∧ ∃ c,
    Sample.endless.Reachable c ∧ c.point.world.node.solidityLag = 2 ∧
    trouble c.point.world = 0 ∧
    (∃ row, c.point.world.store.ops.get? 0x11111111111141118111111111111111 = some row) ∧
    ∀ c', Relation.ReflTransGen (Upkeep Sample.endless) c c' →
      ∃ row, c'.point.world.store.ops.get? 0x11111111111141118111111111111111 = some row ∧
        row.state = .requested := by
  refine ⟨by decide, ?_⟩
  obtain ⟨c, reached, done⟩ := reachable_of_schedule (D := Sample.endless)
    (fun c => decide (c.point.world.node.solidityLag = 2 ∧ trouble c.point.world = 0) &&
      (c.point.world.store.ops.get? 0x11111111111141118111111111111111).any fun row =>
        row.state = .requested) Sample.epoch (by decide)
    [.act (.submit (Sample.request "11111111111141118111111111111111" "1"))] (by decide +kernel)
  simp only [Bool.and_eq_true, decide_eq_true_eq, Option.any_eq_true] at done
  obtain ⟨⟨lag, calm⟩, row, found, state⟩ := done
  refine ⟨c, reached, lag, calm, ⟨row, found⟩, fun c' kept => ?_⟩
  obtain ⟨row', found', same⟩ :=
    state_of_endless Sample.endless_season reached found (upkeep_reaches kept)
  exact ⟨row', found', same.trans state⟩

end Rounds

end Sluice.Protocol
