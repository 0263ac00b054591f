/-
# Protocol.Evidence -- what the proof of death in the log proves

A transaction that may be out is retired only with evidence: the solid time and the number of
the solid block, as the node gave them, and the expiration and margin they were compared with.
Every event that retires one carries all of it, about the envelope it retires, and past the
deadline (`Commit.retirement`).

Time and number are two reads, and the world may move between them.  An auditor who looks the
block up finds the filed time exactly if the number at the second read is the height whose time
the first read returned (`evidence_iff`).  Nothing else makes the times agree, because block
times rise strictly.  One block in between is enough to file a number that is too high
(`evidence_one_block_late`).
-/
import Sluice.Protocol.Accounting

namespace Sluice.Protocol

open Sluice.Theory Sluice.Kernel
open MemoryStore (LogOk)
open MockTronNode (ChainOk Contiguous)

set_option autoImplicit false

/-- The event retires a transaction that may be out. -/
def RetiresSent (e : Event) : Prop :=
  (e.fromState = some .broadcasting ∨ e.fromState = some .broadcast) ∧
    e.detail.retiredTxid ≠ none

instance : DecidablePred RetiresSent := fun e =>
  inferInstanceAs (Decidable ((e.fromState = some .broadcasting ∨ e.fromState = some .broadcast) ∧
    e.detail.retiredTxid ≠ none))

def Logs (step : Step) (e : Event) : Prop :=
  step.after.store.events = step.before.store.events ++ [e]

/-- The event retires the envelope its row held before the step. -/
structure Retired (step : Step) (e : Event) (tx : SignedTx) : Prop where
  row : ∃ row, step.before.store.ops.get? e.operationId = some row ∧ row.signedTx = some tx ∧
    row.txid = some tx.txid ∧ row.txExpiration = some tx.expiration
  named : e.detail.retiredTxid = some (some tx.txid)

/-- The evidence is about `tx`, and says that its deadline has passed. -/
structure Filed (D : Deployment) (tx : SignedTx) (e : Event) (solidTime solidBlock : Int) :
    Prop where
  evidence : e.detail.expiryEvidence = some (.death solidTime solidBlock tx.expiration
    D.cfg.expirationSafetySeconds "unknown")
  deadline : tx.expiration + D.cfg.expirationSafetySeconds ≤ solidTime

section Log

variable {D : Deployment} {p : Moment} {step : Step} {e : Event}

theorem Stride.logged (stride : Stride D p step) (ok : LogOk p.world.store)
    (ok' : LogOk step.after.store) (member : e ∈ step.after.store.events) :
    e ∈ p.world.store.events ∨ e.fromState = none ∨
      ∃ commit : Commit D p, step = commit.step ∧ e = commit.event := by
  have own : e ∈ step.after.store.eventsOf e.operationId :=
    List.mem_filter.mpr ⟨member, by simp⟩
  cases stored : p.world.store.ops.get? e.operationId with
  | some row =>
      obtain ⟨row', _, goes⟩ := stride.goes stored
      have key := p.world.store.keyed _ _ stored
      cases goes with
      | kept claimedBy leaseExpiresAt token updatedAt stamp log lease =>
          rw [← key, log] at own
          exact .inl (List.mem_filter.mp own).1
      | written commit was source =>
          rw [was, ← key, ← source, commit.eventsOf] at own
          rcases List.mem_append.mp own with old | new
          · exact .inl (List.mem_filter.mp old).1
          · exact .inr (.inr ⟨commit, was, List.mem_singleton.mp new⟩)
  | none => exact .inr (.inl (stride.intake_event ok ok' stored own).1)

/-- Every change of state in the log was committed by a step of the run. -/
theorem Passed.logged (passed : Passed D p) : ∀ e ∈ p.world.store.events, e.fromState ≠ none →
    ∃ (p₀ : Moment) (commit : Commit D p₀) (newer : List Step), Passed D p₀ ∧
      p₀.world.node.Grows p.world.node ∧ p.trace = newer ++ commit.step :: p₀.trace ∧
      e = commit.event := by
  refine passed_induction (J := fun p => ∀ e ∈ p.world.store.events, e.fromState ≠ none →
    ∃ (p₀ : Moment) (commit : Commit D p₀) (newer : List Step), Passed D p₀ ∧
      p₀.world.node.Grows p.world.node ∧ p.trace = newer ++ commit.step :: p₀.trace ∧
      e = commit.event) ?_ ?_ passed
  · intro _ _ _ _ _ e member
    cases member
  · intro p step passed passed' stride ih e member changed
    have grown := (passed.inv.chain.evolution stride.advances.node).2
    rcases stride.logged passed.logOk passed'.logOk member with old | intake | ⟨commit, rfl, rfl⟩
    · obtain ⟨p₀, commit, newer, passed₀, grown₀, trace, same⟩ := ih e old changed
      exact ⟨p₀, commit, step :: newer, passed₀, grown₀.trans grown, congrArg (step :: ·) trace,
        same⟩
    · exact absurd intake changed
    · exact ⟨p, commit, [], passed, grown, rfl, rfl⟩

end Log

section Evidence

variable {D : Deployment} {p : Moment} {c : Run}

theorem Commit.retirement (commit : Commit D p) (retires : RetiresSent commit.event) :
    ∃ tx solidTime solidBlock, commit.op.signedTx = some tx ∧
      commit.event.detail.retiredTxid = some commit.op.txid ∧
      Audited p commit.thread tx.txid solidTime solidBlock ∧
      Filed D tx commit.event solidTime solidBlock := by
  obtain ⟨thread, choice, op, renew, toState, worker, sets, detail, found, claimed, write, _⟩ :=
    commit
  cases write with
  | retire _ tx signed solidTime solidBlock audited deadline =>
      exact ⟨tx, solidTime, solidBlock, signed, rfl, audited, rfl, deadline⟩
  | dropUnsent state =>
      obtain ⟨from_, _⟩ := retires
      simp [Commit.event, state] at from_
  | reject | validate | startSigning | giveUp | build | sign | writeAhead | accepted | hardReject
  | noted | found | confirm | reverted | breadcrumb => exact absurd rfl retires.2

/-- **Evidence can be audited if its two reads agree.**  Every event that retires a transaction
out of `broadcasting` or `broadcast` was logged by a step of a worker whose last two calls were
the reads of the proof; it carries the expiration of the envelope the row held, and a solid time
past the deadline.  The chain's block of the filed number has the filed time exactly if the
solid block of the second read is the height that was solid at the first; so it does on a chain
older than its lag when no block came between them. -/
theorem evidence_iff (reached : D.Reachable c) {e : Event}
    (logged : e ∈ c.point.world.store.events) (retires : RetiresSent e) :
    ∃ newer step older t tx solidTime solidBlock first second,
      c.point.trace = newer ++ step :: older ∧ Logs step e ∧ step.thread? = some t ∧
      Retired step e tx ∧ Filed D tx e solidTime solidBlock ∧
      proofReads (older.filter fun label => label.thread? = some t) = some (first, second) ∧
      (c.point.world.node.blockTime.get? solidBlock = some solidTime ↔
        second.node.solidBlock = first.node.solidHeight) ∧
      (second.node.head = first.node.head → 1000 ≤ first.node.solidBlock →
        0 ≤ first.node.solidityLag → second.node.solidBlock = first.node.solidHeight) := by
  have passed : Passed D c.point := ⟨c, reached, rfl⟩
  have changed : e.fromState ≠ none := by
    rcases retires.1 with from_ | from_ <;> rw [from_] <;> exact Option.some_ne_none _
  obtain ⟨p₀, commit, newer, passed₀, grown, trace, rfl⟩ := passed.logged e logged changed
  obtain ⟨tx, solidTime, solidBlock, signed, named, audited, filed⟩ := commit.retirement retires
  obtain ⟨first, second, _, _, reads, rfl, rfl, passed₁, grown₁, _, grown₂⟩ :=
    audited.reads passed₀
  have stored := (passed₀.inv.rows _ _ commit.found).shape.sealed_of_signed signed
  have retired : Retired commit.step commit.event tx := by
    obtain ⟨⟨u, built, rfl⟩, _⟩ := id stored
    exact ⟨⟨commit.op, commit.found, signed, built.txid, built.txExpiration⟩,
      named.trans (congrArg some built.txid)⟩
  have block := (grown₁.trans grown).solidNow_at_iff passed₁.inv.chain passed.inv.chain
    second.node.solidBlock
  refine ⟨newer, commit.step, p₀.trace, commit.thread, tx, _, _, first, second, trace,
    commit.events, rfl, retired, filed, reads, block, fun quiet old lag => ?_⟩
  rw [passed₁.contiguous.solidHeight_eq old lag, MockTronNode.solidBlock, quiet,
    MockTronNode.solidBlock, ← grown₁.lag, grown₂.lag]

end Evidence

/-- The block an event names as solid, and the time it gives for it. -/
def filedBlock (e : Event) : Option (Int × Int) :=
  match e.detail.expiryEvidence with
  | some (.death solidTime solidBlock _ _ _) => some (solidBlock, solidTime)
  | _ => none

/-- A worker reads the solid time, the chain grows by one block, the worker reads the number
of the solid block: the block that the log names has another time. -/
theorem evidence_one_block_late : ∃ c, Sample.deployment.Reachable c ∧
    ∃ e ∈ c.point.world.store.events, RetiresSent e ∧
      ∃ filed ∈ filedBlock e, ∃ t, c.point.world.node.blockTime.get? filed.1 = some t ∧
        t ≠ filed.2 := by
  obtain ⟨c, reached, done⟩ := reachable_of_schedule (D := Sample.deployment)
    (fun c => c.point.world.store.events.any fun e => decide (RetiresSent e) &&
      (filedBlock e).any fun filed => (c.point.world.node.blockTime.get? filed.1).any (· ≠ filed.2))
    Sample.epoch (by decide)
    ([.act (.submit (Sample.request "11111111111141118111111111111111" "1")), .spawn "a"] ++
      Sample.serves 0 11 ++ [.act (.advance (600 * second)), .act (.produceBlocks 3), .spawn "b"] ++
      Sample.serves 1 3 ++ [.act (.produceBlocks 1)] ++ Sample.serves 1 2) (by decide +kernel)
  simp only [List.any_eq_true, Bool.and_eq_true, decide_eq_true_eq, Option.any_eq_true] at done
  obtain ⟨e, member, retires, filed, found, t, known, other⟩ := done
  exact ⟨c, reached, e, member, retires, filed, found, t, known, other⟩

/-- Without that block the reads agree. -/
theorem evidence_iff_undisturbed : ∃ c, Sample.deployment.Reachable c ∧
    ∃ e ∈ c.point.world.store.events, RetiresSent e ∧
      ∃ newer step older t first second, c.point.trace = newer ++ step :: older ∧ Logs step e ∧
        proofReads (older.filter fun label => label.thread? = some t) = some (first, second) ∧
        second.node.solidBlock = first.node.solidHeight := by
  obtain ⟨c, reached, done⟩ := reachable_of_schedule (D := Sample.deployment)
    (fun c => c.point.world.store.events.any fun e => decide (RetiresSent e) &&
      (filedBlock e).any fun filed => c.point.world.node.blockTime.get? filed.1 = some filed.2)
    Sample.epoch (by decide)
    ([.act (.submit (Sample.request "11111111111141118111111111111111" "1")), .spawn "a"] ++
      Sample.serves 0 11 ++ [.act (.advance (600 * second)), .act (.produceBlocks 3), .spawn "b"] ++
      Sample.serves 1 5 ++ [.act (.produceBlocks 1)]) (by decide +kernel)
  simp only [List.any_eq_true, Bool.and_eq_true, decide_eq_true_eq, Option.any_eq_true] at done
  obtain ⟨e, member, retires, filed, found, known⟩ := done
  obtain ⟨newer, step, older, t, tx, solidTime, solidBlock, first, second, trace, logs, _, _, proof,
    reads, agree, _⟩ := evidence_iff reached member retires
  have same : filed = (solidBlock, solidTime) := by
    rw [filedBlock, proof.evidence] at found
    exact (Option.some.inj found).symm
  rw [same] at known
  exact ⟨c, reached, e, member, retires, newer, step, older, t, first, second, trace, logs, reads,
    agree.mp known⟩

end Sluice.Protocol
