/-
# Protocol.Refusal -- when a refusal is final

A row leaves `broadcasting` for `failed` on one occasion: some send of its transaction was
answered with a code the program takes as final.  The mock gives such a code for one reason
only, a signature it does not know, and then it takes no form of that transaction ever
(`verify_sign_congr`).  A node that declines without looking may give the code after it has
accepted an earlier send of the same bytes, by a worker that lost its lease and did not
know; `refused_and_mined` is such a run.  `refusal_final` says what a node owes its
callers: it refuses for good only what it does not hold, and keeps to it
(`HonestRefusals`).
-/
import Sluice.Protocol.Retirement

namespace Sluice.Protocol

open Sluice.Theory Sluice.Kernel

set_option autoImplicit false

/-- The id a node has turned down for good, without processing the send. -/
def declined : Step → Option Hex
  | .served _ (some code) (.broadcast _ _ tx _) _ _ _ =>
      if code.hardReject then some tx.txid else none
  | _ => none

/-- The id a processed send will be accepted under. -/
def admitted (D : Deployment) : Step → Option Hex
  | .served _ none (.broadcast _ _ tx _) _ before _ =>
      if before.node.accepts D.sha256 before.now tx then some tx.txid else none
  | _ => none

/-- The node turns down for good only what it does not hold, and does not accept it later. -/
def HonestRefusals (D : Deployment) : List Step → Prop
  | [] => True
  | step :: older =>
      (∀ txid ∈ declined step, ¬ Recorded step.before.node txid) ∧
      (∀ txid ∈ admitted D step, ∀ earlier ∈ older, txid ∉ declined earlier) ∧
      HonestRefusals D older

section Answers

variable {D : Deployment} {p : Moment} {step : Step} {tx : SignedTx} {result : BroadcastResult}

/-- A final refusal means an unknown signature, or a node that did not look. -/
theorem Stride.refusal (stride : Stride D p step) (answer : answered step = some (tx, .ok result))
    (hard : result.code.hardReject = true) :
    (∃ id, WroteAhead p id tx) ∧
      (p.world.node.signer.verify D.sha256 tx = some false ∨ declined step = some tx.txid) := by
  cases stride.origin with
  | acted action w' was moved => rw [was] at answer; cases answer
  | served t choice call reply w' was allowed moved =>
      subst was
      cases call with
      | broadcast id token tx' worker =>
          cases answer
          refine ⟨⟨id, allowed.2⟩, ?_⟩
          rcases broadcast_cases moved with ⟨_, answer, _⟩ | ⟨code, rfl, _, _, answer, _⟩
          · have sent := MockTronNode.broadcast_sent D.sha256 p.world.node p.world.now tx
              (some worker)
            rw [← answer] at sent
            generalize (p.world.node.broadcast D.sha256 p.world.now tx (some worker)).2 = node'
              at sent
            cases sent with
            | unprocessed _ _ _ _ fate =>
                rcases fate with ⟨_, no⟩ | same | same
                · cases no
                · cases same; exact absurd hard (by decide)
                · cases same; exact absurd hard (by decide)
            | badSignature _ _ _ bad => exact .inl bad
            | expired => exact absurd hard (by decide)
            | duplicate => exact absurd hard (by decide)
            | accepted _ _ _ _ _ _ _ _ fate =>
                rcases fate with ⟨_, no⟩ | same
                · cases no
                · cases same; exact absurd hard (by decide)
          · cases answer
            exact .inr (by simp [declined, hard])
      | claim | cas | release | now | refBlock | findTx | solidNow | solidBlock | here =>
          cases answer

theorem Passed.declined_unrecorded (passed : Passed D p) : HonestRefusals D p.trace →
    ∀ txid, (∃ step ∈ p.trace, txid ∈ declined step) → ¬ Recorded p.world.node txid := by
  refine passed_induction (J := fun p => HonestRefusals D p.trace →
    ∀ txid, (∃ step ∈ p.trace, txid ∈ declined step) → ¬ Recorded p.world.node txid) ?_ ?_ passed
  · rintro _ _ _ _ _ _ txid ⟨_, member, _⟩
    cases member
  rintro p step passed passed' stride ih ⟨refuses, admits, honest⟩ txid ⟨refusal, member, no⟩
    ⟨rec, found⟩
  rcases List.mem_cons.mp member with rfl | older
  · -- refused right now, and not held before
    cases stride.records txid rec found with
    | old before found' _ =>
        refine refuses txid no ⟨before, ?_⟩
        rw [stride.before]
        exact found'
    | accepted t id token worker reply w' was =>
        rw [was] at no
        cases no
  · cases stride.records txid rec found with
    | old before found' _ => exact ih honest txid ⟨refusal, older, no⟩ ⟨before, found'⟩
    | accepted t id token worker reply w' was key fresh accepts =>
        refine admits txid ?_ refusal older no
        rw [was]
        simp [admitted, accepts, key]

end Answers

section Decide

instance (node : MockTronNode) (txid : Hex) : Decidable (Recorded node txid) :=
  decidable_of_iff ((node.txs.get? txid).isSome = true) Option.isSome_iff_exists

instance HonestRefusals.decidable (D : Deployment) :
    (trace : List Step) → Decidable (HonestRefusals D trace)
  | [] => .isTrue trivial
  | step :: older =>
      have := HonestRefusals.decidable D older
      inferInstanceAs (Decidable ((∀ txid ∈ declined step, ¬ Recorded step.before.node txid) ∧
        (∀ txid ∈ admitted D step, ∀ earlier ∈ older, txid ∉ declined earlier) ∧
        HonestRefusals D older))

end Decide

section Runs

variable {D : Deployment} {c : Run}

theorem Refused.unrecorded {tx : SignedTx} (reached : D.Reachable c)
    (honest : HonestRefusals D c.point.trace) (refused : Refused c.point tx) :
    ¬ Recorded c.point.world.node tx.txid := by
  obtain ⟨step, member, result, answer, hard⟩ := refused
  obtain ⟨_, passed, stride, _, grown⟩ := step_past reached member
  obtain ⟨⟨id, written⟩, bad | no⟩ := stride.refusal answer hard
  · rintro ⟨rec, found⟩
    -- the node verified some form of this id, and every form has the same signature
    have ledger := Passed.ledger ⟨c, reached, rfl⟩
    obtain ⟨key, good, id', written', _⟩ := ledger.sent _ rec found
    obtain ⟨row, _, ref, now, same⟩ := passed.ledger.pays id tx written
    obtain ⟨row', _, ref', now', same'⟩ := ledger.pays id' rec.tx written'
    rw [same'] at good key
    rw [same] at bad key
    rw [grown.signer] at good
    rw [MockSigner.verify_sign_congr D.sha256 D.signer _ key, bad] at good
    cases good
  · exact Passed.declined_unrecorded ⟨c, reached, rfl⟩ honest tx.txid ⟨step, member, no⟩

theorem Write.refused {p : Moment} {t : Nat} {op : Operation} {toState : OpState} {sets : Sets}
    {detail : Detail} (write : Write D p t op toState sets detail)
    (state : op.state = .broadcasting) (target : toState = .failed) :
    ∃ tx, op.signedTx = some tx ∧ Refused p tx := by
  cases write with
  | hardReject _ tx signed result hard answer =>
      obtain ⟨step, member, answered⟩ := answer
      exact ⟨tx, signed, step, member, result, answered, hard⟩
  | giveUp state' | reverted state' =>
      rw [state] at state'
      cases state'
  | breadcrumb => cases state.symm.trans target
  | reject | validate | startSigning | build | sign | dropUnsent | writeAhead | accepted | noted
  | found | retire | confirm => cases target

/-- **A refusal is final**, from an honest node.  In every run in which the node turns down
for good only what it does not hold, and does not accept it later, a row that has gone
from `broadcasting` to `failed` held a transaction that is not in a block with success,
then or at any later time. -/
theorem refusal_final (reached : D.Reachable c) (honest : HonestRefusals D c.point.trace) :
    ∀ step ∈ c.point.trace, ∀ id old new, Moved step id old new → old.state = .broadcasting →
      new.state = .failed →
      ∃ tx, old.signedTx = some tx ∧ old.txid = some tx.txid ∧
        ¬ c.point.world.node.Successful tx.txid := by
  intro step member id old new moved from_ to_
  obtain ⟨newer, older, trace⟩ := List.append_of_mem member
  obtain ⟨c₀, c₁, reached₀, here, later, at₀, _, stride⟩ := reachable_past reached trace
  obtain ⟨commit, _, rfl, target⟩ := stride.moved moved (by rw [from_, to_]; decide)
  obtain ⟨tx, signed, refusal, member', rest⟩ := commit.write.refused from_ (target.trans to_)
  have refused : Refused c.point tx := by
    refine ⟨refusal, ?_, rest⟩
    rw [at₀] at member'
    rw [trace]
    exact List.mem_append_right _ (List.mem_cons_of_mem _ member')
  refine ⟨tx, signed, ?_, fun landed => ?_⟩
  · have facts := (Passed.inv ⟨c₀, reached₀, rfl⟩).rows _ _ commit.found
    obtain ⟨tx', stored⟩ := facts.shape.sealed (.inr (.inl from_))
    rw [stored.unique signed]
    exact stored.txid
  · obtain ⟨rec, _, found, _⟩ := landed
    exact refused.unrecorded reached honest ⟨rec, found⟩

end Runs

/-- The sample deployment before a node that may decline. -/
def Sample.declining : Deployment := { Sample.deployment with declining := true }

/-- The step takes the sample withdrawal from `broadcasting` to `failed`, with bytes on its row
that pass the check. -/
def Sample.fails (check : SignedTx → Bool) (step : Step) : Bool :=
  (step.before.store.ops.get? 0x11111111111141118111111111111111).any fun old =>
  (step.after.store.ops.get? 0x11111111111141118111111111111111).any fun new =>
    old.state = .broadcasting && new.state = .failed && old.signedTx.any check

theorem Sample.moved_of_fails {check : SignedTx → Bool} {step : Step}
    (fails : Sample.fails check step = true) :
    ∃ old new tx, Moved step 0x11111111111141118111111111111111 old new ∧
      old.state = .broadcasting ∧ new.state = .failed ∧ old.signedTx = some tx ∧
      check tx = true := by
  simp only [Sample.fails, Bool.and_eq_true, decide_eq_true_eq, Option.any_eq_true] at fails
  obtain ⟨old, before, new, after, ⟨from_, to_⟩, tx, signed, checked⟩ := fails
  exact ⟨old, new, tx, ⟨before, after⟩, from_, to_, signed, checked⟩

/-- The first send is declined, and nobody ever sent the transaction before. -/
theorem refusal_final_first_send : ∃ c step old new tx, Sample.declining.Reachable c ∧
    HonestRefusals Sample.declining c.point.trace ∧ step ∈ c.point.trace ∧
    Moved step 0x11111111111141118111111111111111 old new ∧ old.state = .broadcasting ∧
    new.state = .failed ∧ old.signedTx = some tx ∧
    ¬ c.point.world.node.Successful tx.txid := by
  obtain ⟨c, reached, done⟩ := reachable_of_schedule (D := Sample.declining)
    (fun c => decide (HonestRefusals Sample.declining c.point.trace) &&
      c.point.trace.any (Sample.fails fun _ => true)) Sample.epoch (by decide)
    ([.act (.submit (Sample.request "11111111111141118111111111111111" "1")), .spawn "a"] ++
      Sample.serves 0 11 ++ [.serve 0 (some .contractValidateError)] ++ Sample.serves 0 2)
    (by decide +kernel)
  simp only [Bool.and_eq_true, decide_eq_true_eq, List.any_eq_true] at done
  obtain ⟨honest, step, member, fails⟩ := done
  obtain ⟨old, new, _, moved, from_, to_, _, _⟩ := Sample.moved_of_fails fails
  obtain ⟨tx, signed, _, out⟩ := refusal_final reached honest step member _ old new moved from_ to_
  exact ⟨c, step, old, new, tx, reached, honest, member, moved, from_, to_, signed, out⟩

/-- **Refused and mined.**  Worker `a` writes ahead and stalls; its lease runs out.  Worker
`b` claims, finds nothing at the node and nothing expired, and is about to send again.  `a`
sends first, and the node accepts.  The node declines the send of `b` with a code that
counts as final, `b` marks the withdrawal failed, and the next block pays it. -/
theorem refused_and_mined : ∃ c step old new tx, Sample.declining.Reachable c ∧
    Forward c.point.trace ∧ step ∈ c.point.trace ∧
    Moved step 0x11111111111141118111111111111111 old new ∧ old.state = .broadcasting ∧
    new.state = .failed ∧ old.signedTx = some tx ∧ c.point.world.node.Successful tx.txid := by
  obtain ⟨c, reached, done⟩ := reachable_of_schedule (D := Sample.declining)
    (fun c => decide (Forward c.point.trace) && c.point.trace.any
      (Sample.fails fun tx => tx.txid ∈ c.point.world.node.successfulTxids))
    Sample.epoch (by decide)
    ([.act (.submit (Sample.request "11111111111141118111111111111111" "1")), .spawn "a"] ++
      Sample.serves 0 11 ++ [.act (.advance (31 * second)), .spawn "b"] ++ Sample.serves 1 4 ++
      Sample.serves 0 1 ++ [.serve 1 (some .contractValidateError)] ++ Sample.serves 1 1 ++
      [.act (.produceBlocks 1)]) (by decide +kernel)
  simp only [Bool.and_eq_true, decide_eq_true_eq, List.any_eq_true] at done
  obtain ⟨forward, step, member, fails⟩ := done
  obtain ⟨old, new, tx, moved, from_, to_, signed, landed⟩ := Sample.moved_of_fails fails
  exact ⟨c, step, old, new, tx, reached, forward, member, moved, from_, to_, signed,
    (MockTronNode.mem_successfulTxids _ _).mp (of_decide_eq_true landed)⟩

end Sluice.Protocol
