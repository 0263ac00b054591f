/-
# Protocol.Accounting -- the books balance after every crash-recovery run

In a sequential run the calls of one worker follow each other directly (`Sequential`): the
worker runs to its end or is killed somewhere and never heard of again.  Nothing then
happens between the lookup of a transaction and its retirement, so no retired transaction
was in a block (`retires_unmined`), and the results on double spends and refusals apply
without a condition:

* a confirmed withdrawal was paid exactly once, its amount to its address;
* a failed or rejected one was not paid and never will be.
-/
import Sluice.Protocol.DoubleSpend
import Sluice.Protocol.Refusal
import Sluice.Protocol.Submission

namespace Sluice.Protocol

open Sluice.Theory Sluice.Kernel
open MemoryStore (casRow identity)

set_option autoImplicit false

/-- Each step of a thread is its first one or directly follows its previous one. -/
def Sequential : List Step → Prop
  | [] => True
  | step :: older =>
      (∀ t, step.thread? = some t →
        (∀ old ∈ older, old.thread? ≠ some t) ∨ older.head?.bind Label.thread? = some t) ∧
      Sequential older

/-- The worlds in which a thread's last two calls read solid time and solid block. -/
def proofReads : List Step → Option (World × World)
  | .served _ _ .solidBlock _ second _ :: .served _ _ .solidNow _ first _ :: _ =>
      some (first, second)
  | _ => none

section Lookups

variable {D : Deployment} {c : Run} {p : Moment}

theorem Sequential.suffix {newer older : List Step} (sequential : Sequential (newer ++ older)) :
    Sequential older := by
  induction newer with
  | nil => exact sequential
  | cons _ _ ih => exact ih sequential.2

/-- In a sequential trace the last step of the thread at work is the last step of all. -/
theorem Sequential.last {step last : Step} {older own : List Step} {t : Nat}
    (sequential : Sequential (step :: older)) (thread : step.thread? = some t)
    (before : (older.filter fun label => label.thread? = some t) = last :: own) :
    ∃ rest, older = last :: rest ∧ (rest.filter fun label => label.thread? = some t) = own := by
  have member : last ∈ older.filter fun label => label.thread? = some t := by
    rw [before]
    exact List.mem_cons_self
  obtain ⟨inside, mine⟩ := List.mem_filter.mp member
  rcases sequential.1 t thread with first | follows
  · exact absurd (by simpa using mine) (first last inside)
  · cases older with
    | nil => cases inside
    | cons head rest =>
        have mine : head.thread? = some t := follows
        rw [List.filter_cons_of_pos (by simpa using mine)] at before
        obtain ⟨rfl, same⟩ := List.cons.inj before
        exact ⟨rest, rfl, same⟩

theorem reachable_linked (reached : D.Reachable c) :
    ∃ first, Linked first c.point.trace c.point.world := by
  obtain ⟨now, lag, delay, signer, _, reached⟩ := reached
  exact ⟨_, linked_of_reaches reached⟩

theorem served_past (reached : D.Reachable c) {t : Nat} {choice : Option BroadcastCode}
    {call : Call} {reply : Reply call} {before after : World}
    (member : .served t choice call reply before after ∈ c.point.trace) :
    D.serve choice call before = some (reply, after) := by
  obtain ⟨_, _, stride, _⟩ := step_past reached member
  cases stride.origin with
  | acted action w' was => cases was
  | served t choice call reply w' was allowed moved =>
      cases was
      exact moved

/-- Leaving `broadcasting` for `signing` takes an audit. -/
theorem Write.audited {t : Nat} {op : Operation} {toState : OpState} {sets : Sets} {detail : Detail}
    (write : Write D p t op toState sets detail) (state : op.state = .broadcasting)
    (target : toState = .signing) :
    ∃ tx solidTime solidBlock, op.signedTx = some tx ∧
      Audited p t tx.txid solidTime solidBlock := by
  cases write with
  | retire _ tx signed solidTime solidBlock audited =>
      exact ⟨tx, solidTime, solidBlock, signed, audited⟩
  | startSigning state' | build state' | dropUnsent state' =>
      rw [state] at state'
      cases state'
  | breadcrumb => cases state.symm.trans target
  | reject | validate | giveUp | sign | writeAhead | accepted | hardReject | noted | found
  | confirm | reverted => cases target

theorem Audited.reads {t : Nat} {txid : Hex} {solidTime solidBlock : Int} (passed : Passed D p)
    (audited : Audited p t txid solidTime solidBlock) :
    ∃ first second older newer, proofReads (p.own t) = some (first, second) ∧
      solidTime = first.node.solidNow ∧ solidBlock = second.node.solidBlock ∧
      Passed D ⟨first, older⟩ ∧ first.node.Grows p.world.node ∧
      Passed D ⟨second, newer⟩ ∧ second.node.Grows p.world.node := by
  obtain ⟨c, reached, rfl⟩ := passed
  obtain ⟨_, _, _, _, _, _, first, _, second, _, rest, own, _⟩ := audited
  -- a read of the past: its answer, and the run it was made in
  have read : ∀ {choice : Option BroadcastCode} {call : Call} {reply : Reply call}
      {before after : World}, .served t choice call reply before after ∈ c.point.own t →
      D.serve choice call before = some (reply, after) ∧
        ∃ older, Passed D ⟨before, older⟩ ∧ before.node.Grows c.point.world.node := by
    intro choice call reply before after member
    have logged := (List.mem_filter.mp member).1
    obtain ⟨older, passed, _, _, grown⟩ := step_past reached logged
    exact ⟨served_past reached logged, older, passed, grown⟩
  obtain ⟨moved₂, newer, passed₂, grown₂⟩ := read (by rw [own]; exact List.mem_cons_self)
  obtain ⟨moved₁, older, passed₁, grown₁⟩ := read (by rw [own]; exact .tail _ List.mem_cons_self)
  cases moved₁
  cases moved₂
  exact ⟨first, second, older, newer, by rw [own]; rfl, rfl, rfl, passed₁, grown₁, passed₂, grown₂⟩

/-- An audit that nothing interrupted leaves the transaction outside every block. -/
theorem Audited.not_included {step : Step} {t : Nat} {txid : Hex} {solidTime solidBlock : Int}
    (reached : D.Reachable c) (audited : Audited c.point t txid solidTime solidBlock)
    (sequential : Sequential (step :: c.point.trace)) (thread : step.thread? = some t) :
    ¬ c.point.world.node.Included txid := by
  obtain ⟨choice₁, choice₂, choice₃, status, before₁, after₁, before₂, after₂, before₃, after₃,
    own, last, unknown⟩ := audited
  obtain ⟨first, linked⟩ := reachable_linked reached
  obtain ⟨older₂, trace, own₂⟩ := sequential.last thread last
  have sequential₂ := sequential.2
  rw [trace] at sequential₂ linked
  obtain ⟨older₁, rfl, own₁⟩ := sequential₂.last rfl own₂
  obtain ⟨older₀, rfl, _⟩ := sequential₂.2.last rfl own₁
  obtain ⟨here, link₂, link₁, _⟩ := linked
  -- the two reads leave the world alone, and the lookup the records
  have past := fun step => (congrArg (step ∈ ·) trace).mpr
  have read₃ := served_past reached (past _ (.head _))
  have read₂ := served_past reached (past _ (.tail _ (.head _)))
  have looked := served_past reached (past _ (.tail _ (.tail _ (.head _))))
  cases read₃
  cases read₂
  obtain ⟨same, ⟨_, no⟩ | answer⟩ := serve_findTx looked
  · cases no
  have world : c.point.world = after₁ := by
    rw [← here]
    exact link₂.symm.trans link₁.symm
  rw [world, same]
  rintro ⟨rec, b, found, inside⟩
  rcases before₁.node.statusOf_cases before₁.now (before₁.node.txs.get? txid) with
    ⟨_, out⟩ | ⟨verdict, _⟩ | ⟨_, _, _, _, verdict⟩
  · rw [(out rec found).1] at inside
    cases inside
  · rw [← Except.ok.inj answer, unknown] at verdict
    cases verdict
  · rw [← Except.ok.inj answer] at verdict
    rw [verdict] at unknown
    cases unknown

/-- One worker at a time retires nothing that was mined. -/
theorem retires_unmined (reached : D.Reachable c) (sequential : Sequential c.point.trace) :
    RetiresUnmined c.point.trace := by
  intro step member id old new tx moved from_ to_ signed
  obtain ⟨newer, older, trace⟩ := List.append_of_mem member
  obtain ⟨c₀, c₁, reached₀, _, _, at₀, _, stride⟩ := reachable_past reached trace
  obtain ⟨commit, was, rfl, target⟩ := stride.moved moved (by rw [from_, to_]; decide)
  obtain ⟨tx', solidTime, solidBlock, signed', audited⟩ :=
    commit.write.audited from_ (target.trans to_)
  rw [signed] at signed'
  cases signed'
  have around : Sequential (step :: c₀.point.trace) := by
    rw [at₀]
    exact Sequential.suffix (trace ▸ sequential)
  have out := audited.not_included reached₀ around (by rw [was]; rfl)
  rwa [at₀] at out

end Lookups

/-! ## Refusals of the mock -/

section Mock

variable {D : Deployment} {p : Moment} {step : Step}

theorem Stride.undeclined (stride : Stride D p step) (mock : D.declining = false) :
    declined step = none := by
  cases stride.origin with
  | acted action w' was moved => rw [was]; rfl
  | served t choice call reply w' was allowed moved =>
      subst was
      cases call with
      | broadcast id token tx worker =>
          rcases broadcast_cases moved with ⟨rfl, _⟩ | ⟨code, _, declines, _⟩
          · rfl
          · rw [mock] at declines
            cases declines
      | claim | cas | release | now | refBlock | findTx | solidNow | solidBlock | here =>
          cases choice <;> rfl

theorem honest_of_mock (mock : D.declining = false) (passed : Passed D p) :
    HonestRefusals D p.trace := by
  refine (passed_induction (J := fun p => HonestRefusals D p.trace ∧
    ∀ step ∈ p.trace, declined step = none)
    (fun _ _ _ _ _ => ⟨trivial, List.forall_mem_nil _⟩) ?_ passed).1
  rintro p step _ _ stride ⟨honest, processed⟩
  have now_ := stride.undeclined mock
  refine ⟨⟨fun txid no => ?_, fun txid _ earlier member no => ?_, honest⟩, ?_⟩
  · rw [now_] at no
    cases no
  · rw [processed earlier member] at no
    cases no
  · exact List.forall_mem_cons.mpr ⟨now_, processed⟩

end Mock

/-! ## Settled rows -/

section Settled

variable {D : Deployment} {c c' : Run} {id : UUID} {row : Operation}

/-- A terminal row keeps everything but its claim. -/
theorem terminal_frozen (reached : D.Reachable c) (later : D.machine.Reaches c c')
    (found : c.point.world.store.ops.get? id = some row) (ended : row.state.terminal = true) :
    ∃ claimedBy leaseExpiresAt fencingToken updatedAt,
      c'.point.world.store.ops.get? id = some { row with
        claimedBy := claimedBy
        leaseExpiresAt := leaseExpiresAt
        fencingToken := fencingToken
        updatedAt := updatedAt } := by
  refine (stride_induction (J := fun p => ∃ claimedBy leaseExpiresAt fencingToken updatedAt,
    p.world.store.ops.get? id = some { row with
      claimedBy := claimedBy
      leaseExpiresAt := leaseExpiresAt
      fencingToken := fencingToken
      updatedAt := updatedAt }) ?_ reached later ⟨_, _, _, _, found⟩).1
  rintro p step _ _ stride ⟨claimedBy, leaseExpiresAt, token, updatedAt, found⟩
  obtain ⟨row', found', goes⟩ := stride.goes found
  cases goes with
  | kept claimedBy leaseExpiresAt token updatedAt => exact ⟨_, _, _, _, found'⟩
  | written commit was source =>
      -- nobody writes to a terminal row
      have live := commit.live
      rw [source, ended] at live
      cases live

theorem Pays.contract {tx : SignedTx} (pays : Pays D row tx) (asked : Asked D row) :
    tx.rawData.contract.toAddress = row.toAddress ∧
      intOfText tx.rawData.contract.amountUnits.toList = some row.amountUnits := by
  obtain ⟨ref, now, rfl⟩ := pays
  exact ⟨rfl, intOfText_number asked.natural asked.short⟩

/-- Whatever lands for a sole withdrawal transfers its amount to its address. -/
theorem landed_pays (reached : D.Reachable c) (sole : Sole c.point.world.store id)
    (found : c.point.world.store.ops.get? id = some row) {txid : Hex} {rec : TxRecord}
    (member : txid ∈ c.point.world.store.allTxids id)
    (record : c.point.world.node.txs.get? txid = some rec) :
    rec.tx.rawData.contract.toAddress = row.toAddress ∧
      c.point.world.node.txAmount txid = some row.amountUnits := by
  have passed : Passed D c.point := ⟨c, reached, rfl⟩
  obtain ⟨_, written⟩ := passed.ledger.own sole member record
  obtain ⟨row', found', pays⟩ := passed.ledger.pays id rec.tx written
  rw [found] at found'
  cases found'
  obtain ⟨address, amount⟩ := pays.contract (passed.asked id row found)
  refine ⟨address, ?_⟩
  rw [MockTronNode.txAmount, record]
  exact amount

/-- A sole withdrawal that is confirmed was paid by the transaction on its row. -/
theorem confirmed_paid (reached : D.Reachable c) (sole : Sole c.point.world.store id)
    (found : c.point.world.store.ops.get? id = some row) (confirmed : row.state = .confirmed) :
    ∃ tx, Sealed D row tx ∧ tx.txid ∈ c.point.world.store.allTxids id ∧
      c.point.world.node.Successful tx.txid ∧
      (∃ rec, c.point.world.node.txs.get? tx.txid = some rec ∧
        rec.tx.rawData.contract.toAddress = row.toAddress) ∧
      c.point.world.node.txAmount tx.txid = some row.amountUnits := by
  have passed : Passed D c.point := ⟨c, reached, rfl⟩
  have facts := passed.inv.rows id row found
  obtain ⟨tx, stored⟩ := facts.shape.sealed (.inr (.inr (.inr confirmed)))
  have written := facts.written (by rw [confirmed]; rfl) tx stored.signedTx
  rw [c.point.world.store.keyed id row found] at written
  have member := passed.ledger.assigned written
  obtain ⟨rec, record⟩ := facts.recorded (by rw [confirmed]; rfl) tx stored.signedTx
  obtain ⟨address, amount⟩ := landed_pays reached sole found member record
  exact ⟨tx, stored, member, facts.confirmed confirmed tx stored.signedTx, ⟨rec, record, address⟩,
    amount⟩

end Settled

/-! ## Runs -/

section Decide

instance Sequential.decidable : (trace : List Step) → Decidable (Sequential trace)
  | [] => .isTrue trivial
  | step :: older =>
      have := Sequential.decidable older
      decidable_of_iff ((∀ t ∈ step.thread?, (∀ old ∈ older, old.thread? ≠ some t) ∨
        older.head?.bind Label.thread? = some t) ∧ Sequential older) Iff.rfl

end Decide

section Runs

variable {D : Deployment} {c c' : Run}

/-- In a sequential run only the transaction on the row can be in a block. -/
theorem landed_current (safety : 0 ≤ D.cfg.expirationSafetySeconds) (reached : D.Reachable c)
    (forward : Forward c.point.trace) (sequential : Sequential c.point.trace) {id : UUID}
    (sole : Sole c.point.world.store id) {txid : Hex}
    (member : txid ∈ c.point.world.store.allTxids id)
    (landed : c.point.world.node.Successful txid) : Current c.point id txid :=
  (Passed.current_or_outlived safety ⟨c, reached, rfl⟩ forward (retires_unmined reached sequential)
    sole txid member).resolve_right fun out => out.out landed.included

theorem unpaid (mock : D.declining = false) (reached : D.Reachable c) {id : UUID}
    {row : Operation} {tx : SignedTx} (found : c.point.world.store.ops.get? id = some row)
    (failed : row.state = .failed) (signed : row.signedTx = some tx) :
    ¬ c.point.world.node.Successful tx.txid := by
  have passed : Passed D c.point := ⟨c, reached, rfl⟩
  rintro ⟨rec, block, record, _, success⟩
  rcases (passed.inv.rows id row found).failed failed tx signed with
    refused | ⟨rec', _, record', _, reverted⟩
  · exact refused.unrecorded reached (honest_of_mock mock passed) ⟨rec, record⟩
  · rw [record] at record'
    cases record'
    exact reverted success

/-- **Exact accounting.**  Let workers run one after another, each to its end or until it is
killed, against the mock and with a clock that never goes back.  A confirmed withdrawal
whose transactions are its own has exactly one of them in a block with success, and that
one transfers the amount to the address.  A failed or rejected one has none, then or at any
later time. -/
theorem exact_accounting (mock : D.declining = false)
    (safety : 0 ≤ D.cfg.expirationSafetySeconds) (reached : D.Reachable c)
    (later : D.machine.Reaches c c') (forward : Forward c'.point.trace)
    (sequential : Sequential c'.point.trace) (id : UUID) (sole : Sole c'.point.world.store id)
    (row : Operation) (found : c.point.world.store.ops.get? id = some row) :
    (row.state = .confirmed → ∃ txid ∈ c.point.world.store.allTxids id,
      c.point.world.node.Successful txid ∧
      (∃ rec, c.point.world.node.txs.get? txid = some rec ∧
        rec.tx.rawData.contract.toAddress = row.toAddress) ∧
      c.point.world.node.txAmount txid = some row.amountUnits ∧
      ∀ txid' ∈ c.point.world.store.allTxids id, c.point.world.node.Successful txid' →
        txid' = txid) ∧
    (row.state = .failed ∨ row.state = .rejected →
      ∀ txid ∈ c'.point.world.store.allTxids id, ¬ c'.point.world.node.Successful txid) := by
  constructor
  · intro confirmed
    have sole := sole.of_grows (reachable_grows reached later).1
    obtain ⟨newer, trace⟩ := trace_suffix_of_reaches later
    rw [trace] at forward sequential
    obtain ⟨tx, stored, member, landed, address, amount⟩ :=
      confirmed_paid reached sole found confirmed
    refine ⟨tx.txid, member, landed, address, amount, fun txid' member' landed' => ?_⟩
    obtain ⟨_, tx', signed', rfl⟩ := (landed_current safety reached (Forward.suffix forward)
      (Sequential.suffix sequential) sole member' landed').eq found
    rw [stored.signedTx] at signed'
    cases signed'
    rfl
  · intro ended txid member landed
    have terminal : row.state.terminal = true := by
      rcases ended with state | state <;> rw [state] <;> rfl
    obtain ⟨_, _, _, _, found'⟩ := terminal_frozen reached later found terminal
    have reached' := reachable_later reached later
    obtain ⟨exposed, tx, signed, rfl⟩ :=
      (landed_current safety reached' forward sequential sole member landed).eq found'
    rcases ended with failed | rejected
    · exact unpaid mock reached' found' failed signed landed
    · rw [rejected] at exposed
      cases exposed

/-- A worker is killed right after its send; the next one finds the payment and confirms it. -/
theorem exact_accounting_recovered : Sample.deployment.declining = false ∧
    0 ≤ Sample.deployment.cfg.expirationSafetySeconds ∧
    ∃ c row, Sample.deployment.Reachable c ∧ Forward c.point.trace ∧ Sequential c.point.trace ∧
      Sole c.point.world.store 0x11111111111141118111111111111111 ∧
      c.point.world.store.ops.get? 0x11111111111141118111111111111111 = some row ∧
      row.state = .confirmed ∧
      ∃ txid ∈ c.point.world.store.allTxids 0x11111111111141118111111111111111,
        c.point.world.node.Successful txid ∧
        c.point.world.node.txAmount txid = some row.amountUnits := by
  refine ⟨rfl, by decide, ?_⟩
  obtain ⟨c, reached, done⟩ := reachable_of_schedule (D := Sample.deployment)
    (fun c => decide (Forward c.point.trace ∧ Sequential c.point.trace ∧
      Sole c.point.world.store 0x11111111111141118111111111111111 ∧
      ∃ row ∈ c.point.world.store.ops.get? 0x11111111111141118111111111111111,
        row.state = .confirmed)) Sample.epoch (by decide)
    ([.act (.arm .broadcastPostSend 1),
      .act (.submit (Sample.request "11111111111141118111111111111111" "1")), .spawn "a"] ++
      Sample.serves 0 13 ++ [.act (.advance (31 * second)), .act (.produceBlocks 3), .spawn "b"] ++
      Sample.serves 1 8) (by decide +kernel)
  obtain ⟨forward, sequential, sole, row, found, confirmed⟩ := of_decide_eq_true done
  obtain ⟨txid, member, landed, _, amount, _⟩ := (exact_accounting rfl (by decide) reached .refl
    forward sequential _ sole row found).1 confirmed
  exact ⟨c, row, reached, forward, sequential, sole, found, confirmed, txid, member, landed, amount⟩

end Runs

end Sluice.Protocol
