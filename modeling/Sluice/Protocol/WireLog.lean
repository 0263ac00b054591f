/-
# Protocol.WireLog -- the broadcast log is the whole story of the wire

The node logs its sends: id, outcome, height, worker.  Nothing else is logged: the log is the
list of the sends of the run, in order, each with the outcome that its sender was told, or could
have been told before the connection broke (`entryOf`).  Only a signature that cannot be compared
leaves no entry, since `verify` raises before the node logs (`broadcast_unlogged`).

Read by itself the log is a history of the mempool (`WireOk`):

* an id is taken in once if the node holds it, and never otherwise, however often it is sent;
* a send is answered as a duplicate only after the id was taken in;
* a transaction in a block was taken in at the height on its record, before that block and at
  least the inclusion delay before it.
-/
import Sluice.Protocol.Worker

namespace Sluice.Protocol

open Sluice.Theory Sluice.Kernel
open MockTronNode (acceptedCount Outcome.taken)

set_option autoImplicit false

/-- What the log says about the records. -/
structure WireOk (node : MockTronNode) : Prop where
  once : ∀ txid, node.acceptedCount txid = if (node.txs.get? txid).isSome then 1 else 0
  duplicates : ∀ older e newer, node.broadcastLog = older ++ e :: newer → e.outcome = .dup →
    ∃ first ∈ older, first.txid = e.txid ∧ Outcome.taken first.outcome = true
  records : ∀ txid rec, node.txs.get? txid = some rec → ∃ e ∈ node.broadcastLog, e.txid = txid ∧
    Outcome.taken e.outcome = true ∧ e.atBlock = rec.acceptedAtBlock ∧ e.atBlock ≤ node.head ∧
    ∀ block, rec.includedBlock = some block →
      e.atBlock < block ∧ node.inclusionDelay ≤ block - e.atBlock ∧ block ≤ node.head

section Node

variable {node node' : MockTronNode} {sha256 : Bytes → Bytes} {now : Int} {tx : SignedTx}
  {worker : Option String}

/-- What a send does to the records goes by the outcome that is logged of it. -/
theorem broadcast_records (sha256 : Bytes → Bytes) (node : MockTronNode) (now : Int)
    (tx : SignedTx) (worker : Option String) :
    (node.broadcast sha256 now tx worker).2.inclusionDelay = node.inclusionDelay ∧
    if (outcomeTold (node.broadcast sha256 now tx worker).1).any Outcome.taken = true then
      node.txs.get? tx.txid = none ∧ (node.broadcast sha256 now tx worker).2.txs =
        node.txs.set tx.txid { tx := tx, acceptedAtBlock := node.head }
    else
      (node.broadcast sha256 now tx worker).2.txs = node.txs ∧
        (outcomeTold (node.broadcast sha256 now tx worker).1 = some .dup →
          (node.txs.get? tx.txid).isSome = true) := by
  unfold MockTronNode.broadcast
  simp only
  split
  · exact ⟨rfl, rfl, nofun⟩
  split
  · exact ⟨rfl, rfl, nofun⟩
  split
  · exact ⟨rfl, rfl, nofun⟩
  split
  · exact ⟨rfl, rfl, nofun⟩
  · exact ⟨rfl, rfl, nofun⟩
  split
  · exact ⟨rfl, rfl, nofun⟩
  split
  · rename_i known
    exact ⟨rfl, rfl, fun _ => known⟩
  rename_i fresh
  have fresh : node.txs.get? tx.txid = none := by simpa using fresh
  split
  · exact ⟨rfl, fresh, rfl⟩
  · exact ⟨rfl, fresh, rfl⟩

/-- A send leaves no entry only where its signature cannot be compared. -/
theorem broadcast_unlogged
    (unlogged : outcomeTold (node.broadcast sha256 now tx worker).1 = none) :
    node.signer.verify sha256 tx = none := by
  have how := MockTronNode.broadcast_sent sha256 node now tx worker
  generalize (node.broadcast sha256 now tx worker).1 = answer at how unlogged
  cases how with
  | raised _ _ _ beyond => exact beyond
  | unprocessed _ _ _ _ fate => rcases fate with ⟨_, rfl⟩ | rfl | rfl <;> cases unlogged
  | accepted _ _ _ _ _ _ _ _ fate => rcases fate with ⟨_, rfl⟩ | rfl <;> cases unlogged
  | badSignature | expired | duplicate => cases unlogged

theorem genesis_wireOk (now solidityLag inclusionDelay : Int) (signer : MockSigner) :
    WireOk (.genesis now solidityLag inclusionDelay signer) := by
  refine ⟨fun txid => rfl, fun older e newer log => ?_, fun txid rec found => ?_⟩
  · simp [MockTronNode.genesis] at log
  · simp [MockTronNode.genesis] at found

/-- The node is asked or moved in a way that leaves log and records alone. -/
theorem WireOk.quiet (ok : WireOk node) (log : node'.broadcastLog = node.broadcastLog)
    (txs : node'.txs = node.txs) (head : node'.head = node.head)
    (delay : node'.inclusionDelay = node.inclusionDelay) : WireOk node' := by
  refine ⟨fun txid => ?_, ?_, ?_⟩
  · rw [acceptedCount, log, txs]
    exact ok.once txid
  · rw [log]
    exact ok.duplicates
  · rw [log, txs, head, delay]
    exact ok.records

/-- A send that is not taken in. -/
theorem WireOk.refuse (ok : WireOk node) {e : BroadcastLogEntry}
    (log : node'.broadcastLog = node.broadcastLog ++ [e]) (txs : node'.txs = node.txs)
    (head : node'.head = node.head) (delay : node'.inclusionDelay = node.inclusionDelay)
    (untaken : Outcome.taken e.outcome = false)
    (known : e.outcome = .dup → (node.txs.get? e.txid).isSome = true) : WireOk node' := by
  refine ⟨fun txid => ?_, fun older e' newer split dup => ?_, fun txid rec found => ?_⟩
  · rw [acceptedCount, log, txs, List.countP_append, List.countP_singleton, untaken, Bool.and_false]
    exact ok.once txid
  · rw [log] at split
    rcases split_snoc split with ⟨rest, old⟩ | ⟨rfl, rfl⟩
    · exact ok.duplicates older e' rest old dup
    · -- a duplicate of what the node holds, and the node holds what it has taken in
      have count := ok.once e.txid
      rw [if_pos (known dup)] at count
      obtain ⟨first, member, same⟩ :=
        List.countP_pos_iff.mp (by rw [← acceptedCount, count]; decide)
      rw [Bool.and_eq_true, decide_eq_true_eq] at same
      exact ⟨first, member, same⟩
  · rw [txs] at found
    rw [log, head, delay]
    obtain ⟨e', member, rest⟩ := ok.records txid rec found
    exact ⟨e', List.mem_append_left _ member, rest⟩

/-- A send that is taken in. -/
theorem WireOk.accept (ok : WireOk node) {e : BroadcastLogEntry}
    (log : node'.broadcastLog = node.broadcastLog ++ [e]) (fresh : node.txs.get? e.txid = none)
    {tx : SignedTx}
    (txs : node'.txs = node.txs.set e.txid { tx := tx, acceptedAtBlock := node.head })
    (head : node'.head = node.head) (delay : node'.inclusionDelay = node.inclusionDelay)
    (here : e.atBlock = node.head) (taken : Outcome.taken e.outcome = true) : WireOk node' := by
  refine ⟨fun txid => ?_, fun older e' newer split dup => ?_, fun txid rec found => ?_⟩
  · rw [acceptedCount, log, txs, List.countP_append, List.countP_singleton, taken, Bool.and_true,
      Dict.get?_set, ← acceptedCount, ok.once txid]
    by_cases same : e.txid = txid
    · subst same
      simp [fresh]
    · simp [same, Ne.symm same]
  · rw [log] at split
    rcases split_snoc split with ⟨rest, old⟩ | ⟨rfl, rfl⟩
    · exact ok.duplicates older e' rest old dup
    · rw [dup] at taken
      cases taken
  · rw [txs, Dict.get?_set] at found
    rw [log, head, delay]
    split at found
    · rename_i same
      cases found
      exact ⟨e, by simp, same.symm, taken, here, le_of_eq here, nofun⟩
    · obtain ⟨e', member, rest⟩ := ok.records txid rec found
      exact ⟨e', List.mem_append_left _ member, rest⟩

/-- A record is put into a block only after the delay. -/
theorem includeTx_delay (h t delay : Int) (queue : List Fault) (rec : TxRecord) :
    (MockTronNode.includeTx h t delay queue rec).2 = rec ∨
      (delay ≤ h - rec.acceptedAtBlock ∧ ∃ receipt,
        (MockTronNode.includeTx h t delay queue rec).2 =
          { rec with includedBlock := some h, receipt := some receipt }) := by
  unfold MockTronNode.includeTx
  split
  · exact .inl rfl
  split
  · exact .inl rfl
  split
  · rename_i due
    exact .inr ⟨due, _, rfl⟩
  · exact .inl rfl

theorem WireOk.block (ok : WireOk node) (now : Int) : WireOk (node.produceBlock now) := by
  have before : ∀ txid rec', (node.produceBlock now).txs.get? txid = some rec' →
      ∃ rec, node.txs.get? txid = some rec ∧ (rec' = rec ∨
        (node.inclusionDelay ≤ node.head + 1 - rec.acceptedAtBlock ∧ ∃ receipt,
          rec' = { rec with includedBlock := some (node.head + 1), receipt := some receipt })) := by
    intro txid rec' found
    obtain ⟨rec, old, _⟩ := MockTronNode.produceBlock_record_inv now found
    obtain ⟨queue, walked⟩ := Dict.get?_mapAccum_some node.txs (MockTronNode.includeTx
      (node.head + 1) (node.nextBlockTime now) node.inclusionDelay) node.receiptFaults old
    have same := Option.some.inj (found.symm.trans walked)
    exact ⟨rec, old, same ▸ includeTx_delay _ _ _ _ _⟩
  refine ⟨fun txid => ?_, ok.duplicates, fun txid rec' found => ?_⟩
  · have kept : ((node.produceBlock now).txs.get? txid).isSome = (node.txs.get? txid).isSome := by
      cases old : node.txs.get? txid with
      | some rec =>
          obtain ⟨rec', found, _⟩ := MockTronNode.produceBlock_record now old
          rw [found]
          rfl
      | none =>
          cases new : (node.produceBlock now).txs.get? txid with
          | none => rfl
          | some rec' =>
              obtain ⟨rec, present, _⟩ := before txid rec' new
              cases old.symm.trans present
    rw [kept]
    exact ok.once txid
  · obtain ⟨rec, old, how⟩ := before txid rec' found
    obtain ⟨e, member, same, taken, birth, past, blocks⟩ := ok.records txid rec old
    rw [MockTronNode.produceBlock_head]
    rcases how with rfl | ⟨due, receipt, rfl⟩
    · refine ⟨e, member, same, taken, birth, by omega, fun block included => ?_⟩
      obtain ⟨later, due, known⟩ := blocks block included
      exact ⟨later, due, by omega⟩
    · refine ⟨e, member, same, taken, birth, by omega, fun block included => ?_⟩
      cases included
      exact ⟨by omega, by rw [birth]; exact due, le_refl _⟩

theorem WireOk.blocks (ok : WireOk node) (now : Int) (n : Nat) :
    WireOk (node.produceBlocks now n) := by
  induction n generalizing node with
  | zero => exact ok
  | succ n ih =>
      rw [MockTronNode.produceBlocks]
      split
      · exact ih (ok.block now)
      · exact ok

theorem WireOk.broadcast (ok : WireOk node) :
    WireOk (node.broadcast sha256 now tx worker).2 := by
  have log := broadcast_entry sha256 node now tx worker
  obtain ⟨delay, records⟩ := broadcast_records sha256 node now tx worker
  have head := (MockTronNode.broadcast_frame sha256 node now tx worker).1
  cases told : outcomeTold (node.broadcast sha256 now tx worker).1 with
  | none =>
      rw [told] at log records
      exact ok.quiet (log.trans (List.append_nil _)) records.1 head delay
  | some outcome =>
      rw [told] at log records
      split at records
      · rename_i taken
        exact ok.accept log records.1 records.2 head delay rfl taken
      · rename_i untaken
        exact ok.refuse log records.1 head delay (Bool.not_eq_true _ ▸ untaken) fun dup =>
          records.2 (congrArg some dup)

theorem WireOk.decline (ok : WireOk node) (code : BroadcastCode) :
    WireOk (node.decline tx worker code).2 :=
  ok.refuse rfl rfl rfl rfl rfl nofun

end Node

/-! ## Runs -/

section Runs

variable {D : Deployment} {c : Run} {p : Moment} {step : Step}

theorem Stride.wireOk (stride : Stride D p step) (ok : WireOk p.world.node) :
    WireOk step.after.node := by
  cases stride.origin with
  | acted action w' was moved =>
      subst was
      cases action with
      | produceBlocks n => cases moved; exact ok.blocks _ n
      | script channel faults =>
          cases moved
          cases channel
          all_goals exact ok.quiet rfl rfl rfl rfl
      | advance delta => obtain ⟨rfl, _⟩ := act_advance moved; exact ok
      | submit | arm => cases moved; exact ok
  | served t choice call reply w' was allowed moved =>
      subst was
      cases call with
      | broadcast id token tx worker =>
          rcases broadcast_cases moved with ⟨rfl, rfl, rfl⟩ | ⟨code, rfl, _, _, rfl, rfl⟩
          · exact ok.broadcast
          · exact ok.decline code
      | findTx txid =>
          obtain ⟨rfl, _⟩ := serve_findTx moved
          exact ok.quiet rfl rfl rfl rfl
      | claim => obtain ⟨_, rfl⟩ := serve_claim moved; exact ok
      | cas => obtain ⟨_, rfl⟩ := serve_cas moved; exact ok
      | release => cases serve_release moved; exact ok
      | now | refBlock | solidNow | solidBlock | here => cases moved; exact ok

theorem Passed.wireOk (passed : Passed D p) : WireOk p.world.node :=
  passed_induction (J := fun p => WireOk p.world.node)
    (fun now lag delay signer _ => genesis_wireOk now lag delay signer)
    (fun _ _ _ _ stride ok => stride.wireOk ok) passed

/-- A send without an entry. -/
theorem Stride.unlogged (stride : Stride D p step) {id : UUID} {tx : SignedTx}
    (sent : sending step = some (id, tx)) (unlogged : entryOf step = none) :
    p.world.node.signer.verify D.sha256 tx = none := by
  cases stride.origin with
  | acted action w' was moved =>
      subst was
      cases sent
  | served t choice call reply w' was allowed moved =>
      subst was
      cases call with
      | broadcast id' token tx' worker =>
          cases sent
          rcases broadcast_cases moved with ⟨rfl, rfl, rfl⟩ | ⟨code, rfl, _, _, rfl, rfl⟩
          · exact broadcast_unlogged (Option.map_eq_none_iff.mp unlogged)
          · cases unlogged
      | claim | cas | release | now | refBlock | findTx | solidNow | solidBlock | here => cases sent

/-- **The broadcast log is the whole story of the wire.**  In every run the log lists the sends of
the run, in order, each with its outcome, its height and its worker; a send is left out only if
its signature could not be compared, which raises before anything is logged.  An id that the node
holds was taken in exactly once, any other never; a send counts as a duplicate only after that;
and whatever is in a block was taken in before it, by at least the inclusion delay.  The
transaction of an operation in `broadcast` or `confirmed` was taken in exactly once. -/
theorem wire_log_complete (reached : D.Reachable c) :
    c.point.world.node.broadcastLog = c.point.trace.reverse.filterMap entryOf ∧
    (∀ step ∈ c.point.trace, ∀ id tx, sending step = some (id, tx) → entryOf step = none →
      step.before.node.signer.verify D.sha256 tx = none) ∧
    WireOk c.point.world.node ∧
    ∀ id row tx, c.point.world.store.ops.get? id = some row →
      row.state = .broadcast ∨ row.state = .confirmed → row.signedTx = some tx →
      c.point.world.node.acceptedCount tx.txid = 1 := by
  have passed : Passed D c.point := ⟨c, reached, rfl⟩
  have ok := passed.wireOk
  refine ⟨passed.wire, fun step member id tx sent unlogged => ?_, ok,
    fun id row tx found taken signed => ?_⟩
  · obtain ⟨_, _, stride, _⟩ := step_past reached member
    exact stride.unlogged sent unlogged
  · obtain ⟨rec, record⟩ := (passed.inv.rows id row found).recorded
      (by rcases taken with state | state <;> rw [state] <;> rfl) tx signed
    rw [ok.once, record]
    rfl

/-- Two withdrawals that were given the same transaction: the node takes it in once. -/
theorem wire_log_complete_shared : ∃ c, Sample.deployment.Reachable c ∧
    c.point.world.node.broadcastLog.map (·.outcome) = [.accepted, .dup] ∧
    c.point.world.node.broadcastLog = c.point.trace.reverse.filterMap entryOf ∧
    WireOk c.point.world.node := by
  obtain ⟨c, reached, done⟩ := reachable_of_schedule (D := Sample.deployment)
    (fun c => decide (c.point.world.node.broadcastLog.map (·.outcome) = [.accepted, .dup]))
    Sample.epoch (by decide)
    ([.act (.submit (Sample.request "11111111111141118111111111111111" "1")),
      .act (.submit (Sample.request "22222222222242228222222222222222" "1")), .spawn "a"] ++
      Sample.serves 0 33) (by decide +kernel)
  obtain ⟨log, _, ok, _⟩ := wire_log_complete reached
  exact ⟨c, reached, of_decide_eq_true done, log, ok⟩

end Runs

end Sluice.Protocol
