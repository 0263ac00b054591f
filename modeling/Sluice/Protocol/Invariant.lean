/-
# Protocol.Invariant -- allowed calls keep what everybody relies on

Every fact about a row survives any step (`RowFacts.advance`).  What a committed `Write`
leaves is again a row with all its facts (`Write.facts`), and these two make `Inv` an
invariant of the strides.
-/
import Sluice.Protocol.Strides

namespace Sluice.Protocol

open Sluice.Theory Sluice.Kernel
open MemoryStore (Changes casRow claimRow releaseRow identity)
open MockTronNode (ChainOk Evolves)

set_option autoImplicit false

/-! ## Facts only grow -/

section Growth

variable {D : Deployment} {p : Moment} {step : Step}

theorem Claimed.log {t : Nat} {id : UUID} {token : Nat} (claimed : Claimed p t id token) :
    Claimed (p.log step) t id token := by
  obtain ⟨old, member, rest⟩ := claimed
  exact ⟨old, List.mem_cons_of_mem _ member, rest⟩

/-- A step that claims nothing makes no claim. -/
theorem Claimed.of_log {t : Nat} {id : UUID} {token : Nat} (quiet : claims step = [])
    (claimed : Claimed (p.log step) t id token) : Claimed p t id token := by
  obtain ⟨old, member, thread, op, claim, rest⟩ := claimed
  rcases List.mem_cons.mp member with rfl | older
  · rw [quiet] at claim
    cases claim
  · exact ⟨old, older, thread, op, claim, rest⟩

theorem WroteAhead.log {id : UUID} {tx : SignedTx} (written : WroteAhead p id tx) :
    WroteAhead (p.log step) id tx := by
  obtain ⟨old, member, rest⟩ := written
  exact ⟨old, List.mem_cons_of_mem _ member, rest⟩

theorem Recorded.grows {node node' : MockTronNode} {txid : Hex} (recorded : Recorded node txid)
    (grown : node.Grows node') : Recorded node' txid := by
  obtain ⟨rec, found⟩ := recorded
  obtain ⟨rec', found', _⟩ := grown.records txid rec found
  exact ⟨rec', found'⟩

theorem Reverted.grows {node node' : MockTronNode} {txid : Hex} (reverted : Reverted node txid)
    (grown : node.Grows node') : Reverted node' txid := by
  obtain ⟨rec, b, found, inside, receipt⟩ := reverted
  exact ⟨rec, b, grown.final found inside, inside, receipt⟩

theorem Refused.log {tx : SignedTx} (refused : Refused p tx) : Refused (p.log step) tx := by
  obtain ⟨old, member, rest⟩ := refused
  exact ⟨old, List.mem_cons_of_mem _ member, rest⟩

theorem Lapsed.not_included {w : World} {txid : Hex} (lapsed : Lapsed w txid) :
    ¬ w.node.Included txid := by
  obtain ⟨rec, found, out, _⟩ := lapsed
  rintro ⟨rec', b, found', inside⟩
  rw [found] at found'
  cases found'
  rw [out] at inside
  cases inside

/-- A lapsed transaction stays lapsed while the clock does not go back. -/
theorem Lapsed.advance {w w' : World} {txid : Hex} (lapsed : Lapsed w txid)
    (chain : ChainOk w.node)
    (steps : Relation.ReflTransGen (Evolves D.sha256 w.now) w.node w'.node)
    (clock : w.now ≤ w'.now) : Lapsed w' txid := by
  have out := lapsed.not_included
  obtain ⟨rec, found, _, late⟩ := lapsed
  obtain ⟨rec', found', same, _⟩ := (chain.evolution steps).2.records txid rec found
  have bounded : MockTronNode.Bounded txid (max w.now w.node.headTime) w'.node := by
    intro rec'' found''
    rw [found'] at found''
    cases found''
    rw [same]
    exact late.trans (le_max_left _ _)
  refine ⟨rec', found', ?_, by rw [same]; exact late.trans clock⟩
  cases inside : rec'.includedBlock with
  | none => rfl
  | some b =>
      exact absurd ⟨rec', b, found', inside⟩
        (MockTronNode.not_included_evolution chain steps out bounded)

theorem RowFacts.advance {row : Operation} (facts : RowFacts D p row)
    (chain : ChainOk p.world.node) (before : step.before = p.world)
    (moved : Advances D p.world step.after) : RowFacts D (p.log step) row := by
  have grown := (chain.evolution moved.node).2
  refine ⟨facts.shape, ?_, fun sent tx signed => (facts.written sent tx signed).log,
    fun taken tx signed => (facts.recorded taken tx signed).grows grown,
    fun state tx signed => grown.successful (facts.confirmed state tx signed),
    fun state tx signed => (facts.failed state tx signed).imp Refused.log (Reverted.grows · grown)⟩
  · obtain ⟨u, stamp, early⟩ := facts.stamped
    refine ⟨u, stamp, fun forward => ?_⟩
    have clock := Forward.head forward
    rw [before] at clock
    exact (early (Forward.tail forward)).trans clock

end Growth

/-! ## What a write leaves -/

section Writes

variable {D : Deployment} {p : Moment} {t : Nat} {op row : Operation} {u : UnsignedTx}
  {tx : SignedTx}

theorem envelope_congr {ref : RefBlock} {now : Int} (address : row.toAddress = op.toAddress)
    (amount : row.amountUnits = op.amountUnits) :
    D.envelope row ref now = D.envelope op ref now := by
  simp only [Pipeline.envelope, rawData, address, amount]

theorem Built.congr (built : Built D op u) (address : row.toAddress = op.toAddress)
    (amount : row.amountUnits = op.amountUnits) (unsignedTx : row.unsignedTx = op.unsignedTx)
    (txid : row.txid = op.txid) (txExpiration : row.txExpiration = op.txExpiration) :
    Built D row u := by
  obtain ⟨⟨ref, now, rfl⟩, raw, id, expiration⟩ := built
  exact ⟨⟨ref, now, (envelope_congr address amount).symm⟩, unsignedTx.trans raw, txid.trans id,
    txExpiration.trans expiration⟩

theorem Sealed.congr (sealed_ : Sealed D op tx) (address : row.toAddress = op.toAddress)
    (amount : row.amountUnits = op.amountUnits) (unsignedTx : row.unsignedTx = op.unsignedTx)
    (txid : row.txid = op.txid) (txExpiration : row.txExpiration = op.txExpiration)
    (signedTx : row.signedTx = op.signedTx) : Sealed D row tx := by
  obtain ⟨⟨u, built, signature⟩, signed⟩ := sealed_
  exact ⟨⟨u, built.congr address amount unsignedTx txid txExpiration, signature⟩,
    signedTx.trans signed⟩

theorem Shape.congr (shape : Shape D op) (state : row.state = op.state)
    (address : row.toAddress = op.toAddress) (amount : row.amountUnits = op.amountUnits)
    (unsignedTx : row.unsignedTx = op.unsignedTx) (txid : row.txid = op.txid)
    (txExpiration : row.txExpiration = op.txExpiration) (signedTx : row.signedTx = op.signedTx)
    (attempts : row.attempts = op.attempts) : Shape D row := by
  have bare : Bare op → Bare row := fun bare =>
    ⟨unsignedTx.trans bare.unsignedTx, txid.trans bare.txid,
      txExpiration.trans bare.txExpiration, signedTx.trans bare.signedTx⟩
  have sealed_ : (∃ tx, Sealed D op tx) → ∃ tx, Sealed D row tx := fun ⟨tx, sealed_⟩ =>
    ⟨tx, sealed_.congr address amount unsignedTx txid txExpiration signedTx⟩
  unfold Shape at shape ⊢
  rw [state]
  generalize op.state = s at shape
  cases s with
  | requested | validated | rejected => exact ⟨bare shape.1, attempts.trans shape.2⟩
  | signing =>
      refine ⟨signedTx.trans shape.1, shape.2.imp bare ?_⟩
      rintro ⟨u, built⟩
      exact ⟨u, built.congr address amount unsignedTx txid txExpiration⟩
  | signed | broadcasting | broadcast | confirmed => exact sealed_ shape
  | failed => exact shape.imp signedTx.trans sealed_

/-- In the states that have been signed, the row's signed transaction is its envelope. -/
theorem Shape.sealed (shape : Shape D op)
    (state : op.state = .signed ∨ op.state = .broadcasting ∨ op.state = .broadcast ∨
      op.state = .confirmed) : ∃ tx, Sealed D op tx := by
  unfold Shape at shape
  rcases state with state | state | state | state <;> rwa [state] at shape

theorem Sealed.unique {tx' : SignedTx} (sealed_ : Sealed D op tx)
    (signed : op.signedTx = some tx') :
    tx' = tx := Option.some.inj (signed.symm.trans sealed_.signedTx)

/-- A write that leaves the four envelope columns alone. -/
structure Sets.KeepsEnvelope (sets : Sets) : Prop where
  unsignedTx : sets.unsignedTx = none
  txid : sets.txid = none
  txExpiration : sets.txExpiration = none
  signedTx : sets.signedTx = none

theorem Sealed.kept (sealed_ : Sealed D op tx) (req : CasRequest) (now : Int)
    (keeps : Sets.KeepsEnvelope req.sets) : Sealed D (casRow now req op) tx :=
  sealed_.congr (by simp) (by simp) (by simp [keeps.unsignedTx]) (by simp [keeps.txid])
    (by simp [keeps.txExpiration]) (by simp [keeps.signedTx])

theorem Bare.kept (bare : Bare op) (req : CasRequest) (now : Int)
    (keeps : Sets.KeepsEnvelope req.sets) : Bare (casRow now req op) :=
  ⟨by simp [keeps.unsignedTx, bare.unsignedTx], by simp [keeps.txid, bare.txid],
    by simp [keeps.txExpiration, bare.txExpiration], by simp [keeps.signedTx, bare.signedTx]⟩

/-- A rebuild leaves no envelope. -/
theorem retire_bare (renew : Option Seconds) (op : Operation) (reason : String) (detail : Detail)
    (now : Int) (worker : String) :
    Bare (casRow now (snapshotRequest renew op .signing worker (retireSets op reason) detail) op) :=
  ⟨by simp [snapshotRequest, retireSets], by simp [snapshotRequest, retireSets],
    by simp [snapshotRequest, retireSets], by simp [snapshotRequest, retireSets]⟩

variable {toState : OpState} {sets : Sets} {detail : Detail}

/-- Every write leaves the artefacts its target state promises. -/
theorem Write.shape (write : Write D p t op toState sets detail) (shape : Shape D op)
    (renew : Option Seconds) (now : Int) (worker : String) :
    Shape D (casRow now (snapshotRequest renew op toState worker sets detail) op) := by
  have idle : op.state = .requested ∨ op.state = .validated → Bare op ∧ op.attempts = 0 := by
    unfold Shape at shape
    rintro (state | state) <;> rwa [state] at shape
  have unsigned : op.state = .signing → op.signedTx = none ∧ (Bare op ∨ ∃ u, Built D op u) := by
    unfold Shape at shape
    intro state
    rwa [state] at shape
  simp only [Shape, MemoryStore.casRow_state, snapshotRequest]
  cases write with
  | reject state reason =>
      obtain ⟨bare, attempts⟩ := idle (.inl state)
      exact ⟨bare.kept _ now ⟨rfl, rfl, rfl, rfl⟩, by simpa using attempts⟩
  | validate state =>
      obtain ⟨bare, attempts⟩ := idle (.inl state)
      exact ⟨bare.kept _ now ⟨rfl, rfl, rfl, rfl⟩, by simpa using attempts⟩
  | startSigning state =>
      obtain ⟨bare, _⟩ := idle (.inr state)
      have kept := bare.kept (snapshotRequest renew op .signing worker {} {}) now
        ⟨rfl, rfl, rfl, rfl⟩
      exact ⟨kept.signedTx, .inl kept⟩
  | giveUp state spent reason => exact .inl (by simp [(unsigned state).1])
  | build state left ref now' clock =>
      refine ⟨by simp, .inr ⟨D.envelope op ref now', ⟨⟨ref, now', ?_⟩, ?_, ?_, ?_⟩⟩⟩
      · exact (envelope_congr (by simp) (by simp)).symm
      all_goals simp
  | sign state u built =>
      refine ⟨_, ⟨u, built.congr ?_ ?_ ?_ ?_ ?_, rfl⟩, ?_⟩
      all_goals simp
  | dropUnsent state tx signed now' clock late reason evidence =>
      have bare := retire_bare renew op reason (retireDetail op reason evidence) now worker
      exact ⟨bare.signedTx, .inl bare⟩
  | writeAhead state tx signed =>
      obtain ⟨tx', sealed_⟩ := shape.sealed (.inl state)
      exact ⟨tx', sealed_.kept _ now ⟨rfl, rfl, rfl, rfl⟩⟩
  | accepted state tx signed recorded now' code =>
      obtain ⟨tx', sealed_⟩ := shape.sealed (.inr (.inl state))
      exact ⟨tx', sealed_.kept _ now ⟨rfl, rfl, rfl, rfl⟩⟩
  | hardReject state tx signed result hard answer reason =>
      obtain ⟨tx', sealed_⟩ := shape.sealed (.inr (.inl state))
      exact .inr ⟨tx', sealed_.kept _ now ⟨rfl, rfl, rfl, rfl⟩⟩
  | noted state tx signed result soft answer error =>
      obtain ⟨tx', sealed_⟩ := shape.sealed (.inr (.inl state))
      exact ⟨tx', sealed_.kept _ now ⟨rfl, rfl, rfl, rfl⟩⟩
  | found state tx signed recorded now' value =>
      obtain ⟨tx', sealed_⟩ := shape.sealed (.inr (.inl state))
      exact ⟨tx', sealed_.kept _ now ⟨rfl, rfl, rfl, rfl⟩⟩
  | retire state tx signed solidTime solidBlock audited deadline passed unmined reason =>
      have bare := retire_bare renew op reason (retireDetail op reason (.death solidTime
        solidBlock tx.expiration D.cfg.expirationSafetySeconds "unknown")) now worker
      exact ⟨bare.signedTx, .inl bare⟩
  | confirm state tx signed rec recorded block included success solid now' =>
      obtain ⟨tx', sealed_⟩ := shape.sealed (.inr (.inr (.inl state)))
      exact ⟨tx', sealed_.kept _ now ⟨rfl, rfl, rfl, rfl⟩⟩
  | reverted state tx signed rec recorded block included receipt solid =>
      obtain ⟨tx', sealed_⟩ := shape.sealed (.inr (.inr (.inl state)))
      exact .inr ⟨tx', sealed_.kept _ now ⟨rfl, rfl, rfl, rfl⟩⟩
  | breadcrumb live =>
      have kept : Shape D (casRow now (snapshotRequest renew op op.state worker
          { lastError := some (some "handler exception (see logs)") } {}) op) := by
        apply shape.congr <;> simp [snapshotRequest]
      simpa only [Shape, MemoryStore.casRow_state, snapshotRequest] using kept

/-- The row and facts a committed write leaves behind. -/
theorem Write.facts (write : Write D p t op toState sets detail) (facts : RowFacts D p op)
    (renew : Option Seconds) (choice : Option BroadcastCode) (worker : String) {w' : World}
    (clock : w'.now = p.world.now) (node : w'.node = p.world.node) :
    RowFacts D (p.log (.served t choice (.cas (snapshotRequest renew op toState worker sets detail))
        (.ok (some (casRow p.world.now (snapshotRequest renew op toState worker sets detail) op)))
        p.world w'))
      (casRow p.world.now (snapshotRequest renew op toState worker sets detail) op) := by
  refine ⟨write.shape facts.shape renew _ worker, ⟨_, MemoryStore.casRow_updatedAt _ _ _, ?_⟩,
    ?_, ?_, ?_, ?_⟩
  · exact fun _ => clock.ge
  · -- the bytes were written ahead before, or by this very write
    intro sent tx signed
    simp only [MemoryStore.casRow_state, snapshotRequest] at sent
    rw [MemoryStore.casRow_operationId]
    have before : ∀ state : OpState.sent op.state = true, sets.signedTx = none →
        WroteAhead p op.operationId tx := by
      intro state kept
      refine facts.written state tx ?_
      simpa [snapshotRequest, kept] using signed
    cases write with
    | writeAhead state tx' signed' =>
        have same : tx' = tx := by
          have : op.signedTx = some tx := by simpa [snapshotRequest] using signed
          exact Option.some.inj (signed'.symm.trans this)
        subst same
        exact ⟨_, List.mem_cons_self, _, _, rfl, rfl, state, rfl, rfl, by simpa using signed⟩
    | accepted state | noted state | found state | confirm state =>
        exact (before (by rw [state]; rfl) rfl).log
    | breadcrumb => exact (before sent rfl).log
    | reject | validate | startSigning | giveUp | build | sign | dropUnsent | hardReject |
      retire | reverted => cases sent
  · intro taken tx signed
    simp only [MemoryStore.casRow_state, snapshotRequest] at taken
    rw [Point.log_world, Label.after, node]
    cases write with
    | accepted state tx' signed' recorded | found state tx' signed' recorded =>
        have : op.signedTx = some tx := by simpa [snapshotRequest] using signed
        cases signed'.symm.trans this
        exact recorded
    | confirm state tx' signed' rec recorded =>
        have : op.signedTx = some tx := by simpa [snapshotRequest] using signed
        cases signed'.symm.trans this
        exact ⟨rec, recorded⟩
    | breadcrumb => exact facts.recorded taken tx (by simpa [snapshotRequest] using signed)
    | reject | validate | startSigning | giveUp | build | sign | dropUnsent | writeAhead |
      hardReject | noted | retire | reverted => cases taken
  · intro state tx signed
    simp only [MemoryStore.casRow_state, snapshotRequest] at state
    rw [Point.log_world, Label.after, node]
    cases write with
    | confirm _ tx' signed' rec recorded block included success =>
        have : op.signedTx = some tx := by simpa [snapshotRequest] using signed
        cases signed'.symm.trans this
        exact ⟨rec, block, recorded, included, success⟩
    | breadcrumb => exact facts.confirmed state tx (by simpa [snapshotRequest] using signed)
    | reject | validate | startSigning | giveUp | build | sign | dropUnsent | writeAhead |
      accepted | hardReject | noted | found | retire | reverted => cases state
  · intro state tx signed
    simp only [MemoryStore.casRow_state, snapshotRequest] at state
    rw [Point.log_world, Label.after, node]
    cases write with
    | giveUp signing =>
        -- nothing was signed, so there is nothing to account for
        have shape := facts.shape
        unfold Shape at shape
        rw [signing] at shape
        simp [snapshotRequest, shape.1] at signed
    | hardReject _ tx' signed' result hard answer =>
        have : op.signedTx = some tx := by simpa [snapshotRequest] using signed
        cases signed'.symm.trans this
        obtain ⟨step, member, answered⟩ := answer
        exact .inl ⟨step, List.mem_cons_of_mem _ member, result, answered, hard⟩
    | reverted _ tx' signed' rec recorded block included receipt =>
        have : op.signedTx = some tx := by simpa [snapshotRequest] using signed
        cases signed'.symm.trans this
        exact .inr ⟨rec, block, recorded, included, receipt⟩
    | breadcrumb live => rw [state] at live; cases live
    | reject | validate | startSigning | build | sign | dropUnsent | writeAhead |
      accepted | noted | found | retire | confirm => cases state

end Writes

/-! ## Snapshots survive the others -/

section Snapshots

variable {D : Deployment} {p : Moment} {t : Nat} {op : Operation} {w' : World}

/-- Acts only add rows. -/
theorem act_row {action : Act} {id : UUID} {row : Operation}
    (moved : D.act action p.world = some w') (found : p.world.store.ops.get? id = some row) :
    w'.store.ops.get? id = some row := by
  cases action with
  | submit payload =>
      cases moved
      rcases submitWithdrawal_cases D.sha256 D.cfg p.world.store p.world.now payload with
        ⟨e, _, same⟩ | ⟨op, existing, _, _, same⟩ | ⟨op, _, absent, inserted⟩
      · simpa only [Deployment.submit, same] using found
      · simpa only [Deployment.submit, same] using found
      · simp only [Deployment.submit, inserted]
        rw [MemoryStore.insertRow_get?, if_neg]
        · exact found
        · rintro rfl
          rw [absent] at found
          cases found
  | advance delta => obtain ⟨rfl, _⟩ := act_advance moved; exact found
  | produceBlocks | script | arm => cases moved; exact found

/-- The row a call writes to. -/
def writesTo : Call → Option UUID
  | .cas req => some req.operationId
  | .release id _ => some id
  | _ => none

/-- The call went through under this claim. -/
def WroteUnder (id : UUID) (token : Nat) : (call : Call) → Reply call → Prop
  | .cas _, .ok (some row) => row.operationId = id ∧ row.fencingToken = token
  | .release id' token', _ => id' = id ∧ token' = token
  | _, _ => False

/-- After an allowed call a row is as it was, or claimed anew because nobody held it, or written
under a claim of the caller.  In season no claim breaks off. -/
theorem serve_row {thread : Nat} {choice : Option BroadcastCode} {call : Call} {reply : Reply call}
    (inv : Inv D p) (season : D.InSeason p.world.now) (allowed : Allowed D thread p call)
    (moved : D.serve choice call p.world = some (reply, w'))
    (found : p.world.store.ops.get? op.operationId = some op) :
    w'.store.ops.get? op.operationId = some op ∨
    (∃ row, w'.store.ops.get? op.operationId = some row ∧ op.fencingToken < row.fencingToken ∧
      MemoryStore.leased p.world.now op = false) ∨
    (Claimed p thread op.operationId op.fencingToken ∧ writesTo call = some op.operationId ∧
      WroteUnder op.operationId op.fencingToken call reply) := by
  cases call with
  | claim states limit worker lease =>
      obtain ⟨_, rfl⟩ := serve_claim moved
      rcases p.world.store.claim_row p.world.now states limit worker lease op.operationId with
        ⟨same, _⟩ | ⟨row, _, _, found', _, free, _, _, _, after⟩ | ⟨_, _, _, _, beyond, _⟩
      · exact .inl (same.trans found)
      · cases found.symm.trans found'
        exact .inr (.inl ⟨_, after, Nat.lt_succ_self _, free⟩)
      · rw [allowed.2.2] at beyond
        simp [Deployment.InSeason, beyond] at season
  | cas req =>
      obtain ⟨rfl, rfl⟩ := serve_cas moved
      rcases allowed_cas inv allowed choice with same | ⟨commit, rfl, _, rfl, same⟩
      · exact .inl (by simpa only [same] using found)
      · by_cases mine : op.operationId = commit.op.operationId
        · obtain rfl := Option.some.inj (found.symm.trans (mine ▸ commit.found))
          refine .inr (.inr ⟨commit.claimed, rfl, ?_⟩)
          rw [same]
          exact ⟨MemoryStore.casRow_operationId _ _ _, MemoryStore.casRow_fencingToken _ _ _⟩
        · refine .inl ?_
          simp only [same, Commit.after]
          rw [MemoryStore.commit_get?, if_neg mine]
          exact found
  | release id token =>
      cases serve_release moved
      rcases p.world.store.release_cases p.world.now id token with ⟨same, _⟩ |
        ⟨row, found', owned, same⟩
      · exact .inl (by simpa only [same] using found)
      · have key := p.world.store.keyed _ _ found'
        by_cases mine : op.operationId = id
        · subst mine
          rw [found] at found'
          cases found'
          obtain ⟨op', knows, _, same_id, same_token⟩ := allowed
          refine .inr (.inr ⟨?_, rfl, rfl, owned.symm⟩)
          have claimed := knows.claimed
          rwa [← same_id, ← same_token, ← owned] at claimed
        · refine .inl ?_
          simp only [same]
          rw [MemoryStore.put_get?, MemoryStore.releaseRow_operationId, key, if_neg mine]
          exact found
  | broadcast id token tx worker =>
      rcases broadcast_cases moved with ⟨_, _, rfl⟩ | ⟨_, _, _, _, _, rfl⟩ <;> exact .inl found
  | now | refBlock | findTx | solidNow | solidBlock | here => cases moved; exact .inl found

/-- A snapshot stays known through a step that leaves its row alone or reclaims it. -/
theorem Knows.advance {step : Step} (knows : Knows D t op p) (inv : Inv D p)
    (before : step.before = p.world) (moved : Advances D p.world step.after)
    (kept : p.world.store.ops.get? op.operationId = some op →
      step.after.store.ops.get? op.operationId = some op ∨
      ∃ row, step.after.store.ops.get? op.operationId = some row ∧
        op.fencingToken < row.fencingToken) : Knows D t op (p.log step) := by
  refine ⟨knows.claimed.log, ?_, knows.facts.advance inv.chain before moved⟩
  obtain ⟨row, found, up, same⟩ := knows.row
  rcases Nat.eq_or_lt_of_le up with equal | newer
  · have := same equal.symm
    subst this
    rcases kept found with still | ⟨row', found', newer⟩
    · exact ⟨row, still, le_refl _, fun _ => rfl⟩
    · exact ⟨row', found', newer.le, fun clash => by omega⟩
  · obtain ⟨row', found', up', _⟩ := moved.store.grows.rows _ _ found
    exact ⟨row', found', by omega, fun clash => by omega⟩

/-- Nobody else can touch a row under a token this thread claimed. -/
theorem Knows.others : Stable D.machine (discipline D) t (Knows D t op) := by
  intro p p' step _ knows
  cases step with
  | acted action world moved inv =>
      exact knows.advance inv rfl (act_advances moved) fun found => .inl (act_row moved found)
  | served thread choice call reply world other inv allowed moved =>
      refine knows.advance inv rfl (serve_advances inv allowed moved) fun found => ?_
      rcases serve_row inv (inv.season _ _ _ knows.claimed) allowed moved found with
        same | ⟨row, after, newer, _⟩ | ⟨claimed, _⟩
      · exact .inl same
      · exact .inr ⟨row, after, newer⟩
      · exact absurd (inv.unique _ _ _ _ claimed knows.claimed) other

/-- The thread's own calls leave a snapshot alone unless they write to its row. -/
theorem Knows.own {choice : Option BroadcastCode} {call : Call} {reply : Reply call}
    (knows : Knows D t op p) (inv : Inv D p) (allowed : Allowed D t p call)
    (moved : D.serve choice call p.world = some (reply, w'))
    (elsewhere : writesTo call ≠ some op.operationId) :
    Knows D t op (p.log (.served t choice call reply p.world w')) := by
  refine knows.advance inv rfl (serve_advances inv allowed moved) fun found => ?_
  rcases serve_row inv (inv.season _ _ _ knows.claimed) allowed moved found with
    same | ⟨row, after, newer, _⟩ | ⟨_, here, _⟩
  · exact .inl same
  · exact .inr ⟨row, after, newer⟩
  · exact absurd here elsewhere

end Snapshots

/-! ## The invariant is kept -/

section Kept

variable {D : Deployment} {p : Moment} {row : Operation} {w' : World}

/-- Claiming and releasing leave the artefacts alone. -/
theorem RowFacts.restamp (facts : RowFacts D p row) (claimedBy : Option String)
    (leaseExpiresAt : Option Int) (fencingToken : Nat) {updatedAt : Option Int}
    (stamp : updatedAt = row.updatedAt ∨ updatedAt = some p.world.now) :
    RowFacts D p { row with
      claimedBy := claimedBy
      leaseExpiresAt := leaseExpiresAt
      fencingToken := fencingToken
      updatedAt := updatedAt } := by
  refine ⟨facts.shape.congr rfl rfl rfl rfl rfl rfl rfl rfl, ?_, facts.written, facts.recorded,
    facts.confirmed, facts.failed⟩
  rcases stamp with rfl | rfl
  · exact facts.stamped
  · exact ⟨_, rfl, fun _ => le_refl _⟩

/-- A submitted row starts without artefacts. -/
theorem validated_facts {payload : Payload} {op : Operation}
    (valid : validated D.sha256 D.cfg payload = .ok op) :
    RowFacts D p { op with createdAt := some p.world.now, updatedAt := some p.world.now } := by
  have same := (validated_row valid).row
  rw [same]
  refine ⟨⟨⟨rfl, rfl, rfl, rfl⟩, rfl⟩, ⟨_, rfl, fun _ => le_refl _⟩, ?_, ?_, ?_, ?_⟩ <;>
    exact fun state => by cases state

/-- Whatever a row became, it has its facts. -/
theorem Became.facts {step : Step} (became : Became D p step row) (inv : Inv D p)
    (before : step.before = p.world) (moved : Advances D p.world step.after) :
    RowFacts D (p.log step) row := by
  cases became with
  | submitted payload op w' was valid absent same stored =>
      rw [same]
      exact (validated_facts valid).advance inv.chain before moved
  | kept old claimedBy leaseExpiresAt token updatedAt found same stamp log =>
      rw [same]
      exact ((inv.rows _ old found).restamp claimedBy leaseExpiresAt token stamp).advance
        inv.chain before moved
  | written commit was same =>
      subst was
      rw [same]
      exact Write.facts commit.write (inv.rows _ _ commit.found) commit.renew commit.choice
        commit.worker rfl rfl

theorem inv_acted {action : Act} (inv : Inv D p) (moved : D.act action p.world = some w') :
    Inv D (p.log (.acted action p.world w')) := by
  have advances := act_advances moved
  refine ⟨(inv.chain.evolution advances.node).1, fun id row found => ?_, ?_, ?_, ?_⟩
  · exact (act_became moved found).facts inv rfl advances
  · intro t id token claimed
    obtain ⟨row, found, up⟩ := inv.backed t id token (claimed.of_log rfl)
    exact ⟨row, act_row moved found, up⟩
  · exact fun t t' id token left right =>
      inv.unique t t' id token (left.of_log rfl) (right.of_log rfl)
  · exact fun t id token claimed => act_season moved (inv.season t id token (claimed.of_log rfl))

/-- A claim is backed by the row it left, its token is new, and its lease ends within the
calendar. -/
theorem inv_claimed {thread : Nat} {choice : Option BroadcastCode} {states : List OpState}
    {limit : Nat} {worker : String} {lease : Seconds} {reply : Except StoreError (List Operation)}
    (moved : D.serve choice (.claim states limit worker lease) p.world = some (reply, w'))
    {t : Nat} {id : UUID} {token : Nat}
    (claimed : Claimed (p.log (.served thread choice (.claim states limit worker lease) reply
      p.world w')) t id token) :
    Claimed p t id token ∨ (t = thread ∧ (lease.after p.world.now).isSome = true ∧
      ∃ row, w'.store.ops.get? id = some row ∧ row.fencingToken = token ∧
        ∀ row', p.world.store.ops.get? id = some row' → row'.fencingToken < token) := by
  obtain ⟨step, member, mine, op, claim, rfl, rfl⟩ := claimed
  rcases List.mem_cons.mp member with rfl | older
  · right
    obtain ⟨answer, rfl⟩ := serve_claim moved
    rcases reply with e | ops
    · cases claim
    obtain ⟨⟨row, expiry, found, _, _, lands, taken⟩, stored⟩ :=
      MemoryStore.mem_claim answer.symm claim
    refine ⟨(Option.some.inj mine).symm, by rw [lands]; rfl, op, stored, rfl, ?_⟩
    intro row' found'
    cases found.symm.trans found'
    rw [taken]
    exact Nat.lt_succ_self _
  · exact .inl ⟨step, older, mine, op, claim, rfl, rfl⟩

theorem inv_served {thread : Nat} {choice : Option BroadcastCode} {call : Call}
    {reply : Reply call} (inv : Inv D p) (allowed : Allowed D thread p call)
    (moved : D.serve choice call p.world = some (reply, w')) :
    Inv D (p.log (.served thread choice call reply p.world w')) := by
  have advances := serve_advances inv allowed moved
  have grown := advances.store.grows
  have backed : ∀ t id token, Claimed p t id token →
      ∃ row, w'.store.ops.get? id = some row ∧ token ≤ row.fencingToken := by
    intro t id token claimed
    obtain ⟨row, found, up⟩ := inv.backed t id token claimed
    obtain ⟨row', found', up', _⟩ := grown.rows id row found
    exact ⟨row', found', up.trans up'⟩
  refine ⟨(inv.chain.evolution advances.node).1,
    fun id row found => (serve_became inv allowed moved found).facts inv rfl advances, ?_, ?_, ?_⟩
  · intro t id token claimed
    cases call with
    | claim states limit worker lease =>
        rcases inv_claimed moved claimed with old | ⟨_, _, row, found, rfl, _⟩
        · exact backed t id token old
        · exact ⟨row, found, le_refl _⟩
    | cas | release | now | refBlock | broadcast | findTx | solidNow | solidBlock | here =>
        exact backed t id token (claimed.of_log rfl)
  · intro t t' id token left right
    cases call with
    | claim states limit worker lease =>
        -- an old claim is backed by the old row, a new one exceeds it
        have clash : ∀ {t : Nat}, Claimed p t id token →
            ¬∀ row', p.world.store.ops.get? id = some row' → row'.fencingToken < token := by
          intro t old fresh
          obtain ⟨row, found, up⟩ := inv.backed t id token old
          have := fresh row found
          omega
        rcases inv_claimed moved left with old | ⟨same, _, _, _, _, fresh⟩ <;>
          rcases inv_claimed moved right with old' | ⟨same', _, _, _, _, fresh'⟩
        · exact inv.unique t t' id token old old'
        · exact absurd fresh' (clash old)
        · exact absurd fresh (clash old')
        · exact same.trans same'.symm
    | cas | release | now | refBlock | broadcast | findTx | solidNow | solidBlock | here =>
        exact inv.unique t t' id token (left.of_log rfl) (right.of_log rfl)
  · intro t id token claimed
    rw [Point.log_world, Label.after_served, (serve_evolves moved).1]
    cases call with
    | claim states limit worker lease =>
        rcases inv_claimed moved claimed with old | ⟨_, lands, _⟩
        · exact inv.season t id token old
        · rwa [allowed.2.2] at lands
    | cas | release | now | refBlock | broadcast | findTx | solidNow | solidBlock | here =>
        exact inv.season t id token (claimed.of_log rfl)

theorem inv_fresh (now solidityLag inclusionDelay : Int) (nodeSigner : MockSigner) :
    Inv D ⟨.fresh now solidityLag inclusionDelay nodeSigner, []⟩ := by
  refine ⟨MockTronNode.genesis_chainOk _ _ _ _, fun id row found => ?_, ?_, ?_, ?_⟩
  · simp [World.fresh, MemoryStore.empty] at found
  · rintro t id token ⟨_, member, _⟩
    cases member
  · rintro t t' id token ⟨_, member, _⟩
    cases member
  · rintro t id token ⟨_, member, _⟩
    cases member

end Kept

end Sluice.Protocol
