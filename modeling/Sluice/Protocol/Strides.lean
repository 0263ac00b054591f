/-
# Protocol.Strides -- everything one allowed step can do

One step of the system changes the store by one `Changes` and the chain by a run of
`Evolves` steps, both at the instant before the step (`Advances`).  An allowed write commits as
one of the list (`Commit`), or is turned down and leaves everything (`allowed_cas`): it is never
illegal, and the lease it renews ends within the calendar.  So a single row has three fates
(`Became`): it was just submitted, it kept all its artefacts while its claim may have moved, or
it is what a commit left.  A single record of the node has two: it was there, or it is what an
allowed send carried.

`Stride` bundles these; every invariant after this module is proved against it, and none
looks at a store or node method again.
-/
import Sluice.Protocol.Discipline

namespace Sluice.Protocol

open Sluice.Theory Sluice.Kernel
open MemoryStore (Changes casRow claimRow overflows releaseRow identity)
open MockTronNode (ChainOk Evolves)

set_option autoImplicit false

/-! ## One step of the world -/

/-- What any step does to store and chain. -/
structure Advances (D : Deployment) (w w' : World) : Prop where
  store : Changes w.now w.store w'.store
  node : Relation.ReflTransGen (Evolves D.sha256 w.now) w.node w'.node

section Steps

variable {D : Deployment} {w w' : World}

theorem submit_changes (payload : Payload) : Changes w.now w.store (D.submit w payload).2 := by
  rcases submitWithdrawal_cases D.sha256 D.cfg w.store w.now payload with
    ⟨e, _, same⟩ | ⟨op, existing, _, _, same⟩ | ⟨op, valid, absent, inserted⟩
  · rw [Deployment.submit, same]; exact .still
  · rw [Deployment.submit, same]; exact .still
  · rw [Deployment.submit, inserted]
    have row := (validated_row valid).row
    exact .insert op (by rw [row]) absent

/-- The clock stays within the calendar, and clear of its end by a lease if it was. -/
theorem act_advance {delta : Int} (moved : D.act (.advance delta) w = some w') :
    w' = { w with now := w.now + delta } ∧ IsDatetime (w.now + delta) ∧
      (D.InSeason w.now → D.InSeason (w.now + delta)) := by
  simp only [Deployment.act] at moved
  split at moved
  · rename_i within
    exact ⟨(Option.some.inj moved).symm, within⟩
  · cases moved

theorem act_advances {action : Act} (moved : D.act action w = some w') : Advances D w w' := by
  cases action with
  | submit payload => cases moved; exact ⟨submit_changes payload, .refl⟩
  | advance delta => obtain ⟨rfl, _⟩ := act_advance moved; exact ⟨.still, .refl⟩
  | produceBlocks n =>
      cases moved
      exact ⟨.still, MockTronNode.produceBlocks_evolves D.sha256 w.now w.node n⟩
  | script channel faults =>
      cases moved
      exact ⟨.still, .single (MockTronNode.script_evolves D.sha256 w.now w.node faults channel)⟩
  | arm point times => cases moved; exact ⟨.still, .refl⟩

theorem act_season {action : Act} (moved : D.act action w = some w') (season : D.InSeason w.now) :
    D.InSeason w'.now := by
  cases action with
  | advance delta =>
      obtain ⟨rfl, _, keeps⟩ := act_advance moved
      exact keeps season
  | submit | produceBlocks | script | arm => cases moved; exact season

theorem serve_claim {choice : Option BroadcastCode} {states : List OpState} {limit : Nat}
    {worker : String} {lease : Seconds} {reply : Except StoreError (List Operation)}
    (moved : D.serve choice (.claim states limit worker lease) w = some (reply, w')) :
    reply = (w.store.claim w.now states limit worker lease).1 ∧
      w' = { w with store := (w.store.claim w.now states limit worker lease).2 } := by
  simp only [Deployment.serve, Option.some.injEq, Prod.mk.injEq] at moved
  exact ⟨moved.1.symm, moved.2.symm⟩

theorem serve_cas {choice : Option BroadcastCode} {req : CasRequest}
    {reply : Except StoreError (Option Operation)}
    (moved : D.serve choice (.cas req) w = some (reply, w')) :
    reply = (w.store.cas w.now req).1 ∧ w' = { w with store := (w.store.cas w.now req).2 } := by
  simp only [Deployment.serve, Option.some.injEq, Prod.mk.injEq] at moved
  exact ⟨moved.1.symm, moved.2.symm⟩

theorem serve_release {choice : Option BroadcastCode} {id : UUID} {token : Nat} {reply : Unit}
    (moved : D.serve choice (.release id token) w = some (reply, w')) :
    w' = { w with store := w.store.release w.now id token } := by
  simp only [Deployment.serve, Option.some.injEq, Prod.mk.injEq] at moved
  exact moved.2.symm

theorem serve_findTx {choice : Option BroadcastCode} {txid : Hex}
    {reply : Except NodeTimeout TxStatus}
    (moved : D.serve choice (.findTx txid) w = some (reply, w')) :
    w' = { w with node := { w.node with queryFaults := w.node.queryFaults.tail } } ∧
      ((∃ timeout, reply = .error timeout) ∨
        reply = .ok (w.node.statusOf w.now (w.node.txs.get? txid))) := by
  obtain ⟨after, answer⟩ := MockTronNode.findTx_cases w.node w.now txid
  simp only [Deployment.serve, Option.some.injEq, Prod.mk.injEq] at moved
  obtain ⟨rfl, rfl⟩ := moved
  exact ⟨by rw [after], answer⟩

/-- A send is processed or, by a declining node, turned down. -/
theorem broadcast_cases {choice : Option BroadcastCode} {tx : SignedTx} {worker : String}
    {answer : Except SendError BroadcastResult}
    (moved : D.broadcast choice tx worker w = some (answer, w')) :
    (choice = none ∧ answer = (w.node.broadcast D.sha256 w.now tx (some worker)).1 ∧
      w' = { w with node := (w.node.broadcast D.sha256 w.now tx (some worker)).2 }) ∨
    (∃ code, choice = some code ∧ D.declining = true ∧ code.accepted = false ∧
      answer = .ok ⟨code, ""⟩ ∧
      w' = { w with node := (w.node.decline tx (some worker) code).2 }) := by
  cases choice with
  | none =>
      cases moved
      exact .inl ⟨rfl, rfl, rfl⟩
  | some code =>
      simp only [Deployment.broadcast] at moved
      split at moved
      · rename_i declines
        cases moved
        simp only [Bool.and_eq_true, Bool.not_eq_true'] at declines
        exact .inr ⟨code, rfl, declines.1, declines.2, rfl, rfl⟩
      · cases moved

/-- A call leaves the clock, and does to the chain what the chain does. -/
theorem serve_evolves {choice : Option BroadcastCode} {call : Call} {reply : Reply call}
    (moved : D.serve choice call w = some (reply, w')) :
    w'.now = w.now ∧ Relation.ReflTransGen (Evolves D.sha256 w.now) w.node w'.node := by
  cases call with
  | broadcast id token tx worker =>
      rcases broadcast_cases moved with ⟨_, _, rfl⟩ | ⟨code, _, _, _, _, rfl⟩
      · exact ⟨rfl, .single (MockTronNode.broadcast_evolves D.sha256 w.now w.node tx _)⟩
      · exact ⟨rfl, .single (MockTronNode.decline_evolves D.sha256 w.now w.node tx _ code)⟩
  | findTx txid =>
      cases moved
      exact ⟨rfl, .single (MockTronNode.findTx_evolves D.sha256 w.now w.node txid)⟩
  | claim => obtain ⟨_, rfl⟩ := serve_claim moved; exact ⟨rfl, .refl⟩
  | cas => obtain ⟨_, rfl⟩ := serve_cas moved; exact ⟨rfl, .refl⟩
  | release => cases serve_release moved; exact ⟨rfl, .refl⟩
  | now | refBlock | solidNow | solidBlock | here => cases moved; exact ⟨rfl, .refl⟩

end Steps

/-! ## One write -/

/-- A listed write that commits at `p`: its writer's snapshot is the row. -/
structure Commit (D : Deployment) (p : Moment) where
  thread : Nat
  choice : Option BroadcastCode
  op : Operation
  renew : Option Seconds
  toState : OpState
  worker : String
  sets : Sets
  detail : Detail
  found : p.world.store.ops.get? op.operationId = some op
  claimed : Claimed p thread op.operationId op.fencingToken
  write : Write D p thread op toState sets detail
  renews : Renews D op renew toState
  season : D.InSeason p.world.now

namespace Commit

variable {D : Deployment} {p : Moment} (commit : Commit D p)

def req : CasRequest :=
  snapshotRequest commit.renew commit.op commit.toState commit.worker commit.sets commit.detail

/-- The row it leaves. -/
def row : Operation := casRow p.world.now commit.req commit.op

def after : World :=
  { p.world with store := p.world.store.commit p.world.now commit.req commit.op }

def step : Step :=
  .served commit.thread commit.choice (.cas commit.req) (.ok (some commit.row)) p.world commit.after

end Commit

section Writes

variable {D : Deployment} {p : Moment}

/-- A lease that is renewed in season ends within the calendar. -/
theorem Renews.within {op : Operation} {renew : Option Seconds} {toState : OpState}
    (renews : Renews D op renew toState) (season : D.InSeason p.world.now) (worker : String)
    (sets : Sets) (detail : Detail) :
    overflows p.world.now (snapshotRequest renew op toState worker sets detail) = false := by
  rcases renews with rfl | ⟨rfl, _⟩
  · obtain ⟨expiry, lands⟩ := Option.isSome_iff_exists.mp season
    simp [overflows, snapshotRequest, lands]
  · rfl

/-- Everything an allowed write can do. -/
theorem allowed_cas {thread : Nat} {req : CasRequest} (inv : Inv D p)
    (allowed : Allowed D thread p (.cas req)) (choice : Option BroadcastCode) :
    p.world.store.cas p.world.now req = (.ok none, p.world.store) ∨
    ∃ commit : Commit D p, commit.thread = thread ∧ commit.choice = choice ∧ commit.req = req ∧
      p.world.store.cas p.world.now req = (.ok (some commit.row), commit.after.store) := by
  rcases allowed with ⟨op, renew, toState, worker, sets, detail, knows, write, renews, rfl⟩ |
    ⟨op, knows, id, token, moved, legal⟩
  · have season := inv.season _ _ _ knows.claimed
    rcases p.world.store.cas_cases p.world.now
      (snapshotRequest renew op toState worker sets detail) with ⟨illegal, _⟩ | ⟨_, same, _⟩ |
      ⟨_, row, found, token, _, _, ⟨beyond, _⟩ | ⟨_, same⟩⟩
    · cases write.legal.symm.trans illegal
    · exact .inl same
    · cases (renews.within season worker sets detail).symm.trans beyond
    · -- the fencing check passed, so the snapshot is the row
      obtain ⟨current, present, _, snapshot⟩ := knows.row
      cases found.symm.trans present
      obtain rfl := snapshot token
      exact .inr ⟨⟨thread, choice, _, renew, toState, worker, sets, detail, found, knows.claimed,
        write, renews, season⟩, rfl, rfl, rfl, same⟩
  · rcases p.world.store.cas_cases p.world.now req with ⟨illegal, _⟩ | ⟨_, same, _⟩ |
      ⟨_, row, found, token', state, _⟩
    · cases legal.symm.trans illegal
    · exact .inl same
    · obtain ⟨current, present, _, snapshot⟩ := knows.row
      rw [id] at found
      cases found.symm.trans present
      obtain rfl := snapshot (token'.trans token)
      exact absurd state.symm moved

theorem Commit.live (commit : Commit D p) : commit.op.state.terminal = false := commit.write.live

theorem Commit.stored (commit : Commit D p) :
    commit.step.after.store.ops.get? commit.op.operationId = some commit.row := by
  simp [Commit.step, Commit.after, Commit.row, MemoryStore.commit_get?]

theorem Commit.within (commit : Commit D p) : overflows p.world.now commit.req = false :=
  commit.renews.within commit.season _ _ _

theorem serve_advances {thread : Nat} {choice : Option BroadcastCode} {call : Call}
    {reply : Reply call} {w' : World} (inv : Inv D p) (allowed : Allowed D thread p call)
    (moved : D.serve choice call p.world = some (reply, w')) : Advances D p.world w' := by
  refine ⟨?_, (serve_evolves moved).2⟩
  cases call with
  | claim states limit worker lease =>
      obtain ⟨_, rfl⟩ := serve_claim moved
      exact .claim states limit worker lease
  | cas req =>
      obtain ⟨_, rfl⟩ := serve_cas moved
      rcases allowed_cas inv allowed choice with same | ⟨commit, _, _, rfl, _⟩
      · rw [same]
        exact .still
      · exact MemoryStore.cas_changes p.world.now p.world.store commit.within
  | release id token =>
      cases serve_release moved
      exact MemoryStore.release_changes p.world.now p.world.store id token
  | broadcast id token tx worker =>
      rcases broadcast_cases moved with ⟨_, _, rfl⟩ | ⟨_, _, _, _, _, rfl⟩ <;> exact .still
  | now | refBlock | findTx | solidNow | solidBlock | here => cases moved; exact .still

end Writes

/-! ## One row -/

/-- How the row after a step came about. -/
inductive Became (D : Deployment) (p : Moment) (step : Step) (row : Operation) : Prop
  | submitted (payload : Payload) (op : Operation) (w' : World)
      (was : step = .acted (.submit payload) p.world w')
      (valid : validated D.sha256 D.cfg payload = .ok op)
      (absent : p.world.store.ops.get? op.operationId = none)
      (same : row = { op with createdAt := some p.world.now, updatedAt := some p.world.now })
      (stored : w'.store = p.world.store.insertRow p.world.now op)
  | kept (old : Operation) (claimedBy : Option String) (leaseExpiresAt : Option Int)
      (fencingToken : Nat) (updatedAt : Option Int)
      (found : p.world.store.ops.get? old.operationId = some old)
      (same : row = { old with
        claimedBy := claimedBy
        leaseExpiresAt := leaseExpiresAt
        fencingToken := fencingToken
        updatedAt := updatedAt })
      (stamp : updatedAt = old.updatedAt ∨ updatedAt = some p.world.now)
      (log : step.after.store.eventsOf old.operationId = p.world.store.eventsOf old.operationId)
      (lease : leaseExpiresAt = old.leaseExpiresAt ∨ leaseExpiresAt = none ∨
        leaseExpiresAt = D.cfg.leaseSeconds.after p.world.now)
      (token : fencingToken = old.fencingToken ∨
        fencingToken = old.fencingToken + 1 ∧ row ∈ claims step)
  | written (commit : Commit D p) (was : step = commit.step) (same : row = commit.row)

section Rows

variable {D : Deployment} {p : Moment} {step : Step} {row : Operation} {w' : World} {id : UUID}

/-- A row that is as it was. -/
theorem Became.still (id : UUID) (found : p.world.store.ops.get? id = some row)
    (log : step.after.store.eventsOf id = p.world.store.eventsOf id) : Became D p step row := by
  have key := p.world.store.keyed id row found
  subst key
  exact .kept row row.claimedBy row.leaseExpiresAt row.fencingToken row.updatedAt found rfl
    (.inl rfl) log (.inl rfl) (.inl rfl)

theorem act_became {action : Act} (moved : D.act action p.world = some w')
    (found : w'.store.ops.get? id = some row) : Became D p (.acted action p.world w') row := by
  cases action with
  | submit payload =>
      cases moved
      rcases submitWithdrawal_cases D.sha256 D.cfg p.world.store p.world.now payload with
        ⟨e, _, same⟩ | ⟨op, existing, _, _, same⟩ | ⟨op, valid, absent, inserted⟩
      · refine .still id ?_ ?_
        · simpa only [Deployment.submit, same] using found
        · simp only [Label.after_acted, Deployment.submit, same]
      · refine .still id ?_ ?_
        · simpa only [Deployment.submit, same] using found
        · simp only [Label.after_acted, Deployment.submit, same]
      · simp only [Deployment.submit, inserted] at found ⊢
        rw [MemoryStore.insertRow_get?] at found
        split at found
        · cases found
          exact .submitted payload op _ rfl valid absent rfl rfl
        · rename_i other
          refine .still id found ?_
          simp [MemoryStore.eventsOf_insertRow, Ne.symm other]
  | advance delta => obtain ⟨rfl, _⟩ := act_advance moved; exact .still id found rfl
  | produceBlocks | script | arm => cases moved; exact .still id found rfl

theorem serve_became {thread : Nat} {choice : Option BroadcastCode} {call : Call}
    {reply : Reply call} (inv : Inv D p) (allowed : Allowed D thread p call)
    (moved : D.serve choice call p.world = some (reply, w'))
    (found : w'.store.ops.get? id = some row) :
    Became D p (.served thread choice call reply p.world w') row := by
  cases call with
  | claim states limit worker lease =>
      obtain ⟨rfl, rfl⟩ := serve_claim moved
      have log := p.world.store.claim_eventsOf p.world.now states limit worker lease id
      rcases p.world.store.claim_row p.world.now states limit worker lease id with
        ⟨same, _⟩ | ⟨old, expiry, ops, found', _, _, lands, answer, member, after⟩ |
        ⟨old, found', _, _, _, _, after⟩
      · exact .still id (same ▸ found) log
      · cases after.symm.trans found
        obtain rfl := p.world.store.keyed id old found'
        refine .kept old _ _ _ _ found' rfl (.inr rfl) log (.inr (.inr ?_)) (.inr ⟨rfl, ?_⟩)
        · rw [← allowed.2.2, lands]
        · rw [answer]
          exact member
      · cases after.symm.trans found
        obtain rfl := p.world.store.keyed id old found'
        exact .kept old _ _ _ _ found' rfl (.inl rfl) log (.inl rfl) (.inl rfl)
  | cas req =>
      obtain ⟨rfl, rfl⟩ := serve_cas moved
      rcases allowed_cas inv allowed choice with same | ⟨commit, rfl, rfl, rfl, same⟩
      · exact .still id (by simpa only [same] using found) (by simp only [Label.after_served, same])
      · simp only [same, Commit.after] at found ⊢
        rw [MemoryStore.commit_get?] at found
        split at found
        · cases found
          exact .written commit rfl rfl
        · rename_i other
          refine .still id found ?_
          simp [MemoryStore.eventsOf_commit, Ne.symm other]
  | release id' token =>
      cases serve_release moved
      rcases p.world.store.release_cases p.world.now id' token with ⟨same, _⟩ |
        ⟨old, found', _, same⟩
      · exact .still id (by simpa only [same] using found) (by simp only [Label.after_served, same])
      · simp only [same] at found ⊢
        rw [MemoryStore.put_get?] at found
        split at found
        · cases found
          have key := p.world.store.keyed _ _ found'
          subst key
          exact .kept old none none old.fencingToken _ found' rfl (.inr rfl) rfl (.inr (.inl rfl))
            (.inl rfl)
        · exact .still id found rfl
  | broadcast driving token tx worker =>
      rcases broadcast_cases moved with ⟨_, _, rfl⟩ | ⟨_, _, _, _, _, rfl⟩ <;>
        exact .still id found rfl
  | now | refBlock | findTx | solidNow | solidBlock | here =>
      cases moved
      exact .still id found rfl

/-- What the trace calls a committed write is one. -/
theorem commit_of_committed {thread : Nat} {choice : Option BroadcastCode} {call : Call}
    {reply : Reply call} {req : CasRequest} (inv : Inv D p) (allowed : Allowed D thread p call)
    (moved : D.serve choice call p.world = some (reply, w'))
    (done : committed (.served thread choice call reply p.world w') = some (req, row)) :
    ∃ commit : Commit D p, .served thread choice call reply p.world w' = commit.step ∧
      req = commit.req ∧ row = commit.row := by
  cases call with
  | cas req' =>
      obtain ⟨rfl, rfl⟩ := serve_cas moved
      rcases allowed_cas inv allowed choice with same | ⟨commit, rfl, rfl, rfl, same⟩
      · simp only [same] at done
        cases done
      · simp only [same] at done ⊢
        cases done
        exact ⟨commit, rfl, rfl, rfl⟩
  | claim | release | now | refBlock | broadcast | findTx | solidNow | solidBlock | here =>
      cases done

end Rows

/-! ## One record -/

/-- How the node's record after a step came about. -/
inductive Held (D : Deployment) (p : Moment) (step : Step) (txid : Hex) (rec : TxRecord) : Prop
  | old (before : TxRecord) (found : p.world.node.txs.get? txid = some before)
      (same : rec.tx = before.tx)
  | accepted (t : Nat) (id : UUID) (token : Nat) (worker : String)
      (reply : Except SendError BroadcastResult) (w' : World)
      (was : step = .served t none (.broadcast id token rec.tx worker) reply p.world w')
      (key : rec.tx.txid = txid) (fresh : p.world.node.txs.get? txid = none)
      (accepts : p.world.node.accepts D.sha256 p.world.now rec.tx = true)
      (good : p.world.node.signer.verify D.sha256 rec.tx = some true)
      (timely : p.world.now < rec.tx.expiration) (claimed : Claimed p t id token)
      (written : WroteAhead p id rec.tx)

section Records

variable {D : Deployment} {p : Moment} {w' : World} {txid : Hex} {rec : TxRecord}

/-- New blocks leave every transaction as it was sent. -/
theorem produceBlocks_record (now : Int) (n : Nat) :
    ∀ {node : MockTronNode}, (node.produceBlocks now n).txs.get? txid = some rec →
      ∃ before, node.txs.get? txid = some before ∧ rec.tx = before.tx := by
  induction n with
  | zero => exact fun found => ⟨rec, found, rfl⟩
  | succ n ih =>
      intro node found
      unfold MockTronNode.produceBlocks at found
      split at found
      on_goal 2 => exact ⟨rec, found, rfl⟩
      obtain ⟨middle, found', same⟩ := ih found
      obtain ⟨before, found'', kept | ⟨_, _, _, kept⟩⟩ :=
        MockTronNode.produceBlock_record_inv now found'
      · exact ⟨before, found'', by rw [same, kept]⟩
      · exact ⟨before, found'', by rw [same, kept]⟩

theorem act_held {action : Act} (moved : D.act action p.world = some w')
    (found : w'.node.txs.get? txid = some rec) : Held D p (.acted action p.world w') txid rec := by
  cases action with
  | produceBlocks n =>
      cases moved
      obtain ⟨before, found', same⟩ := produceBlocks_record p.world.now n found
      exact .old before found' same
  | script channel faults =>
      cases moved
      cases channel <;> exact .old rec found rfl
  | advance delta => obtain ⟨rfl, _⟩ := act_advance moved; exact .old rec found rfl
  | submit | arm => cases moved; exact .old rec found rfl

theorem serve_held {thread : Nat} {choice : Option BroadcastCode} {call : Call}
    {reply : Reply call} (allowed : Allowed D thread p call)
    (moved : D.serve choice call p.world = some (reply, w'))
    (found : w'.node.txs.get? txid = some rec) :
    Held D p (.served thread choice call reply p.world w') txid rec := by
  cases call with
  | broadcast id token tx worker =>
      rcases broadcast_cases moved with ⟨rfl, answer, rfl⟩ | ⟨_, _, _, _, _, rfl⟩
      · have sent := MockTronNode.broadcast_sent D.sha256 p.world.node p.world.now tx (some worker)
        simp only at found
        generalize (p.world.node.broadcast D.sha256 p.world.now tx (some worker)).1 = answer' at *
        generalize (p.world.node.broadcast D.sha256 p.world.now tx (some worker)).2 = node' at *
        cases sent with
        | unprocessed _ _ txs | raised _ txs | badSignature _ txs | expired _ txs
        | duplicate _ txs =>
            exact .old rec (txs ▸ found) rfl
        | accepted _ _ accepts fresh txs _ good timely _ =>
            rw [txs, Dict.get?_set] at found
            split at found
            · rename_i same
              cases found
              exact .accepted thread id token worker _ _ rfl same.symm (same ▸ fresh) accepts
                good timely allowed.1 allowed.2
            · exact .old rec found rfl
      · exact .old rec found rfl
  | findTx id =>
      obtain ⟨rfl, _⟩ := serve_findTx moved
      exact .old rec found rfl
  | claim => obtain ⟨rfl, rfl⟩ := serve_claim moved; exact .old rec found rfl
  | cas => obtain ⟨rfl, rfl⟩ := serve_cas moved; exact .old rec found rfl
  | release => cases serve_release moved; exact .old rec found rfl
  | now | refBlock | solidNow | solidBlock | here => cases moved; exact .old rec found rfl

end Records

/-! ## The wire -/

/-- The outcome that is logged with an answer.  The two timeouts differ only in their text, and
a signature that cannot be compared leaves no entry. -/
def outcomeTold : Except SendError BroadcastResult → Option Outcome
  | .error .typeError => none
  | .error (.nodeTimeout timeout) =>
      some (if timeout.message = "broadcast: connection reset by peer" then .timeoutDropped
        else .timeoutAccepted)
  | .ok result => some <|
      match result.code with
      | .success => .accepted
      | .dupTransaction => .dup
      | .sigerror => .rejected "SIGERROR"
      | .transactionExpirationError => .rejected "EXPIRED"
      | .serverBusy => .busy
      | .other _ => .unknownCode
      | code => .rejected code.text

/-- The same of a send that may have been declined. -/
def outcomeUnder : Option BroadcastCode → Except SendError BroadcastResult → Option Outcome
  | none, answer => outcomeTold answer
  | some _, .error .typeError => none
  | some code, _ => some (.rejected code.text)

/-- The log entry of a step. -/
def entryOf : Step → Option BroadcastLogEntry
  | .served _ choice (.broadcast _ _ tx worker) answer before _ =>
      (outcomeUnder choice answer).map fun outcome =>
        ⟨tx.txid, outcome, before.node.head, some worker⟩
  | _ => none

section Wire

variable {D : Deployment} {w w' : World}

theorem broadcast_entry (sha256 : Bytes → Bytes) (node : MockTronNode) (now : Int) (tx : SignedTx)
    (worker : Option String) :
    (node.broadcast sha256 now tx worker).2.broadcastLog = node.broadcastLog ++
      ((outcomeTold (node.broadcast sha256 now tx worker).1).map fun outcome =>
        ⟨tx.txid, outcome, node.head, worker⟩).toList := by
  unfold MockTronNode.broadcast
  simp only
  repeat' split
  all_goals first
    | rfl
    | exact (List.append_nil _).symm

theorem act_wire {action : Act} (moved : D.act action w = some w') :
    w'.node.broadcastLog = w.node.broadcastLog := by
  cases action with
  | advance delta => obtain ⟨rfl, _⟩ := act_advance moved; rfl
  | produceBlocks n => cases moved; exact MockTronNode.produceBlocks_log _ _ _
  | script channel faults => cases moved; cases channel <;> rfl
  | submit | arm => cases moved; rfl

theorem serve_wire {thread : Nat} {choice : Option BroadcastCode} {call : Call}
    {reply : Reply call} (moved : D.serve choice call w = some (reply, w')) :
    w'.node.broadcastLog = w.node.broadcastLog ++
      (entryOf (.served thread choice call reply w w')).toList := by
  cases call with
  | broadcast id token tx worker =>
      rcases broadcast_cases moved with ⟨rfl, rfl, rfl⟩ | ⟨_, rfl, _, _, rfl, rfl⟩
      · exact broadcast_entry D.sha256 w.node w.now tx (some worker)
      · rfl
  | findTx txid =>
      obtain ⟨rfl, _⟩ := serve_findTx moved
      exact (List.append_nil _).symm
  | claim => obtain ⟨_, rfl⟩ := serve_claim moved; exact (List.append_nil _).symm
  | cas => obtain ⟨_, rfl⟩ := serve_cas moved; exact (List.append_nil _).symm
  | release => cases serve_release moved; exact (List.append_nil _).symm
  | now | refBlock | solidNow | solidBlock | here => cases moved; exact (List.append_nil _).symm

end Wire

/-! ## One step -/

/-- Where a step comes from: the world acted, or it answered an allowed call. -/
inductive Origin (D : Deployment) (p : Moment) (step : Step) : Prop
  | acted (action : Act) (w' : World) (was : step = .acted action p.world w')
      (moved : D.act action p.world = some w')
  | served (t : Nat) (choice : Option BroadcastCode) (call : Call) (reply : Reply call) (w' : World)
      (was : step = .served t choice call reply p.world w') (allowed : Allowed D t p call)
      (moved : D.serve choice call p.world = some (reply, w'))

/-- An allowed step, and everything it can do. -/
structure Stride (D : Deployment) (p : Moment) (step : Step) : Prop where
  origin : Origin D p step
  before : step.before = p.world
  advances : Advances D p.world step.after
  rows : ∀ id row, step.after.store.ops.get? id = some row → Became D p step row
  commits : ∀ req row, committed step = some (req, row) →
    ∃ commit : Commit D p, step = commit.step ∧ req = commit.req ∧ row = commit.row
  records : ∀ txid rec, step.after.node.txs.get? txid = some rec → Held D p step txid rec
  sends : ∀ id tx, sending step = some (id, tx) →
    WroteAhead p id tx ∧ ∃ t token, step.thread? = some t ∧ Claimed p t id token
  wire : step.after.node.broadcastLog = p.world.node.broadcastLog ++ (entryOf step).toList

section Strides

variable {D : Deployment} {p : Moment} {w' : World}

theorem act_stride {action : Act} (moved : D.act action p.world = some w') :
    Stride D p (.acted action p.world w') where
  origin := .acted action w' rfl moved
  before := rfl
  advances := act_advances moved
  rows _ _ found := act_became moved found
  commits _ _ done := by cases done
  records _ _ found := act_held moved found
  sends _ _ sent := by cases sent
  wire := (act_wire moved).trans (List.append_nil _).symm

theorem serve_stride {thread : Nat} {choice : Option BroadcastCode} {call : Call}
    {reply : Reply call} (inv : Inv D p) (allowed : Allowed D thread p call)
    (moved : D.serve choice call p.world = some (reply, w')) :
    Stride D p (.served thread choice call reply p.world w') where
  origin := .served thread choice call reply w' rfl allowed moved
  before := rfl
  advances := serve_advances inv allowed moved
  rows _ _ found := serve_became inv allowed moved found
  commits _ _ done := commit_of_committed inv allowed moved done
  records _ _ found := serve_held allowed moved found
  sends id tx sent := by
    cases call with
    | broadcast =>
        cases sent
        exact ⟨allowed.2, thread, _, rfl, allowed.1⟩
    | claim | cas | release | now | refBlock | findTx | solidNow | solidBlock | here => cases sent
  wire := serve_wire moved

/-- How a row goes on: its artefacts stay while its claim may move, or a listed write is made
from it. -/
inductive Goes (D : Deployment) (p : Moment) (step : Step) (row : Operation) : Operation → Prop
  | kept (claimedBy : Option String) (leaseExpiresAt : Option Int) (fencingToken : Nat)
      (updatedAt : Option Int) (stamp : updatedAt = row.updatedAt ∨ updatedAt = some p.world.now)
      (log : step.after.store.eventsOf row.operationId = p.world.store.eventsOf row.operationId)
      (lease : leaseExpiresAt = row.leaseExpiresAt ∨ leaseExpiresAt = none ∨
        leaseExpiresAt = D.cfg.leaseSeconds.after p.world.now)
      (token : fencingToken = row.fencingToken ∨ fencingToken = row.fencingToken + 1 ∧
        { row with
          claimedBy := claimedBy
          leaseExpiresAt := leaseExpiresAt
          fencingToken := fencingToken
          updatedAt := updatedAt } ∈ claims step) :
      Goes D p step row { row with
        claimedBy := claimedBy
        leaseExpiresAt := leaseExpiresAt
        fencingToken := fencingToken
        updatedAt := updatedAt }
  | written (commit : Commit D p) (was : step = commit.step) (source : commit.op = row) :
      Goes D p step row commit.row

theorem Stride.goes {step : Step} {id : UUID} {row : Operation} (stride : Stride D p step)
    (found : p.world.store.ops.get? id = some row) :
    ∃ row', step.after.store.ops.get? id = some row' ∧ Goes D p step row row' := by
  obtain ⟨row', found', _⟩ := stride.advances.store.grows.rows id row found
  refine ⟨row', found', ?_⟩
  have key := step.after.store.keyed id row' found'
  cases stride.rows id row' found' with
  | submitted payload op w' was valid absent same stored =>
      rw [same] at key
      rw [show op.operationId = id from key, found] at absent
      cases absent
  | kept old claimedBy leaseExpiresAt fencingToken updatedAt before same stamp log lease token =>
      rw [same] at key token
      rw [show old.operationId = id from key, found] at before
      cases before
      rw [same]
      exact .kept claimedBy leaseExpiresAt fencingToken updatedAt stamp log lease token
  | written commit was same =>
      rw [same, Commit.row, MemoryStore.casRow_operationId] at key
      have before := commit.found
      rw [key, found] at before
      rw [same]
      exact .written commit was (Option.some.inj before).symm

/-- A row that was not there before came by intake. -/
theorem Stride.intake {step : Step} {id : UUID} {row : Operation} (stride : Stride D p step)
    (absent : p.world.store.ops.get? id = none) (found : step.after.store.ops.get? id = some row) :
    ∃ payload op w', step = .acted (.submit payload) p.world w' ∧
      validated D.sha256 D.cfg payload = .ok op ∧ op.operationId = id ∧
      row = { op with createdAt := some p.world.now, updatedAt := some p.world.now } ∧
      w'.store = p.world.store.insertRow p.world.now op := by
  have key := step.after.store.keyed id row found
  cases stride.rows id row found with
  | submitted payload op w' was valid _ same stored =>
      rw [same] at key
      exact ⟨payload, op, w', was, valid, key, same, stored⟩
  | kept old claimedBy leaseExpiresAt token updatedAt before same =>
      rw [same] at key
      rw [show old.operationId = id from key, absent] at before
      cases before
  | written commit was same =>
      rw [same, Commit.row, MemoryStore.casRow_operationId] at key
      have before := commit.found
      rw [key, absent] at before
      cases before

end Strides

end Sluice.Protocol
