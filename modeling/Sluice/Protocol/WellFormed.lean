/-
# Protocol.WellFormed -- rows hold what their state promises, so handlers find what they need

`WellFormed` reads the promise of each state off the row alone.  Every row of every run
keeps it, because the invariant already says so (`Shape`), up to one thing: the signature
is the signer's own, and the signer verifies it unless its key id holds a colon.

What a handler can raise by itself is listed in `Faults`.  A missing artefact or a state
without a handler is no matter of anybody else: the snapshot has its bytes and is not
terminal.  The others come from outside the table: an instant beyond the calendar, or a
signature that the node cannot compare.  So with room on the calendar and a plain key id a
step from a claimed snapshot ends well, even when the replies to its calls come from worlds
that have nothing to do with each other (`step_harmless`).
-/
import Sluice.Protocol.Accounting
import Sluice.Protocol.Passes

namespace Sluice.Protocol

open Sluice.Theory Sluice.Kernel

set_option autoImplicit false

/-- The row's signed transaction is its own envelope, under the pipeline's signature. -/
def Artefacts (D : Deployment) (row : Operation) : Prop :=
  ∃ tx raw, row.signedTx = some tx ∧ row.unsignedTx = some raw ∧ tx.rawData = raw ∧
    row.txid = some tx.txid ∧ tx.txid = computeTxid D.sha256 raw ∧
    row.txExpiration = some tx.expiration ∧ D.signer.verify D.sha256 tx = some true ∧
    raw.contract.toAddress = row.toAddress ∧ raw.contract.amountUnits = row.amountUnits.repr

def OpState.carriesBytes (s : OpState) : Bool :=
  s ∈ [.signed, .broadcasting, .broadcast, .confirmed]

def WellFormed (D : Deployment) (row : Operation) : Prop :=
  match row.state with
  | .requested | .validated | .rejected =>
      row.unsignedTx = none ∧ row.txid = none ∧ row.txExpiration = none ∧ row.signedTx = none ∧
        row.attempts = 0
  | .signing => row.signedTx = none
  | .signed | .broadcasting | .broadcast | .confirmed => Artefacts D row
  | .failed => True

/-- A lease and the lifetime of a transaction that begin now end within the calendar. -/
def Room (D : Deployment) (w : World) : Prop :=
  D.InSeason w.now ∧ IsDatetime (w.now + D.cfg.txTtlSeconds)

def Possible (D : Deployment) (call : Call) (reply : Reply call) : Prop :=
  ∃ choice w w', Room D w ∧ D.serve choice call w = some (reply, w')

/-- The instant past which the row's transaction is dead lies within the calendar. -/
def DeadlineFits (D : Deployment) (row : Operation) : Prop :=
  ∀ expiration, row.txExpiration = some expiration →
    IsDatetime (expiration + D.cfg.expirationSafetySeconds)

/-- A normal end, a lost claim or a simulated crash. -/
def Harmless : Except Exn Operation → Prop
  | .ok _ => True
  | .error .lostClaim => True
  | .error (.simulatedCrash _) => True
  | .error _ => False

section Rows

variable {D : Deployment} {row : Operation}

/-- A sealed row keeps its promise as far as the signer verifies its own signature. -/
theorem Sealed.artefacts_iff {tx : SignedTx} (stored : Sealed D row tx) :
    Artefacts D row ↔ ':' ∉ D.signer.keyId.toList := by
  obtain ⟨⟨u, ⟨⟨ref, now, rfl⟩, raw, txid, expiration⟩, rfl⟩, signed⟩ := stored
  constructor
  · rintro ⟨tx, _, signed', _, _, _, _, _, verified, _⟩
    cases signed.symm.trans signed'
    exact (MockSigner.verify_sign_iff D.sha256 D.signer _).mp verified
  · intro plain
    exact ⟨_, _, signed, raw, rfl, txid, rfl, expiration,
      (MockSigner.verify_sign_iff D.sha256 D.signer _).mpr plain, rfl, rfl⟩

theorem Shape.wellFormed_iff (shape : Shape D row) :
    WellFormed D row ↔ (OpState.carriesBytes row.state = true → ':' ∉ D.signer.keyId.toList) := by
  unfold Shape at shape
  unfold WellFormed
  cases state : row.state with
  | requested | validated | rejected =>
      rw [state] at shape
      obtain ⟨bare, attempts⟩ := shape
      simp [bare.unsignedTx, bare.txid, bare.txExpiration, bare.signedTx, attempts,
        OpState.carriesBytes]
  | signing =>
      rw [state] at shape
      simp [shape.1, OpState.carriesBytes]
  | signed | broadcasting | broadcast | confirmed =>
      rw [state] at shape
      obtain ⟨tx, stored⟩ := shape
      simpa [OpState.carriesBytes] using stored.artefacts_iff
  | failed => simp [OpState.carriesBytes]

end Rows

/-! ## Handlers, against any surroundings -/

section Handlers

variable {D : Deployment} {op : Operation} {worker : String}

/-- With room for the lease, the store raises only on an illegal transition. -/
theorem cas_possible {req : CasRequest} {error : StoreError}
    (renew : req.renewLeaseSeconds = some D.cfg.leaseSeconds)
    (legal : OpState.canTransition req.fromState req.toState = true) :
    ¬ Possible D (.cas req) (.error error) := by
  rintro ⟨choice, w, w', room, moved⟩
  obtain ⟨answer, _⟩ := serve_cas moved
  rcases w.store.cas_cases w.now req with ⟨illegal, _⟩ | ⟨_, same, _⟩ |
    ⟨_, _, _, _, _, _, ⟨beyond, _⟩ | ⟨_, same⟩⟩
  · cases illegal.symm.trans legal
  · rw [same] at answer
    cases answer
  · obtain ⟨expiry, lands⟩ := Option.isSome_iff_exists.mp room.1
    simp [MemoryStore.overflows, renew, lands] at beyond
  · rw [same] at answer
    cases answer

/-- A node can compare every signature under a key id without a colon. -/
theorem broadcast_possible {id : UUID} {token : Nat} {u : UnsignedTx}
    (plain : ':' ∉ D.signer.keyId.toList) :
    ¬ Possible D (.broadcast id token (D.signer.sign D.sha256 u) worker) (.error .typeError) := by
  rintro ⟨choice, w, w', _, moved⟩
  rcases broadcast_cases moved with ⟨_, answer, _⟩ | ⟨_, _, _, _, ⟨⟩, _⟩
  have sent := w.node.broadcast_sent D.sha256 w.now (D.signer.sign D.sha256 u) (some worker)
  rw [← answer] at sent
  cases sent with
  | unprocessed _ _ _ _ fate => simp at fate
  | raised _ _ _ beyond =>
      rw [MockSigner.verify_sign_plain D.sha256 w.node.signer plain] at beyond
      cases beyond
  | accepted _ _ _ _ _ _ _ _ fate => simp at fate

theorem step_harmless (plain : ':' ∉ D.signer.keyId.toList) (shape : Shape D op)
    (running : op.state.terminal = false) (fits : DeadlineFits D op) :
    (D.step op worker).Ensures (Possible D) Harmless := by
  have credible : ∀ call reply, Possible D call reply → Credible call reply := by
    rintro call reply ⟨_, _, _, _, moved⟩
    exact serve_credible moved
  refine (step_behaves credible).ensures fun d outcome given went => ?_
  rcases outcome with e | row
  swap
  · trivial
  rcases went.error e rfl with ⟨point, rfl⟩ | ⟨_, rfl | ⟨error, req, rfl, member, renew, legal⟩⟩ |
    ⟨held, _, leg, _, faults⟩
  · trivial
  · trivial
  · exact cas_possible renew legal (given _ member)
  cases faults with
  | unsigned start state missing =>
      subst start
      obtain ⟨tx, stored⟩ := shape.sealed (by tauto)
      cases missing.symm.trans stored.signedTx
  | expiration _ _ now clock beyond =>
      obtain ⟨_, w, _, room, moved⟩ := given _ clock
      cases moved
      exact beyond room.2
  | signature state tx signed raised =>
      obtain ⟨id, token, member⟩ := raised
      obtain ⟨⟨u, _, rfl⟩, _⟩ := shape.sealed_of_signed signed
      exact broadcast_possible plain (given _ member)
  | deadline _ tx signed _ _ beyond =>
      obtain ⟨⟨u, built, rfl⟩, _⟩ := shape.sealed_of_signed signed
      exact beyond (fits _ built.txExpiration)
  | ended state => cases (leg.live running).symm.trans state

end Handlers

/-! ## All runs -/

section Runs

variable {D : Deployment} {c : Run}

theorem claimed_shape (reached : D.Reachable c) {step : Step} {op : Operation}
    (member : step ∈ c.point.trace) (claimed : op ∈ claims step) :
    Shape D op ∧ op.state.terminal = false ∧ Asked D op := by
  obtain ⟨newer, older, trace⟩ := List.append_of_mem member
  obtain ⟨c₀, c₁, reached₀, here, _, at₀, at₁, stride⟩ := reachable_past reached trace
  have passed₁ : Passed D c₁.point := ⟨c₁, reachable_later reached₀ (.single here), rfl⟩
  cases stride.origin with
  | acted action w' was moved =>
      rw [was] at claimed
      cases claimed
  | served t choice call reply w' was allowed moved =>
      subst was
      cases call with
      | claim states limit worker lease =>
          obtain ⟨answer, rfl⟩ := serve_claim moved
          obtain ⟨rfl, _, _⟩ := allowed
          rcases reply with e | ops
          · cases claimed
          obtain ⟨⟨row, _, _, live, _, _, taken⟩, kept⟩ := MemoryStore.mem_claim answer.symm claimed
          have stored : c₁.point.world.store.ops.get? op.operationId = some op := by
            rw [at₁]
            exact kept
          refine ⟨(passed₁.inv.rows _ _ stored).shape, ?_, passed₁.asked _ _ stored⟩
          rw [taken]
          exact (OpState.mem_claimable_iff _).mp live
      | cas | release | now | refBlock | broadcast | findTx | solidNow | solidBlock | here =>
          cases claimed

/-- **Rows hold what their state promises.**  In every reachable state a row is well formed
exactly if it holds no signed bytes or the signer's key id no colon.  A macro step from any
snapshot a claim ever returned ends normally, with a lost claim or in a simulated crash, if the
key id holds no colon and the calendar has room; and the one conversion it makes of a number of
unknown size is within the interpreter's limit.  Whatever the node took in pays an operation
that intake accepted. -/
theorem rows_well_formed (reached : D.Reachable c) :
    (∀ id row, c.point.world.store.ops.get? id = some row →
      (WellFormed D row ↔
        (OpState.carriesBytes row.state = true → ':' ∉ D.signer.keyId.toList))) ∧
    (∀ step ∈ c.point.trace, ∀ op ∈ claims step,
      (':' ∉ D.signer.keyId.toList → DeadlineFits D op → ∀ worker,
        (D.step op worker).Ensures (Possible D) Harmless) ∧
      (Json.number op.amountUnits).length ≤ maxStrDigits) ∧
    (∀ txid rec, c.point.world.node.txs.get? txid = some rec →
      ∃ id row, c.point.world.store.ops.get? id = some row ∧
        c.point.trace.countP (creates D id) = 1 ∧
        rec.tx.rawData.contract.toAddress = row.toAddress ∧
        intOfText rec.tx.rawData.contract.amountUnits.toList = some row.amountUnits) := by
  have passed : Passed D c.point := ⟨c, reached, rfl⟩
  refine ⟨?_, ?_, ?_⟩
  · intro id row found
    exact (passed.inv.rows id row found).shape.wellFormed_iff
  · intro step member op claimed
    obtain ⟨shape, running, asked⟩ := claimed_shape reached member claimed
    exact ⟨fun plain fits _ => step_harmless plain shape running fits, asked.short⟩
  · intro txid rec record
    obtain ⟨_, _, id, written, _⟩ := passed.ledger.sent txid rec record
    obtain ⟨row, found, pays⟩ := passed.ledger.pays id rec.tx written
    obtain ⟨address, amount⟩ := pays.contract (passed.asked id row found)
    refine ⟨id, row, found, ?_, address, amount⟩
    rw [passed.created id, found]
    rfl

/-- A request that one worker sends and another confirms: the row ends well formed, and the
second worker claimed a snapshot with signed bytes whose deadline fits. -/
theorem rows_well_formed_confirmed : ∃ c, Sample.deployment.Reachable c ∧
    (∃ id row, c.point.world.store.ops.get? id = some row ∧ row.state = .confirmed ∧
      WellFormed Sample.deployment row) ∧
    ∃ step ∈ c.point.trace, ∃ op ∈ claims step, op.state = .broadcast ∧
      DeadlineFits Sample.deployment op ∧ (Sample.deployment.step op "b").Ensures
        (Possible Sample.deployment) Harmless := by
  obtain ⟨c, reached, done⟩ := reachable_of_schedule (D := Sample.deployment)
    (fun c => ((c.point.world.store.ops.get? 0x11111111111141118111111111111111).any
      fun row => row.state = .confirmed) && c.point.trace.any fun step => (claims step).any
        fun op => op.state = .broadcast && op.txExpiration.all fun expiration =>
          IsDatetime (expiration + Sample.deployment.cfg.expirationSafetySeconds))
    Sample.epoch (by decide)
    ([.act (.submit (Sample.request "11111111111141118111111111111111" "1")), .spawn "a"] ++
      Sample.serves 0 17 ++ [.act (.produceBlocks 4), .spawn "b"] ++ Sample.serves 1 5)
    (by decide +kernel)
  rw [Bool.and_eq_true] at done
  obtain ⟨row, found, confirmed⟩ := (Option.any_eq_true _ _).mp done.1
  obtain ⟨step, member, taken⟩ := List.any_eq_true.mp done.2
  obtain ⟨op, claimed, facts⟩ := List.any_eq_true.mp taken
  rw [Bool.and_eq_true, decide_eq_true_eq, Option.all_eq_true] at facts
  have plain : ':' ∉ Sample.deployment.signer.keyId.toList := by decide
  have fits : DeadlineFits Sample.deployment op := fun expiration known =>
    of_decide_eq_true (facts.2 expiration known)
  exact ⟨c, reached, ⟨_, row, found, of_decide_eq_true confirmed,
      ((rows_well_formed reached).1 _ row found).mpr fun _ => plain⟩,
    step, member, op, claimed, facts.1, fits,
    ((rows_well_formed reached).2.1 step member op claimed).1 plain fits "b"⟩

/-- **A signature its own signer rejects.**  The key id holds a colon, so `verify` takes only
the text before it for the key id. -/
theorem colon_in_key_id : ∃ c,
    { Sample.deployment with signer := { keyId := "hotwallet:1" } }.Reachable c ∧
    ∃ id row tx, c.point.world.store.ops.get? id = some row ∧ row.state = .signed ∧
      row.signedTx = some tx ∧ MockSigner.verify Sample.deployment.sha256
        { keyId := "hotwallet:1" } tx = some false := by
  obtain ⟨c, reached, done⟩ := reachable_of_schedule
    (D := { Sample.deployment with signer := { keyId := "hotwallet:1" } })
    (fun c => (c.point.world.store.ops.get? 0x11111111111141118111111111111111).any
      fun row => row.state = .signed && row.signedTx.any fun tx =>
        MockSigner.verify Sample.deployment.sha256 { keyId := "hotwallet:1" } tx = some false)
    Sample.epoch (by decide)
    ([.act (.submit (Sample.request "11111111111141118111111111111111" "1")), .spawn "a"] ++
      Sample.serves 0 8) (by decide +kernel)
  obtain ⟨row, found, holds⟩ := (Option.any_eq_true _ _).mp done
  rw [Bool.and_eq_true, decide_eq_true_eq, Option.any_eq_true] at holds
  obtain ⟨state, tx, signed, rejected⟩ := holds
  exact ⟨c, reached, _, row, tx, found, state, signed, of_decide_eq_true rejected⟩

end Runs

end Sluice.Protocol
