/-
# Protocol.Walk -- the handlers, walked once

What is proved of a worker is proved in several logics: against any interleaving
(`Protocol.Handlers`), about the dialogue of one pass, whatever the replies are
(`Protocol.Conduct`), and for a worker that runs alone (`Protocol.Alone`).  They differ in where a
handler stands between two calls and in what it can know there.  They agree in how it goes on, so
the handlers are walked here for all of them.

* `Grounds` is what a handler can have found out.
* `Writes`, `Faults` and `Pauses` list everything a macro step can come to, each with its
  grounds: a write, an exception of its own, or the snapshot it has.
* A `Logic` has places, grounds in every place, and one rule for each thing that handlers do.
* `Logic.step`: by the rules of any logic, a macro step meets the judgement of that logic.
-/
import Sluice.Kernel.Pipeline

namespace Sluice.Protocol

open Sluice.Theory Sluice.Kernel

set_option autoImplicit false

/-! ## What a handler finds out -/

structure Grounds where
  /-- The clock showed this instant while the snapshot was held. -/
  clock : Operation → Int → Prop
  /-- The last two calls read this reference block and then this instant. -/
  drafted : RefBlock → Int → Prop
  /-- The snapshot holds this envelope. -/
  built : Operation → UnsignedTx → Prop
  /-- The snapshot holds these signed bytes. -/
  carries : Operation → SignedTx → Prop
  /-- The node did not answer. -/
  troubled : Prop
  answered : SignedTx → BroadcastResult → Prop
  /-- The node could not compare the signature. -/
  raised : SignedTx → Prop
  /-- The node holds the transaction. -/
  recorded : Hex → Prop
  /-- It holds it in no solid block. -/
  unsettled : Hex → Prop
  holds : Hex → TxRecord → Prop
  solid : Int → Prop
  /-- The last call was a lookup that found nothing. -/
  looked : Hex → Prop
  /-- After such a lookup the solid chain time was read. -/
  timed : Hex → Int → Prop
  /-- And then the solid block. -/
  audited : Hex → Int → Int → Prop
  /-- The chain has come to this instant. -/
  passed : Int → Prop
  /-- If the node holds it, then outside every block and with its time up. -/
  lapsed : Hex → Prop
  /-- The handler has raised. -/
  fallen : Prop

/-- What outlasts the further calls of a handler. -/
structure Grounds.Keeps (G G' : Grounds) : Prop where
  built : ∀ op u, G.built op u → G'.built op u
  carries : ∀ op tx, G.carries op tx → G'.carries op tx
  answered : ∀ tx result, G.answered tx result → G'.answered tx result
  recorded : ∀ txid, G.recorded txid → G'.recorded txid
  holds : ∀ txid rec block, rec.includedBlock = some block → G.holds txid rec → G'.holds txid rec
  solid : ∀ block, G.solid block → G'.solid block
  lapsed : ∀ txid, G.lapsed txid → G'.lapsed txid

theorem Grounds.Keeps.trans {G₁ G₂ G₃ : Grounds} (early : G₁.Keeps G₂) (late : G₂.Keeps G₃) :
    G₁.Keeps G₃ where
  built op u known := late.built op u (early.built op u known)
  carries op tx known := late.carries op tx (early.carries op tx known)
  answered tx result known := late.answered tx result (early.answered tx result known)
  recorded txid known := late.recorded txid (early.recorded txid known)
  holds txid rec block inside known :=
    late.holds txid rec block inside (early.holds txid rec block inside known)
  solid block known := late.solid block (early.solid block known)
  lapsed txid known := late.lapsed txid (early.lapsed txid known)

/-- What the calls of others leave: also what was read last. -/
structure Grounds.Extends (G G' : Grounds) : Prop extends G.Keeps G' where
  clock : ∀ op now, G.clock op now → G'.clock op now
  drafted : ∀ ref now, G.drafted ref now → G'.drafted ref now
  looked : ∀ txid, G.looked txid → G'.looked txid
  timed : ∀ txid solidTime, G.timed txid solidTime → G'.timed txid solidTime
  audited : ∀ txid solidTime solidBlock, G.audited txid solidTime solidBlock →
    G'.audited txid solidTime solidBlock
  passed : ∀ solidTime, G.passed solidTime → G'.passed solidTime
  fallen : G.fallen → G'.fallen

theorem Grounds.Extends.refl (G : Grounds) : G.Extends G where
  built _ _ known := known
  carries _ _ known := known
  answered _ _ known := known
  recorded _ known := known
  holds _ _ _ _ known := known
  solid _ known := known
  lapsed _ known := known
  clock _ _ known := known
  drafted _ _ known := known
  looked _ known := known
  timed _ _ known := known
  audited _ _ _ known := known
  passed _ known := known
  fallen known := known

theorem Grounds.Extends.trans {G₁ G₂ G₃ : Grounds} (early : G₁.Extends G₂)
    (late : G₂.Extends G₃) : G₁.Extends G₃ where
  toKeeps := early.toKeeps.trans late.toKeeps
  clock op now known := late.clock op now (early.clock op now known)
  drafted ref now known := late.drafted ref now (early.drafted ref now known)
  looked txid known := late.looked txid (early.looked txid known)
  timed txid time known := late.timed txid time (early.timed txid time known)
  audited txid time block known :=
    late.audited txid time block (early.audited txid time block known)
  passed time known := late.passed time (early.passed time known)
  fallen known := late.fallen (early.fallen known)

/-! ## What a macro step comes to -/

/-- The columns a rebuild clears. -/
def retireSets (op : Operation) (reason : String) : Sets where
  attempts := some (op.attempts + 1)
  lastError := some (some reason)
  signedTx := some none
  unsignedTx := some none
  txid := some none
  txExpiration := some none

def retireDetail (op : Operation) (reason : String) (evidence : Evidence) : Detail where
  retiredTxid := some op.txid
  reason := some reason
  expiryEvidence := some evidence

section Lists

variable (self : Pipeline) (G : Grounds) (op : Operation)

/-- Every write the program makes from a snapshot `op`. -/
inductive Writes : OpState → Sets → Detail → Prop
  | reject (state : op.state = .requested) (reason : String) :
      Writes .rejected { failureReason := some (some reason) } {}
  | validate (state : op.state = .requested) : Writes .validated {} {}
  | startSigning (state : op.state = .validated) : Writes .signing {} {}
  | giveUp (state : op.state = .signing) (spent : self.cfg.maxBuildAttempts ≤ op.attempts)
      (reason : String)
      (text : reason = "gave up after " ++ op.attempts.repr ++ " build attempts") :
      Writes .failed { failureReason := some (some reason) } {}
  | build (state : op.state = .signing) (left : op.attempts < self.cfg.maxBuildAttempts)
      (ref : RefBlock) (now : Int) (clock : G.clock op now) (drafted : G.drafted ref now)
      (fits : IsDatetime (now + self.cfg.txTtlSeconds)) :
      Writes .signing
        { unsignedTx := some (some (self.envelope op ref now).rawData)
          txid := some (some (self.envelope op ref now).txid)
          txExpiration := some (some (self.envelope op ref now).expiration)
          signedTx := some none }
        { txid := some (self.envelope op ref now).txid, reason := some "envelope built" }
  | sign (state : op.state = .signing) (u : UnsignedTx) (built : G.built op u) :
      Writes .signed { signedTx := some (some (self.signer.sign self.sha256 u)) } {}
  | dropUnsent (state : op.state = .signed) (tx : SignedTx) (signed : G.carries op tx) (now : Int)
      (clock : G.clock op now) (late : tx.expiration ≤ now) (reason : String)
      (evidence : Evidence) :
      Writes .signing (retireSets op reason) (retireDetail op reason evidence)
  | writeAhead (state : op.state = .signed) (tx : SignedTx) (signed : G.carries op tx) (now : Int)
      (clock : G.clock op now) (timely : now < tx.expiration) :
      Writes .broadcasting {} { txid := some tx.txid, reason := some "write-ahead" }
  | accepted (state : op.state = .broadcasting) (tx : SignedTx) (signed : G.carries op tx)
      (recorded : G.recorded tx.txid) (now : Int) (code : String) (clock : G.clock op now) :
      Writes .broadcast { broadcastAt := some (some now) }
        { txid := some tx.txid, code := some code }
  | hardReject (state : op.state = .broadcasting) (tx : SignedTx) (signed : G.carries op tx)
      (result : BroadcastResult) (hard : result.code.hardReject = true)
      (answer : G.answered tx result) (reason : String)
      (text : reason = "node rejected: " ++ result.code.text) :
      Writes .failed { failureReason := some (some reason) }
        { txid := some tx.txid, code := some result.code.text }
  | noted (state : op.state = .broadcasting) (tx : SignedTx) (signed : G.carries op tx)
      (result : BroadcastResult)
      (soft : result.code.accepted = false ∧ result.code.hardReject = false)
      (answer : G.answered tx result) (error : String) (classified : Option String) :
      Writes .broadcasting { lastError := some (some error) }
        { txid := some tx.txid, code := some result.code.text, classified := classified }
  | found (state : op.state = .broadcasting) (tx : SignedTx) (signed : G.carries op tx)
      (recorded : G.recorded tx.txid) (now : Int) (value : String)
      (kept : ∀ old, op.broadcastAt = some old → now = old)
      (clock : op.broadcastAt = none → G.clock op now) :
      Writes .broadcast { broadcastAt := some (some now) }
        { txid := some tx.txid, via := some "reconcile", found := some value }
  | retire (state : op.state = .broadcasting ∨ op.state = .broadcast) (tx : SignedTx)
      (signed : G.carries op tx) (solidTime solidBlock : Int)
      (audited : G.audited tx.txid solidTime solidBlock)
      (deadline : tx.expiration + self.cfg.expirationSafetySeconds ≤ solidTime)
      (passed : G.passed solidTime) (unmined : op.state = .broadcast → G.lapsed tx.txid)
      (reason : String) (fits : IsDatetime (tx.expiration + self.cfg.expirationSafetySeconds)) :
      Writes .signing (retireSets op reason)
        (retireDetail op reason (.death solidTime solidBlock tx.expiration
          self.cfg.expirationSafetySeconds "unknown"))
  | confirm (state : op.state = .broadcast) (tx : SignedTx) (signed : G.carries op tx)
      (rec : TxRecord) (recorded : G.holds tx.txid rec) (block : Int)
      (included : rec.includedBlock = some block) (success : rec.receipt = some .success)
      (solid : G.solid block) (now : Int) :
      Writes .confirmed { includedBlock := some (some block), confirmedAt := some (some now) }
        { txid := some tx.txid, block := some (some block) }
  | reverted (state : op.state = .broadcast) (tx : SignedTx) (signed : G.carries op tx)
      (rec : TxRecord) (recorded : G.holds tx.txid rec) (block : Int)
      (included : rec.includedBlock = some block) (receipt : rec.receipt ≠ some .success)
      (solid : G.solid block) :
      Writes .failed
        { includedBlock := some (some block)
          failureReason := some (some "transaction reverted on chain") }
        { txid := some tx.txid, receipt := some rec.receipt }
  /-- The worker's own write, after a handler has raised. -/
  | breadcrumb (live : op.state.terminal = false) (fallen : G.fallen) :
      Writes op.state { lastError := some (some "handler exception (see logs)") } {}

/-- What a handler raises by itself in a macro step from `first`. -/
inductive Faults (first : Operation) : Exn → Prop
  | unsigned (start : op = first)
      (state : op.state = .signed ∨ op.state = .broadcasting ∨ op.state = .broadcast)
      (missing : op.signedTx = none) : Faults first .typeError
  | expiration (state : op.state = .signing) (left : op.attempts < self.cfg.maxBuildAttempts)
      (now : Int) (clock : G.clock op now) (beyond : ¬IsDatetime (now + self.cfg.txTtlSeconds)) :
      Faults first .overflowError
  | signature (state : op.state = .broadcasting) (tx : SignedTx) (signed : G.carries op tx)
      (raised : G.raised tx) : Faults first .typeError
  | deadline (state : op.state = .broadcasting ∨ op.state = .broadcast) (tx : SignedTx)
      (signed : G.carries op tx) (solidTime : Int) (timed : G.timed tx.txid solidTime)
      (beyond : ¬IsDatetime (tx.expiration + self.cfg.expirationSafetySeconds)) :
      Faults first .overflowError
  | ended (state : op.state.terminal = true) : Faults first .keyError

/-- Why a handler returns the snapshot it has. -/
inductive Pauses : Prop
  | unanswered (state : op.state = .broadcasting ∨ op.state = .broadcast) (trouble : G.troubled)
  | busy (state : op.state = .broadcasting) (tx : SignedTx) (signed : G.carries op tx)
      (result : BroadcastResult)
      (soft : result.code.accepted = false ∧ result.code.hardReject = false)
      (fresh : result.code.staleEnvelope = false) (answer : G.answered tx result)
  | unsettled (state : op.state = .broadcast) (tx : SignedTx) (signed : G.carries op tx)
      (outside : G.unsettled tx.txid)
  | alive (state : op.state = .broadcast) (tx : SignedTx) (signed : G.carries op tx)
      (solidTime solidBlock : Int) (audited : G.audited tx.txid solidTime solidBlock)
      (fits : IsDatetime (tx.expiration + self.cfg.expirationSafetySeconds))
      (early : solidTime < tx.expiration + self.cfg.expirationSafetySeconds)

/-- Why bytes are sent in a macro step from `first`. -/
inductive Sends (first : Operation) (tx : SignedTx) : Prop
  | announced (state : first.state = .signed)
  | again (state : first.state = .broadcasting) (solidTime solidBlock : Int)
      (audited : G.audited tx.txid solidTime solidBlock)
      (fits : IsDatetime (tx.expiration + self.cfg.expirationSafetySeconds))
      (early : solidTime < tx.expiration + self.cfg.expirationSafetySeconds)

/-- How far a macro step from `first` is with `op`, when it still has something to write: where
it began, or past the one write that leads to a state of its own. -/
inductive Leg (first : Operation) : Prop
  | start (same : op.state = first.state)
  | begun (first_ : first.state = .validated) (state : op.state = .signing)
  | announced (first_ : first.state = .signed) (state : op.state = .broadcasting)

end Lists

/-- The transitions in the middle of a macro step. -/
def OpState.midway : OpState → OpState → Bool
  | .validated, .signing | .signing, .signing | .signed, .broadcasting => true
  | _, _ => false

section Facts

variable {self : Pipeline} {G G' : Grounds} {op first : Operation} {toState : OpState} {sets : Sets}
  {detail : Detail} {e : Exn}

theorem Writes.live (write : Writes self G op toState sets detail) : op.state.terminal = false := by
  cases write with
  | breadcrumb live => exact live
  | retire state => rcases state with state | state <;> rw [state] <;> rfl
  | reject state | validate state | startSigning state | giveUp state | build state
  | sign state | dropUnsent state | writeAhead state | accepted state | hardReject state
  | noted state | found state | confirm state | reverted state => rw [state]; rfl

theorem Writes.legal (write : Writes self G op toState sets detail) :
    OpState.canTransition op.state toState = true := by
  cases write with
  | breadcrumb live => simp [OpState.canTransition]
  | retire state => rcases state with state | state <;> rw [state] <;> rfl
  | reject state | validate state | startSigning state | giveUp state | build state
  | sign state | dropUnsent state | writeAhead state | accepted state | hardReject state
  | noted state | found state | confirm state | reverted state => rw [state]; rfl

theorem Writes.extend (write : Writes self G op toState sets detail) (more : G.Extends G') :
    Writes self G' op toState sets detail := by
  have carries := more.carries op
  have clock := more.clock op
  cases write with
  | reject state reason => exact .reject state reason
  | validate state => exact .validate state
  | startSigning state => exact .startSigning state
  | giveUp state spent reason text => exact .giveUp state spent reason text
  | build state left ref now read drafted fits =>
      exact .build state left ref now (clock now read) (more.drafted ref now drafted) fits
  | sign state u built => exact .sign state u (more.built op u built)
  | dropUnsent state tx signed now read late reason evidence =>
      exact .dropUnsent state tx (carries tx signed) now (clock now read) late reason evidence
  | writeAhead state tx signed now read timely =>
      exact .writeAhead state tx (carries tx signed) now (clock now read) timely
  | accepted state tx signed recorded now code read =>
      exact .accepted state tx (carries tx signed) (more.recorded _ recorded) now code
        (clock now read)
  | hardReject state tx signed result hard answer reason text =>
      exact .hardReject state tx (carries tx signed) result hard (more.answered _ _ answer) reason
        text
  | noted state tx signed result soft answer error classified =>
      exact .noted state tx (carries tx signed) result soft (more.answered _ _ answer) error
        classified
  | found state tx signed recorded now value kept read =>
      exact .found state tx (carries tx signed) (more.recorded _ recorded) now value kept
        fun unset => clock now (read unset)
  | retire state tx signed solidTime solidBlock audited deadline passed unmined reason fits =>
      exact .retire state tx (carries tx signed) solidTime solidBlock
        (more.audited _ _ _ audited) deadline (more.passed _ passed)
        (fun broadcast => more.lapsed _ (unmined broadcast)) reason fits
  | confirm state tx signed rec recorded block included success solid now =>
      exact .confirm state tx (carries tx signed) rec (more.holds _ _ block included recorded) block
        included success (more.solid _ solid) now
  | reverted state tx signed rec recorded block included receipt solid =>
      exact .reverted state tx (carries tx signed) rec (more.holds _ _ block included recorded)
        block included receipt (more.solid _ solid)
  | breadcrumb live fallen => exact .breadcrumb live (more.fallen fallen)

theorem Leg.live (leg : Leg op first) (running : first.state.terminal = false) :
    op.state.terminal = false := by
  cases leg with
  | start same => rw [same, running]
  | begun _ state | announced _ state => rw [state]; rfl

/-- A write past the first leads on: it does not come back to where the step began. -/
theorem Writes.onward (write : Writes self G op toState sets detail) (leg : Leg op first)
    (moved : op.state ≠ first.state) : toState ≠ first.state := by
  cases leg with
  | start same => exact absurd same moved
  | begun first_ state =>
      rw [first_]
      cases write with
      | breadcrumb => rw [state]; decide
      | startSigning | giveUp | build | sign | reject | dropUnsent | writeAhead | accepted
      | hardReject | noted | found | retire | confirm | reverted => decide
      | validate other => cases state.symm.trans other
  | announced first_ state =>
      rw [first_]
      cases write with
      | breadcrumb => rw [state]; decide
      | startSigning | giveUp | build | reject | validate | dropUnsent | writeAhead | accepted
      | hardReject | noted | found | retire | confirm | reverted => decide
      | sign other => cases state.symm.trans other

end Facts

/-! ## Logics -/

/-- A way to judge the macro step of `worker` from the snapshot `first`. -/
structure Logic (pipeline : Pipeline) (worker : String) (first : Operation) where
  Place : Type
  grounds : Place → Grounds
  /-- The step has just begun. -/
  Start : Place → Prop
  /-- The handler's snapshot. -/
  Has : Place → Operation → Prop
  judge : Place → Handler Operation → Prop
  start : ∀ {s}, Start s → Has s first
  carries : ∀ {s tx}, Has s first → first.signedTx = some tx → (grounds s).carries first tx
  pause : ∀ {s op}, Has s op → Leg op first → Pauses pipeline (grounds s) op → judge s (pure op)
  /-- An exception finds the first snapshot, or one in another state. -/
  fault : ∀ {s op e}, Has s op → Leg op first → (op.state = first.state → op = first) →
    Faults pipeline (grounds s) op first e → judge s (Program.raise e)
  /-- A write that ends the step. -/
  write : ∀ {s op toState sets detail}, Has s op → Leg op first →
    Writes pipeline (grounds s) op toState sets detail → OpState.midway op.state toState = false →
    judge s (pipeline.cas op toState worker sets detail)
  /-- A write that the handler goes on from. -/
  commit : ∀ {s op toState sets detail} {next : Operation → Handler Operation}, Has s op →
    Leg op first → Writes pipeline (grounds s) op toState sets detail →
    OpState.midway op.state toState = true →
    (∀ s' row, Has s' row → row.state = toState →
      (∀ tx, (grounds s).carries op tx → sets.signedTx = none → (grounds s').carries row tx) →
      (∀ ref now, sets.unsignedTx = some (some (pipeline.envelope op ref now).rawData) →
        sets.txid = some (some (pipeline.envelope op ref now).txid) →
        sets.txExpiration = some (some (pipeline.envelope op ref now).expiration) →
        (grounds s').built row (pipeline.envelope op ref now)) →
      judge s' (next row)) →
    judge s ((pipeline.cas op toState worker sets detail).bind next)
  here : ∀ {s op point} {next : Unit → Handler Operation}, Has s op →
    (∀ s', Has s' op → (grounds s).Keeps (grounds s') → judge s' (next ())) →
    judge s ((Pipeline.here point).bind next)
  clock : ∀ {s op} {next : Int → Handler Operation}, Has s op →
    (∀ s' now, Has s' op → (grounds s).Keeps (grounds s') → (grounds s').clock op now →
      judge s' (next now)) →
    judge s (Pipeline.clockNow.bind next)
  draft : ∀ {s op} {next : RefBlock → Int → Handler Operation}, Has s op →
    (∀ s' ref now, Has s' op → (grounds s').clock op now → (grounds s').drafted ref now →
      judge s' (next ref now)) →
    judge s ((ask .refBlock).bind fun ref => Pipeline.clockNow.bind (next ref))
  send : ∀ {s op tx} {next : Except NodeTimeout BroadcastResult → Handler Operation}, Has s op →
    op.state = .broadcasting → (grounds s).carries op tx →
    Sends pipeline (grounds s) first tx →
    (∀ s' e, Has s' op → (grounds s').troubled → judge s' (next (.error e))) →
    (∀ s' result, Has s' op → (grounds s').carries op tx → (grounds s').answered tx result →
      (result.code.accepted = true → (grounds s').recorded tx.txid) →
      judge s' (next (.ok result))) →
    (∀ s', Has s' op → (grounds s').carries op tx → (grounds s').raised tx →
      judge s' (Program.raise .typeError)) →
    judge s ((Pipeline.send op tx worker).bind next)
  findTx : ∀ {s tx} {next : Except NodeTimeout TxStatus → Handler Operation}, Start s →
    first.state = .broadcasting ∨ first.state = .broadcast → (grounds s).carries first tx →
    (∀ s' e, Has s' first → (grounds s').troubled → judge s' (next (.error e))) →
    (∀ s' status, Has s' first → (grounds s').carries first tx → (grounds s').looked tx.txid →
      (first.state = .broadcast → (grounds s').lapsed tx.txid) → status.result = .unknown →
      judge s' (next (.ok status))) →
    (∀ s' status, Has s' first → (grounds s').carries first tx → (grounds s').recorded tx.txid →
      (grounds s').unsettled tx.txid → status.result = .pending → judge s' (next (.ok status))) →
    (∀ s' rec block solid, Has s' first → (grounds s').carries first tx →
      (grounds s').recorded tx.txid → (grounds s').holds tx.txid rec →
      rec.includedBlock = some block → (solid = true → (grounds s').solid block) →
      (solid = false → (grounds s').unsettled tx.txid) →
      judge s' (next (.ok ⟨.included, some block, solid, rec.receipt⟩))) →
    judge s ((Pipeline.findTx tx.txid).bind next)
  solidNow : ∀ {s op txid} {next : Int → Handler Operation}, Has s op → (grounds s).looked txid →
    (∀ s' solidTime, Has s' op → (grounds s).Keeps (grounds s') →
      (grounds s').timed txid solidTime → judge s' (next solidTime)) →
    judge s ((ask .solidNow).bind next)
  solidBlock : ∀ {s op txid solidTime} {next : Int → Handler Operation}, Has s op →
    (grounds s).timed txid solidTime →
    (∀ s' solidBlock, Has s' op → (grounds s).Keeps (grounds s') →
      (grounds s').audited txid solidTime solidBlock → (grounds s').passed solidTime →
      judge s' (next solidBlock)) →
    judge s ((ask .solidBlock).bind next)

namespace Logic

variable {self : Pipeline} {worker : String} {first : Operation} (L : Logic self worker first)
  {s : L.Place} {op : Operation} {tx : SignedTx}

/-! ## The walk -/

theorem validate (has : L.Has s first) (state : first.state = .requested) :
    L.judge s (self.validate first worker) := by
  unfold Pipeline.validate
  split
  · exact L.write has (.start rfl) (.reject state _) (by rw [state]; rfl)
  split
  · exact L.write has (.start rfl) (.reject state _) (by rw [state]; rfl)
  split
  · exact L.write has (.start rfl) (.reject state _) (by rw [state]; rfl)
  · exact L.write has (.start rfl) (.validate state) (by rw [state]; rfl)

theorem build (has : L.Has s op) (leg : Leg op first) (only : op.state = first.state → op = first)
    (state : op.state = .signing) : L.judge s (self.build op worker) := by
  unfold Pipeline.build
  split
  · rename_i spent
    exact L.write has leg (.giveUp state spent _ rfl) (by rw [state]; rfl)
  rename_i left
  refine L.draft has fun s₁ ref now has₁ clock drafted => ?_
  unfold Pipeline.within
  split
  · rename_i fits
    refine L.commit has₁ leg (.build state (not_le.mp left) ref now clock drafted fits)
      (by rw [state]; rfl) ?_
    intro s₂ row has₂ state₂ _ built
    refine L.here has₂ fun s₃ has₃ keeps => ?_
    refine L.write has₃ ?_ (.sign state₂ _ (keeps.built _ _ (built ref now rfl rfl rfl)))
      (by rw [state₂]; rfl)
    cases leg with
    | start same => exact .start (state₂.trans (state.symm.trans same))
    | begun first_ => exact .begun first_ state₂
    | announced _ other => cases state.symm.trans other
  · rename_i beyond
    exact L.fault has₁ leg only (.expiration state (not_le.mp left) now clock beyond)

theorem buildAndSign (has : L.Has s first)
    (state : first.state = .validated ∨ first.state = .signing) :
    L.judge s (self.buildAndSign first worker) := by
  unfold Pipeline.buildAndSign
  split
  · rename_i validated
    refine L.commit has (.start rfl) (.startSigning validated) (by rw [validated]; rfl) ?_
    intro s' row has' state' _ _
    refine L.build has' (.begun validated state') (fun same => ?_) state'
    cases state'.symm.trans (same.trans validated)
  · rename_i signing
    exact L.build has (.start rfl) (fun _ => rfl) (state.resolve_left signing)

theorem settleBroadcastResult (has : L.Has s op) (leg : Leg op first)
    (state : op.state = .broadcasting) (signed : (L.grounds s).carries op tx)
    (result : BroadcastResult) (answer : (L.grounds s).answered tx result)
    (recorded : result.code.accepted = true → (L.grounds s).recorded tx.txid) :
    L.judge s (self.settleBroadcastResult op worker tx result) := by
  unfold Pipeline.settleBroadcastResult
  split
  · rename_i accepted
    refine L.clock has fun s' now has' keeps clock => ?_
    exact L.write has' leg (.accepted state tx (keeps.carries _ _ signed)
      (keeps.recorded _ (recorded accepted)) now _ clock) (by rw [state]; rfl)
  rename_i refused
  split
  · rename_i hard
    exact L.write has leg (.hardReject state tx signed result hard answer _ rfl)
      (by rw [state]; rfl)
  rename_i open_
  have soft := And.intro (Bool.not_eq_true _ ▸ refused) (Bool.not_eq_true _ ▸ open_)
  split
  · exact L.write has leg (.noted state tx signed result soft answer _ none) (by rw [state]; rfl)
  rename_i fresh
  split
  · exact L.pause has leg (.busy state tx signed result soft (Bool.not_eq_true _ ▸ fresh) answer)
  · exact L.write has leg (.noted state tx signed result soft answer _ (some "ambiguous"))
      (by rw [state]; rfl)

/-- A row without its bytes raises; otherwise the handler has them. -/
theorem signedOf {next : SignedTx → Handler Operation} (has : L.Has s first)
    (state : first.state = .signed ∨ first.state = .broadcasting ∨ first.state = .broadcast)
    (rest : ∀ tx, (L.grounds s).carries first tx → L.judge s (next tx)) :
    L.judge s ((Pipeline.signedOf first).bind next) := by
  unfold Pipeline.signedOf
  split
  · rename_i tx signed
    exact rest tx (L.carries has signed)
  · rename_i missing
    exact L.fault has (.start rfl) (fun _ => rfl) (.unsigned rfl state missing)

theorem broadcast (has : L.Has s first) (state : first.state = .signed) :
    L.judge s (self.broadcast first worker) := by
  unfold Pipeline.broadcast
  refine L.signedOf has (.inl state) fun tx signed => L.clock has fun s₁ now has₁ keeps clock => ?_
  have signed₁ := keeps.carries _ _ signed
  split
  · rename_i late
    exact L.write has₁ (.start rfl) (.dropUnsent state tx signed₁ now clock late _ _)
      (by rw [state]; rfl)
  rename_i timely
  refine L.commit has₁ (.start rfl) (.writeAhead state tx signed₁ now clock (not_le.mp timely))
    (by rw [state]; rfl) ?_
  intro s₂ row has₂ state₂ carries _
  have leg : Leg row first := .announced state state₂
  refine L.here has₂ fun s₃ has₃ keeps₃ => ?_
  have signed₃ := keeps₃.carries _ _ (carries tx signed₁ rfl)
  refine L.send has₃ state₂ signed₃ (.announced state) ?_ ?_ ?_
  · exact fun s₄ e has₄ trouble => L.pause has₄ leg (.unanswered (.inl state₂) trouble)
  · intro s₄ result has₄ signed₄ answer recorded
    refine L.here has₄ fun s₅ has₅ keeps₅ => ?_
    exact L.settleBroadcastResult has₅ leg state₂ (keeps₅.carries _ _ signed₄) result
      (keeps₅.answered _ _ answer) fun accepted => keeps₅.recorded _ (recorded accepted)
  · intro s₄ has₄ signed₄ raised
    refine L.fault has₄ leg (fun same => ?_) (.signature state₂ tx signed₄ raised)
    cases state₂.symm.trans (same.trans state)

/-- The two reads of the death proof, right after a lookup that found nothing. -/
theorem proofOfDeath {next : Bool × Evidence → Handler Operation} (has : L.Has s first)
    (state : first.state = .broadcasting ∨ first.state = .broadcast)
    (signed : (L.grounds s).carries first tx) (looked : (L.grounds s).looked tx.txid)
    (rest : ∀ s' solidTime solidBlock, L.Has s' first → (L.grounds s).Keeps (L.grounds s') →
      (L.grounds s').audited tx.txid solidTime solidBlock → (L.grounds s').passed solidTime →
      IsDatetime (tx.expiration + self.cfg.expirationSafetySeconds) →
      L.judge s' (next (decide (solidTime ≥ tx.expiration + self.cfg.expirationSafetySeconds),
        .death solidTime solidBlock tx.expiration self.cfg.expirationSafetySeconds "unknown"))) :
    L.judge s ((self.proofOfDeath tx).bind next) := by
  unfold Pipeline.proofOfDeath
  refine L.solidNow has looked fun s₁ solidTime has₁ keeps₁ timed => ?_
  unfold Pipeline.within
  split
  · rename_i fits
    refine L.solidBlock has₁ timed fun s₂ solidBlock has₂ keeps₂ audited passed => ?_
    exact rest s₂ solidTime solidBlock has₂ (keeps₁.trans keeps₂) audited passed fits
  · rename_i beyond
    exact L.fault has₁ (.start rfl) (fun _ => rfl)
      (.deadline state tx (keeps₁.carries _ _ signed) solidTime timed beyond)

/-- The found transaction is stamped: a row that was broadcast before keeps that instant, any
other takes the clock's. -/
theorem found (has : L.Has s first) (state : first.state = .broadcasting)
    (signed : (L.grounds s).carries first tx) (recorded : (L.grounds s).recorded tx.txid)
    (value : String) :
    L.judge s
      (let stamped := fun broadcastAt : Int =>
        self.cas first .broadcast worker { broadcastAt := some (some broadcastAt) }
          { txid := some tx.txid, via := some "reconcile", found := some value }
      match first.broadcastAt with
        | some instant => (pure instant : Handler Int) >>= stamped
        | none => Pipeline.clockNow >>= stamped) := by
  cases known : first.broadcastAt with
  | some instant =>
      refine L.write has (.start rfl) (.found state tx signed recorded instant value ?_ ?_)
        (by rw [state]; rfl)
      · exact fun old same => Option.some.inj (known.symm.trans same)
      · exact fun none_ => by cases known.symm.trans none_
  | none =>
      refine L.clock has fun s' now has' keeps clock => ?_
      refine L.write has' (.start rfl) (.found state tx (keeps.carries _ _ signed)
        (keeps.recorded _ recorded) now value ?_ fun _ => clock) (by rw [state]; rfl)
      exact fun old same => by cases known.symm.trans same

theorem reconcileBroadcast (start : L.Start s) (state : first.state = .broadcasting) :
    L.judge s (self.reconcileBroadcast first worker) := by
  unfold Pipeline.reconcileBroadcast
  refine L.signedOf (L.start start) (.inr (.inl state)) fun tx signed => ?_
  refine L.findTx start (.inl state) signed ?_ ?_ ?_ ?_
  · exact fun s₁ e has₁ trouble => L.pause has₁ (.start rfl) (.unanswered (.inl state) trouble)
  · -- nothing found: prove it dead, or send the same bytes again
    intro s₁ status has₁ signed₁ looked _ verdict
    simp only [verdict, reduceCtorEq, or_self, if_false]
    refine L.proofOfDeath has₁ (.inl state) signed₁ looked ?_
    intro s₂ solidTime solidBlock has₂ keeps audited passed fits
    have signed₂ := keeps.carries _ _ signed₁
    simp only
    split
    · rename_i early
      refine L.send has₂ state signed₂
        (.again state solidTime solidBlock audited fits (by simpa using early)) ?_ ?_ ?_
      · exact fun s₃ e has₃ trouble => L.pause has₃ (.start rfl) (.unanswered (.inl state) trouble)
      · intro s₃ result has₃ signed₃ answer recorded
        exact L.settleBroadcastResult has₃ (.start rfl) state signed₃ result answer recorded
      · exact fun s₃ has₃ signed₃ raised =>
          L.fault has₃ (.start rfl) (fun _ => rfl) (.signature state tx signed₃ raised)
    · rename_i dead
      refine L.write has₂ (.start rfl) (.retire (.inl state) tx signed₂ solidTime solidBlock
        audited (by simpa using dead) passed (fun broadcast => ?_) _ fits) (by rw [state]; rfl)
      cases state.symm.trans broadcast
  · intro s₁ status has₁ signed₁ recorded _ verdict
    simp only [verdict, or_true, if_true]
    exact L.found has₁ state signed₁ recorded _
  · intro s₁ rec block solid has₁ signed₁ recorded _ _ _ _
    simp only [true_or, if_true]
    exact L.found has₁ state signed₁ recorded _

theorem awaitConfirmation (start : L.Start s) (state : first.state = .broadcast) :
    L.judge s (self.awaitConfirmation first worker) := by
  unfold Pipeline.awaitConfirmation
  refine L.signedOf (L.start start) (.inr (.inr state)) fun tx signed => ?_
  refine L.findTx start (.inr state) signed ?_ ?_ ?_ ?_
  · exact fun s₁ e has₁ trouble => L.pause has₁ (.start rfl) (.unanswered (.inr state) trouble)
  · -- accepted once and gone since: rebuild when provably dead
    intro s₁ status has₁ signed₁ looked lapsed verdict
    simp only [verdict, reduceCtorEq, if_false]
    refine L.proofOfDeath has₁ (.inr state) signed₁ looked ?_
    intro s₂ solidTime solidBlock has₂ keeps audited passed fits
    have signed₂ := keeps.carries _ _ signed₁
    simp only
    split
    · rename_i dead
      exact L.write has₂ (.start rfl) (.retire (.inr state) tx signed₂ solidTime solidBlock audited
        (by simpa using dead) passed (fun _ => keeps.lapsed _ (lapsed state)) _ fits)
        (by rw [state]; rfl)
    · rename_i early
      exact L.pause has₂ (.start rfl)
        (.alive state tx signed₂ solidTime solidBlock audited fits (by simpa using early))
  · intro s₁ status has₁ signed₁ _ outside verdict
    simp only [verdict, reduceCtorEq, if_false, if_true]
    exact L.pause has₁ (.start rfl) (.unsettled state tx signed₁ outside)
  · intro s₁ rec block solid has₁ signed₁ _ holds inside settled outside
    simp only [if_true]
    split
    · rename_i open_
      exact L.pause has₁ (.start rfl)
        (.unsettled state tx signed₁ (outside (by simpa using open_)))
    rename_i closed
    have final := settled (by simpa using closed)
    refine L.here has₁ fun s₂ has₂ keeps₂ => ?_
    have signed₂ := keeps₂.carries _ _ signed₁
    have holds₂ := keeps₂.holds _ _ block inside holds
    split
    · rename_i success
      refine L.clock has₂ fun s₃ now has₃ keeps₃ _ => ?_
      exact L.write has₃ (.start rfl) (.confirm state tx (keeps₃.carries _ _ signed₂) rec
        (keeps₃.holds _ _ block inside holds₂) block inside success
        (keeps₃.solid _ (keeps₂.solid _ final)) now) (by rw [state]; rfl)
    · rename_i failed
      exact L.write has₂ (.start rfl) (.reverted state tx signed₂ rec holds₂ block inside failed
        (keeps₂.solid _ final)) (by rw [state]; rfl)

/-- **The walk.**  A macro step meets the judgement of any logic. -/
theorem step (start : L.Start s) : L.judge s (self.step first worker) := by
  have has := L.start start
  unfold Pipeline.step
  cases state : first.state with
  | requested => exact L.validate has state
  | validated => exact L.buildAndSign has (.inl state)
  | signing => exact L.buildAndSign has (.inr state)
  | signed => exact L.broadcast has state
  | broadcasting => exact L.reconcileBroadcast start state
  | broadcast => exact L.awaitConfirmation start state
  | confirmed | failed | rejected =>
      exact L.fault has (.start rfl) (fun _ => rfl) (.ended (by rw [state]; rfl))

end Logic

end Sluice.Protocol
