/-
# Protocol.FreshTxid -- when a rebuilt envelope gets a new id

An id is the digest of destination, amount, reference block and two millisecond stamps, and
of these a rebuild can only change the block and the stamps.  An unsent envelope is retired
by the wall clock, so the clock has moved by a whole lifetime since its draft.  An envelope
that may be out is retired by the solid time of the chain, and blocks advance by themselves
when the clock stalls: if solid time had already passed the deadline when the envelope was
drafted, neither block nor clock need have moved, and the rebuild gives the same id
(`same_id_again`).

Otherwise solid time has risen since the draft, and the reference block with it.  A draft
made after the retirement reads a later block or a later clock, and since a writer is fenced,
every draft that is persisted after a retirement was read after it (`read_since`).
-/
import Sluice.Kernel.Timestamp
import Sluice.Protocol.Conservation

namespace Sluice.Protocol

open Sluice.Theory Sluice.Kernel
open MockTronNode (ChainOk Contiguous)

set_option autoImplicit false

/-- The id a step retired, and of which operation. -/
def retires (step : Step) : Option (UUID × Hex) := do
  let (req, _) ← committed step
  let txid ← req.detail.retiredTxid.join
  return (req.operationId, txid)

/-- The id of the envelope a step persisted, and for which operation. -/
def persists (step : Step) : Option (UUID × Hex) := do
  let (req, _) ← committed step
  let txid ← req.sets.txid.join
  return (req.operationId, txid)

/-- No envelope is persisted under an id that its operation has retired. -/
def FreshIds : List Step → Prop
  | [] => True
  | step :: older =>
      (∀ envelope ∈ persists step, ∀ old ∈ older, retires old ≠ some envelope) ∧ FreshIds older

def readsBlock : Step → Bool
  | .served _ _ .refBlock _ _ _ => true
  | _ => false

/-- A reference block is read only while solid time is short of the deadline that an
envelope drafted at once would have. -/
def DraftsAhead (D : Deployment) (trace : List Step) : Prop :=
  ∀ step ∈ trace, readsBlock step = true → step.before.node.solidNow <
    step.before.now + D.cfg.txTtlSeconds + D.cfg.expirationSafetySeconds

/-- The instant, and the end of a lifetime that starts there, are `datetime` values. -/
def OnCalendar (D : Deployment) (now : Int) : Prop :=
  now.natAbs ≤ lastInstant ∧ (now + D.cfg.txTtlSeconds).natAbs ≤ lastInstant

/-- The id was drafted against a block the chain offered, before its own deadline. -/
def Drafted (D : Deployment) (w : World) (txid : Hex) (expiration : Int) : Prop :=
  ∃ row now node, txid = Draft.txid D ⟨row, MockTronNode.refBlock node, now⟩ ∧
    expiration = now + D.cfg.txTtlSeconds ∧ OnCalendar D now ∧ ChainOk node ∧ Contiguous node ∧
    node.Grows w.node ∧
    node.solidNow < now + D.cfg.txTtlSeconds + D.cfg.expirationSafetySeconds

/-- The id was drafted against an earlier block, or a lifetime ago. -/
def Obsolete (D : Deployment) (w : World) (txid : Hex) : Prop :=
  ∃ row ref now, txid = Draft.txid D ⟨row, ref, now⟩ ∧ OnCalendar D now ∧
    (ref.number < w.node.refBlock.number ∨ now + D.cfg.txTtlSeconds ≤ w.now)

section Ids

variable {D : Deployment} {w w' : World} {txid : Hex} {expiration : Int}

theorem Drafted.grows (drafted : Drafted D w txid expiration) (grown : w.node.Grows w'.node) :
    Drafted D w' txid expiration := by
  obtain ⟨row, now, node, same, end_, calendar, ok, whole, grown₀, ahead⟩ := drafted
  exact ⟨row, now, node, same, end_, calendar, ok, whole, grown₀.trans grown, ahead⟩

/-- Once solid time has passed the deadline, the block of the draft is an old one. -/
theorem Drafted.obsolete (drafted : Drafted D w txid expiration) (ok : ChainOk w.node)
    (whole : Contiguous w.node)
    (passed : expiration + D.cfg.expirationSafetySeconds ≤ w.node.solidNow) :
    Obsolete D w txid := by
  obtain ⟨row, now, node, same, rfl, calendar, ok₀, whole₀, grown, ahead⟩ := drafted
  exact ⟨row, _, now, same, calendar,
    .inl (grown.refBlock_lt whole₀ whole ok₀ ok (ahead.trans_le passed))⟩

theorem Drafted.obsolete_unsent (drafted : Drafted D w txid expiration)
    (late : expiration ≤ w.now) : Obsolete D w txid := by
  obtain ⟨row, now, node, same, rfl, calendar, _⟩ := drafted
  exact ⟨row, _, now, same, calendar, .inr late⟩

/-- An obsolete id is not the id of any later draft. -/
theorem Obsolete.ne (separates : Function.Injective D.sha256)
    (ttl : millisecond ≤ D.cfg.txTtlSeconds) (obsolete : Obsolete D w txid)
    (whole : Contiguous w.node) {node : MockTronNode} (whole' : Contiguous node)
    (grown : w.node.Grows node) {row : Operation} {now : Int} (later : w.now ≤ now)
    (calendar : OnCalendar D now) : txid ≠ Draft.txid D ⟨row, node.refBlock, now⟩ := by
  rintro rfl
  obtain ⟨row₀, ref₀, now₀, same, calendar₀, block | clock⟩ := obsolete
  · obtain ⟨_, _, ref, _⟩ := (Draft.txid_eq_iff separates _ _).mp same
    have := grown.refBlock_le whole whole'
    rw [← show node.refBlock = ref₀ from ref] at block
    omega
  · obtain ⟨_, _, _, stamp, expiry⟩ := (Draft.txid_eq_iff separates _ _).mp same
    -- a lifetime apart: equal stamps would reach across two lifetimes
    simp only at stamp expiry
    unfold millisecond at ttl
    have apart := timestampMs_lt (by omega : now₀ + 2000 ≤ now + D.cfg.txTtlSeconds)
      calendar₀.1 calendar.2
    have between := timestampMs_mono (by omega : now₀ + D.cfg.txTtlSeconds ≤ now)
    omega

end Ids

/-! ## Reading and writing -/

section Traces

variable {D : Deployment} {c : Run} {t : Nat} {ref : RefBlock} {now : Int}

/-- The two readings in the trace, and nothing of their thread after them. -/
theorem readings_split {trace : List Step}
    (drafted : readings (trace.filter fun label => label.thread? = some t) = some (ref, now)) :
    ∃ newer middle older choice choice' n n' b b',
      trace = newer ++ .served t choice .now now n n' ::
        (middle ++ .served t choice' .refBlock ref b b' :: older) ∧
      (∀ step ∈ newer, step.thread? ≠ some t) ∧ (∀ step ∈ middle, step.thread? ≠ some t) := by
  generalize own : (trace.filter fun label => label.thread? = some t) = list at drafted
  unfold readings at drafted
  split at drafted
  · rename_i t₁ choice now' n n' t₂ choice' ref' b b' rest
    cases drafted
    obtain ⟨newer, later, rfl, quiet, mine, own'⟩ := List.filter_eq_cons_iff.mp own
    obtain ⟨middle, older, rfl, quiet', mine', _⟩ := List.filter_eq_cons_iff.mp own'
    have first : t₁ = t := Option.some.inj (of_decide_eq_true mine)
    have second : t₂ = t := Option.some.inj (of_decide_eq_true mine')
    subst first
    subst second
    exact ⟨newer, middle, older, choice, choice', n, n', b, b', rfl,
      fun step member => by simpa using quiet step member,
      fun step member => by simpa using quiet' step member⟩
  · cases drafted

/-- A step that claims and commits nothing. -/
def Passive (step : Step) : Prop := claims step = [] ∧ committed step = none

theorem passive_of_readsBlock {step : Step} (reads : readsBlock step = true) : Passive step := by
  unfold readsBlock at reads
  split at reads
  · exact ⟨rfl, rfl⟩
  · cases reads

/-- A draft was read from the chain and then from the clock, and its thread has claimed and
committed nothing since. -/
theorem readings_read (reached : D.Reachable c) (forward : Forward c.point.trace)
    (drafted : readings (c.point.own t) = some (ref, now)) :
    ∃ newer step older, c.point.trace = newer ++ step :: older ∧ readsBlock step = true ∧
      (∀ label ∈ newer, label.thread? = some t → Passive label) ∧
      ref = step.before.node.refBlock ∧ step.before.now ≤ now ∧
      ∃ clock ∈ c.point.trace, clock.before.now = now := by
  obtain ⟨newer, middle, older, choice, choice', n, n', b, b', trace, quiet, quiet'⟩ :=
    readings_split drafted
  have clock := served_past reached (trace ▸ List.mem_append_right _ (.head _))
  obtain ⟨c₁, _, reached₁, _, _, at₁, _⟩ := reachable_past reached trace
  have trace₁ : c₁.point.trace = middle ++ .served t choice' .refBlock ref b b' :: older := by
    rw [at₁]
  have block := served_past reached₁ (trace₁ ▸ List.mem_append_right _ (.head _))
  obtain ⟨c₀, _, reached₀, here, later, at₀, _⟩ := reachable_past reached₁ trace₁
  have forward₁ : Forward c₁.point.trace := by
    rw [at₁]
    rw [trace] at forward
    exact Forward.tail (Forward.suffix forward)
  have early := reachable_clock reached₀ (.head here later) forward₁
  rw [at₀, at₁] at early
  cases clock
  cases block
  refine ⟨newer ++ .served t choice .now n.now n n :: middle, _, older, by simp [trace], rfl, ?_,
    rfl, early, _, by rw [trace]; exact List.mem_append_right _ List.mem_cons_self, rfl⟩
  intro label member own
  rcases List.mem_append.mp member with new | member
  · exact absurd own (quiet label new)
  rcases List.mem_cons.mp member with rfl | old
  · exact ⟨rfl, rfl⟩
  · exact absurd own (quiet' label old)

end Traces

section Fencing

variable {D : Deployment} {p : Moment}

theorem committed_of_retires {step : Step} {id : UUID} {txid : Hex}
    (retired : retires step = some (id, txid)) :
    ∃ req row, committed step = some (req, row) ∧ req.operationId = id ∧
      req.detail.retiredTxid = some (some txid) := by
  simp only [retires, Option.bind_eq_bind, Option.bind_eq_some_iff, Prod.exists] at retired
  obtain ⟨req, row, done, txid', named, same⟩ := retired
  cases same
  exact ⟨req, row, done, rfl, Option.join_eq_some_iff.mp named⟩

theorem committed_of_persists {step : Step} {id : UUID} {txid : Hex}
    (persisted : persists step = some (id, txid)) :
    ∃ req row, committed step = some (req, row) ∧ req.operationId = id ∧
      req.sets.txid = some (some txid) := by
  simp only [persists, Option.bind_eq_bind, Option.bind_eq_some_iff, Prod.exists] at persisted
  obtain ⟨req, row, done, txid', named, same⟩ := persisted
  cases same
  exact ⟨req, row, done, rfl, Option.join_eq_some_iff.mp named⟩

variable {c : Run} {old : Step} {req : CasRequest} {row : Operation}

/-- Whoever wrote to a row that `t` had claimed, under the token it still has, was `t`. -/
theorem writer_of_claimed (reached : D.Reachable c) {newer older : List Step}
    (trace : c.point.trace = newer ++ old :: older) (done : committed old = some (req, row))
    {t : Nat} {current : Operation}
    (claimed : Claimed ⟨old.before, older⟩ t req.operationId current.fencingToken)
    (found : c.point.world.store.ops.get? req.operationId = some current) :
    old.thread? = some t := by
  obtain ⟨c₀, c₁, reached₀, here, later, at₀, _, stride⟩ := reachable_past reached trace
  obtain ⟨commit, rfl, rfl, rfl⟩ := stride.commits req row done
  have inv : Inv D c₀.point := Passed.inv ⟨c₀, reached₀, rfl⟩
  rw [← at₀] at claimed
  obtain ⟨row, found₀, below⟩ := inv.backed _ _ _ claimed
  obtain ⟨row', found', above, _⟩ :=
    (reachable_grows reached₀ (.head here later)).1.rows _ _ commit.found
  cases found₀.symm.trans commit.found
  cases found'.symm.trans found
  have token : commit.op.fencingToken = current.fencingToken := le_antisymm above below
  have own := commit.claimed
  rw [token] at own
  exact congrArg some (inv.unique _ _ _ _ own claimed)

/-- What is persisted after a write to its row was also read after it. -/
theorem read_since (reached : D.Reachable c) (commit : Commit D c.point)
    {newer older : List Step} {step : Step}
    (trace : c.point.trace = newer ++ step :: older) (reads : readsBlock step = true)
    (quiet : ∀ label ∈ newer, label.thread? = some commit.thread → Passive label)
    (member : old ∈ c.point.trace) (done : committed old = some (req, row))
    (same : req.operationId = commit.op.operationId) : old ∈ older := by
  have passive := passive_of_readsBlock reads
  -- the claim behind the commit is older than the readings
  obtain ⟨claim, claim_mem, mine, op, taken, id, token⟩ := commit.claimed
  have claim_old : claim ∈ older := by
    rw [trace] at claim_mem
    rcases List.mem_append.mp claim_mem with new | member
    · rw [(quiet claim new mine).1] at taken
      cases taken
    rcases List.mem_cons.mp member with rfl | older
    · rw [passive.1] at taken
      cases taken
    · exact older
  rw [trace] at member
  rcases List.mem_append.mp member with new | member
  · obtain ⟨newest, between, rfl⟩ := List.append_of_mem new
    have trace' : c.point.trace = newest ++ old :: (between ++ step :: older) := by
      rw [trace, List.append_assoc, List.cons_append]
    have claimed : Claimed ⟨old.before, between ++ step :: older⟩ commit.thread req.operationId
        commit.op.fencingToken :=
      ⟨claim, List.mem_append_right _ (.tail _ claim_old), mine, op, taken, id.trans same.symm,
        token⟩
    have own := writer_of_claimed reached trace' done claimed (by rw [same]; exact commit.found)
    rw [(quiet old new own).2] at done
    cases done
  rcases List.mem_cons.mp member with rfl | older
  · rw [passive.2] at done
    cases done
  · exact older

end Fencing

/-! ## Ids on rows -/

section Rows

variable {D : Deployment} {c : Run}

/-- The clock of a run is on the calendar. -/
theorem onCalendar_of_clock (reached : D.Reachable c) {step : Step} (member : step ∈ c.point.trace)
    (fits : IsDatetime (step.before.now + D.cfg.txTtlSeconds)) : OnCalendar D step.before.now := by
  obtain ⟨_, passed, _⟩ := step_past reached member
  have bound : ∀ {t : Int}, IsDatetime t → t.natAbs ≤ lastInstant := by
    rintro t ⟨low, high⟩
    unfold datetimeMin at low
    unfold datetimeMax at high
    unfold lastInstant
    omega
  exact ⟨bound passed.calendar, bound fits⟩

/-- A draft that is about to be persisted. -/
theorem drafted_of_readings (reached : D.Reachable c) (forward : Forward c.point.trace)
    (ahead : DraftsAhead D c.point.trace) {t : Nat} {ref : RefBlock} {now : Int}
    (drafted : readings (c.point.own t) = some (ref, now))
    (fits : IsDatetime (now + D.cfg.txTtlSeconds)) (row : Operation) :
    Drafted D c.point.world (Draft.txid D ⟨row, ref, now⟩) (now + D.cfg.txTtlSeconds) := by
  obtain ⟨newer, step, older, trace, reads, _, rfl, early, clock, member, rfl⟩ :=
    readings_read reached forward drafted
  obtain ⟨c₀, c₁, reached₀, here, later, at₀, _⟩ := reachable_past reached trace
  have passed₀ : Passed D ⟨step.before, older⟩ := ⟨c₀, reached₀, at₀⟩
  have grown := (reachable_grows reached₀ (.head here later)).2
  rw [at₀] at grown
  have short := ahead step (by rw [trace]; exact List.mem_append_right _ List.mem_cons_self) reads
  exact ⟨row, _, step.before.node, rfl, rfl, onCalendar_of_clock reached member fits,
    passed₀.inv.chain, passed₀.contiguous, grown, by omega⟩

/-- A write persists a draft, clears the id, or leaves id and expiration alone. -/
theorem Write.id_cases {p : Moment} {t : Nat} {op : Operation} {toState : OpState} {sets : Sets}
    {detail : Detail} (write : Write D p t op toState sets detail) :
    (∃ ref now, readings (p.own t) = some (ref, now) ∧
      IsDatetime (now + D.cfg.txTtlSeconds) ∧
      sets.txid = some (some (Draft.txid D ⟨op, ref, now⟩)) ∧
      sets.txExpiration = some (some (now + D.cfg.txTtlSeconds))) ∨
    sets.txid = some none ∨ (sets.txid = none ∧ sets.txExpiration = none) := by
  cases write with
  | build state left ref now clock drafted fits => exact .inl ⟨ref, now, drafted, fits, rfl, rfl⟩
  | dropUnsent | retire => exact .inr (.inl rfl)
  | reject | validate | startSigning | giveUp | sign | writeAhead | accepted | hardReject | noted
  | found | confirm | reverted | breadcrumb => exact .inr (.inr ⟨rfl, rfl⟩)

theorem Passed.drafted {p : Moment} (passed : Passed D p) : Forward p.trace →
    DraftsAhead D p.trace → ∀ id row txid, p.world.store.ops.get? id = some row →
      row.txid = some txid →
      ∃ expiration, row.txExpiration = some expiration ∧ Drafted D p.world txid expiration := by
  intro forward ahead id row txid found
  refine passed.row_induction (J := fun p _ row => Forward p.trace → DraftsAhead D p.trace →
    ∀ txid, row.txid = some txid →
      ∃ expiration, row.txExpiration = some expiration ∧ Drafted D p.world txid expiration)
    ?_ ?_ id row found forward ahead txid
  · intro p payload op w' _ _ valid _ _ _ _ txid named
    rw [(validated_row valid).row] at named
    cases named
  intro p step id row row' passed _ stride found goes ih forward ahead txid named
  have forward := Forward.tail forward
  have ahead : DraftsAhead D p.trace := fun old member => ahead old (.tail _ member)
  have ih := ih forward ahead
  have grown := (passed.inv.chain.evolution stride.advances.node).2
  cases goes with
  | kept =>
      obtain ⟨expiration, column, drafted⟩ := ih txid named
      exact ⟨expiration, column, drafted.grows grown⟩
  | written commit was source =>
      subst source
      rw [Commit.row, MemoryStore.casRow_txid] at named
      rw [Commit.row, MemoryStore.casRow_txExpiration]
      rcases commit.write.id_cases with ⟨ref, now, read, fits, txids, expirations⟩ | cleared |
        ⟨txids, expirations⟩
      · rw [show commit.req.sets = commit.sets from rfl] at named ⊢
        rw [txids] at named
        cases named
        obtain ⟨c, reached, rfl⟩ := passed
        exact ⟨_, by rw [expirations]; rfl,
          (drafted_of_readings reached forward ahead read fits commit.op).grows grown⟩
      · rw [show commit.req.sets = commit.sets from rfl, cleared] at named
        cases named
      · rw [show commit.req.sets = commit.sets from rfl] at named ⊢
        rw [txids] at named
        obtain ⟨expiration, column, drafted⟩ := ih txid named
        exact ⟨expiration, by rw [expirations]; exact column, drafted.grows grown⟩

end Rows

/-! ## Retirement -/

section Retired

variable {D : Deployment} {c : Run}

/-- What an audit read as solid time, the chain has reached. -/
theorem Audited.solidTime_le {t : Nat} {txid : Hex} {solidTime solidBlock : Int}
    (reached : D.Reachable c) (audited : Audited c.point t txid solidTime solidBlock) :
    solidTime ≤ c.point.world.node.solidNow := by
  have passed : Passed D c.point := ⟨c, reached, rfl⟩
  obtain ⟨first, _, _, _, _, rfl, _, passed₁, grown, _⟩ := audited.reads passed
  exact grown.solidNow_le passed₁.contiguous passed.contiguous passed₁.inv.chain passed.inv.chain

/-- Whatever is retired is obsolete. -/
theorem Commit.obsolete (reached : D.Reachable c) (forward : Forward c.point.trace)
    (ahead : DraftsAhead D c.point.trace) (commit : Commit D c.point) {txid : Hex}
    (retired : commit.detail.retiredTxid = some (some txid)) :
    Obsolete D c.point.world txid := by
  have passed : Passed D c.point := ⟨c, reached, rfl⟩
  have shape := (passed.inv.rows _ _ commit.found).shape
  have drafted := passed.drafted forward ahead _ _ txid commit.found
  -- the expiration of the signed bytes is the one on the row
  have expires : ∀ tx, commit.op.signedTx = some tx →
      commit.op.txExpiration = some tx.expiration := by
    intro tx signed
    obtain ⟨⟨u, built, rfl⟩, _⟩ := shape.sealed_of_signed signed
    exact built.txExpiration
  obtain ⟨thread, choice, op, renew, toState, worker, sets, detail, found, claimed, write, _⟩ :=
    commit
  cases write with
  | dropUnsent state tx signed now clock late =>
      obtain ⟨expiration, column, drafted⟩ := drafted (Option.some.inj retired)
      cases column.symm.trans (expires tx signed)
      exact drafted.obsolete_unsent (late.trans (clock forward).2)
  | retire state tx signed solidTime solidBlock audited deadline =>
      obtain ⟨expiration, column, drafted⟩ := drafted (Option.some.inj retired)
      cases column.symm.trans (expires tx signed)
      exact drafted.obsolete passed.inv.chain passed.contiguous
        (deadline.trans (audited.solidTime_le reached))
  | reject | validate | startSigning | giveUp | build | sign | writeAhead | accepted | hardReject
  | noted | found | confirm | reverted | breadcrumb => cases retired

end Retired

/-! ## Runs -/

section Decide

variable (D : Deployment)

instance FreshIds.decidable : (trace : List Step) → Decidable (FreshIds trace)
  | [] => .isTrue trivial
  | step :: older =>
      have := FreshIds.decidable older
      inferInstanceAs (Decidable ((∀ envelope ∈ persists step, ∀ old ∈ older,
        retires old ≠ some envelope) ∧ FreshIds older))

instance (trace : List Step) : Decidable (DraftsAhead D trace) :=
  inferInstanceAs (Decidable (∀ step ∈ trace, readsBlock step = true →
    step.before.node.solidNow <
      step.before.now + D.cfg.txTtlSeconds + D.cfg.expirationSafetySeconds))

end Decide

section Runs

variable {D : Deployment} {c : Run}

/-- An envelope that is about to be persisted has an id its operation never retired. -/
theorem Commit.fresh (separates : Function.Injective D.sha256)
    (ttl : millisecond ≤ D.cfg.txTtlSeconds) (reached : D.Reachable c)
    (forward : Forward c.point.trace) (ahead : DraftsAhead D c.point.trace)
    (commit : Commit D c.point) {txid : Hex}
    (named : commit.sets.txid = some (some txid)) {old : Step} (member : old ∈ c.point.trace) :
    retires old ≠ some (commit.op.operationId, txid) := by
  intro retired
  obtain ⟨req, row, done, same, named'⟩ := committed_of_retires retired
  rcases commit.write.id_cases with ⟨ref, now, read, fits, txids, _⟩ | cleared | ⟨kept, _⟩
  rotate_left
  · cases named.symm.trans cleared
  · cases named.symm.trans kept
  cases txids.symm.trans named
  obtain ⟨newer, block, older, trace, reads, quiet, rfl, early, clock, clock_mem, rfl⟩ :=
    readings_read reached forward read
  -- the retirement lies behind the readings, so chain and clock have only moved on since
  have since := read_since reached commit trace reads quiet member done same
  obtain ⟨middle, oldest, rfl⟩ := List.append_of_mem since
  obtain ⟨c₁, _, reached₁, _, _, at₁, _⟩ := reachable_past reached trace
  have trace₁ : c₁.point.trace = middle ++ old :: oldest := by rw [at₁]
  obtain ⟨c₀, _, reached₀, here, later, at₀, _, stride₀⟩ := reachable_past reached₁ trace₁
  have past₁ : ∀ label ∈ c₁.point.trace, label ∈ c.point.trace := by
    intro label inside
    rw [trace]
    exact List.mem_append_right _ (.tail _ (trace₁ ▸ inside))
  have past₀ : ∀ label ∈ c₀.point.trace, label ∈ c.point.trace := by
    intro label inside
    refine past₁ label ?_
    rw [trace₁]
    rw [at₀] at inside
    exact List.mem_append_right _ (.tail _ inside)
  obtain ⟨commit₀, rfl, rfl, rfl⟩ := stride₀.commits req row done
  have obsolete := commit₀.obsolete reached₀
    (fun label inside => forward label (past₀ label inside))
    (fun label inside => ahead label (past₀ label inside)) named'
  have grown := (reachable_grows reached₀ (.head here later)).2
  have moved := reachable_clock reached₀ (.head here later)
    fun label inside => forward label (past₁ label inside)
  have whole : Contiguous c₁.point.world.node := Passed.contiguous ⟨c₁, reached₁, rfl⟩
  rw [at₁] at grown moved whole
  exact obsolete.ne separates ttl (Passed.contiguous ⟨c₀, reached₀, rfl⟩) whole grown
    (moved.trans early) (onCalendar_of_clock reached clock_mem fits) rfl

/-- **A rebuild gives a new id.**  Let the digest be collision-free, the lifetime at least a
millisecond and the clock never go back.  In every run in which a reference block is read
only while solid time is short of the deadline an envelope drafted at once would have, no
envelope is persisted under an id that its operation has retired before. -/
theorem rebuilds_fresh (separates : Function.Injective D.sha256)
    (ttl : millisecond ≤ D.cfg.txTtlSeconds) (reached : D.Reachable c)
    (forward : Forward c.point.trace) (ahead : DraftsAhead D c.point.trace) :
    FreshIds c.point.trace := by
  revert forward ahead
  refine passed_induction (J := fun p => Forward p.trace → DraftsAhead D p.trace →
    FreshIds p.trace) (fun _ _ _ _ _ _ _ => trivial) ?_ ⟨c, reached, rfl⟩
  intro p step passed _ stride ih forward ahead
  replace forward := Forward.tail forward
  replace ahead : DraftsAhead D p.trace := fun old member => ahead old (.tail _ member)
  refine ⟨?_, ih forward ahead⟩
  rintro ⟨id, txid⟩ persisted old member
  obtain ⟨c, reached, rfl⟩ := passed
  obtain ⟨req, row, done, rfl, named⟩ := committed_of_persists persisted
  obtain ⟨commit, rfl, rfl, rfl⟩ := stride.commits req row done
  exact commit.fresh separates ttl reached forward ahead named member

/-- A send is lost, ten minutes pass, and the withdrawal is rebuilt. -/
theorem rebuilds_fresh_lost_send : Function.Injective Sample.deployment.sha256 ∧
    millisecond ≤ Sample.deployment.cfg.txTtlSeconds ∧
    ∃ c, Sample.deployment.Reachable c ∧ Forward c.point.trace ∧
      DraftsAhead Sample.deployment c.point.trace ∧
      (c.point.trace.filterMap retires).length = 1 ∧
      (c.point.trace.filterMap persists).length = 2 ∧ FreshIds c.point.trace := by
  have separates : Function.Injective Sample.deployment.sha256 := fun _ _ same => same
  refine ⟨separates, by decide, ?_⟩
  obtain ⟨c, reached, done⟩ := reachable_of_schedule (D := Sample.deployment)
    (fun c => decide (Forward c.point.trace ∧ DraftsAhead Sample.deployment c.point.trace ∧
      (c.point.trace.filterMap retires).length = 1 ∧
      (c.point.trace.filterMap persists).length = 2)) Sample.epoch (by decide)
    ([.act (.script .broadcast [.timeoutDropped]),
      .act (.submit (Sample.request "11111111111141118111111111111111" "1")), .spawn "a"] ++
      Sample.serves 0 13 ++ [.act (.advance (600 * second)), .act (.produceBlocks 3), .spawn "b"] ++
      Sample.serves 1 8) (by decide +kernel)
  obtain ⟨forward, ahead, retired, persisted⟩ := of_decide_eq_true done
  exact ⟨c, reached, forward, ahead, retired, persisted,
    rebuilds_fresh separates (by decide) reached forward ahead⟩

namespace Sample

/-- Envelopes live for a millisecond, and there is no safety margin. -/
def hasty : Deployment :=
  { deployment with cfg := { txTtlSeconds := millisecond, expirationSafetySeconds := 0 } }

end Sample

/-- The clock stands still while four blocks are produced, so chain time is ahead of it.  An
envelope is built and its send is lost; the chain already proves it dead, and the rebuild,
against the same block at the same instant, gives it the id that was just retired. -/
theorem same_id_again : Function.Injective Sample.hasty.sha256 ∧
    millisecond ≤ Sample.hasty.cfg.txTtlSeconds ∧
    0 ≤ Sample.hasty.cfg.expirationSafetySeconds ∧ Sample.hasty.declining = false ∧
    ∃ c, Sample.hasty.Reachable c ∧ Forward c.point.trace ∧ ¬ FreshIds c.point.trace := by
  refine ⟨fun _ _ same => same, by decide, by decide, rfl, ?_⟩
  obtain ⟨c, reached, done⟩ := reachable_of_schedule (D := Sample.hasty)
    (fun c => decide (Forward c.point.trace ∧ ¬ FreshIds c.point.trace)) Sample.epoch (by decide)
    ([.act (.produceBlocks 4), .act (.script .broadcast [.timeoutDropped]),
      .act (.submit (Sample.request "11111111111141118111111111111111" "1")), .spawn "a"] ++
      Sample.serves 0 19) (by decide +kernel)
  exact ⟨c, reached, of_decide_eq_true done⟩

end Runs

end Sluice.Protocol
