/-
# Protocol.Handlers -- the program follows the discipline

A handler stands between two calls at a moment of the run, and anybody may act before its
next call.  What it has found out survives that (`others_extend`), and most of it survives its
own calls (`own_keeps`).  Two rules then carry all handlers, `safe_ask` for reads and sends and
`safe_cas` for writes; both thread a frame `F` through, which holds what the thread knows about
the operations it has claimed but not driven yet.

`interference` is the logic of these rules, so that a macro step makes only allowed calls
whatever anybody else does between them (`step_safe`).  An exception of a handler's own leaves
the thread with the snapshot it began with, or with one that it has moved on (`Stepped`).
-/
import Sluice.Protocol.Invariant

namespace Sluice.Protocol

open Sluice.Theory Sluice.Kernel
open MemoryStore (casRow)
open MockTronNode (Evolves)

set_option autoImplicit false

/-! ## What is found out stays -/

section Grounds

variable {D : Deployment} {t : Nat} {p : Moment} {step : Step}

/-- An instant that was read stays read while the clock goes forward. -/
theorem clock_log {op : Operation} {now : Int} (before : step.before = p.world)
    (clock : (grounds D p t).clock op now) : (grounds D (p.log step) t).clock op now := by
  intro forward
  obtain ⟨stamp, past⟩ := clock (Forward.tail forward)
  have onward := Forward.head forward
  rw [before] at onward
  exact ⟨stamp, past.trans onward⟩

/-- Any step keeps what is known of the chain, of the trace and of the snapshots. -/
theorem keeps_log (inv : Inv D p) (before : step.before = p.world)
    (node : Relation.ReflTransGen (Evolves D.sha256 p.world.now) p.world.node step.after.node) :
    (grounds D p t).Keeps (grounds D (p.log step) t) := by
  have grown := (inv.chain.evolution node).2
  refine ⟨fun _ _ built => built, fun _ _ carries => carries, ?_, ?_, ?_, ?_, ?_⟩
  · rintro tx result ⟨old, member, answer⟩
    exact ⟨old, List.mem_cons_of_mem _ member, answer⟩
  · exact fun txid recorded => recorded.grows grown
  · exact fun txid rec block inside found => grown.final found inside
  · intro block solid
    have head := grown.head
    have lag := grown.lag
    simp only [MockTronNode.solidBlock, Point.log_world] at solid ⊢
    omega
  · intro txid lapsed forward
    have onward := Forward.head forward
    rw [before] at onward
    exact (lapsed (Forward.tail forward)).advance inv.chain node onward

theorem own_keeps {choice : Option BroadcastCode} {call : Call} {reply : Reply call} {w' : World}
    (inv : Inv D p) (moved : D.serve choice call p.world = some (reply, w')) :
    (grounds D p t).Keeps (grounds D (p.log (.served t choice call reply p.world w')) t) :=
  keeps_log inv rfl (serve_evolves moved).2

/-- The steps of others leave everything that a thread has found out. -/
theorem extends_log (inv : Inv D p) (before : step.before = p.world)
    (node : Relation.ReflTransGen (Evolves D.sha256 p.world.now) p.world.node step.after.node)
    (own : (p.log step).own t = p.own t) :
    (grounds D p t).Extends (grounds D (p.log step) t) := by
  have head := (inv.chain.evolution node).2.headTime
  refine ⟨keeps_log inv before node, fun _ _ => clock_log before, ?_, ?_, ?_, ?_, ?_, id⟩
  · exact fun ref now drafted => (congrArg readings own).trans drafted
  · rintro txid ⟨_, _, _, _, _, read, unknown⟩
    exact ⟨_, _, _, _, _, own.trans read, unknown⟩
  · rintro txid solidTime ⟨⟨_, _, _, _, _, _, _, _, read, unknown⟩, early⟩
    exact ⟨⟨_, _, _, _, _, _, _, _, own.trans read, unknown⟩, early.trans head⟩
  · rintro txid solidTime solidBlock ⟨_, _, _, _, _, _, _, _, _, _, _, read, unknown⟩
    exact ⟨_, _, _, _, _, _, _, _, _, _, _, own.trans read, unknown⟩
  · exact fun solidTime passed => passed.trans head

theorem others_extend {p' : Moment} (others : Others D.machine (discipline D) t p p') :
    (grounds D p t).Extends (grounds D p' t) := by
  have own := others.own_eq
  cases others with
  | acted action world moved inv => exact extends_log inv rfl (act_advances moved).node own
  | served thread choice call reply world other inv allowed moved =>
      exact extends_log inv rfl (serve_evolves moved).2 own

theorem extends_stable (p : Moment) : Stable D.machine (discipline D) t fun p' =>
    (grounds D p t).Extends (grounds D p' t) :=
  fun _ _ step _ early => early.trans (others_extend step)

theorem own_cons {older : List Step} {choice : Option BroadcastCode} {call : Call}
    {reply : Reply call} {before after : World} (own : p.own t = older) :
    (p.log (.served t choice call reply before after)).own t =
      .served t choice call reply before after :: older := by
  simpa [Point.own, Label.thread?] using own

end Grounds

/-! ## The rules -/

section Rules

variable {D : Deployment} {t : Nat} {id : UUID} {token : Nat} {op : Operation} {F : Moment → Prop}

/-- What a thread keeps in mind while it drives operation `id`. -/
structure Frame (D : Deployment) (t : Nat) (id : UUID) (F : Moment → Prop) : Prop where
  stable : Stable D.machine (discipline D) t F
  own : ∀ {p : Moment} {choice : Option BroadcastCode} {call : Call} {reply : Reply call}
    {w' : World}, Inv D p → Allowed D t p call →
    D.serve choice call p.world = some (reply, w') →
    (writesTo call = none ∨ writesTo call = some id) → F p →
    F (p.log (.served t choice call reply p.world w'))

/-- The thread drives its claim of operation `id` from the snapshot `op`. -/
structure Drives (D : Deployment) (t : Nat) (id : UUID) (token : Nat) (F : Moment → Prop)
    (p : Moment) (op : Operation) : Prop where
  knows : Knows D t op p
  operationId : op.operationId = id
  fencingToken : op.fencingToken = token
  framed : F p

theorem Drives.others (frame : Frame D t id F) :
    Stable D.machine (discipline D) t (Drives D t id token F · op) :=
  fun p p' step inv drives => ⟨Knows.others p p' step inv drives.knows, drives.operationId,
    drives.fencingToken, frame.stable p p' step inv drives.framed⟩

/-- A clock read while the snapshot is known is not before the snapshot's own stamp. -/
theorem Knows.stamp_le {p : Moment} (knows : Knows D t op p) (forward : Forward p.trace) :
    ∀ u, op.updatedAt = some u → u ≤ p.world.now := by
  intro u stamp
  obtain ⟨u', stamp', early⟩ := knows.facts.stamped
  cases stamp.symm.trans stamp'
  exact early forward

variable {α : Type} {p : Moment} {post : Except Exn α → Moment → Prop}

/-- A call that writes to no row. -/
theorem safe_ask {call : Call} {next : Reply call → Handler α} (frame : Frame D t id F)
    (quiet : writesTo call = none) (drives : Drives D t id token F p op)
    (allowed : ∀ p', Drives D t id token F p' op → Allowed D t p' call)
    (rest : ∀ p' choice reply w', Inv D p' → Drives D t id token F p' op →
      (grounds D p t).Extends (grounds D p' t) → p'.own t = p.own t →
      D.serve choice call p'.world = some (reply, w') →
      Drives D t id token F (p'.log (.served t choice call reply p'.world w')) op →
      Safe D.machine (discipline D) t (p'.log (.served t choice call reply p'.world w'))
        (next reply) post) :
    Safe D.machine (discipline D) t p (.call call next) post := by
  refine Safe.call ((Drives.others frame).and ((extends_stable p).and (.own (· = p.own t))))
    ⟨drives, .refl _, rfl⟩ ?_ ?_
  · exact fun p' _ held => allowed p' held.1
  · intro p' choice reply w' inv ⟨held, more, own⟩ moved
    have may := allowed p' held
    refine rest p' choice reply w' inv held more own moved ⟨?_, held.operationId,
      held.fencingToken, ?_⟩
    · exact held.knows.own inv may moved (by simp [quiet])
    · exact frame.own inv may moved (.inl quiet) held.framed

/-- The row that a commit leaves is known to its writer. -/
theorem Commit.knows (commit : Commit D p) (inv' : Inv D (p.log commit.step)) :
    Knows D commit.thread commit.row (p.log commit.step) := by
  refine ⟨?_, ⟨commit.row, ?_, le_refl _, fun _ => rfl⟩, inv'.rows _ _ commit.stored⟩
  · rw [Commit.row, MemoryStore.casRow_operationId, MemoryStore.casRow_fencingToken]
    exact commit.claimed.log
  · rw [Commit.row, MemoryStore.casRow_operationId]
    exact commit.stored

/-- A write under the claim is turned down, and the snapshot is as good as before, or it
commits from the snapshot, and the row it leaves is the next. -/
theorem safe_cas {req : CasRequest} {next : Except StoreError (Option Operation) → Handler α}
    (frame : Frame D t id F) (drives : Drives D t id token F p op)
    (mine : req.operationId = id) (owned : req.fencingToken = token)
    (allowed : ∀ p', Drives D t id token F p' op → (grounds D p t).Extends (grounds D p' t) →
      Allowed D t p' (.cas req))
    (down : ∀ p', Drives D t id token F p' op →
      Safe D.machine (discipline D) t p' (next (.ok none)) post)
    (rest : ∀ p' now, req.fromState = op.state → Drives D t id token F p' (casRow now req op) →
      Safe D.machine (discipline D) t p' (next (.ok (some (casRow now req op)))) post) :
    Safe D.machine (discipline D) t p (.call (.cas req) next) post := by
  refine Safe.call ((Drives.others frame).and (extends_stable p)) ⟨drives, .refl _⟩ ?_ ?_
  · exact fun p' _ held => allowed p' held.1 held.2
  · intro p' choice reply w' inv ⟨held, more⟩ moved
    replace moved : D.serve choice (.cas req) p'.world = some (reply, w') := moved
    have may := allowed p' held more
    have framed := frame.own inv may moved (.inr (congrArg some mine)) held.framed
    have inv' := inv_served inv may moved
    obtain ⟨answer, after⟩ := serve_cas moved
    rcases allowed_cas inv may choice with same | ⟨commit, rfl, rfl, rfl, same⟩
    · rw [same] at answer after
      subst answer after
      refine down _ ⟨?_, held.operationId, held.fencingToken, framed⟩
      exact held.knows.advance inv rfl (serve_advances inv may moved) .inl
    · -- the fencing check passed, so the snapshot is the row
      have snapshot : op = commit.op := by
        obtain ⟨row, found, _, snapshot⟩ := held.knows.row
        have present := commit.found
        rw [show commit.op.operationId = op.operationId from mine.trans held.operationId.symm,
          found] at present
        cases present
        exact (snapshot (owned.trans held.fencingToken.symm)).symm
      subst snapshot
      rw [same] at answer after
      subst answer after
      refine rest _ p'.world.now rfl ⟨commit.knows inv', ?_, ?_, framed⟩
      · rw [MemoryStore.casRow_operationId]
        exact mine
      · rw [MemoryStore.casRow_fencingToken]
        exact owned

/-- What one macro step from `first` ends with: a snapshot that is known again, a lost claim, a
simulated crash, or an exception of its own that finds `first` or a snapshot that has moved on. -/
def Stepped (D : Deployment) (t : Nat) (id : UUID) (token : Nat) (F : Moment → Prop)
    (first : Operation) : Except Exn Operation → Moment → Prop
  | .ok op, p => Drives D t id token F p op
  | .error .lostClaim, p => F p
  | .error (.simulatedCrash _), _ => True
  | .error (.store _), _ => False
  | .error _, p => ∃ op, Drives D t id token F p op ∧ op.state.terminal = false ∧
      (op.state = first.state → op = first)

end Rules

/-! ## The handlers -/

section Handlers

variable {D : Deployment} {t : Nat} {id : UUID} {token : Nat} {F : Moment → Prop} {p : Moment}
  {op first : Operation}

/-- The node holds what it answers for with an accepting code. -/
theorem broadcast_recorded {choice : Option BroadcastCode} {worker : String} {signed : SignedTx}
    {result : BroadcastResult} {w w' : World}
    (moved : D.broadcast choice signed worker w = some (.ok result, w'))
    (accepted : result.code.accepted = true) : Recorded w'.node signed.txid := by
  rcases broadcast_cases moved with ⟨_, answer, rfl⟩ | ⟨code, _, _, refused, answer, _⟩
  · have sent := MockTronNode.broadcast_sent D.sha256 w.node w.now signed (some worker)
    rw [← answer] at sent
    simp only
    generalize (w.node.broadcast D.sha256 w.now signed (some worker)).2 = node' at sent
    cases sent with
    | unprocessed _ _ txs blocks fate =>
        rcases fate with ⟨_, no⟩ | same | same
        · cases no
        · cases same; exact absurd accepted (by decide)
        · cases same; exact absurd accepted (by decide)
    | badSignature => exact absurd accepted (by decide)
    | expired => exact absurd accepted (by decide)
    | duplicate _ txs blocks rec known => exact ⟨rec, txs ▸ known⟩
    | accepted _ _ _ fresh txs => exact ⟨_, by rw [txs]; exact Dict.get?_set_self _ _ _⟩
  · cases answer
    simp only at accepted
    rw [refused] at accepted
    cases accepted

/-- The row a write leaves holds the envelope that was written. -/
theorem casRow_built {req : CasRequest} {ref : RefBlock} {now : Int} (now' : Int)
    (unsignedTx : req.sets.unsignedTx = some (some (D.envelope op ref now).rawData))
    (txid : req.sets.txid = some (some (D.envelope op ref now).txid))
    (txExpiration : req.sets.txExpiration = some (some (D.envelope op ref now).expiration)) :
    Built D (casRow now' req op) (D.envelope op ref now) :=
  ⟨⟨ref, now, (envelope_congr (by simp) (by simp)).symm⟩, by simp [unsignedTx], by simp [txid],
    by simp [txExpiration]⟩

/-- A write of a handler. -/
theorem safe_write {toState : OpState} {worker : String} {sets : Sets} {detail : Detail}
    {next : Operation → Handler Operation} (frame : Frame D t id F)
    (drives : Drives D t id token F p op) (write : Write D p t op toState sets detail)
    (rest : ∀ p' now, Drives D t id token F p'
        (casRow now (casRequest D.cfg op toState worker sets detail) op) →
      Safe D.machine (discipline D) t p'
        (next (casRow now (casRequest D.cfg op toState worker sets detail) op))
        (Stepped D t id token F first)) :
    Safe D.machine (discipline D) t p ((D.cas op toState worker sets detail).bind next)
      (Stepped D t id token F first) := by
  refine safe_cas frame drives drives.operationId drives.fencingToken ?_ ?_ ?_
  · exact fun p' held more => .inl ⟨op, _, toState, worker, sets, detail, held.knows,
      write.extend more, .inl rfl, rfl⟩
  · exact fun p' held => held.framed
  · exact fun p' now _ drives' => rest p' now drives'

/-- **The handlers, whatever others do meanwhile.** -/
def interference (D : Deployment) (t : Nat) (worker : String) (first : Operation)
    (frame : Frame D t id F) (running : first.state.terminal = false) :
    Logic D.toPipeline worker first where
  Place := Moment
  grounds p := grounds D p t
  Start p := Drives D t id token F p first
  Has := Drives D t id token F
  judge p handler := Safe D.machine (discipline D) t p handler (Stepped D t id token F first)
  start drives := drives
  carries _ signed := signed
  pause drives _ _ := drives
  fault drives leg only faults := by
    have found := And.intro drives (And.intro (leg.live running) only)
    cases faults with
    | unsigned | expiration | signature | deadline => exact ⟨_, found⟩
    | ended state => cases (leg.live running).symm.trans state
  write drives _ write _ := by
    rw [← Program.bind_done (D.cas _ _ worker _ _)]
    exact safe_write frame drives write fun _ _ drives' => drives'
  commit drives _ write _ rest := by
    refine safe_write frame drives write fun p' now drives' => rest p' _ drives' ?_ ?_ ?_
    · exact MemoryStore.casRow_state _ _ _
    · intro tx signed kept
      simpa [casRequest, snapshotRequest, kept] using signed
    · exact fun ref _ unsignedTx txid txExpiration => casRow_built now unsignedTx txid txExpiration
  here drives rest := by
    refine safe_ask frame rfl drives (fun _ _ => trivial) ?_
    intro p' choice dies w' inv _ more _ moved drives'
    cases dies with
    | true => exact trivial
    | false => exact rest _ drives' (more.toKeeps.trans (own_keeps inv moved))
  clock drives rest := by
    refine safe_ask frame rfl drives (fun _ _ => trivial) ?_
    intro p' choice now w' inv held more _ moved drives'
    have keeps := own_keeps (t := t) inv moved
    cases moved
    exact rest _ _ drives' (more.toKeeps.trans keeps) fun forward =>
      ⟨held.knows.stamp_le (Forward.tail forward), le_refl _⟩
  draft drives rest := by
    refine safe_ask frame rfl drives (fun _ _ => trivial) ?_
    intro p₁ choice₁ ref w₁ _ _ _ _ _ drives₁
    refine safe_ask frame rfl drives₁ (fun _ _ => trivial) ?_
    intro p₂ choice₂ now w₂ _ held _ own moved drives₂
    cases moved
    refine rest _ ref _ drives₂ (fun forward => ?_) ?_
    · exact ⟨held.knows.stamp_le (Forward.tail forward), le_refl _⟩
    · exact congrArg readings (own_cons (own.trans (own_cons rfl)))
  send drives state signed _ timeout answered raised := by
    refine safe_ask frame rfl drives ?_ ?_
    · exact fun p' held => ⟨held.knows.claimed,
        held.knows.facts.written (by rw [state]; rfl) _ signed⟩
    intro p' choice answer w' _ _ _ _ moved drives'
    rcases answer with (e | _) | result
    · exact timeout _ e drives' trivial
    · exact raised _ drives' signed trivial
    · exact answered _ result drives' signed ⟨_, List.mem_cons_self, rfl⟩
        (broadcast_recorded moved)
  findTx := by
    intro p tx next drives _ signed timeout unknown pending included
    refine safe_ask frame rfl drives (fun _ _ => trivial) ?_
    intro p' choice reply w' _ held _ _ moved drives'
    obtain ⟨rfl, ⟨e, rfl⟩ | rfl⟩ := serve_findTx moved
    · exact timeout _ e drives' trivial
    rcases p'.world.node.statusOf_cases p'.world.now (p'.world.node.txs.get? tx.txid) with
      ⟨verdict, out⟩ | ⟨verdict, found⟩ | ⟨rec, block, found, inside, verdict⟩
    · refine unknown _ _ drives' signed ⟨_, _, _, _, _, own_cons rfl, verdict⟩ ?_ verdict
      intro state _
      obtain ⟨rec, found⟩ := held.knows.facts.recorded (by rw [state]; rfl) tx signed
      exact ⟨rec, found, out rec found⟩
    · exact pending _ _ drives' signed found trivial verdict
    · rw [verdict] at drives' ⊢
      refine included _ rec block _ drives' signed ⟨rec, found⟩ found inside ?_ fun _ => trivial
      exact fun solid => of_decide_eq_true solid
  solidNow drives looked rest := by
    refine safe_ask frame rfl drives (fun _ _ => trivial) ?_
    intro p' choice solidTime w' inv _ more _ moved drives'
    have keeps := own_keeps (t := t) inv moved
    cases moved
    obtain ⟨_, _, _, _, _, read, unknown⟩ := more.looked _ looked
    exact rest _ _ drives' (more.toKeeps.trans keeps)
      ⟨⟨_, _, _, _, _, _, _, _, own_cons read, unknown⟩,
        MockTronNode.solidNow_le_headTime inv.chain⟩
  solidBlock drives timed rest := by
    refine safe_ask frame rfl drives (fun _ _ => trivial) ?_
    intro p' choice solidBlock w' inv _ more _ moved drives'
    have keeps := own_keeps (t := t) inv moved
    cases moved
    obtain ⟨⟨_, _, _, _, _, _, _, _, read, unknown⟩, early⟩ := more.timed _ _ timed
    exact rest _ _ drives' (more.toKeeps.trans keeps)
      ⟨_, _, _, _, _, _, _, _, _, _, _, own_cons read, unknown⟩ early

/-- One macro step from any state a claim can return. -/
theorem step_safe (worker : String) (frame : Frame D t id F) (drives : Drives D t id token F p op)
    (running : op.state.terminal = false) :
    Safe D.machine (discipline D) t p (D.step op worker) (Stepped D t id token F op) :=
  (interference D t worker op frame running).step drives

end Handlers

end Sluice.Protocol
