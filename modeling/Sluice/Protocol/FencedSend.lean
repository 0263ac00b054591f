/-
# Protocol.FencedSend -- a send is inside its claim as long as it is inside its lease

Writes are fenced: under an old token they are not there.  Sends are not: between the
write-ahead and the send a worker asks nobody, so one that stalls there is overtaken and
sends under a token the row has left behind (`fenced_worker_sends`).

What keeps a send inside its claim is the lease.  `hold` is the snapshot a thread has of an
operation it has claimed: what the claim returned, or its last write, until it lets go.
While the lease on that snapshot runs, nobody else can claim the row, so the snapshot is the
row (`Holding`).
-/
import Sluice.Protocol.Worker

namespace Sluice.Protocol

open Sluice.Theory Sluice.Kernel
open MemoryStore (casRow claimRow)

set_option autoImplicit false

/-- What a step tells its thread about operation `id` under `token`: a new snapshot, that it
was let go, or nothing. -/
def grant (id : UUID) (token : Nat) : Step → Option (Option Operation)
  | .served _ _ (.claim ..) (.ok ops) _ _ =>
      (ops.find? fun op => op.operationId = id ∧ op.fencingToken = token).map some
  | .served _ _ (.cas _) (.ok (some row)) _ _ =>
      if row.operationId = id ∧ row.fencingToken = token then some (some row) else none
  | .served _ _ (.release id' token') _ _ _ =>
      if id' = id ∧ token' = token then some none else none
  | _ => none

/-- The snapshot thread `t` holds of operation `id` under `token`. -/
def hold (t : Nat) (id : UUID) (token : Nat) : List Step → Option Operation
  | [] => none
  | step :: older =>
      match if step.thread? = some t then grant id token step else none with
      | some held => held
      | none => hold t id token older

/-- The thread, operation and token of a send. -/
def sender : Step → Option (Nat × UUID × Nat)
  | .served t _ (.broadcast id token _ _) _ _ _ => some (t, id, token)
  | _ => none

/-- Every send is made while the lease on its sender's snapshot runs. -/
def SendsLeased : List Step → Prop
  | [] => True
  | step :: older => SendsLeased older ∧ ∀ sent ∈ sender step,
      ∃ op ∈ hold sent.1 sent.2.1 sent.2.2 older, ∃ expiry ∈ op.leaseExpiresAt,
        step.before.now < expiry

instance SendsLeased.decidable : (trace : List Step) → Decidable (SendsLeased trace)
  | [] => .isTrue trivial
  | step :: older =>
      have := SendsLeased.decidable older
      inferInstanceAs (Decidable (SendsLeased older ∧ ∀ sent ∈ sender step,
        ∃ op ∈ hold sent.1 sent.2.1 sent.2.2 older, ∃ expiry ∈ op.leaseExpiresAt,
          step.before.now < expiry))

/-- The thread claimed what it holds, and while its lease runs the snapshot is the row. -/
structure Holding (p : Moment) (t : Nat) (op : Operation) : Prop where
  claimed : Claimed p t op.operationId op.fencingToken
  current : ∀ expiry ∈ op.leaseExpiresAt, p.world.now < expiry →
    p.world.store.ops.get? op.operationId = some op

section Steps

variable {D : Deployment} {p : Moment} {t : Nat} {id : UUID} {token : Nat} {op : Operation}
  {step : Step}

/-- A hold is news of its own thread, or it is old and the step says nothing about it. -/
theorem hold_cases {older : List Step} (held : hold t id token (step :: older) = some op) :
    (step.thread? = some t ∧ grant id token step = some (some op)) ∨
      (hold t id token older = some op ∧ (step.thread? = some t → grant id token step = none)) := by
  unfold hold at held
  split at held
  · rename_i news given
    split at given
    · rename_i own
      exact .inl ⟨own, by rw [given, held]⟩
    · cases given
  · rename_i quiet
    refine .inr ⟨held, fun own => ?_⟩
    rwa [if_pos own] at quiet

/-- What a step grants is a row of its operation, as the step left it, and its thread has
claimed it. -/
theorem grant_spec (stride : Stride D p step) (own : step.thread? = some t)
    (given : grant id token step = some (some op)) :
    op.operationId = id ∧ op.fencingToken = token ∧ step.after.store.ops.get? id = some op ∧
      Claimed (p.log step) t id token := by
  cases stride.origin with
  | acted action w' was moved =>
      rw [was] at given
      cases given
  | served thread choice call reply w' was allowed moved =>
      subst was
      cases own
      cases call with
      | claim states limit worker lease =>
          obtain ⟨answer, rfl⟩ := serve_claim moved
          rcases reply with e | ops
          · cases given
          obtain ⟨found, search, same⟩ := Option.map_eq_some_iff.mp given
          cases same
          have member := List.mem_of_find?_eq_some search
          have named := List.find?_some search
          rw [decide_eq_true_eq] at named
          obtain ⟨rfl, rfl⟩ := named
          exact ⟨rfl, rfl, (MemoryStore.mem_claim answer.symm member).2, _, List.mem_cons_self, rfl,
            op, member, rfl, rfl⟩
      | cas req =>
          rcases reply with e | _ | row
          · cases given
          · cases given
          obtain ⟨commit, was, rfl, rfl⟩ := stride.commits req row rfl
          simp only [grant] at given
          split at given
          · rename_i named
            cases given
            obtain ⟨rfl, rfl⟩ := named
            have thread := Option.some.inj (congrArg Label.thread? was)
            rw [was, thread, Commit.row, MemoryStore.casRow_operationId,
              MemoryStore.casRow_fencingToken]
            exact ⟨rfl, rfl, commit.stored, commit.claimed.log⟩
          · cases given
      | release id' token' =>
          simp only [grant] at given
          split at given <;> cases given
      | now | refBlock | broadcast | findTx | solidNow | solidBlock | here => cases given

theorem WroteUnder.granted {call : Call} {reply : Reply call}
    (wrote : WroteUnder id token call reply) (choice : Option BroadcastCode) (w w' : World) :
    grant id token (.served t choice call reply w w') ≠ none := by
  cases call with
  | cas req =>
      rcases reply with e | _ | row
      · cases wrote
      · cases wrote
      · simp [grant, wrote.1, wrote.2]
  | release id' token' => simp [grant, wrote.1, wrote.2]
  | claim | now | refBlock | broadcast | findTx | solidNow | solidBlock | here => cases wrote

/-- A row that somebody holds and whose lease runs stays as it is, unless its holder says
otherwise. -/
theorem held_row_stays (stride : Stride D p step) (inv : Inv D p)
    (found : p.world.store.ops.get? op.operationId = some op)
    (claimed : Claimed p t op.operationId op.fencingToken) {expiry : Int}
    (lease : op.leaseExpiresAt = some expiry) (running : p.world.now < expiry)
    (quiet : step.thread? = some t → grant op.operationId op.fencingToken step = none) :
    step.after.store.ops.get? op.operationId = some op := by
  cases stride.origin with
  | acted action w' was moved =>
      subst was
      exact act_row moved found
  | served thread choice call reply w' was allowed moved =>
      subst was
      rcases serve_row inv (inv.season _ _ _ claimed) allowed moved found with
        same | ⟨_, _, _, free⟩ | ⟨claimed', _, wrote⟩
      · exact same
      · simp [MemoryStore.leased, lease, running] at free
      · -- a write under this token is the holder's, and would have been news to it
        obtain rfl := inv.unique _ _ _ _ claimed' claimed
        exact absurd (quiet rfl) (wrote.granted choice _ _)

end Steps

section Runs

variable {D : Deployment} {p : Moment} {c : Run}

theorem Passed.holding (passed : Passed D p) : Forward p.trace → ∀ t id token op,
    hold t id token p.trace = some op →
      op.operationId = id ∧ op.fencingToken = token ∧ Holding p t op := by
  refine passed_induction (J := fun p => Forward p.trace → ∀ t id token op,
    hold t id token p.trace = some op →
      op.operationId = id ∧ op.fencingToken = token ∧ Holding p t op) ?_ ?_ passed
  · intro _ _ _ _ _ _ t id token op held
    cases held
  intro p step passed _ stride ih forward t id token op held
  rcases hold_cases held with ⟨own, given⟩ | ⟨old, quiet⟩
  · obtain ⟨rfl, rfl, stored, claimed⟩ := grant_spec stride own given
    exact ⟨rfl, rfl, claimed, fun _ _ _ => stored⟩
  · obtain ⟨rfl, rfl, holding⟩ := ih (Forward.tail forward) t id token op old
    refine ⟨rfl, rfl, holding.claimed.log, fun expiry lease running => ?_⟩
    have clock := Forward.head forward
    rw [stride.before] at clock
    have running' : p.world.now < expiry := lt_of_le_of_lt clock running
    exact held_row_stays stride passed.inv (holding.current expiry lease running') holding.claimed
      lease running' quiet

theorem SendsLeased.suffix {newer older : List Step} (leased : SendsLeased (newer ++ older)) :
    SendsLeased older := by
  induction newer with
  | nil => exact leased
  | cons step newer ih => exact ih leased.1

/-- **Fenced workers and the wire.**  Under a forward clock, in every run in which each send
is made while the lease on its sender's snapshot runs, the row carries the sender's token at
the moment of the send. -/
theorem send_fenced (reached : D.Reachable c) (forward : Forward c.point.trace)
    (leased : SendsLeased c.point.trace) {newer older : List Step} {step : Step} {t : Nat}
    {id : UUID} {token : Nat} (trace : c.point.trace = newer ++ step :: older)
    (sent : sender step = some (t, id, token)) :
    ∃ row, step.before.store.ops.get? id = some row ∧ row.fencingToken = token := by
  obtain ⟨c₀, _, reached₀, _, _, at₀, _, _⟩ := reachable_past reached trace
  rw [trace] at forward leased
  obtain ⟨op, held, expiry, lease, running⟩ := (SendsLeased.suffix leased).2 _ sent
  have holding := Passed.holding ⟨c₀, reached₀, rfl⟩
  rw [at₀] at holding
  obtain ⟨rfl, rfl, holding⟩ := holding (Forward.tail (Forward.suffix forward)) t id token op held
  exact ⟨op, holding.current expiry lease running, rfl⟩

/-- One request, sent within its lease. -/
theorem send_fenced_in_time : ∃ c, Sample.deployment.Reachable c ∧ Forward c.point.trace ∧
    SendsLeased c.point.trace ∧ ∃ newer step older, c.point.trace = newer ++ step :: older ∧
      sender step = some (0, 0x11111111111141118111111111111111, 1) ∧
      ∃ row, step.before.store.ops.get? 0x11111111111141118111111111111111 = some row ∧
        row.fencingToken = 1 := by
  obtain ⟨c, reached, done⟩ := reachable_of_schedule (D := Sample.deployment)
    (fun c => decide (Forward c.point.trace ∧ SendsLeased c.point.trace) &&
      c.point.trace.any fun step => sender step = some (0, 0x11111111111141118111111111111111, 1))
    Sample.epoch (by decide)
    ([.act (.submit (Sample.request "11111111111141118111111111111111" "1")), .spawn "a"] ++
      Sample.serves 0 10 ++ [.act (.advance (29 * second))] ++ Sample.serves 0 2)
    (by decide +kernel)
  obtain ⟨run, made⟩ := Bool.and_eq_true_iff.mp done
  obtain ⟨forward, leased⟩ := of_decide_eq_true run
  obtain ⟨step, member, sent⟩ := List.any_eq_true.mp made
  obtain ⟨newer, older, trace⟩ := List.append_of_mem member
  have sent := of_decide_eq_true sent
  exact ⟨c, reached, forward, leased, newer, step, older, trace, sent,
    send_fenced reached forward leased trace sent⟩

/-- **A fenced worker reaches the network.**  Worker `a` writes ahead and stalls for 31 s; its
lease runs out, and `b` claims the operation.  Then `a` sends, under token 1 while the row
carries token 2. -/
theorem fenced_worker_sends : ∃ c, Sample.deployment.Reachable c ∧ Forward c.point.trace ∧
    ∃ step ∈ c.point.trace, sender step = some (0, 0x11111111111141118111111111111111, 1) ∧
      ∃ row, step.before.store.ops.get? 0x11111111111141118111111111111111 = some row ∧
        row.fencingToken = 2 := by
  obtain ⟨c, reached, done⟩ := reachable_of_schedule (D := Sample.deployment)
    (fun c => decide (Forward c.point.trace) &&
      c.point.trace.any fun step =>
        sender step = some (0, 0x11111111111141118111111111111111, 1) &&
          (step.before.store.ops.get? 0x11111111111141118111111111111111).any
            fun row => row.fencingToken = 2)
    Sample.epoch (by decide)
    ([.act (.submit (Sample.request "11111111111141118111111111111111" "1")), .spawn "a"] ++
      Sample.serves 0 11 ++ [.act (.advance (31 * second)), .spawn "b"] ++ Sample.serves 1 1 ++
      Sample.serves 0 1) (by decide +kernel)
  obtain ⟨forward, made⟩ := Bool.and_eq_true_iff.mp done
  obtain ⟨step, member, holds⟩ := List.any_eq_true.mp made
  obtain ⟨sent, stale⟩ := Bool.and_eq_true_iff.mp holds
  obtain ⟨row, found, token⟩ := (Option.any_eq_true _ _).mp stale
  exact ⟨c, reached, of_decide_eq_true forward, step, member, of_decide_eq_true sent, row, found,
    of_decide_eq_true token⟩

end Runs

end Sluice.Protocol
