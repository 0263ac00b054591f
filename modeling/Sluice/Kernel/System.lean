/-
# Kernel.System -- workers, intake, clock and chain over one store

The shared world is the clock, the store, the node and the crash switch.  A worker's
`run_once` is one thread; any number of them run at once, and each call is one step of
the machine.  Everything else happens between such steps: a submission (a single
`insert_new` once its payload is validated), a move of the clock in either direction,
new blocks, a fault script, an armed crash point.

Instants are `datetime` values, so the clock stays within the calendar.  It also keeps clear of
the end of the calendar by the length of a lease, unless it is that close to begin with
(`InSeason`): a claim that could compute its lease is never followed by a write that cannot.
What such a write would leave is a matter of the store alone (`MemoryStore.cas`).

A deployment may also have a *declining* node: one that turns down any send without
looking at it and answers with a code of its choice, as long as that code does not
claim acceptance.  The mock itself never declines.
-/
import Sluice.Kernel.Intake
import Sluice.Kernel.Pipeline
import Sluice.Theory.Interleaving

namespace Sluice.Kernel

open Sluice.Theory

set_option autoImplicit false

/-- `crashpoints.py`: how often each point still kills, and where it did. -/
structure CrashSwitch where
  armed : CrashPoint → Nat := fun _ => 0
  tripped : List CrashPoint := []

namespace CrashSwitch

def arm (switch : CrashSwitch) (point : CrashPoint) (times : Nat) : CrashSwitch :=
  { switch with armed := fun p => if p = point then switch.armed p + times else switch.armed p }

/-- Whether the caller dies at `point`. -/
def here (switch : CrashSwitch) (point : CrashPoint) : Bool × CrashSwitch :=
  if switch.armed point > 0 then
    (true,
      { armed := fun p => if p = point then switch.armed p - 1 else switch.armed p
        tripped := switch.tripped ++ [point] })
  else (false, switch)

end CrashSwitch

structure World where
  now : Int
  store : MemoryStore
  node : MockTronNode
  crash : CrashSwitch := {}

/-- An empty store beside a node of the given geometry, constructed at `now`. -/
def World.fresh (now : Int) (solidityLag : Int := 2) (inclusionDelay : Int := 1)
    (nodeSigner : MockSigner := {}) : World where
  now := now
  store := .empty
  node := .genesis now solidityLag inclusionDelay nodeSigner

/-- A pipeline, and whether its node may decline sends. -/
structure Deployment extends Pipeline where
  declining : Bool := false

/-- What happens beside the workers. -/
inductive Act where
  | submit (payload : Payload)
  | advance (delta : Int)
  | produceBlocks (n : Nat)
  | script (channel : Channel) (faults : List Fault)
  | arm (point : CrashPoint) (times : Nat)

namespace Deployment

variable (D : Deployment)

/-- The result of a submission made in this world. -/
def submit (w : World) (payload : Payload) : Except IntakeError SubmitResult × MemoryStore :=
  submitWithdrawal D.sha256 D.cfg w.store w.now payload

/-- A lease that begins now ends within the calendar. -/
def InSeason (now : Int) : Prop := (D.cfg.leaseSeconds.after now).isSome = true

instance (now : Int) : Decidable (D.InSeason now) := inferInstanceAs (Decidable (_ = true))

def act : Act → World → Option World
  | .submit payload, w => some { w with store := (D.submit w payload).2 }
  | .advance delta, w =>
      if IsDatetime (w.now + delta) ∧ (D.InSeason w.now → D.InSeason (w.now + delta)) then
        some { w with now := w.now + delta }
      else none
  | .produceBlocks n, w => some { w with node := w.node.produceBlocks w.now n }
  | .script channel faults, w => some { w with node := w.node.script faults channel }
  | .arm point times, w => some { w with crash := w.crash.arm point times }

/-- One send: processed by the node, or declined with the chosen code. -/
def broadcast (choice : Option BroadcastCode) (tx : SignedTx) (worker : String) (w : World) :
    Option (Except SendError BroadcastResult × World) :=
  match choice with
  | none =>
      let (answer, node) := w.node.broadcast D.sha256 w.now tx (some worker)
      some (answer, { w with node := node })
  | some code =>
      if D.declining && !code.accepted then
        let (answer, node) := w.node.decline tx (some worker) code
        some (answer, { w with node := node })
      else none

def serve (choice : Option BroadcastCode) : (call : Call) → World → Option (Reply call × World)
  | .claim states limit worker lease, w =>
      let (ops, store) := w.store.claim w.now states limit worker lease
      some (ops, { w with store := store })
  | .cas req, w =>
      let (row, store) := w.store.cas w.now req
      some (row, { w with store := store })
  | .release id token, w => some ((), { w with store := w.store.release w.now id token })
  | .now, w => some (w.now, w)
  | .refBlock, w => some (w.node.refBlock, w)
  | .broadcast _ _ tx worker, w => D.broadcast choice tx worker w
  | .findTx txid, w =>
      let (status, node) := w.node.findTx w.now txid
      some (status, { w with node := node })
  | .solidNow, w => some (w.node.solidNow, w)
  | .solidBlock, w => some (w.node.solidBlock, w)
  | .here point, w =>
      let (dies, crash) := w.crash.here point
      some (dies, { w with crash := crash })

/-- The mock answers every call. -/
theorem serve_mock (call : Call) (w : World) : (D.serve none call w).isSome = true := by
  cases call <;> rfl

/-- One call with nobody else running, answered by the mock. -/
def alone (call : Call) (w : World) : Reply call × World :=
  (D.serve none call w).get (D.serve_mock call w)

theorem serve_eq_alone (call : Call) (w : World) : D.serve none call w = some (D.alone call w) :=
  (Option.some_get _).symm

/-- Any number of workers; a thread is started by naming its worker. -/
def machine : Machine World Call Reply (Option BroadcastCode) Act String Exn Nat where
  serve := D.serve
  act := D.act
  entry := Worker.runOnce D.toPipeline

end Deployment

/-- What happened in one step of the system. -/
abbrev Step := Label World Call Reply (Option BroadcastCode) Act

/-- World and history. -/
abbrev Moment := Point World Call Reply (Option BroadcastCode) Act

/-- World, history and running workers. -/
abbrev Run := Configuration World Call Reply (Option BroadcastCode) Act Exn Nat

/-- `c` is reached in some run over a fresh store and node. -/
def Deployment.Reachable (D : Deployment) (c : Run) : Prop :=
  ∃ now solidityLag inclusionDelay nodeSigner, IsDatetime now ∧
    D.machine.Reaches (.start (.fresh now solidityLag inclusionDelay nodeSigner)) c

/-- The clock never went backwards. -/
def Forward (trace : List Step) : Prop := ∀ step ∈ trace, step.before.now ≤ step.after.now

theorem Forward.tail {step : Step} {trace : List Step} (forward : Forward (step :: trace)) :
    Forward trace :=
  fun old member => forward old (List.mem_cons_of_mem _ member)

theorem Forward.head {step : Step} {trace : List Step} (forward : Forward (step :: trace)) :
    step.before.now ≤ step.after.now := forward step List.mem_cons_self

theorem Forward.suffix {newer older : List Step} (forward : Forward (newer ++ older)) :
    Forward older :=
  fun step member => forward step (List.mem_append_right _ member)

end Sluice.Kernel
