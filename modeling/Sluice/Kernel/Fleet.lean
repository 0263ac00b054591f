/-
# Kernel.Fleet -- workers that run until they are stopped

`run_forever` repeats `run_once` and looks at the worker's stop event before each pass; an
exception of a pass is logged and survived, a simulated crash is not an `Exception` and ends
the thread.  After a pass that moved nothing the loop waits on the event, for a polling interval
with a random jitter.  How long that takes is the scheduler's business; but a timeout that does
not fit 64 bits of nanoseconds raises, and the wait stands outside of the `try`.

A thread of the fleet is such a loop or a `drain`.  The shared world is that of `System`, the
stop events that are set, and the jitter that is drawn next.  A loop is a program only up to some
number of passes, so the number is part of the job: for every run there is one that is large
enough, and a loop that has used it up is `cut` and not returned.
-/
import Sluice.Kernel.System
import Sluice.Kernel.Timestamp
import Sluice.Theory.Shifts

namespace Sluice.Kernel

open Sluice.Theory

set_option autoImplicit false

/-! ## How long a wait may be -/

/-- `random.uniform(0.5, 1.5)`, in units of `2 ^ -53`. -/
structure Jitter where
  parts : Nat
  least : 2 ^ 52 ≤ parts
  most : parts ≤ 3 * 2 ^ 52

namespace Seconds

/-- The nanoseconds of a timeout of `x * jitter` seconds: a binary64 product, and another. -/
def nanoseconds (x : Nat × Nat) (parts : Nat) : Nat × Nat :=
  let timeout := binary64 (x.1 * parts) (x.2 * 2 ^ 53)
  binary64 (timeout.1 * 1000000000) timeout.2

/-- `Event.wait(x * jitter)` raises if the event is not set: the nanoseconds do not fit 64 bits.
What is not positive does not wait at all. -/
def outlasts (x : Seconds) (parts : Nat) : Bool :=
  match x with
  | .finite mantissa exponent =>
      let (n, d) := size mantissa exponent
      let ns := nanoseconds (binary64 n d) parts
      decide (0 < mantissa ∧ 2 ^ 63 * ns.2 ≤ ns.1)
  | .infinite => true
  | .nan => false

/-- A wait for such an interval can raise: with the longest jitter it does. -/
def tooLong (x : Seconds) : Bool := x.outlasts (3 * 2 ^ 52)

/-- Two products in a row are monotone in the first factor: a bound that one reaches the larger
one reaches. -/
theorem product_mono {n n' unit scale bound : Nat} (numerator : 0 < n) (denominator : 0 < unit)
    (factor : 0 < scale) (le : n ≤ n') :
    let once := binary64 n unit
    let once' := binary64 n' unit
    let twice := binary64 (once.1 * scale) once.2
    let twice' := binary64 (once'.1 * scale) once'.2
    bound * twice.2 ≤ twice.1 → bound * twice'.2 ≤ twice'.1 := by
  intro once once' twice twice' reached
  have numerator' := numerator.trans_le le
  have whole : 0 < once.2 := (binary64_rounded numerator denominator).1
  have whole' : 0 < once'.2 := (binary64_rounded numerator' denominator).1
  have number : 0 < once.1 * scale := Nat.mul_pos (binary64_pos numerator denominator) factor
  have number' : 0 < once'.1 * scale := Nat.mul_pos (binary64_pos numerator' denominator) factor
  have first : (once.1 : ℚ) / once.2 ≤ once'.1 / once'.2 :=
    binary64_mono numerator denominator denominator (by gcongr)
  have scaled : ((once.1 * scale : Nat) : ℚ) / once.2 ≤ (once'.1 * scale : Nat) / once'.2 := by
    rw [Nat.cast_mul, Nat.cast_mul, mul_div_right_comm, mul_div_right_comm]
    gcongr
  have second : (twice.1 : ℚ) / twice.2 ≤ twice'.1 / twice'.2 :=
    binary64_mono number whole whole' scaled
  have positive : (0 : ℚ) < twice.2 := Nat.cast_pos.mpr (binary64_rounded number whole).1
  have positive' : (0 : ℚ) < twice'.2 := Nat.cast_pos.mpr (binary64_rounded number' whole').1
  have reached : (bound : ℚ) * twice.2 ≤ twice.1 := by exact_mod_cast reached
  have reached' := (le_div_iff₀ positive').mp (((le_div_iff₀ positive).mpr reached).trans second)
  exact_mod_cast reached'

theorem tooLong_of_outlasts {x : Seconds} {jitter : Jitter}
    (outlasts : x.outlasts jitter.parts = true) : x.tooLong = true := by
  cases x with
  | infinite => rfl
  | nan => cases outlasts
  | finite mantissa exponent =>
      obtain ⟨positive, long⟩ := of_decide_eq_true outlasts
      have numerator : 0 < (size mantissa exponent).1 := by unfold size; positivity
      have denominator : 0 < (size mantissa exponent).2 := by unfold size; positivity
      have parts : 0 < jitter.parts := Nat.lt_of_lt_of_le (Nat.two_pow_pos 52) jitter.least
      have number := binary64_pos numerator denominator
      have whole := (binary64_rounded numerator denominator).1
      exact decide_eq_true ⟨positive, product_mono (Nat.mul_pos number parts)
        (Nat.mul_pos whole (Nat.two_pow_pos 53)) (Nat.succ_pos _)
        (Nat.mul_le_mul_left _ jitter.most) long⟩

/-- Half a second does not, three thousand years do. -/
example : tooLong (.finite 1 (-1)) = false ∧ tooLong (.finite 100000000000 0) = true := by
  decide +kernel

end Seconds

/-! ## Loops -/

/-- A `Worker` object: its name, and the `threading.Event` it stops on. -/
structure Employee where
  workerId : String
  stop : Nat
  deriving DecidableEq, Repr

/-- What a loop asks of its stop event. -/
inductive StopCall where
  | isSet (event : Nat)
  | wait (event : Nat)

abbrev StopReply : StopCall → Type
  | .isSet _ => Bool
  | .wait _ => Except Exn Unit

abbrev FleetCall := Call ⊕ StopCall

abbrev FleetReply : FleetCall → Type := Sum.elim Reply StopReply

/-- How a loop ended; `cut` is the end of the model and not of the loop. -/
inductive Ending where
  | returned
  | cut
  deriving DecidableEq, Repr

namespace Worker

/-- Ask the stop event. -/
def askStop {X : Type} (call : StopCall) : Program FleetCall FleetReply X (StopReply call) :=
  Program.ask (C := FleetCall) (.inr call)

/-- What `run_forever` makes of the outcome of a pass. -/
def touched : Except Exn Nat → Except Exn Nat
  | .ok count => .ok count
  | .error (.simulatedCrash point) => .error (.simulatedCrash point)
  | .error _ => .ok 0

/-- Wait, then go on. -/
def backOff (worker : Employee) (next : Program FleetCall FleetReply DrainError Ending) :
    Program FleetCall FleetReply DrainError Ending := do
  let waited : Except Exn Unit ← askStop (.wait worker.stop)
  match waited with
  | .error error => Program.raise (.raised error)
  | .ok () => next

def runForever (pipeline : Pipeline) (worker : Employee) :
    Nat → Program FleetCall FleetReply DrainError Ending
  | 0 => pure .cut
  | passes + 1 => do
      let stopped : Bool ← askStop (.isSet worker.stop)
      if stopped then pure .returned
      else
        let outcome ← (runOnce pipeline worker.workerId).embed.attempt
        match touched outcome with
        | .error error => Program.raise (.raised error)
        | .ok 0 => backOff worker (runForever pipeline worker passes)
        | .ok (_ + 1) => runForever pipeline worker passes

end Worker

/-- What a thread of the fleet is started for. -/
inductive Job where
  | runForever (worker : Employee) (passes : Nat)
  | drain (workerId : String)

structure FleetWorld where
  world : World
  /-- The stop events that are set. -/
  stopped : List Nat := []
  /-- What `random` draws next. -/
  jitter : Jitter := ⟨2 ^ 53, by decide, by decide⟩

inductive FleetAct where
  | beside (action : Act)
  /-- `Worker.stop`. -/
  | stop (event : Nat)
  | shuffle (jitter : Jitter)

namespace Deployment

variable (D : Deployment)

def fleetServe (choice : Option BroadcastCode) :
    (call : FleetCall) → FleetWorld → Option (FleetReply call × FleetWorld)
  | .inl call, fleet =>
      (D.serve choice call fleet.world).map fun (reply, w) => (reply, { fleet with world := w })
  | .inr (.isSet event), fleet => some (decide (event ∈ fleet.stopped), fleet)
  | .inr (.wait event), fleet =>
      if event ∉ fleet.stopped ∧ D.cfg.pollInterval.outlasts fleet.jitter.parts = true then
        some (.error .overflowError, fleet)
      else some (.ok (), fleet)

def fleetAct : FleetAct → FleetWorld → Option FleetWorld
  | .beside action, fleet => (D.act action fleet.world).map fun w => { fleet with world := w }
  | .stop event, fleet => some { fleet with stopped := event :: fleet.stopped }
  | .shuffle jitter, fleet => some { fleet with jitter := jitter }

def fleetEntry : Job → Program FleetCall FleetReply Worker.DrainError Ending
  | .runForever worker passes => Worker.runForever D.toPipeline worker passes
  | .drain workerId => do
      (Worker.drain D.toPipeline workerId).embed
      pure .returned

def fleet : Machine FleetWorld FleetCall FleetReply (Option BroadcastCode) FleetAct Job
    Worker.DrainError Ending where
  serve := D.fleetServe
  act := D.fleetAct
  entry := D.fleetEntry

end Deployment

/-- World, history and running threads of a fleet. -/
abbrev FleetRun := Configuration FleetWorld FleetCall FleetReply (Option BroadcastCode) FleetAct
  Worker.DrainError Ending

/-- `c` is reached in some run over a fresh store and node, with nobody stopped yet. -/
def Deployment.ReachableFleet (D : Deployment) (c : FleetRun) : Prop :=
  ∃ now solidityLag inclusionDelay nodeSigner, IsDatetime now ∧
    D.fleet.Reaches (.start { world := .fresh now solidityLag inclusionDelay nodeSigner }) c

end Sluice.Kernel
