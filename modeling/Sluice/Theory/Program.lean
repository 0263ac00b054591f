/-
# Theory.Program -- programs that talk to their surroundings one call at a time

A `Program` either returns, raises, or makes one call and goes on with the reply.
Nothing else happens between two calls, so a program is exactly as interruptible
as its surroundings let it be between one reply and its next request.

* `bind` and `attempt` are sequencing and `try`; a raised exception skips the rest.
* `run` drives a program to its end against a surrounding that answers nobody
  else meanwhile.  It is total: programs are well-founded trees.
* `Yields` is the postcondition of such a run, with one rule per way to build a program.
* `Ensures` says how a program can end when all that is known of a reply is that the
  surroundings can give it, whatever happened since the last one.
-/
import Mathlib.Logic.Function.Basic

namespace Sluice.Theory

set_option autoImplicit false

/-- Return, raise, or make one call and continue with its reply. -/
inductive Program (C : Type) (R : C → Type) (X α : Type) where
  | done (value : α)
  | fail (error : X)
  | call (request : C) (next : R request → Program C R X α)

namespace Program

variable {C : Type} {R : C → Type} {X Y α β : Type}

def bind : Program C R X α → (α → Program C R X β) → Program C R X β
  | .done value, next => next value
  | .fail error, _ => .fail error
  | .call request rest, next => .call request fun reply => (rest reply).bind next

instance : Monad (Program C R X) where
  pure := .done
  bind := bind

/-- One call, its reply returned. -/
def ask (request : C) : Program C R X (R request) := .call request .done

def raise (error : X) : Program C R X α := .fail error

/-- Run to the end and hand the outcome over as a value: the body of a `try`. -/
def attempt : Program C R X α → Program C R Y (Except X α)
  | .done value => .done (.ok value)
  | .fail error => .done (.error error)
  | .call request next => .call request fun reply => (next reply).attempt

/-- Drive a program to its end with nobody else running. -/
def run {W : Type} (serve : (request : C) → W → R request × W) :
    Program C R X α → W → Except X α × W
  | .done value, world => (.ok value, world)
  | .fail error, world => (.error error, world)
  | .call request next, world =>
      let answered := serve request world
      (next answered.1).run serve answered.2

@[simp] theorem done_bind (value : α) (next : α → Program C R X β) :
    (Program.done value : Program C R X α).bind next = next value := rfl

theorem bind_assoc {β γ : Type} (first : α → Program C R X β) (second : β → Program C R X γ) :
    ∀ program : Program C R X α, (program.bind first).bind second =
      program.bind fun value => (first value).bind second
  | .done _ => rfl
  | .fail _ => rfl
  | .call request next => congrArg (Program.call request)
      (funext fun reply => bind_assoc first second (next reply))

@[simp] theorem bind_done : ∀ program : Program C R X α, program.bind .done = program
  | .done _ => rfl
  | .fail _ => rfl
  | .call request next =>
      congrArg (Program.call request) (funext fun reply => bind_done (next reply))

/-! ## With nobody else running -/

section Run

variable {W : Type} (serve : (request : C) → W → R request × W)

/-- How a run ends meets `post`. -/
def Yields (post : Except X α → W → Prop) (program : Program C R X α) (world : W) : Prop :=
  post (program.run serve world).1 (program.run serve world).2

theorem run_bind (next : α → Program C R X β) : ∀ (program : Program C R X α) (world : W),
    (program.bind next).run serve world = match program.run serve world with
      | (.ok value, world') => (next value).run serve world'
      | (.error error, world') => (.error error, world')
  | .done _, _ => rfl
  | .fail _, _ => rfl
  | .call request rest, world => run_bind next (rest (serve request world).1) _

theorem run_attempt : ∀ (program : Program C R X α) (world : W),
    (program.attempt : Program C R Y (Except X α)).run serve world =
      (.ok (program.run serve world).1, (program.run serve world).2)
  | .done _, _ => rfl
  | .fail _, _ => rfl
  | .call request rest, world => run_attempt (rest (serve request world).1) _

variable {serve}

theorem Yields.bind {post : Except X β → W → Prop} {next : α → Program C R X β}
    {program : Program C R X α} {world : W}
    (ends : program.Yields serve (fun outcome world' => match outcome with
      | .ok value => (next value).Yields serve post world'
      | .error error => post (.error error) world') world) :
    (program.bind next).Yields serve post world := by
  unfold Yields at ends ⊢
  rw [run_bind]
  rcases ended : program.run serve world with ⟨_ | _, _⟩ <;> rw [ended] at ends <;> exact ends

theorem Yields.ask {post : Except X β → W → Prop} {request : C}
    {next : R request → Program C R X β} {world : W}
    (rest : (next (serve request world).1).Yields serve post (serve request world).2) :
    ((Program.ask request).bind next).Yields serve post world := rest

/-- What every call keeps, every run keeps. -/
theorem run_keeps {J : W → Prop} (keeps : ∀ request world, J world → J (serve request world).2) :
    ∀ (program : Program C R X α) (world : W), J world → J (program.run serve world).2
  | .done _, _, holds => holds
  | .fail _, _, holds => holds
  | .call request next, world, holds => run_keeps keeps (next _) _ (keeps request world holds)

end Run

/-! ## Against any surroundings -/

/-- However the program ends, it meets `post`, if each reply is a possible one. -/
def Ensures (possible : (request : C) → R request → Prop) (post : Except X α → Prop) :
    Program C R X α → Prop
  | .done value => post (.ok value)
  | .fail error => post (.error error)
  | .call request next => ∀ reply, possible request reply → (next reply).Ensures possible post

end Program

end Sluice.Theory
