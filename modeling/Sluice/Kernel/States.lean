/-
# Kernel.States -- the operation state machine

`states.py`: nine states, the whitelist of transitions, the terminal states as those
without a successor, and `canTransition`, which also lets every state write to
itself.
-/
import Mathlib.Data.List.Basic

namespace Sluice.Kernel

set_option autoImplicit false

inductive OpState where
  | requested
  | validated
  | signing
  | signed
  | broadcasting
  | broadcast
  | confirmed
  | failed
  | rejected
  deriving DecidableEq, Repr

namespace OpState

def all : List OpState :=
  [.requested, .validated, .signing, .signed, .broadcasting, .broadcast, .confirmed, .failed,
    .rejected]

def transitions : OpState → List OpState
  | .requested => [.validated, .rejected]
  | .validated => [.signing, .rejected]
  | .signing => [.signed, .failed]
  | .signed => [.broadcasting, .signing]
  | .broadcasting => [.broadcast, .signing, .failed]
  | .broadcast => [.confirmed, .signing, .failed]
  | .confirmed => []
  | .failed => []
  | .rejected => []

/-- The text of a state. -/
def value : OpState → String
  | .requested => "requested"
  | .validated => "validated"
  | .signing => "signing"
  | .signed => "signed"
  | .broadcasting => "broadcasting"
  | .broadcast => "broadcast"
  | .confirmed => "confirmed"
  | .failed => "failed"
  | .rejected => "rejected"

/-- A state is terminal when the table gives it no successor. -/
def terminal (s : OpState) : Bool := s.transitions.isEmpty

def claimable : List OpState := all.filter fun s => !s.terminal

/-- Same-state writes are always allowed. -/
def canTransition (src dst : OpState) : Bool := src = dst || dst ∈ src.transitions

theorem terminal_iff (s : OpState) :
    s.terminal = true ↔ s = .confirmed ∨ s = .failed ∨ s = .rejected := by
  cases s <;> decide

theorem mem_claimable_iff (s : OpState) : s ∈ claimable ↔ s.terminal = false := by
  cases s <;> decide

theorem terminal_of_mem_transitions {s dst : OpState} (next : dst ∈ s.transitions) :
    s.terminal = false := by
  cases s <;> first | rfl | cases next

theorem not_mem_transitions_self (s : OpState) : s ∉ s.transitions := by
  cases s <;> decide

end OpState

end Sluice.Kernel
