/-
# Kernel.PostgresSystem -- the same workers over the database store

The shared world of `System` with the database in place of the memory store.  The database
decides more for itself: which rows other transactions have locked when a claim scans the
table, and in which order it returns what was claimed.  Clock, node and crash switch are
served as before.

A worker does not tell the exceptions of the driver apart, so a refused statement is answered as
one `databaseError`, whatever was wrong with it.
-/
import Sluice.Kernel.PostgresStore
import Sluice.Kernel.System

namespace Sluice.Kernel

open Sluice.Theory

set_option autoImplicit false

structure PostgresWorld where
  now : Int
  store : PostgresStore
  node : MockTronNode
  crash : CrashSwitch := {}

/-- A migrated database beside a node of the given geometry, constructed at `now`. -/
def PostgresWorld.fresh (now : Int) (solidityLag : Int := 2) (inclusionDelay : Int := 1)
    (nodeSigner : MockSigner := {}) : PostgresWorld where
  now := now
  store := .empty
  node := .genesis now solidityLag inclusionDelay nodeSigner

/-- What the surroundings decide about one call. -/
structure PostgresChoice where
  /-- For a send: the code of a declining node. -/
  code : Option BroadcastCode := none
  /-- For a claim: the rows that other transactions have locked. -/
  locked : List UUID := []
  /-- For a claim: the claimed rows, in the order in which they are returned. -/
  returned : List Operation := []

inductive PostgresIntakeError where
  | intake (error : IntakeError)
  | database (error : PostgresStore.InsertError)

/-- `submit_withdrawal` over the database. -/
def submitToPostgres (sha256 : Bytes → Bytes) (cfg : Config) (store : PostgresStore) (now : Int)
    (payload : Payload) : Except PostgresIntakeError SubmitResult × PostgresStore :=
  match validated sha256 cfg payload with
  | .error e => (.error (.intake e), store)
  | .ok op =>
      match store.insertNew now op with
      | (.error e, store) => (.error (.database e), store)
      | (.ok (row, created), store) =>
          if !created ∧ row.requestHash ≠ op.requestHash then
            (.error (.intake (.payloadMismatch op.operationId)), store)
          else (.ok ⟨row, created⟩, store)

namespace Deployment

variable (D : Deployment)

/-- The part of the world that is not the store. -/
def beside (w : PostgresWorld) : World := ⟨w.now, .empty, w.node, w.crash⟩

def actPostgres : Act → PostgresWorld → Option PostgresWorld
  | .submit payload, w =>
      some { w with store := (submitToPostgres D.sha256 D.cfg w.store w.now payload).2 }
  | action, w => (D.act action (beside w)).map fun w' => ⟨w'.now, w.store, w'.node, w'.crash⟩

def servePostgres (choice : PostgresChoice) :
    (call : Call) → PostgresWorld → Option (Reply call × PostgresWorld)
  | .claim states limit worker lease, w =>
      match w.store.claimSkipping w.now choice.locked states limit worker lease with
      | (.ok ops, store) =>
          if choice.returned.Perm ops then some (.ok choice.returned, { w with store := store })
          else none
      | (.error _, _) => some (.error .databaseError, w)
  | .cas req, w =>
      match w.store.cas w.now req with
      | (.ok row, store) => some (.ok row, { w with store := store })
      | (.error (.illegalTransition e), _) => some (.error (.illegalTransition e), w)
      | (.error _, _) => some (.error .databaseError, w)
  | .release id token, w => some ((), { w with store := (w.store.release w.now id token).2 })
  | call, w => (D.serve choice.code call (beside w)).map fun (reply, w') =>
      (reply, ⟨w'.now, w.store, w'.node, w'.crash⟩)

def postgresMachine : Machine PostgresWorld Call Reply PostgresChoice Act String Exn Nat where
  serve := D.servePostgres
  act := D.actPostgres
  entry := Worker.runOnce D.toPipeline

end Deployment

abbrev PostgresRun := Configuration PostgresWorld Call Reply PostgresChoice Act Exn Nat

/-- `c` is reached in some run over a migrated database and a fresh node. -/
def Deployment.ReachablePostgres (D : Deployment) (c : PostgresRun) : Prop :=
  ∃ now solidityLag inclusionDelay nodeSigner, IsDatetime now ∧
    D.postgresMachine.Reaches (.start (.fresh now solidityLag inclusionDelay nodeSigner)) c

end Sluice.Kernel
