/-
# Kernel.Schema -- the database behind the store, and anybody with a connection to it

`migrations/001_schema.sql`: two tables, their constraints and the trigger, as rules for
statements that need not come from the program.  A transaction runs its statements in order
and takes effect as a whole or not at all.

Statements that are left out: any that writes the amount NaN, which `numeric` has and the
CHECK lets pass, an UPDATE that assigns `operation_id`, any UPDATE or DELETE of
`operation_events`, TRUNCATE, and changes of the schema itself.  The event ids a rolled back
transaction has drawn are given out again.
-/
import Sluice.Kernel.PostgresStore
import Sluice.Theory.Table

namespace Sluice.Kernel.PostgresStore

open Sluice.Theory

set_option autoImplicit false

/-- The table `operations`: its primary key, the type and check of the amount, the index
`operations_txid_unique` and the trigger `operations_transition_guard`. -/
def schema (now : Int) : TableRules UUID Operation Hex where
  key := (·.operationId)
  check row := 0 < row.amountUnits && row.amountUnits.natAbs < 10 ^ 38
  unique := (·.txid)
  trigger old new := (opTransitionGuard now old new).toOption

/-- A statement on either table. -/
inductive Statement where
  | insertOperation (row : Operation)
  /-- The rows the WHERE picks, in the order in which the database comes to them; their ids are
  not assigned. -/
  | updateOperations (visits : List UUID) (assign : Operation → Operation)
      (keeps : ∀ row, (assign row).operationId = row.operationId)
  | deleteOperations (visits : List UUID)
  | insertEvent (event : Event)

/-- `none`: the statement is an error.  Both tables are tied by the foreign key of the
events. -/
def execute (now : Int) (pg : PostgresStore) : Statement → Option PostgresStore
  | .insertOperation row =>
      ((schema now).insert pg.operations row).map fun table => { pg with operations := table }
  | .updateOperations visits assign _ =>
      ((schema now).update assign pg.operations visits).map fun table =>
        { pg with operations := table }
  | .deleteOperations visits =>
      if pg.operationEvents.any fun e => visits.contains e.operationId then none
      else some { pg with operations := visits.foldl Dict.erase pg.operations }
  | .insertEvent event =>
      if (pg.operations.get? event.operationId).isNone then none
      else some { pg with
        operationEvents := pg.operationEvents ++ [{ event with seq := pg.nextEventId }]
        nextEventId := pg.nextEventId + 1 }

def transaction (now : Int) (pg : PostgresStore) (statements : List Statement) :
    Option PostgresStore :=
  statements.foldlM (execute now) pg

/-- A call to the database store, beside transactions that lock the rows `locked`. -/
inductive PostgresCall where
  | insertNew (op : Operation)
  | claim (locked : List UUID) (states : List OpState) (limit : Nat) (worker : String)
      (lease : Seconds)
  | cas (req : CasRequest)
  | release (id : UUID) (token : Nat)

/-- The database after one call made at `now`. -/
def perform (pg : PostgresStore) (now : Int) : PostgresCall → PostgresStore
  | .insertNew op => (pg.insertNew now op).2
  | .claim locked states limit worker lease =>
      (pg.claimSkipping now locked states limit worker lease).2
  | .cas req => (pg.cas now req).2
  | .release id token => (pg.release now id token).2

/-- Whoever is connected: the program, or a hand-written transaction. -/
inductive Session where
  | call (made : PostgresCall)
  | sql (statements : List Statement)

def Session.run (pg : PostgresStore) (now : Int) : Session → PostgresStore
  | .call made => pg.perform now made
  | .sql statements => (pg.transaction now statements).getD pg

def runAll (pg : PostgresStore) (sessions : List (Int × Session)) : PostgresStore :=
  sessions.foldl (fun pg session => session.2.run pg session.1) pg

end Sluice.Kernel.PostgresStore
