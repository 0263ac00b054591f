/-
# Protocol.Conduct -- one pass of a worker, judged by what it asks and hears

Whatever the store, the node and the other workers do, a pass of a worker keeps to a few
rules.  They are proved here about the dialogue of the pass alone; for the handlers they are a
`Logic` whose places are dialogues (`conduct`).

* `Proper`: every call carries the worker's own name, and every write renews the lease or
  leaves the state as it is;
* a pass claims once, with its first call (`Fits`);
* a crash ends the pass on the spot, nothing else ends it with a crash (`struck`), and what else
  it raises was raised by the store (`Blamed`);
* the operations whose state the pass moved are those it counts (`Counts`): it never reports
  more, and reports fewer only after a write that the store turned down (`rough`).

All that is asked of the surroundings is `Credible`: a committed row has the id, token and
state of its request, a claim lists no operation twice, and a transaction in a block has one.
For the last rule the store must also have kept the worker's own writes apart (`Consistent`):
under one token it commits nothing from a state that the last write has left.
-/
import Mathlib.Data.Finset.Card
import Mathlib.Data.Finset.Lattice.Basic
import Sluice.Protocol.Walk
import Sluice.Theory.Dialogue
import Sluice.Theory.Lists

namespace Sluice.Protocol

open Sluice.Theory Sluice.Kernel

set_option autoImplicit false

/-- A worker's calls with their replies. -/
abbrev Talk := Dialogue Call Reply

/-- What any store and node answer. -/
def Credible : (call : Call) → Reply call → Prop
  | .claim .., .ok ops => (ops.map (·.operationId)).Nodup
  | .cas req, .ok (some row) => row.operationId = req.operationId ∧
      row.fencingToken = req.fencingToken ∧ row.state = req.toState
  | .findTx _, .ok status => status.result = .included → status.block.isSome = true
  | _, _ => True

/-- The crash points that struck. -/
def deathOf : (call : Call) × Reply call → List CrashPoint
  | ⟨.here point, true⟩ => [point]
  | _ => []

/-- The operation whose state a committed write changed. -/
def moveOf : (call : Call) × Reply call → List UUID
  | ⟨.cas req, .ok (some _)⟩ => if req.fromState = req.toState then [] else [req.operationId]
  | _ => []

/-- A write that the store turned down. -/
def roughOf : (call : Call) × Reply call → Bool
  | ⟨.cas _, .ok (some _)⟩ => false
  | ⟨.cas _, _⟩ => true
  | _ => false

/-- What the store raised. -/
def raisedBy : (call : Call) × Reply call → Option StoreError
  | ⟨.claim .., .error e⟩ => some e
  | ⟨.cas _, .error e⟩ => some e
  | _ => none

/-- The state a committed write of this claim left. -/
def leftBy (id : UUID) (token : Nat) : (call : Call) × Reply call → Option OpState
  | ⟨.cas req, .ok (some _)⟩ =>
      if req.operationId = id ∧ req.fencingToken = token then some req.toState else none
  | _ => none

def deaths (d : Talk) : List CrashPoint := d.flatMap deathOf

def moves (d : Talk) : List UUID := d.flatMap moveOf

def rough (d : Talk) : Bool := d.any roughOf

/-- Where the last committed write of this claim left the operation. -/
def standing (id : UUID) (token : Nat) (d : Talk) : Option OpState :=
  (d.filterMap (leftBy id token)).getLast?

/-- Nothing was committed under a claim from a state that its last write had left. -/
def Consistent (d : Talk) : Prop :=
  ∀ before req row after, d = before ++ ⟨.cas req, .ok (some row)⟩ :: after →
    ∀ state, standing req.operationId req.fencingToken before = some state → req.fromState = state

/-- The crash an outcome reports. -/
def struck {α : Type} : Except Exn α → List CrashPoint
  | .error (.simulatedCrash point) => [point]
  | _ => []

/-- A loop or a pass raises nothing but crashes and what the store raised. -/
def Blamed {α : Type} (d : Talk) (o : Except Exn α) : Prop :=
  ∀ e, o = .error e → (∃ point, e = .simulatedCrash point) ∨
    ∃ error, e = .store error ∧ ∃ said ∈ d, raisedBy said = some error

section Lists

variable (said : (call : Call) × Reply call) (d d' : Talk)

@[simp] theorem deaths_nil : deaths [] = [] := rfl

@[simp] theorem moves_nil : moves [] = [] := rfl

@[simp] theorem rough_nil : rough [] = false := rfl

@[simp] theorem deaths_cons : deaths (said :: d) = deathOf said ++ deaths d := rfl

@[simp] theorem moves_cons : moves (said :: d) = moveOf said ++ moves d := rfl

@[simp] theorem rough_cons : rough (said :: d) = (roughOf said || rough d) := rfl

@[simp] theorem deaths_append : deaths (d ++ d') = deaths d ++ deaths d' := List.flatMap_append

@[simp] theorem moves_append : moves (d ++ d') = moves d ++ moves d' := List.flatMap_append

@[simp] theorem rough_append : rough (d ++ d') = (rough d || rough d') := List.any_append

theorem standing_append (id : UUID) (token : Nat) :
    standing id token (d ++ d') = (standing id token d').or (standing id token d) := by
  rw [standing, List.filterMap_append, List.getLast?_append]
  rfl

end Lists

theorem Consistent.left {d d' : Talk} (consistent : Consistent (d ++ d')) : Consistent d := by
  intro before req row after split
  exact consistent before req row (after ++ d') (by simp [split])

theorem Consistent.right {d d' : Talk} (consistent : Consistent (d ++ d')) : Consistent d' := by
  intro before req row after split state left
  refine consistent (d ++ before) req row after (by simp [split]) state ?_
  rw [standing_append, left]
  rfl

theorem Consistent.snoc {d : Talk} {said : (call : Call) × Reply call} (consistent : Consistent d)
    (last : ∀ req row, said = ⟨.cas req, .ok (some row)⟩ → ∀ state,
      standing req.operationId req.fencingToken d = some state → req.fromState = state) :
    Consistent (d ++ [said]) := by
  intro before req row after split
  rcases split_snoc split with ⟨rest, old⟩ | ⟨rfl, same⟩
  · exact consistent before req row rest old
  · exact last req row same

theorem Blamed.append {α : Type} {d d' : Talk} {o : Except Exn α} (blamed : Blamed d' o) :
    Blamed (d ++ d') o := by
  intro e same
  refine (blamed e same).imp_right ?_
  rintro ⟨error, store, said, member, raised⟩
  exact ⟨error, store, said, List.mem_append_right _ member, raised⟩

/-! ## The rules -/

/-- The calls worker `w` makes. -/
def Proper (cfg : Config) (w : String) : Call → Prop
  | .claim states limit worker lease => states = OpState.claimable ∧ limit = cfg.claimBatch ∧
      worker = w ∧ lease = cfg.leaseSeconds
  | .cas req => req.workerId = some w ∧
      (req.renewLeaseSeconds = some cfg.leaseSeconds ∨ req.fromState = req.toState)
  | .broadcast _ _ _ worker => worker = w
  | _ => True

/-- The call with which a pass begins. -/
def opens : Call → Bool
  | .claim .. => true
  | _ => false

/-- What a pass asks once it has claimed; nobody asks anything after death. -/
def Within (cfg : Config) (w : String) (d : Talk) (call : Call) : Prop :=
  deaths d = [] ∧ Proper cfg w call ∧ opens call = false

/-- What a pass asks: it claims once, first of all. -/
def Fits (cfg : Config) (w : String) (d : Talk) (call : Call) : Prop :=
  deaths d = [] ∧ Proper cfg w call ∧ (opens call = true → d = [])

/-- What a dialogue says to a handler that was called with `first`. -/
def told (w : String) (first : Operation) (d : Talk) : Grounds where
  clock _ now := ⟨.now, now⟩ ∈ d
  drafted _ _ := True
  built _ _ := True
  carries _ tx := first.signedTx = some tx
  troubled := True
  answered _ _ := True
  raised tx := ∃ id token, ⟨.broadcast id token tx w, .error .typeError⟩ ∈ d
  recorded _ := True
  unsettled _ := True
  holds _ _ := True
  solid _ := True
  looked _ := True
  timed _ _ := True
  audited _ _ _ := True
  passed _ := True
  lapsed _ := True
  fallen := True

/-- How the dialogue stands when a handler that was called with `first` holds `op`. -/
structure Holds (first : Operation) (d : Talk) (op : Operation) : Prop where
  alive : deaths d = []
  own : ∀ id ∈ moves d, id = first.operationId
  operationId : op.operationId = first.operationId
  fencingToken : op.fencingToken = first.fencingToken
  still : moves d = [] ↔ op.state = first.state
  stands : moves d ≠ [] →
    standing first.operationId first.fencingToken d = some op.state

/-- Why a handler that was called with `first` raised. -/
def Broke (self : Pipeline) (w : String) (first : Operation) (d : Talk) (e : Exn) : Prop :=
  (∃ point, e = .simulatedCrash point) ∨
  (rough d = true ∧ (e = .lostClaim ∨ ∃ error req, e = .store error ∧
    ⟨.cas req, .error error⟩ ∈ d ∧ req.renewLeaseSeconds = some self.cfg.leaseSeconds ∧
    OpState.canTransition req.fromState req.toState = true)) ∨
  ∃ op, Holds first d op ∧ Leg op first ∧ (op.state = first.state → op = first) ∧
    Faults self (told w first d) op first e

/-- A handler that raises has been turned down, or has moved nothing, or leaves the operation
in another state than it found it in. -/
theorem Broke.turned {self : Pipeline} {w : String} {first : Operation} {d : Talk} {e : Exn}
    (broke : Broke self w first d e) (alive : ∀ point, e ≠ .simulatedCrash point) :
    rough d = true ∨ moves d = [] ∨ ∃ state,
      standing first.operationId first.fencingToken d = some state ∧ state ≠ first.state := by
  rcases broke with ⟨point, same⟩ | ⟨rough, _⟩ | ⟨op, holds, _⟩
  · exact absurd same (alive point)
  · exact .inl rough
  · by_cases still : moves d = []
    · exact .inr (.inl still)
    · exact .inr (.inr ⟨op.state, holds.stands still, mt holds.still.mpr still⟩)

/-- How a handler that was called with `first` may end. -/
structure Went (pipeline : Pipeline) (w : String) (first : Operation) (d : Talk)
    (o : Except Exn Operation) : Prop where
  died : deaths d = struck o
  own : ∀ id ∈ moves d, id = first.operationId
  next : ∀ row, o = .ok row → Holds first d row ∧ (row.state.terminal = true → moves d ≠ [])
  error : ∀ e, o = .error e → Broke pipeline w first d e

section Rules

variable {possible : (call : Call) → Reply call → Prop} {self : Pipeline} {w : String}
  {first op row : Operation} {d : Talk}

/-- The handler keeps to the rules from dialogue `d` on. -/
def Behaves (possible : (call : Call) → Reply call → Prop) (self : Pipeline) (w : String)
    (first : Operation) (d : Talk) (handler : Handler Operation) : Prop :=
  handler.Tells possible (fun d' => Within self.cfg w (d ++ d'))
    (fun d' => Went self w first (d ++ d'))

theorem Behaves.call {call : Call} {next : Reply call → Handler Operation} (alive : deaths d = [])
    (proper : Proper self.cfg w call) (plain : opens call = false)
    (rest : ∀ reply, possible call reply →
      Behaves possible self w first (d ++ [⟨call, reply⟩]) (next reply)) :
    Behaves possible self w first d (.call call next) := by
  refine ⟨⟨by simpa using alive, proper, plain⟩, fun reply given => ?_⟩
  have tells := rest reply given
  simp only [Behaves, List.append_assoc, List.singleton_append] at tells
  exact tells

theorem Behaves.raise {e : Exn} (died : deaths d = struck (.error e : Except Exn Operation))
    (own : ∀ id ∈ moves d, id = first.operationId) (broke : Broke self w first d e) :
    Behaves possible self w first d (Program.raise e) := by
  refine Program.Tells.raise ?_
  rw [List.append_nil]
  refine ⟨died, own, ?_, ?_⟩
  · rintro _ ⟨⟩
  · rintro _ ⟨⟩
    exact broke

/-- A reply that tells of no death and no move. -/
theorem Holds.hears (holds : Holds first d op) {call : Call} (reply : Reply call)
    (alive : deathOf ⟨call, reply⟩ = []) (still : moveOf ⟨call, reply⟩ = [])
    (quiet : leftBy first.operationId first.fencingToken ⟨call, reply⟩ = none) :
    Holds first (d ++ [⟨call, reply⟩]) op := by
  refine ⟨by simp [holds.alive, alive], by simpa [still] using holds.own, holds.operationId,
    holds.fencingToken, by simpa [still] using holds.still, fun moved => ?_⟩
  rw [standing_append, standing, List.filterMap_cons, quiet]
  exact holds.stands (by simpa [still] using moved)

theorem told_keeps (said' : (call : Call) × Reply call) :
    (told w first d).Keeps (told w first (d ++ [said'])) where
  built _ _ known := known
  carries _ _ known := known
  answered _ _ known := known
  recorded _ known := known
  holds _ _ _ _ known := known
  solid _ known := known
  lapsed _ known := known

/-- A committed write, told. -/
theorem Holds.committed (holds : Holds first d op) (leg : Leg op first) {toState : OpState}
    {sets : Sets} {detail : Detail} (write : Writes self (told w first d) op toState sets detail)
    (given : Credible (.cas (casRequest self.cfg op toState w sets detail)) (.ok (some row))) :
    Holds first
      (d ++ [⟨.cas (casRequest self.cfg op toState w sets detail), .ok (some row)⟩]) row := by
  obtain ⟨id, token, state⟩ := given
  have id : row.operationId = op.operationId := id
  have token : row.fencingToken = op.fencingToken := token
  have state : row.state = toState := state
  -- the write itself moves the operation exactly if it changes its state
  have moved : moves (d ++ [⟨.cas (casRequest self.cfg op toState w sets detail),
      .ok (some row)⟩]) = moves d ++ if op.state = toState then [] else [op.operationId] := by
    simp [moveOf, casRequest, snapshotRequest]
  refine ⟨by simp [holds.alive, deathOf], ?_, id.trans holds.operationId,
    token.trans holds.fencingToken, ?_, fun _ => ?_⟩
  · intro id' member
    rw [moved, List.mem_append] at member
    rcases member with old | new
    · exact holds.own id' old
    · split at new
      · cases new
      · exact (List.mem_singleton.mp new).trans holds.operationId
  · rw [moved, state]
    by_cases same : op.state = first.state
    · rw [holds.still.mpr same, ← same]
      by_cases kept : op.state = toState
      · simp [kept]
      · simp [kept, Ne.symm kept]
    · have away := mt holds.still.mp same
      simp [away, write.onward leg same]
  · rw [standing_append, state]
    simp [standing, leftBy, casRequest, snapshotRequest, holds.operationId, holds.fencingToken]

theorem Behaves.commit (credible : ∀ call reply, possible call reply → Credible call reply)
    (holds : Holds first d op) (leg : Leg op first) {toState : OpState} {sets : Sets}
    {detail : Detail} (write : Writes self (told w first d) op toState sets detail)
    {next : Operation → Handler Operation}
    (rest : ∀ row, Holds first (d ++ [⟨.cas (casRequest self.cfg op toState w sets detail),
        .ok (some row)⟩]) row → row.state = toState →
      Behaves possible self w first (d ++ [⟨.cas (casRequest self.cfg op toState w sets detail),
        .ok (some row)⟩]) (next row)) :
    Behaves possible self w first d ((self.cas op toState w sets detail).bind next) := by
  refine .call holds.alive ⟨rfl, .inl rfl⟩ rfl fun reply given => ?_
  rcases reply with e | _ | row
  · refine .raise (by simp [holds.alive, deathOf, struck]) (by simpa [moveOf] using holds.own) ?_
    exact .inr (.inl ⟨by simp [roughOf], .inr ⟨e, _, rfl, List.mem_concat_self, rfl, write.legal⟩⟩)
  · refine .raise (by simp [holds.alive, deathOf, struck]) (by simpa [moveOf] using holds.own) ?_
    exact .inr (.inl ⟨by simp [roughOf], .inl rfl⟩)
  · have given := credible _ _ given
    exact rest row (holds.committed leg write given) given.2.2

/-- A handler that returns what it holds. -/
theorem Behaves.pure (holds : Holds first d op) (moved : op.state.terminal = true → moves d ≠ []) :
    Behaves possible self w first d (pure op) := by
  refine Program.Tells.pure ?_
  rw [List.append_nil]
  refine ⟨holds.alive, holds.own, ?_, ?_⟩
  · rintro _ ⟨⟩
    exact ⟨holds, moved⟩
  · rintro _ ⟨⟩

/-- **The handlers, told.** -/
def conduct (credible : ∀ call reply, possible call reply → Credible call reply)
    (self : Pipeline) (w : String) (first : Operation) : Logic self w first where
  Place := Talk
  grounds := told w first
  Start d := Holds first d first
  Has := Holds first
  judge := Behaves possible self w first
  start holds := holds
  carries _ signed := signed
  pause holds _ pauses := by
    refine .pure holds fun ended => ?_
    cases pauses with
    | unanswered state => rcases state with state | state <;> rw [state] at ended <;> cases ended
    | busy state | unsettled state | alive state => rw [state] at ended; cases ended
  fault holds leg only faults := by
    refine .raise ?_ holds.own (.inr (.inr ⟨_, holds, leg, only, faults⟩))
    cases faults <;> exact holds.alive
  write := by
    intro d op toState sets detail holds leg write _
    rw [← Program.bind_done (self.cas op toState w sets detail)]
    refine .commit credible holds leg write fun row holds' state => .pure holds' fun ended => ?_
    rw [moves_append]
    have changed : op.state ≠ toState := by
      rintro rfl
      rw [state, write.live] at ended
      cases ended
    simp [moveOf, casRequest, snapshotRequest, changed]
  commit holds leg write _ rest :=
    .commit credible holds leg write fun row holds' state =>
      rest _ row holds' state (fun _ signed _ => signed) fun _ _ _ _ _ => trivial
  here := by
    intro d op point next holds rest
    refine .call holds.alive trivial rfl fun dies _ => ?_
    cases dies with
    | true =>
        exact .raise (by simp [holds.alive, deathOf, struck]) (by simpa [moveOf] using holds.own)
          (.inl ⟨point, rfl⟩)
    | false => exact rest _ (holds.hears _ rfl rfl rfl) (told_keeps _)
  clock holds rest := .call holds.alive trivial rfl fun now _ =>
    rest _ now (holds.hears _ rfl rfl rfl) (told_keeps _) (by simp [told])
  draft := by
    intro d op next holds rest
    refine .call holds.alive trivial rfl fun ref _ => ?_
    have holds' : Holds first (d ++ [⟨.refBlock, ref⟩]) op := holds.hears ref rfl rfl rfl
    refine .call holds'.alive trivial rfl fun now _ => ?_
    exact rest _ ref now (holds'.hears _ rfl rfl rfl) (by simp [told]) trivial
  send := by
    intro d op tx next holds _ signed _ timeout answered raised
    refine .call holds.alive rfl rfl fun answer _ => ?_
    have holds' : Holds first
        (d ++ [⟨.broadcast op.operationId op.fencingToken tx w, answer⟩]) op :=
      holds.hears answer rfl rfl rfl
    rcases answer with (e | _) | result
    · exact timeout _ e holds' trivial
    · exact raised _ holds' signed ⟨_, _, List.mem_concat_self⟩
    · exact answered _ result holds' signed trivial fun _ => trivial
  findTx := by
    intro d tx next holds _ signed timeout unknown pending included
    refine .call holds.alive trivial rfl fun reply given => ?_
    have holds' : Holds first (d ++ [⟨.findTx tx.txid, reply⟩]) _ := holds.hears reply rfl rfl rfl
    rcases reply with e | ⟨_ | _ | _, block, solid, receipt⟩
    · exact timeout _ e holds' trivial
    · exact unknown _ _ holds' signed trivial (fun _ => trivial) rfl
    · exact pending _ _ holds' signed trivial trivial rfl
    · obtain ⟨block, rfl⟩ := Option.isSome_iff_exists.mp (credible _ _ given rfl)
      exact included _ ⟨tx, 0, some block, receipt⟩ block solid holds' signed trivial trivial rfl
        (fun _ => trivial) fun _ => trivial
  solidNow holds _ rest := .call holds.alive trivial rfl fun _ _ =>
    rest _ _ (holds.hears _ rfl rfl rfl) (told_keeps _) trivial
  solidBlock holds _ rest := .call holds.alive trivial rfl fun _ _ =>
    rest _ _ (holds.hears _ rfl rfl rfl) (told_keeps _) trivial trivial

/-- A macro step keeps to the rules. -/
theorem step_behaves (credible : ∀ call reply, possible call reply → Credible call reply) :
    Behaves possible self w first [] (self.step first w) :=
  (conduct credible self w first).step
    ⟨rfl, nofun, rfl, rfl, ⟨fun _ => rfl, fun _ => rfl⟩, fun moved => absurd rfl moved⟩

end Rules

/-! ## The loop of one claim -/

/-- How the loop on operation `id` may end that had counted `a` so far. -/
structure Drove (id : UUID) (a : Nat) (d : Talk) (o : Except Exn Nat) : Prop where
  died : deaths d = struck o
  own : ∀ id' ∈ moves d, id' = id
  only : Blamed d o
  most : ∀ n, o = .ok n → n = a ∨ n = 1 ∧ moves d ≠ []
  least : ∀ n, o = .ok n → rough d = false → Consistent d → moves d ≠ [] → n = 1

section Loop

variable {possible : (call : Call) → Reply call → Prop} {self : Pipeline} {w : String}
  {op : Operation}

/-- A loop that ends without another move. -/
theorem Drove.quiet {id : UUID} {a : Nat} {d : Talk} (alive : deaths d = [])
    (still : moves d = []) :
    Drove id a d (.ok a) :=
  ⟨alive, by simp [still], nofun, fun n same => by cases same; exact .inl rfl,
    fun _ _ _ _ moved => absurd still moved⟩

theorem release_drove (id : UUID) (a : Nat) :
    (Worker.release op a).Tells possible (Within self.cfg w) (Drove id a) :=
  Program.Tells.ask ⟨rfl, trivial, rfl⟩ fun _ _ => .quiet rfl rfl

/-- What follows a macro step without a death. -/
theorem Drove.after {id : UUID} {a a' : Nat} {d : Talk} {rest : Handler Nat} (alive : deaths d = [])
    (own : ∀ id' ∈ moves d, id' = id) (counted : a' = if moves d = [] then a else 1)
    (tells : rest.Tells possible (Within self.cfg w) (Drove id a')) :
    rest.Tells possible (fun d' => Within self.cfg w (d ++ d'))
      (fun d' => Drove id a (d ++ d')) := by
  refine tells.mono (fun d' call fits => ⟨by simp [alive, fits.1], fits.2⟩) fun d' o drove => ?_
  refine ⟨by simp [alive, drove.died], ?_, drove.only.append, fun n same => ?_,
    fun n same smooth consistent moved => ?_⟩
  · intro id' member
    rw [moves_append, List.mem_append] at member
    exact member.elim (own id') (drove.own id')
  · rw [moves_append]
    by_cases still : moves d = []
    · rw [if_pos still] at counted
      rw [still, List.nil_append, ← counted]
      exact drove.most n same
    · rw [if_neg still] at counted
      refine .inr ⟨?_, by simp [still]⟩
      rcases drove.most n same with same' | ⟨one, _⟩
      · rw [same', counted]
      · exact one
  · rw [rough_append, Bool.or_eq_false_iff] at smooth
    rw [moves_append] at moved
    by_cases still : moves d = []
    · rw [still, List.nil_append] at moved
      exact drove.least n same smooth.2 consistent.right moved
    · rw [if_neg still] at counted
      rcases drove.most n same with same' | ⟨one, _⟩
      · rw [same', counted]
      · exact one

/-- What follows a macro step that raised: nothing is counted any more, and if the step had
moved its operation, some write was turned down. -/
theorem Drove.fallen {id : UUID} {a : Nat} {d : Talk} {o : Except Exn Nat}
    (died : deaths d = struck o)
    (own : ∀ id' ∈ moves d, id' = id) (only : Blamed d o)
    (counted : ∀ n, o = .ok n → n = a ∧ (moves d ≠ [] → Consistent d → rough d = true)) :
    Drove id a d o := by
  refine ⟨died, own, only, fun n same => .inl (counted n same).1, ?_⟩
  intro n same smooth consistent moved
  rw [(counted n same).2 moved consistent] at smooth
  cases smooth

/-- The breadcrumb from the first snapshot of a macro step that raised, and the release. -/
theorem fallen_drove {a : Nat} {d : Talk} (alive : deaths d = [])
    (own : ∀ id ∈ moves d, id = op.operationId)
    (turned : rough d = true ∨ moves d = [] ∨ ∃ state,
      standing op.operationId op.fencingToken d = some state ∧ state ≠ op.state) :
    (do let written : Except StoreError (Option Operation) ← ask (.cas (breadcrumb op w))
        match written with
        | .error e => Program.raise (.store e)
        | .ok _ => Worker.release op a : Handler Nat).Tells possible
      (fun d' => Within self.cfg w (d ++ d')) (fun d' => Drove op.operationId a (d ++ d')) := by
  -- a breadcrumb that is committed leaves the state, and finds no other state than its own
  have turned' : ∀ reply d', moves (d ++ ⟨.cas (breadcrumb op w), reply⟩ :: d') ≠ [] →
      moves d' = [] → Consistent (d ++ ⟨.cas (breadcrumb op w), reply⟩ :: d') →
      rough (d ++ ⟨.cas (breadcrumb op w), reply⟩ :: d') = true := by
    intro reply d' moved quiet consistent
    have still : moveOf ⟨.cas (breadcrumb op w), reply⟩ = [] := by
      rcases reply with e | _ | row <;> simp [moveOf, breadcrumb, snapshotRequest]
    rw [rough_append, rough_cons]
    rcases turned with rough | none_ | ⟨state, left, other⟩
    · simp [rough]
    · simp [none_, still, quiet] at moved
    · rcases reply with e | _ | row
      · simp [roughOf]
      · simp [roughOf]
      · exact absurd (consistent d _ row d' rfl state left) (Ne.symm other)
  refine Program.Tells.ask ⟨by simpa using alive, ⟨rfl, .inr rfl⟩, rfl⟩ fun reply _ => ?_
  have own' : ∀ d', moves d' = [] →
      ∀ id ∈ moves (d ++ ⟨.cas (breadcrumb op w), reply⟩ :: d'), id = op.operationId := by
    intro d' quiet id member
    rcases reply with e | _ | row <;>
      exact own id (by simpa [moveOf, breadcrumb, snapshotRequest, quiet] using member)
  rcases reply with e | written
  · refine Drove.fallen (by simp [alive, deathOf, struck]) (own' [] rfl) ?_ ?_
    · rintro _ ⟨⟩
      exact .inr ⟨e, rfl, _, List.mem_append_right _ (.head _), rfl⟩
    · rintro _ ⟨⟩
  · refine Program.Tells.ask ⟨by simp [alive, deathOf], trivial, rfl⟩ fun _ _ => ?_
    refine Drove.fallen (by simp [alive, deathOf, struck]) (own' _ rfl) ?_ ?_
    · rintro _ ⟨⟩
    · rintro n ⟨⟩
      exact ⟨rfl, fun moved => turned' _ _ moved rfl⟩

theorem driveLoop_drove (credible : ∀ call reply, possible call reply → Credible call reply)
    (steps : Nat) : ∀ (op : Operation) (a : Nat),
    (Worker.driveLoop self w steps op a).Tells possible (Within self.cfg w)
      (Drove op.operationId a) := by
  induction steps with
  | zero => exact fun op a => release_drove op.operationId a
  | succ steps ih =>
      intro op a
      have behaves : Behaves possible self w op [] (self.step op w) := step_behaves credible
      refine Program.Tells.bind (Program.Tells.attempt (behaves.mono (fun _ _ fits => fits) ?_))
      intro d o went
      rw [List.nil_append] at went
      cases o with
      | ok next =>
          obtain ⟨holds, ended⟩ := went.next next rfl
          have counted :
              (if next.state ≠ op.state then 1 else a) = if moves d = [] then a else 1 := by
            by_cases same : next.state = op.state
            · rw [if_neg (not_not.mpr same), if_pos (holds.still.mpr same)]
            · rw [if_pos same, if_neg fun none_ => same (holds.still.mp none_)]
          refine Drove.after went.died went.own counted ?_
          simp only
          split
          · rename_i final
            have moved : next.state ≠ op.state := fun same =>
              ended final (holds.still.mpr same)
            rw [if_pos moved]
            exact .quiet rfl rfl
          split
          · exact release_drove _ _
          · exact holds.operationId ▸ ih next _
      | error e =>
          have broke := went.error e rfl
          cases e with
          | simulatedCrash point =>
              refine Drove.fallen (by simp [went.died, struck]) (by simpa using went.own) ?_ ?_
              · rintro _ ⟨⟩
                exact .inl ⟨point, rfl⟩
              · rintro _ ⟨⟩
          | lostClaim =>
              refine Drove.fallen (by simp [went.died, struck]) (by simpa using went.own) ?_ ?_
              · rintro _ ⟨⟩
              · rintro n ⟨⟩
                rw [List.append_nil]
                refine ⟨rfl, fun _ _ => ?_⟩
                rcases broke with ⟨_, ⟨⟩⟩ | ⟨rough, _⟩ | ⟨_, _, _, _, ⟨⟩⟩
                exact rough
          | store | overflowError | typeError | keyError =>
              exact fallen_drove went.died went.own (broke.turned (by simp))

end Loop

/-! ## A whole pass -/

/-- How a pass over the operations `ids` may end. -/
structure Counts (ids : List UUID) (d : Talk) (o : Except Exn Nat) : Prop where
  died : deaths d = struck o
  only : Blamed d o
  own : ∀ id ∈ moves d, id ∈ ids
  most : ∀ n, o = .ok n → n ≤ (moves d).toFinset.card
  least : ∀ n, o = .ok n → rough d = false → Consistent d → (moves d).toFinset.card ≤ n

/-- How a pass may end: its death is the one it met, and its count is about the operations it
moved. -/
structure Tally (d : Talk) (o : Except Exn Nat) : Prop where
  died : deaths d = struck o
  only : Blamed d o
  most : ∀ n, o = .ok n → n ≤ (moves d).toFinset.card
  exact : ∀ n, o = .ok n → rough d = false → Consistent d → n = (moves d).toFinset.card

section Pass

variable {possible : (call : Call) → Reply call → Prop} {self : Pipeline} {w : String}

/-- The moves of one loop are of one operation. -/
theorem card_moves_one {id : UUID} {d : Talk} (own : ∀ id' ∈ moves d, id' = id) :
    (moves d).toFinset.card = if moves d = [] then 0 else 1 := by
  by_cases still : moves d = []
  · simp [still]
  · rw [if_neg still, Finset.card_eq_one]
    obtain ⟨first, member⟩ := List.exists_mem_of_ne_nil _ still
    refine ⟨id, Finset.ext fun id' => ?_⟩
    rw [List.mem_toFinset, Finset.mem_singleton]
    exact ⟨own id', fun same => by rw [same, ← own first member]; exact member⟩

theorem card_moves_append {id : UUID} {ids : List UUID} {d d' : Talk} (new : id ∉ ids)
    (own : ∀ id' ∈ moves d, id' = id) (own' : ∀ id' ∈ moves d', id' ∈ ids) :
    (moves (d ++ d')).toFinset.card = (moves d).toFinset.card + (moves d').toFinset.card := by
  rw [moves_append, List.toFinset_append]
  refine Finset.card_union_of_disjoint (Finset.disjoint_left.mpr fun id' left right => ?_)
  rw [List.mem_toFinset] at left right
  exact new (own id' left ▸ own' id' right)

theorem driveAll_counts (credible : ∀ call reply, possible call reply → Credible call reply) :
    ∀ (ops : List Operation), (ops.map (·.operationId)).Nodup →
    (Worker.driveAll self w ops).Tells possible (Within self.cfg w)
      (Counts (ops.map (·.operationId)))
  | [], _ =>
      ⟨rfl, nofun, by simp, fun n same => by cases same; simp, fun n same => by cases same; simp⟩
  | op :: ops, distinct => by
      obtain ⟨new, distinct'⟩ := List.nodup_cons.mp distinct
      refine Program.Tells.bind ((driveLoop_drove credible _ op 0).mono (fun _ _ fits => fits) ?_)
      intro d o drove
      cases o with
      | error e =>
          refine ⟨drove.died, ?_, fun id member => by simp [drove.own id member], by simp, by simp⟩
          rintro _ ⟨⟩
          exact drove.only e rfl
      | ok first =>
          refine Program.Tells.bind ((driveAll_counts credible ops distinct').mono
            (fun d' call fits => ⟨by simp [drove.died, struck, fits.1], fits.2⟩) ?_)
          intro d' o' counts
          have own : ∀ id ∈ moves (d ++ d'), id ∈ (op :: ops).map (·.operationId) := by
            intro id member
            rw [moves_append, List.mem_append] at member
            rcases member with left | right
            · simp [drove.own id left]
            · exact .tail _ (counts.own id right)
          have card := card_moves_append new drove.own counts.own
          rw [card_moves_one drove.own] at card
          cases o' with
          | error e =>
              refine ⟨by simp [drove.died, counts.died, struck], ?_, own, by simp, by simp⟩
              rintro _ ⟨⟩
              exact counts.only.append e rfl
          | ok others =>
              refine ⟨?_, nofun, ?_, ?_, ?_⟩
              · simp [drove.died, counts.died, struck]
              · simpa using own
              · intro n same
                cases same
                rw [List.append_nil, card]
                have most := counts.most others rfl
                rcases drove.most first rfl with rfl | ⟨rfl, moved⟩
                · omega
                · rw [if_neg moved]
                  omega
              · intro n same smooth consistent
                cases same
                rw [List.append_nil] at smooth consistent
                rw [rough_append, Bool.or_eq_false_iff] at smooth
                rw [List.append_nil, card]
                have least := counts.least others rfl smooth.2 consistent.right
                split
                · omega
                · rename_i moved
                  rw [drove.least first rfl smooth.1 consistent.left moved]
                  omega

/-- **The conduct of a worker.** -/
theorem runOnce_tally (credible : ∀ call reply, possible call reply → Credible call reply) :
    (Worker.runOnce self w).Tells possible (Fits self.cfg w) Tally := by
  refine Program.Tells.ask ⟨rfl, ⟨rfl, rfl, rfl, rfl⟩, fun _ => rfl⟩ fun reply given => ?_
  rcases reply with e | ops
  · refine ⟨rfl, ?_, by simp, by simp⟩
    rintro _ ⟨⟩
    exact .inr ⟨e, rfl, _, .head _, rfl⟩
  refine (driveAll_counts credible ops (credible _ _ given)).mono
    (fun d call fits => ⟨by simp [deathOf, fits.1], fits.2.1, by simp [fits.2.2]⟩)
    fun d o counts => ?_
  refine ⟨by simp [deathOf, counts.died], counts.only.append (d := [_]), fun n same => ?_,
    fun n same smooth consistent => ?_⟩
  · simpa [moveOf] using counts.most n same
  · have smooth' : rough d = false := by simpa [roughOf] using smooth
    have consistent' := Consistent.right (d := [_]) consistent
    simpa [moveOf] using
      le_antisymm (counts.most n same) (counts.least n same smooth' consistent')

end Pass

end Sluice.Protocol
