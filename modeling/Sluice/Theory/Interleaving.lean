/-
# Theory.Interleaving -- any number of programs over one shared world

A `Machine` says how the shared world answers one call (`serve`, with a choice
left to the surroundings), how the world moves by itself (`act`), and which
programs may be started (`entry`).  A configuration is the world, the pool of
started programs, and the trace of everything that happened; a step starts a
program, lets the surroundings act, or answers the pending call of one thread.  A
thread that is never chosen again has stalled for good, so stalls, deaths and every
interleaving are already in `Reaches`.

The proof method is rely--guarantee with the guarantee stated once.  A `Discipline`
names an invariant `Inv` of world and trace and, for every thread, which calls it
may make where (`Allowed`).  `Safe t p program post` says that thread `t`, standing
at point `p`, makes only allowed calls whatever the others do between its own calls,
provided that they too make only allowed ones (`Others`).  `Discipline.Kept.sound`
closes the circle: when allowed calls keep `Inv` and every entry program is safe, then
every reachable configuration satisfies `Inv` and every thread in it is still safe.  Any
further property follows from what allowed calls do (`Discipline.Follows.moves`), without
another look at a program.

A machine that also takes requests from outside `Fronts` the machine behind it.
-/
import Mathlib.Logic.Relation
import Sluice.Theory.Program

namespace Sluice.Theory

set_option autoImplicit false

/-- A shared world: how it answers calls, how it moves by itself, what may be
started over it. -/
structure Machine (W C : Type) (R : C → Type) (Choice Act Entry X ρ : Type) where
  serve : Choice → (request : C) → W → Option (R request × W)
  act : Act → W → Option W
  entry : Entry → Program C R X ρ

/-- What happened in one step, with the world before and after it. -/
inductive Label (W C : Type) (R : C → Type) (Choice Act : Type) where
  | served (thread : Nat) (choice : Choice) (request : C) (reply : R request) (before after : W)
  | acted (action : Act) (before after : W)

namespace Label

variable {W C : Type} {R : C → Type} {Choice Act : Type}

def before : Label W C R Choice Act → W
  | .served _ _ _ _ before _ => before
  | .acted _ before _ => before

def after : Label W C R Choice Act → W
  | .served _ _ _ _ _ after => after
  | .acted _ _ after => after

def thread? : Label W C R Choice Act → Option Nat
  | .served thread .. => some thread
  | .acted .. => none

@[simp] theorem before_served (thread : Nat) (choice : Choice) (request : C) (reply : R request)
    (w w' : W) :
    (served thread choice request reply w w' : Label W C R Choice Act).before = w := rfl

@[simp] theorem after_served (thread : Nat) (choice : Choice) (request : C) (reply : R request)
    (w w' : W) :
    (served thread choice request reply w w' : Label W C R Choice Act).after = w' := rfl

@[simp] theorem after_acted (action : Act) (w w' : W) :
    (acted action w w' : Label W C R Choice Act).after = w' := rfl

end Label

/-- The shared part of a configuration: the world and the trace, newest first. -/
structure Point (W C : Type) (R : C → Type) (Choice Act : Type) where
  world : W
  trace : List (Label W C R Choice Act)

/-- A configuration: a point and the pool of started programs. -/
structure Configuration (W C : Type) (R : C → Type) (Choice Act X ρ : Type) where
  point : Point W C R Choice Act
  pool : List (Program C R X ρ)

/-- What the scheduler may pick. -/
inductive Move (Choice Act Entry : Type) where
  | spawn (entry : Entry)
  | serve (thread : Nat) (choice : Choice)
  | act (action : Act)

section Pool

variable {W C : Type} {R : C → Type} {Choice Act Entry X ρ Z α β : Type}

/-- Move on to world `after`, recording how. -/
def Point.log (p : Point W C R Choice Act) (label : Label W C R Choice Act) :
    Point W C R Choice Act :=
  ⟨label.after, label :: p.trace⟩

/-- The labels of one thread, newest first. -/
def Point.own (p : Point W C R Choice Act) (t : Nat) : List (Label W C R Choice Act) :=
  p.trace.filter fun label => label.thread? = some t

@[simp] theorem Point.log_world (p : Point W C R Choice Act) (label : Label W C R Choice Act) :
    (p.log label).world = label.after := rfl

@[simp] theorem Point.log_trace (p : Point W C R Choice Act) (label : Label W C R Choice Act) :
    (p.log label).trace = label :: p.trace := rfl

/-- Nothing started, nothing happened. -/
def Configuration.start (world : W) : Configuration W C R Choice Act X ρ := ⟨⟨world, []⟩, []⟩

variable (M : Machine W C R Choice Act Entry X ρ)

/-- Carry out one move; `none` when it is not possible here. -/
def Machine.perform (c : Configuration W C R Choice Act X ρ) :
    Move Choice Act Entry → Option (Configuration W C R Choice Act X ρ)
  | .spawn entry => some ⟨c.point, c.pool ++ [M.entry entry]⟩
  | .act action =>
      match M.act action c.point.world with
      | some world => some ⟨c.point.log (.acted action c.point.world world), c.pool⟩
      | none => none
  | .serve thread choice =>
      match c.pool[thread]? with
      | some (.call request next) =>
          match M.serve choice request c.point.world with
          | some (reply, world) =>
              some ⟨c.point.log (.served thread choice request reply c.point.world world),
                c.pool.set thread (next reply)⟩
          | none => none
      | _ => none

/-- Carry out a whole schedule. -/
def Machine.performAll (c : Configuration W C R Choice Act X ρ) :
    List (Move Choice Act Entry) → Option (Configuration W C R Choice Act X ρ)
  | [] => some c
  | move :: moves =>
      match M.perform c move with
      | some c' => Machine.performAll c' moves
      | none => none

def Machine.Step (c c' : Configuration W C R Choice Act X ρ) : Prop :=
  ∃ move, M.perform c move = some c'

/-- `c'` lies in the future of `c`. -/
def Machine.Reaches :
    Configuration W C R Choice Act X ρ → Configuration W C R Choice Act X ρ → Prop :=
  Relation.ReflTransGen M.Step

variable {M}

theorem Machine.reaches_of_performAll {c c' : Configuration W C R Choice Act X ρ}
    {moves : List (Move Choice Act Entry)} (done : M.performAll c moves = some c') :
    M.Reaches c c' := by
  induction moves generalizing c with
  | nil =>
      cases done
      exact .refl
  | cons move moves ih =>
      simp only [Machine.performAll] at done
      split at done
      · rename_i middle performed
        exact .head ⟨move, performed⟩ (ih done)
      · cases done

theorem Machine.performAll_append {c c₁ c₂ : Configuration W C R Choice Act X ρ}
    {moves moves' : List (Move Choice Act Entry)} (first : M.performAll c moves = some c₁)
    (second : M.performAll c₁ moves' = some c₂) : M.performAll c (moves ++ moves') = some c₂ := by
  induction moves generalizing c with
  | nil =>
      cases first
      exact second
  | cons move moves ih =>
      simp only [Machine.performAll, List.cons_append] at first ⊢
      split at first
      · exact ih first
      · cases first

/-- Everything one step can be. -/
theorem Machine.step_cases {c c' : Configuration W C R Choice Act X ρ} (step : M.Step c c') :
    (∃ entry, c' = ⟨c.point, c.pool ++ [M.entry entry]⟩) ∨
    (∃ action world, M.act action c.point.world = some world ∧
      c' = ⟨c.point.log (.acted action c.point.world world), c.pool⟩) ∨
    (∃ thread choice request next reply world, c.pool[thread]? = some (.call request next) ∧
      M.serve choice request c.point.world = some (reply, world) ∧
      c' = ⟨c.point.log (.served thread choice request reply c.point.world world),
        c.pool.set thread (next reply)⟩) := by
  obtain ⟨move, performed⟩ := step
  cases move with
  | spawn entry =>
      left
      exact ⟨entry, by simpa [Machine.perform] using performed.symm⟩
  | act action =>
      right; left
      simp only [Machine.perform] at performed
      split at performed
      · rename_i world acted
        exact ⟨action, world, acted, by simpa using performed.symm⟩
      · cases performed
  | serve thread choice =>
      right; right
      simp only [Machine.perform] at performed
      split at performed
      · rename_i request next pending
        split at performed
        · rename_i reply world served
          exact ⟨thread, choice, request, next, reply, world, pending, served,
            by simpa using performed.symm⟩
        · cases performed
      · cases performed

/-! ## One thread alone -/

/-- Thread `t` is given `n` answers in a row. -/
def Move.serves (t : Nat) (choice : Choice) (n : Nat) : List (Move Choice Act Entry) :=
  List.replicate n (.serve t choice)

/-- What every answer keeps. -/
theorem Machine.performAll_serves {J : Point W C R Choice Act → Prop} {t : Nat} {choice : Choice}
    (keeps : ∀ p request reply world, M.serve choice request p.world = some (reply, world) → J p →
      J (p.log (.served t choice request reply p.world world))) (n : Nat) :
    ∀ {c c' : Configuration W C R Choice Act X ρ},
      M.performAll c (Move.serves t choice n) = some c' → J c.point → J c'.point := by
  induction n with
  | zero =>
      intro c c' done holds
      cases done
      exact holds
  | succ n ih =>
      intro c c' done holds
      simp only [Move.serves, List.replicate_succ, Machine.performAll, Machine.perform] at done
      split at done
      · rename_i middle performed
        refine ih done ?_
        split at performed
        · split at performed
          · rename_i answered
            cases performed
            exact keeps _ _ _ _ answered holds
          · cases performed
        · cases performed
      · cases done

theorem set_of_getElem? {l : List α} {i : Nat} {x : α} (here : l[i]? = some x) :
    l.set i x = l := by
  obtain ⟨bound, rfl⟩ := List.getElem?_eq_some_iff.mp here
  exact List.set_getElem_self bound

/-- Answered alone, a thread goes through the first part of its program as `run` says, and
stands before the rest. -/
theorem Machine.performAll_bind {serve : (request : C) → W → R request × W} {choice : Choice}
    (answers : ∀ request world, M.serve choice request world = some (serve request world))
    (rest : α → Program C R X ρ) {t : Nat} : ∀ (program : Program C R X α)
      (c : Configuration W C R Choice Act X ρ), c.pool[t]? = some (program.bind rest) →
      ∃ n c', M.performAll c (Move.serves t choice n) = some c' ∧
        c'.point.world = (program.run serve c.point.world).2 ∧
        c'.pool = c.pool.set t (match (program.run serve c.point.world).1 with
          | .ok value => rest value
          | .error error => .fail error)
  | .done value, c, pending => ⟨0, c, rfl, rfl, (set_of_getElem? pending).symm⟩
  | .fail error, c, pending => ⟨0, c, rfl, rfl, (set_of_getElem? pending).symm⟩
  | .call request next, c, pending => by
      have performed : M.perform c (.serve t choice) = some
          ⟨c.point.log (.served t choice request (serve request c.point.world).1 c.point.world
            (serve request c.point.world).2),
            c.pool.set t ((next (serve request c.point.world).1).bind rest)⟩ := by
        simp only [Machine.perform, pending, Program.bind, answers]
      obtain ⟨n, c', done, world, pool⟩ := Machine.performAll_bind answers rest
        (next (serve request c.point.world).1)
        ⟨c.point.log (.served t choice request (serve request c.point.world).1 c.point.world
            (serve request c.point.world).2),
          c.pool.set t ((next (serve request c.point.world).1).bind rest)⟩
        (List.getElem?_set_self (List.getElem?_eq_some_iff.mp pending).1)
      refine ⟨n + 1, c', ?_, world, ?_⟩
      · simp only [Move.serves, List.replicate_succ, Machine.performAll, performed]
        exact done
      · rw [pool]
        exact List.set_set ..

/-! ## Traces are connected -/

/-- The labels of a trace lead from `first` to `last` without a gap. -/
def Linked (first : W) : List (Label W C R Choice Act) → W → Prop
  | [], last => first = last
  | label :: older, last => label.after = last ∧ Linked first older label.before

theorem linked_of_reaches {first : W} {c : Configuration W C R Choice Act X ρ}
    (reached : M.Reaches (.start first) c) : Linked first c.point.trace c.point.world := by
  induction reached with
  | refl => rfl
  | tail _ step ih =>
      obtain ⟨_, rfl⟩ | ⟨_, _, _, rfl⟩ | ⟨_, _, _, _, _, _, _, _, rfl⟩ := M.step_cases step
      · exact ih
      · exact ⟨rfl, ih⟩
      · exact ⟨rfl, ih⟩

/-- The trace only grows. -/
theorem trace_suffix_of_reaches {c c' : Configuration W C R Choice Act X ρ}
    (reached : M.Reaches c c') : ∃ newer, c'.point.trace = newer ++ c.point.trace := by
  induction reached with
  | refl => exact ⟨[], rfl⟩
  | tail _ step ih =>
      obtain ⟨newer, grown⟩ := ih
      obtain ⟨_, rfl⟩ | ⟨action, world, _, rfl⟩ | ⟨_, _, _, _, _, _, _, _, rfl⟩ :=
        M.step_cases step
      · exact ⟨newer, grown⟩
      · exact ⟨_ :: newer, by rw [Point.log_trace, grown]; rfl⟩
      · exact ⟨_ :: newer, by rw [Point.log_trace, grown]; rfl⟩

/-- Every label was added by a step on the way: the trace behind it is the trace of a
configuration that was passed. -/
theorem Machine.reaches_past {first : W} {c : Configuration W C R Choice Act X ρ}
    (reached : M.Reaches (.start first) c) {label : Label W C R Choice Act}
    {newer older : List (Label W C R Choice Act)}
    (trace : c.point.trace = newer ++ label :: older) :
    ∃ c₀ c₁, M.Reaches (.start first) c₀ ∧ M.Step c₀ c₁ ∧ M.Reaches c₁ c ∧
      c₀.point = ⟨label.before, older⟩ ∧ c₁.point = ⟨label.after, label :: older⟩ := by
  induction reached generalizing newer with
  | refl => simp [Configuration.start] at trace
  | @tail middle last before step ih =>
      -- either the last step added this very label, or the label is older
      have settle : ∀ added, added.before = middle.point.world →
          last.point = middle.point.log added →
          ∃ c₀ c₁, M.Reaches (.start first) c₀ ∧ M.Step c₀ c₁ ∧ M.Reaches c₁ last ∧
            c₀.point = ⟨label.before, older⟩ ∧ c₁.point = ⟨label.after, label :: older⟩ := by
        intro added from_ grown
        rw [grown, Point.log_trace] at trace
        cases newer with
        | nil =>
            obtain ⟨rfl, rfl⟩ := List.cons.inj trace
            exact ⟨middle, last, before, step, .refl, by rw [from_], grown⟩
        | cons top newer =>
            obtain ⟨c₀, c₁, start, here, later, points⟩ := ih (List.cons.inj trace).2
            exact ⟨c₀, c₁, start, here, later.tail step, points⟩
      obtain ⟨_, rfl⟩ | ⟨action, world, _, rfl⟩ | ⟨_, _, _, _, _, _, _, _, rfl⟩ :=
        M.step_cases step
      · obtain ⟨c₀, c₁, start, here, later, points⟩ := ih trace
        exact ⟨c₀, c₁, start, here, later.tail step, points⟩
      · exact settle _ rfl rfl
      · exact settle _ rfl rfl

/-- An act of the past, and the run that led up to it and on from it. -/
theorem Machine.acted_past {first : W} {c : Configuration W C R Choice Act X ρ}
    (reached : M.Reaches (.start first) c) {action : Act} {before after : W}
    (member : .acted action before after ∈ c.point.trace) :
    ∃ c₀ c₁, M.Reaches (.start first) c₀ ∧ M.Reaches c₀ c₁ ∧ M.Reaches c₁ c ∧
      c₀.point.world = before ∧ c₁.point.world = after ∧ M.act action before = some after := by
  obtain ⟨newer, older, trace⟩ := List.append_of_mem member
  obtain ⟨c₀, c₁, start, here, later, at₀, at₁⟩ := M.reaches_past reached trace
  refine ⟨c₀, c₁, start, .single here, later, by rw [at₀]; rfl, by rw [at₁]; rfl, ?_⟩
  obtain ⟨_, rfl⟩ | ⟨_, w, moved, rfl⟩ | ⟨_, _, _, _, _, _, _, _, rfl⟩ := M.step_cases here
  · simp [at₀] at at₁
  · rw [at₀] at moved at₁
    cases at₁
    exact moved
  · rw [at₀] at at₁
    cases at₁

/-! ## Requests from outside -/

/-- `M'` is `M` with further acts: each is an act of `M` or only looks at the world. -/
structure Machine.Fronts {Act' : Type} (M' : Machine W C R Choice Act' Entry X ρ)
    (M : Machine W C R Choice Act Entry X ρ) (through : Act' → Option Act) : Prop where
  serve : M'.serve = M.serve
  entry : M'.entry = M.entry
  acted : ∀ action act w, through action = some act → M'.act action w = M.act act w
  looked : ∀ action w w', through action = none → M'.act action w = some w' → w' = w

/-- The machine behind a front makes the same moves. -/
theorem Machine.Fronts.reaches {Act' : Type} {M' : Machine W C R Choice Act' Entry X ρ}
    {through : Act' → Option Act} (fronts : M'.Fronts M through)
    {c c' : Configuration W C R Choice Act' X ρ} (reached : M'.Reaches c c')
    {d : Configuration W C R Choice Act X ρ} (world : d.point.world = c.point.world)
    (pool : d.pool = c.pool) :
    ∃ d', M.Reaches d d' ∧ d'.point.world = c'.point.world ∧ d'.pool = c'.pool := by
  induction reached with
  | refl => exact ⟨d, .refl, world, pool⟩
  | tail _ step ih =>
      obtain ⟨d', later, world', pool'⟩ := ih
      obtain ⟨entry, rfl⟩ | ⟨action, w, moved, rfl⟩ |
        ⟨thread, choice, request, next, reply, w, pending, moved, rfl⟩ := M'.step_cases step
      · exact ⟨⟨d'.point, d'.pool ++ [M.entry entry]⟩, later.tail ⟨.spawn entry, rfl⟩, world',
          by rw [pool', fronts.entry]⟩
      · cases known : through action with
        | none => exact ⟨d', later, world'.trans (fronts.looked action _ w known moved).symm, pool'⟩
        | some act =>
            rw [fronts.acted action act _ known, ← world'] at moved
            refine ⟨⟨d'.point.log (.acted act d'.point.world w), d'.pool⟩,
              later.tail ⟨.act act, ?_⟩, rfl, pool'⟩
            simp only [Machine.perform, moved]
      · rw [fronts.serve, ← world'] at moved
        rw [← pool'] at pending
        refine ⟨⟨d'.point.log (.served thread choice request reply d'.point.world w),
          d'.pool.set thread (next reply)⟩, later.tail ⟨.serve thread choice, ?_⟩, rfl,
          by rw [pool']⟩
        simp only [Machine.perform, pending, moved]

/-! ## Disciplines -/

/-- What is kept true of world and trace, and which calls a thread may make. -/
structure Discipline (W C : Type) (R : C → Type) (Choice Act : Type) where
  Inv : Point W C R Choice Act → Prop
  Allowed : Nat → Point W C R Choice Act → C → Prop

variable (M) (D : Discipline W C R Choice Act)

/-- One step of the surroundings of thread `t`: the world acts, or another thread
makes a call it is allowed to make. -/
inductive Others (t : Nat) (p : Point W C R Choice Act) : Point W C R Choice Act → Prop
  | acted (action : Act) (world : W) (moved : M.act action p.world = some world) (kept : D.Inv p) :
      Others t p (p.log (.acted action p.world world))
  | served (thread : Nat) (choice : Choice) (request : C) (reply : R request) (world : W)
      (other : thread ≠ t) (kept : D.Inv p) (allowed : D.Allowed thread p request)
      (moved : M.serve choice request p.world = some (reply, world)) :
      Others t p (p.log (.served thread choice request reply p.world world))

/-- An assertion the surroundings of `t` cannot break. -/
def Stable (t : Nat) (assertion : Point W C R Choice Act → Prop) : Prop :=
  ∀ p p', Others M D t p p' → D.Inv p' → assertion p → assertion p'

/-- Interference: any number of steps of the surroundings, each keeping `Inv`. -/
def Rely (t : Nat) : Point W C R Choice Act → Point W C R Choice Act → Prop :=
  Relation.ReflTransGen fun p p' => Others M D t p p' ∧ D.Inv p'

/-- From point `p`, thread `t` running `program` makes only allowed calls, and ends
with `post`, whatever its surroundings do between its calls. -/
def Safe (t : Nat) : Point W C R Choice Act → Program C R Z α →
    (Except Z α → Point W C R Choice Act → Prop) → Prop
  | p, .done value, post => post (.ok value) p
  | p, .fail error, post => post (.error error) p
  | p, .call request next, post =>
      ∀ p', Rely M D t p p' → D.Inv p' → D.Allowed t p' request ∧
        ∀ choice reply world, M.serve choice request p'.world = some (reply, world) →
          Safe t (p'.log (.served t choice request reply p'.world world)) (next reply) post

variable {M D}

theorem Stable.rely {t : Nat} {assertion : Point W C R Choice Act → Prop}
    (stable : Stable M D t assertion) {p p' : Point W C R Choice Act}
    (moved : Rely M D t p p') (holds : assertion p) : assertion p' := by
  induction moved with
  | refl => exact holds
  | tail _ step ih => exact stable _ _ step.1 step.2 ih

theorem Stable.and {t : Nat} {first second : Point W C R Choice Act → Prop}
    (left : Stable M D t first) (right : Stable M D t second) :
    Stable M D t fun p => first p ∧ second p :=
  fun p p' step kept holds => ⟨left p p' step kept holds.1, right p p' step kept holds.2⟩

theorem Stable.const {t : Nat} (fact : Prop) : Stable M D t fun _ => fact :=
  fun _ _ _ _ holds => holds

/-- A thread's own labels are out of reach of the others. -/
theorem Others.own_eq {t : Nat} {p p' : Point W C R Choice Act} (step : Others M D t p p') :
    p'.own t = p.own t := by
  cases step with
  | acted action world moved kept => simp [Point.own, Label.thread?]
  | served thread choice request reply world other kept allowed moved =>
      simp [Point.own, Label.thread?, other]

theorem Stable.own {t : Nat} (assertion : List (Label W C R Choice Act) → Prop) :
    Stable M D t fun p => assertion (p.own t) := by
  intro p p' step _ holds
  simpa only [step.own_eq] using holds

/-- The rule for a call: pick a stable assertion that holds now; it must license the
call, and whatever is known of call and reply must make the rest safe. -/
theorem Safe.call {t : Nat} {p : Point W C R Choice Act} {request : C}
    {next : R request → Program C R Z α} {post : Except Z α → Point W C R Choice Act → Prop}
    {assertion : Point W C R Choice Act → Prop} (stable : Stable M D t assertion)
    (holds : assertion p)
    (allowed : ∀ p', D.Inv p' → assertion p' → D.Allowed t p' request)
    (rest : ∀ p' choice reply world, D.Inv p' → assertion p' →
      M.serve choice request p'.world = some (reply, world) →
      Safe M D t (p'.log (.served t choice request reply p'.world world)) (next reply) post) :
    Safe M D t p (.call request next) post := by
  intro p' moved kept
  have still := stable.rely moved holds
  exact ⟨allowed p' kept still, fun choice reply world served =>
    rest p' choice reply world kept still served⟩

theorem Safe.mono {t : Nat} {post weaker : Except Z α → Point W C R Choice Act → Prop}
    (implies : ∀ outcome p, post outcome p → weaker outcome p) :
    ∀ {program : Program C R Z α} {p : Point W C R Choice Act},
      Safe M D t p program post → Safe M D t p program weaker
  | .done _, p, safe => implies _ p safe
  | .fail _, p, safe => implies _ p safe
  | .call _ _, _, safe => fun p' moved kept =>
      ⟨(safe p' moved kept).1, fun choice reply world served =>
        Safe.mono implies ((safe p' moved kept).2 choice reply world served)⟩

theorem Safe.bind {t : Nat} {post : Except Z β → Point W C R Choice Act → Prop}
    {next : α → Program C R Z β} :
    ∀ {program : Program C R Z α} {p : Point W C R Choice Act},
      Safe M D t p program (fun outcome p' => match outcome with
        | .ok value => Safe M D t p' (next value) post
        | .error error => post (.error error) p') →
      Safe M D t p (program.bind next) post
  | .done _, _, safe => safe
  | .fail _, _, safe => safe
  | .call _ _, _, safe => fun p' moved kept =>
      ⟨(safe p' moved kept).1, fun choice reply world served =>
        Safe.bind ((safe p' moved kept).2 choice reply world served)⟩

theorem Safe.attempt {Y : Type} {t : Nat}
    {post : Except Y (Except Z α) → Point W C R Choice Act → Prop} :
    ∀ {program : Program C R Z α} {p : Point W C R Choice Act},
      Safe M D t p program (fun outcome p' => post (.ok outcome) p') →
      Safe M D t p (program.attempt : Program C R Y (Except Z α)) post
  | .done _, _, safe => safe
  | .fail _, _, safe => safe
  | .call _ _, _, safe => fun p' moved kept =>
      ⟨(safe p' moved kept).1, fun choice reply world served =>
        Safe.attempt ((safe p' moved kept).2 choice reply world served)⟩

/-- A pending call of a safe thread is allowed right now. -/
theorem Safe.allowed {t : Nat} {p : Point W C R Choice Act} {request : C}
    {next : R request → Program C R Z α} {post : Except Z α → Point W C R Choice Act → Prop}
    (safe : Safe M D t p (.call request next) post) (kept : D.Inv p) : D.Allowed t p request :=
  (safe p .refl kept).1

theorem Safe.rely {t : Nat} {post : Except Z α → Point W C R Choice Act → Prop}
    (settled : ∀ outcome, Stable M D t (post outcome)) {program : Program C R Z α}
    {p p' : Point W C R Choice Act} (safe : Safe M D t p program post)
    (moved : Rely M D t p p') : Safe M D t p' program post := by
  cases program with
  | done value => exact (settled _).rely moved safe
  | fail error => exact (settled _).rely moved safe
  | call request next => exact fun p'' later kept => safe p'' (moved.trans later) kept

/-- What has to be shown of a machine and a discipline. -/
structure Discipline.Kept (M : Machine W C R Choice Act Entry X ρ)
    (D : Discipline W C R Choice Act) (first : W) : Prop where
  initial : D.Inv ⟨first, []⟩
  acted : ∀ p action world, D.Inv p → M.act action p.world = some world →
    D.Inv (p.log (.acted action p.world world))
  served : ∀ p thread choice request reply world, D.Inv p → D.Allowed thread p request →
    M.serve choice request p.world = some (reply, world) →
    D.Inv (p.log (.served thread choice request reply p.world world))
  entry : ∀ p thread entry, D.Inv p → Safe M D thread p (M.entry entry) fun _ _ => True

/-- A configuration in which the discipline is being followed. -/
structure Discipline.Follows (M : Machine W C R Choice Act Entry X ρ)
    (D : Discipline W C R Choice Act) (c : Configuration W C R Choice Act X ρ) : Prop where
  inv : D.Inv c.point
  safe : ∀ t program, c.pool[t]? = some program → Safe M D t c.point program fun _ _ => True

theorem Discipline.Kept.step {first : W} (kept : D.Kept M first)
    {c c' : Configuration W C R Choice Act X ρ} (follows : D.Follows M c) (step : M.Step c c') :
    D.Follows M c' := by
  have trivially : ∀ t (outcome : Except X ρ), Stable M D t fun _ => True :=
    fun _ _ _ _ _ _ _ => trivial
  obtain ⟨entry, rfl⟩ | ⟨action, world, moved, rfl⟩ |
    ⟨thread, choice, request, next, reply, world, pending, moved, rfl⟩ := M.step_cases step
  · refine ⟨follows.inv, fun t program found => ?_⟩
    rcases Nat.lt_or_ge t c.pool.length with old | new
    · exact follows.safe t program (by simpa [List.getElem?_append_left old] using found)
    · rw [List.getElem?_append_right new] at found
      have only : program = M.entry entry := by
        have := List.mem_of_getElem? found
        simpa using this
      exact only ▸ kept.entry c.point t entry follows.inv
  · have inv := kept.acted _ _ _ follows.inv moved
    refine ⟨inv, fun t program found => (follows.safe t program found).rely (trivially t) ?_⟩
    exact .single ⟨.acted action world moved follows.inv, inv⟩
  · have safe := follows.safe thread _ pending
    have allowed := safe.allowed follows.inv
    have inv := kept.served _ thread _ _ _ _ follows.inv allowed moved
    refine ⟨inv, fun t program found => ?_⟩
    by_cases same : t = thread
    · -- the thread that moved goes on after its reply
      subst same
      have bound : t < c.pool.length := by
        by_contra out
        simp [List.getElem?_eq_none (Nat.le_of_not_lt out)] at pending
      rw [List.getElem?_set_self bound] at found
      cases found
      exact (safe c.point .refl follows.inv).2 choice reply world moved
    · -- to every other thread this was one step of its surroundings
      rw [List.getElem?_set_ne (Ne.symm same)] at found
      refine (follows.safe t program found).rely (trivially t) ?_
      exact .single ⟨.served thread choice request reply world (Ne.symm same) follows.inv
        allowed moved, inv⟩

/-- **Soundness.** Every reachable configuration follows the discipline. -/
theorem Discipline.Kept.sound {first : W} (kept : D.Kept M first)
    {c : Configuration W C R Choice Act X ρ} (reached : M.Reaches (.start first) c) :
    D.Follows M c := by
  induction reached with
  | refl => exact ⟨kept.initial, fun t program found => by simp [Configuration.start] at found⟩
  | tail _ step ih => exact kept.step ih step

/-- What an allowed step makes of the point, for proofs that need no program. -/
inductive Discipline.Moves (M : Machine W C R Choice Act Entry X ρ)
    (D : Discipline W C R Choice Act) (p : Point W C R Choice Act) :
    Point W C R Choice Act → Prop
  | acted (action : Act) (world : W) (moved : M.act action p.world = some world) :
      Moves M D p (p.log (.acted action p.world world))
  | served (thread : Nat) (choice : Choice) (request : C) (reply : R request) (world : W)
      (allowed : D.Allowed thread p request)
      (moved : M.serve choice request p.world = some (reply, world)) :
      Moves M D p (p.log (.served thread choice request reply p.world world))

theorem Discipline.Follows.moves {c c' : Configuration W C R Choice Act X ρ}
    (follows : D.Follows M c) (step : M.Step c c') :
    c'.point = c.point ∨ D.Moves M c.point c'.point := by
  obtain ⟨entry, rfl⟩ | ⟨action, world, moved, rfl⟩ |
    ⟨thread, choice, request, next, reply, world, pending, moved, rfl⟩ := M.step_cases step
  · exact .inl rfl
  · exact .inr (.acted action world moved)
  · exact .inr (.served thread choice request reply world
      ((follows.safe thread _ pending).allowed follows.inv) moved)

end Pool

end Sluice.Theory
