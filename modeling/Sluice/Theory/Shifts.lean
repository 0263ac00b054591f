/-
# Theory.Shifts -- threads that run other threads' programs one after the other

A *shift* is a program that repeats: it starts an entry program of some base machine, looks at
how it ended, makes calls of its own, and starts the next one.  `Program.Shifts` is the shape of
such programs, with the list of the outcomes they have seen so far.

`Machine.simulated`: a machine whose threads are shifts does nothing that the base machine could
not do with one thread for each entry program.  The two runs have the same world and the same
history, up to the calls that are the shifts' own and up to thread numbers, and every outcome a
shift has seen is that of a finished thread of the base run which no other shift has seen.
-/
import Mathlib.Data.List.Forall2
import Sluice.Theory.Dialogue

namespace Sluice.Theory

set_option autoImplicit false

namespace Program

variable {C K : Type} {R : C → Type} {S : K → Type} {Entry X Y α β ρ σ : Type}

/-- The same program, among more calls. -/
def embed : Program C R X α → Program (C ⊕ K) (Sum.elim R S) X α
  | .done value => .done value
  | .fail error => .fail error
  | .call request next => .call (.inl request) fun reply => (next reply).embed

theorem embed_bind (next : α → Program C R X β) : ∀ program : Program C R X α,
    ((program.bind next).embed : Program (C ⊕ K) (Sum.elim R S) X β) =
      program.embed.bind fun value => (next value).embed
  | .done _ => rfl
  | .fail _ => rfl
  | .call request rest => by
      simp only [bind, embed]
      congr
      funext reply
      exact embed_bind next (rest reply)

theorem embed_attempt : ∀ program : Program C R X α,
    (((program.attempt : Program C R Y (Except X α))).embed :
      Program (C ⊕ K) (Sum.elim R S) Y (Except X α)) = program.embed.attempt
  | .done _ => rfl
  | .fail _ => rfl
  | .call request rest => by
      simp only [attempt, embed]
      congr
      funext reply
      exact embed_attempt (rest reply)

def embedded (d : Dialogue C R) : Dialogue (C ⊕ K) (Sum.elim R S) :=
  d.map fun said => ⟨.inl said.1, said.2⟩

/-- What is told of a program is told of it among more calls. -/
theorem Tells.embed {possible : (request : C) → R request → Prop}
    {possible' : (request : C ⊕ K) → Sum.elim R S request → Prop}
    (given : ∀ request reply, possible' (.inl request) reply → possible request reply) :
    ∀ {program : Program C R X α} {fits : Dialogue C R → C → Prop}
      {fits' : Dialogue (C ⊕ K) (Sum.elim R S) → C ⊕ K → Prop}
      {post : Dialogue C R → Except X α → Prop}
      {post' : Dialogue (C ⊕ K) (Sum.elim R S) → Except X α → Prop},
      (∀ d request, fits d request → fits' (embedded d) (.inl request)) →
      (∀ d outcome, post d outcome → post' (embedded d) outcome) →
      program.Tells possible fits post → program.embed.Tells possible' fits' post'
  | .done _, _, _, _, _, _, ends, tells => ends [] _ tells
  | .fail _, _, _, _, _, _, ends, tells => ends [] _ tells
  | .call request _, _, _, _, _, calls, ends, tells =>
      ⟨calls [] request tells.1, fun reply told => Tells.embed given
        (fun d => calls (⟨request, reply⟩ :: d)) (fun d => ends (⟨request, reply⟩ :: d))
        (tells.2 reply (given request reply told))⟩

/-- The program that has ended this way. -/
def ended : Except X α → Program C R X α
  | .ok value => .done value
  | .error error => .fail error

/-- A shift that has seen `outs`, newest first, and ends as `post` asks if its own calls are
answered as `given` says. -/
inductive Shifts (entry : Entry → Program C R X ρ) (given : (request : K) → S request → Prop)
    (post : List (Except X ρ) → Except Y σ → Prop) :
    List (Except X ρ) → Program (C ⊕ K) (Sum.elim R S) Y σ → Prop
  | done {outs : List (Except X ρ)} {value : σ} (holds : post outs (.ok value)) :
      Shifts entry given post outs (.done value)
  | fail {outs : List (Except X ρ)} {error : Y} (holds : post outs (.error error)) :
      Shifts entry given post outs (.fail error)
  | own {outs : List (Except X ρ)} {request : K}
      {next : S request → Program (C ⊕ K) (Sum.elim R S) Y σ}
      (rest : ∀ reply, given request reply → Shifts entry given post outs (next reply)) :
      Shifts entry given post outs (.call (.inr request) next)
  | pass {outs : List (Except X ρ)} {program : Program (C ⊕ K) (Sum.elim R S) Y σ} (start : Entry)
      (next : Except X ρ → Program (C ⊕ K) (Sum.elim R S) Y σ)
      (same : program = (entry start).embed.attempt.bind next)
      (rest : ∀ out, Shifts entry given post (out :: outs) (next out)) :
      Shifts entry given post outs program

end Program

section Pairs

variable {α β : Type} {rel : α → β → Prop} {as : List α} {bs : List β}

end Pairs

section Machines

variable {W V C K : Type} {R : C → Type} {S : K → Type}
  {Choice Act Act' Entry Entry' X Y ρ σ : Type}

/-- Nobody's step. -/
def Label.anonymous : Label W C R Choice Act → Label W C R Choice Act
  | .served _ choice request reply before after => .served 0 choice request reply before after
  | .acted action before after => .acted action before after

/-- What a step was to the base machine, if anything. -/
def Label.deed (view : V → W) (forget : Act' → Option Act) :
    Label V (C ⊕ K) (Sum.elim R S) Choice Act' → Option (Label W C R Choice Act)
  | .served _ choice (.inl request) reply before after =>
      some (.served 0 choice request reply (view before) (view after))
  | .served _ _ (.inr _) _ _ _ => none
  | .acted action before after =>
      (forget action).map fun act => .acted act (view before) (view after)

/-- The world of `M'` is that of `M` and something more, which the calls and acts of `M` do not
touch, and the calls that `M` does not have are answered as `given` says. -/
structure Machine.Extends (M' : Machine V (C ⊕ K) (Sum.elim R S) Choice Act' Entry' Y σ)
    (M : Machine W C R Choice Act Entry X ρ) (view : V → W) (forget : Act' → Option Act)
    (given : (request : K) → S request → Prop) : Prop where
  inner : ∀ choice request reply v v', M'.serve choice (.inl request) v = some (reply, v') →
    M.serve choice request (view v) = some (reply, view v')
  own : ∀ choice request reply v v', M'.serve choice (.inr request) v = some (reply, v') →
    view v' = view v ∧ given request reply
  acted : ∀ action act v v', forget action = some act → M'.act action v = some v' →
    M.act act (view v) = some (view v')
  aside : ∀ action v v', forget action = none → M'.act action v = some v' → view v' = view v
  starts : ∀ entry, ∃ request next, M.entry entry = .call request next

/-- What thread `t` of the extended machine has behind it: the threads of the base run that it
has seen end, and the one it is running, if any. -/
def Works (entry : Entry → Program C R X ρ) (given : (request : K) → S request → Prop)
    (post : List (Except X ρ) → Except Y σ → Prop)
    (pool : List (Program C R X ρ)) (crew : List Nat)
    (program : Program (C ⊕ K) (Sum.elim R S) Y σ) : Prop :=
  ∃ outs past, List.Forall₂ (fun i out => pool[i]? = some (.ended out)) past outs ∧
    ((crew = past ∧ program.Shifts entry given post outs) ∨
    ∃ i running next, crew = i :: past ∧ pool[i]? = some running ∧
      program = running.embed.attempt.bind next ∧
      ∀ out, (next out).Shifts entry given post (out :: outs))

/-- A run of the base machine that does the same, and who does what in it. -/
structure Simulates (entry : Entry → Program C R X ρ) (given : (request : K) → S request → Prop)
    (post : List (Except X ρ) → Except Y σ → Prop) (view : V → W) (forget : Act' → Option Act)
    (c' : Configuration V (C ⊕ K) (Sum.elim R S) Choice Act' Y σ)
    (c : Configuration W C R Choice Act X ρ) (crew : Nat → List Nat) : Prop where
  world : c.point.world = view c'.point.world
  trace : c.point.trace.map Label.anonymous = c'.point.trace.filterMap (Label.deed view forget)
  distinct : ∀ t, (crew t).Nodup
  apart : ∀ t t' i, i ∈ crew t → i ∈ crew t' → t = t'
  started : ∀ t i, i ∈ crew t → i < c.pool.length
  idle : ∀ t, c'.pool.length ≤ t → crew t = []
  works : ∀ t program, c'.pool[t]? = some program → Works entry given post c.pool (crew t) program

section Simulation

variable {M' : Machine V (C ⊕ K) (Sum.elim R S) Choice Act' Entry' Y σ}
  {M : Machine W C R Choice Act Entry X ρ} {view : V → W} {forget : Act' → Option Act}
  {given : (request : K) → S request → Prop} {post : List (Except X ρ) → Except Y σ → Prop}

/-- A thread before a call is at a call of its own, before an entry program, or inside one. -/
theorem Works.before_call {pool : List (Program C R X ρ)} {crew : List Nat}
    {request : C ⊕ K} {next : Sum.elim R S request → Program (C ⊕ K) (Sum.elim R S) Y σ}
    (works : Works M.entry given post pool crew (.call request next)) :
    ∃ outs past, List.Forall₂ (fun i out => pool[i]? = some (.ended out)) past outs ∧
      ((crew = past ∧ (Program.call request next).Shifts M.entry given post outs) ∨
      ∃ i request' rest after, crew = i :: past ∧ pool[i]? = some (.call request' rest) ∧
        Program.call request next = ((Program.call request' rest).embed.attempt.bind after) ∧
        ∀ out, (after out).Shifts M.entry given post (out :: outs)) := by
  obtain ⟨outs, past, seen,
    ⟨rest, shifts⟩ | ⟨i, running, after, crew_, found, same, shifts⟩⟩ := works
  · exact ⟨outs, past, seen, .inl ⟨rest, shifts⟩⟩
  cases running with
  | done value =>
      refine ⟨.ok value :: outs, i :: past, .cons found seen, .inl ⟨crew_, ?_⟩⟩
      rw [same]
      exact shifts (.ok value)
  | fail error =>
      refine ⟨.error error :: outs, i :: past, .cons found seen, .inl ⟨crew_, ?_⟩⟩
      rw [same]
      exact shifts (.error error)
  | call request' rest =>
      exact ⟨outs, past, seen, .inr ⟨i, request', rest, after, crew_, found, same, shifts⟩⟩

theorem seen_mono {pool pool' : List (Program C R X ρ)} {past : List Nat}
    {outs : List (Except X ρ)}
    (seen : List.Forall₂ (fun i out => pool[i]? = some (.ended out)) past outs)
    (kept : ∀ i ∈ past, ∀ running, pool[i]? = some running → pool'[i]? = some running) :
    List.Forall₂ (fun i out => pool'[i]? = some (.ended out)) past outs := by
  induction seen with
  | nil => exact .nil
  | cons head _ ih =>
      exact .cons (kept _ List.mem_cons_self _ head) (ih fun i member => kept i (.tail _ member))

theorem Works.mono {pool pool' : List (Program C R X ρ)} {crew : List Nat}
    {program : Program (C ⊕ K) (Sum.elim R S) Y σ}
    (works : Works M.entry given post pool crew program)
    (kept : ∀ i ∈ crew, ∀ running, pool[i]? = some running → pool'[i]? = some running) :
    Works M.entry given post pool' crew program := by
  obtain ⟨outs, past, seen, ⟨rfl, shifts⟩ | ⟨i, running, next, rfl, found, same, shifts⟩⟩ := works
  · exact ⟨outs, crew, seen_mono seen kept, .inl ⟨rfl, shifts⟩⟩
  · exact ⟨outs, past, seen_mono seen fun i member => kept i (.tail _ member),
      .inr ⟨i, running, next, rfl, kept i List.mem_cons_self _ found, same, shifts⟩⟩

variable {c' c'' : Configuration V (C ⊕ K) (Sum.elim R S) Choice Act' Y σ}
  {c : Configuration W C R Choice Act X ρ} {crew : Nat → List Nat}

/-- A thread before an entry program: the base machine starts it. -/
theorem Simulates.hire (sim : Simulates M.entry given post view forget c' c crew) {t : Nat}
    {program : Program (C ⊕ K) (Sum.elim R S) Y σ} (standing : c'.pool[t]? = some program)
    {outs : List (Except X ρ)}
    (seen : List.Forall₂ (fun i out => c.pool[i]? = some (.ended out)) (crew t) outs)
    {start : Entry} {next : Except X ρ → Program (C ⊕ K) (Sum.elim R S) Y σ}
    (same : program = (M.entry start).embed.attempt.bind next)
    (rest : ∀ out, (next out).Shifts M.entry given post (out :: outs)) :
    Simulates M.entry given post view forget c' ⟨c.point, c.pool ++ [M.entry start]⟩
      (Function.update crew t (c.pool.length :: crew t)) := by
  have fresh : ∀ t', c.pool.length ∉ crew t' :=
    fun t' member => absurd (sim.started t' _ member) (Nat.lt_irrefl _)
  have grown : ∀ i, ∀ running, c.pool[i]? = some running →
      (c.pool ++ [M.entry start])[i]? = some running := fun i running found => by
    rw [List.getElem?_append_left (List.getElem?_eq_some_iff.mp found).1, found]
  refine ⟨sim.world, sim.trace, fun t' => ?_, fun t₁ t₂ i first second => ?_,
    fun t' i member => ?_, fun t' outside => ?_, fun t' program' found => ?_⟩
  · by_cases own : t' = t
    · subst own
      rw [Function.update_self]
      exact List.nodup_cons.mpr ⟨fresh t', sim.distinct t'⟩
    · rw [Function.update_of_ne own]
      exact sim.distinct t'
  · by_cases own : t₁ = t <;> by_cases own' : t₂ = t
    · rw [own, own']
    · subst own
      rw [Function.update_self] at first
      rw [Function.update_of_ne own'] at second
      rcases List.mem_cons.mp first with rfl | first
      · exact absurd second (fresh t₂)
      · exact sim.apart t₁ t₂ i first second
    · subst own'
      rw [Function.update_of_ne own] at first
      rw [Function.update_self] at second
      rcases List.mem_cons.mp second with rfl | second
      · exact absurd first (fresh t₁)
      · exact sim.apart t₁ t₂ i first second
    · rw [Function.update_of_ne own] at first
      rw [Function.update_of_ne own'] at second
      exact sim.apart t₁ t₂ i first second
  · rw [List.length_append, List.length_singleton]
    by_cases own : t' = t
    · subst own
      rw [Function.update_self] at member
      rcases List.mem_cons.mp member with rfl | member
      · exact Nat.lt_succ_self _
      · exact Nat.lt_succ_of_lt (sim.started t' i member)
    · rw [Function.update_of_ne own] at member
      exact Nat.lt_succ_of_lt (sim.started t' i member)
  · have bound := (List.getElem?_eq_some_iff.mp standing).1
    rw [Function.update_of_ne (by omega)]
    exact sim.idle t' outside
  · by_cases own : t' = t
    · subst own
      rw [standing] at found
      cases found
      rw [Function.update_self]
      refine ⟨outs, crew t', ?_, .inr ⟨c.pool.length, M.entry start, next, rfl, ?_, same, rest⟩⟩
      · exact seen.imp fun i out => grown i _
      · rw [List.getElem?_append_right (Nat.le_refl _), Nat.sub_self]
        rfl
    · rw [Function.update_of_ne own]
      exact (sim.works t' program' found).mono fun i _ => grown i

/-- A thread inside an entry program: the base machine answers that thread. -/
theorem Simulates.serve (ext : M'.Extends M view forget given)
    (sim : Simulates M.entry given post view forget c' c crew) {t : Nat} {request : C ⊕ K}
    {next : Sum.elim R S request → Program (C ⊕ K) (Sum.elim R S) Y σ}
    (pending : c'.pool[t]? = some (.call request next)) {choice : Choice}
    {reply : Sum.elim R S request} {v : V}
    (moved : M'.serve choice request c'.point.world = some (reply, v))
    {outs : List (Except X ρ)} {past : List Nat}
    (seen : List.Forall₂ (fun i out => c.pool[i]? = some (.ended out)) past outs)
    {i : Nat} {request' : C} {rest : R request' → Program C R X ρ}
    {after : Except X ρ → Program (C ⊕ K) (Sum.elim R S) Y σ} (own : crew t = i :: past)
    (found : c.pool[i]? = some (.call request' rest))
    (same : .call request next = (Program.call request' rest).embed.attempt.bind after)
    (shifts : ∀ out, (after out).Shifts M.entry given post (out :: outs)) :
    ∃ c₁, M.Step c c₁ ∧ Simulates M.entry given post view forget
      ⟨c'.point.log (.served t choice request reply c'.point.world v),
        c'.pool.set t (next reply)⟩ c₁ crew := by
  have bound : t < c'.pool.length := (List.getElem?_eq_some_iff.mp pending).1
  have bound' : i < c.pool.length := (List.getElem?_eq_some_iff.mp found).1
  simp only [Program.embed, Program.attempt, Program.bind] at same
  cases same
  have answered := ext.inner choice request' reply _ v moved
  rw [← sim.world] at answered
  have notPast : i ∉ past := (List.nodup_cons.mp (own ▸ sim.distinct t)).1
  refine ⟨⟨c.point.log (.served i choice request' reply c.point.world (view v)),
    c.pool.set i (rest reply)⟩, ⟨.serve i choice, ?_⟩, ?_⟩
  · simp only [Machine.perform, found, answered]
  refine ⟨rfl, ?_, sim.distinct, sim.apart, fun t' i' member => ?_, fun t' outside => ?_,
    fun t' program' standing => ?_⟩
  · simp only [Point.log_trace, List.map_cons, List.filterMap_cons, Label.deed, Label.anonymous,
      sim.trace, sim.world]
  · rw [List.length_set]
    exact sim.started t' i' member
  · exact sim.idle t' (by simpa using outside)
  · by_cases same : t' = t
    · subst same
      rw [List.getElem?_set_self bound] at standing
      cases standing
      refine ⟨outs, past, seen_mono seen fun i' member running found' => ?_,
        .inr ⟨i, rest reply, after, own, List.getElem?_set_self bound', rfl, shifts⟩⟩
      rw [List.getElem?_set_ne (by rintro rfl; exact notPast member)]
      exact found'
    · rw [List.getElem?_set_ne (Ne.symm same)] at standing
      refine (sim.works t' program' standing).mono fun i' member running found' => ?_
      have other : i ≠ i' := by
        rintro rfl
        exact same (sim.apart t' t i member (own ▸ List.mem_cons_self))
      rw [List.getElem?_set_ne other]
      exact found'

theorem Simulates.step (ext : M'.Extends M view forget given)
    (shifts : ∀ entry, (M'.entry entry).Shifts M.entry given post [])
    (sim : Simulates M.entry given post view forget c' c crew) (step : M'.Step c' c'') :
    ∃ c₁ crew₁, M.Reaches c c₁ ∧ Simulates M.entry given post view forget c'' c₁ crew₁ := by
  obtain ⟨entry, rfl⟩ | ⟨action, v, moved, rfl⟩ |
    ⟨t, choice, request, next, reply, v, pending, moved, rfl⟩ := M'.step_cases step
  · -- nothing happens in the base machine before the first entry program
    refine ⟨c, crew, .refl, sim.world, sim.trace, sim.distinct, sim.apart, sim.started,
      fun t outside => sim.idle t ?_, fun t program found => ?_⟩
    · simp only [List.length_append, List.length_singleton] at outside
      omega
    · rcases Nat.lt_or_ge t c'.pool.length with old | new
      · exact sim.works t program (by simpa [List.getElem?_append_left old] using found)
      · rw [List.getElem?_append_right new] at found
        have only : program = M'.entry entry := by simpa using List.mem_of_getElem? found
        rw [sim.idle t new, only]
        exact ⟨[], [], .nil, .inl ⟨rfl, shifts entry⟩⟩
  · cases known : forget action with
    | none =>
        refine ⟨c, crew, .refl, ?_, ?_, sim.distinct, sim.apart, sim.started, sim.idle, sim.works⟩
        · rw [sim.world, Point.log_world, Label.after_acted, ext.aside action _ v known moved]
        · simp only [Point.log_trace, List.filterMap_cons, Label.deed, known, Option.map_none,
            sim.trace]
    | some act =>
        have acted := ext.acted action act _ v known moved
        rw [← sim.world] at acted
        refine ⟨⟨c.point.log (.acted act c.point.world (view v)), c.pool⟩, crew,
          .single ⟨.act act, by simp only [Machine.perform, acted]⟩, rfl, ?_, sim.distinct,
          sim.apart, sim.started, sim.idle, sim.works⟩
        simp only [Point.log_trace, List.map_cons, List.filterMap_cons, Label.deed, known,
          Option.map_some, Label.anonymous, sim.trace, sim.world]
  obtain ⟨outs, past, seen, ⟨resting, shift⟩ |
    ⟨i, request', rest, after, own, found, same, later⟩⟩ := (sim.works t _ pending).before_call
  · subst resting
    generalize standing : Program.call request next = program at shift
    cases shift with
    | done holds => cases standing
    | fail holds => cases standing
    | @own _ request' next' rest =>
        cases standing
        have bound : t < c'.pool.length := (List.getElem?_eq_some_iff.mp pending).1
        refine ⟨c, crew, .refl, ?_, ?_, sim.distinct, sim.apart, sim.started,
          fun t' outside => sim.idle t' (by simpa using outside), fun t' program found => ?_⟩
        · rw [sim.world, Point.log_world, Label.after_served, (ext.own choice _ reply _ v moved).1]
        · simp only [Point.log_trace, List.filterMap_cons, Label.deed, sim.trace]
        · by_cases same : t' = t
          · subst same
            rw [List.getElem?_set_self bound] at found
            cases found
            exact ⟨outs, crew t', seen, .inl ⟨rfl, rest reply (ext.own choice _ reply _ v moved).2⟩⟩
          · rw [List.getElem?_set_ne (Ne.symm same)] at found
            exact sim.works t' program found
    | pass start after same rest =>
        rw [← standing] at same
        obtain ⟨request', next', begins⟩ := ext.starts start
        have hired := sim.hire pending seen same rest
        have found : (c.pool ++ [M.entry start])[c.pool.length]? = some (.call request' next') := by
          rw [List.getElem?_append_right (Nat.le_refl _), Nat.sub_self, ← begins]
          rfl
        have seen' := seen_mono seen fun i _ running (found : c.pool[i]? = some running) =>
          show (c.pool ++ [M.entry start])[i]? = some running by
            rw [List.getElem?_append_left (List.getElem?_eq_some_iff.mp found).1, found]
        obtain ⟨c₁, stepped, sim₁⟩ := hired.serve ext pending moved seen'
          (Function.update_self _ _ _) found (begins ▸ same) rest
        exact ⟨c₁, _, .head ⟨.spawn start, rfl⟩ (.single stepped), sim₁⟩
  · obtain ⟨c₁, stepped, sim₁⟩ := sim.serve ext pending moved seen own found same later
    exact ⟨c₁, crew, .single stepped, sim₁⟩

/-- **Shifts are simulated** by one thread for each entry program. -/
theorem Machine.simulated (ext : M'.Extends M view forget given)
    (shifts : ∀ entry, (M'.entry entry).Shifts M.entry given post []) {first : V}
    (reached : M'.Reaches (.start first) c') :
    ∃ c crew, M.Reaches (.start (view first)) c ∧
      Simulates M.entry given post view forget c' c crew := by
  induction reached with
  | refl =>
      refine ⟨.start (view first), fun _ => [], .refl, rfl, rfl, fun _ => .nil, ?_, ?_,
        fun _ _ => rfl, ?_⟩
      · intro t t' i member
        cases member
      · intro t i member
        cases member
      · intro t program found
        simp [Configuration.start] at found
  | tail _ step ih =>
      obtain ⟨c, crew, reached, sim⟩ := ih
      obtain ⟨c₁, crew₁, later, sim₁⟩ := sim.step ext shifts step
      exact ⟨c₁, crew₁, reached.trans later, sim₁⟩

end Simulation

end Machines

end Sluice.Theory
