/-
# Theory.Dialogue -- what one thread asks and hears

A dialogue is the list of a thread's calls with their replies, oldest first.  `Tells` judges
a program by all of its dialogues: which calls it may make after what it has heard, and how
it may end.  It is proved of a program by the rules for `bind` and `attempt`, without a word
about other threads.

`Machine.tells` carries the judgement over to every run: whatever the interleaving, what a
thread has asked and heard is a dialogue of the program it was started with, and what is
left of the program goes on from there.
-/
import Sluice.Theory.Interleaving

namespace Sluice.Theory

set_option autoImplicit false

/-- Calls with their replies, oldest first. -/
abbrev Dialogue (C : Type) (R : C → Type) := List ((request : C) × R request)

namespace Program

variable {C : Type} {R : C → Type} {X Y α β : Type}

/-- After what it has heard, a program makes only calls that fit and ends as `post` asks, if
each reply is a possible one. -/
def Tells (possible : (request : C) → R request → Prop) :
    Program C R X α → (Dialogue C R → C → Prop) → (Dialogue C R → Except X α → Prop) → Prop
  | .done value, _, post => post [] (.ok value)
  | .fail error, _, post => post [] (.error error)
  | .call request next, fits, post => fits [] request ∧ ∀ reply, possible request reply →
      (next reply).Tells possible (fun d => fits (⟨request, reply⟩ :: d))
        (fun d => post (⟨request, reply⟩ :: d))

variable {possible : (request : C) → R request → Prop}

theorem Tells.mono : ∀ {program : Program C R X α} {fits fits' : Dialogue C R → C → Prop}
    {post post' : Dialogue C R → Except X α → Prop},
    (∀ d request, fits d request → fits' d request) →
    (∀ d outcome, post d outcome → post' d outcome) → program.Tells possible fits post →
    program.Tells possible fits' post'
  | .done _, _, _, _, _, _, ends, tells => ends _ _ tells
  | .fail _, _, _, _, _, _, ends, tells => ends _ _ tells
  | .call _ _, _, _, _, _, calls, ends, tells => ⟨calls _ _ tells.1, fun reply given =>
      (tells.2 reply given).mono (fun _ => calls _) (fun _ => ends _)⟩

theorem tells_trivial : ∀ program : Program C R X α,
    program.Tells possible (fun _ _ => True) (fun _ _ => True)
  | .done _ => trivial
  | .fail _ => trivial
  | .call _ next => ⟨trivial, fun reply _ => tells_trivial (next reply)⟩

theorem Tells.pure {fits : Dialogue C R → C → Prop} {post : Dialogue C R → Except X α → Prop}
    {value : α} (holds : post [] (.ok value)) :
    (Pure.pure value : Program C R X α).Tells possible fits post := holds

theorem Tells.raise {fits : Dialogue C R → C → Prop} {post : Dialogue C R → Except X α → Prop}
    {error : X} (holds : post [] (.error error)) :
    (Program.raise error : Program C R X α).Tells possible fits post := holds

/-- The second part of a program goes on from the dialogue of the first. -/
theorem Tells.bind {next : α → Program C R X β} : ∀ {program : Program C R X α}
    {fits : Dialogue C R → C → Prop} {post : Dialogue C R → Except X β → Prop},
    program.Tells possible fits (fun d outcome => match outcome with
      | .ok value =>
          (next value).Tells possible (fun d' => fits (d ++ d')) (fun d' => post (d ++ d'))
      | .error error => post d (.error error)) →
    (program.bind next).Tells possible fits post
  | .done _, _, _, tells => tells
  | .fail _, _, _, tells => tells
  | .call _ _, _, _, tells => ⟨tells.1, fun reply given => Tells.bind (tells.2 reply given)⟩

theorem Tells.attempt : ∀ {program : Program C R X α} {fits : Dialogue C R → C → Prop}
    {post : Dialogue C R → Except Y (Except X α) → Prop},
    program.Tells possible fits (fun d outcome => post d (.ok outcome)) →
    (program.attempt : Program C R Y (Except X α)).Tells possible fits post
  | .done _, _, _, tells => tells
  | .fail _, _, _, tells => tells
  | .call _ _, _, _, tells => ⟨tells.1, fun reply given => Tells.attempt (tells.2 reply given)⟩

theorem Tells.ask {request : C} {next : R request → Program C R X β}
    {fits : Dialogue C R → C → Prop} {post : Dialogue C R → Except X β → Prop}
    (fit : fits [] request)
    (rest : ∀ reply, possible request reply →
      (next reply).Tells possible (fun d => fits (⟨request, reply⟩ :: d))
        (fun d => post (⟨request, reply⟩ :: d))) :
    ((Program.ask request).bind next).Tells possible fits post := ⟨fit, rest⟩

/-- How a program ends, whatever possible replies it is given. -/
theorem Tells.ensures : ∀ {program : Program C R X α} {fits : Dialogue C R → C → Prop}
    {post : Dialogue C R → Except X α → Prop} {ends : Except X α → Prop},
    program.Tells possible fits post →
    (∀ d outcome, (∀ said ∈ d, possible said.1 said.2) → post d outcome → ends outcome) →
    program.Ensures possible ends
  | .done _, _, _, _, tells, implies => implies [] _ nofun tells
  | .fail _, _, _, _, tells, implies => implies [] _ nofun tells
  | .call _ _, _, _, _, tells, implies => fun reply given =>
      (tells.2 reply given).ensures fun _ outcome all =>
        implies _ outcome (List.forall_mem_cons.mpr ⟨given, all⟩)

/-- Through dialogue `d`, the first program comes to stand before the second. -/
inductive Goes : Program C R X α → Dialogue C R → Program C R X α → Prop
  | here (program : Program C R X α) : Goes program [] program
  | on {request : C} {next : R request → Program C R X α} {reply : R request} {d : Dialogue C R}
      {last : Program C R X α} (rest : Goes (next reply) d last) :
      Goes (.call request next) (⟨request, reply⟩ :: d) last

theorem Goes.snoc {program : Program C R X α} {d : Dialogue C R} {request : C}
    {next : R request → Program C R X α} (goes : Goes program d (.call request next))
    (reply : R request) : Goes program (d ++ [⟨request, reply⟩]) (next reply) := by
  generalize stands : Program.call request next = last at goes
  induction goes with
  | here program =>
      subst stands
      exact .on (.here _)
  | on rest ih => exact .on (ih stands)

/-- On the way every call fits, and the rest is judged from where it stands. -/
theorem Goes.tells {program last : Program C R X α} {d : Dialogue C R}
    {fits : Dialogue C R → C → Prop} {post : Dialogue C R → Except X α → Prop}
    (goes : Goes program d last) (tells : program.Tells possible fits post)
    (given : ∀ said ∈ d, possible said.1 said.2) :
    last.Tells possible (fun d' => fits (d ++ d')) (fun d' => post (d ++ d')) ∧
      ∀ before said after, d = before ++ said :: after → fits before said.1 := by
  induction goes generalizing fits post with
  | here program => exact ⟨tells, fun before said after split => by simp at split⟩
  | @on request next reply d last rest ih =>
      obtain ⟨tells', fit⟩ := ih (tells.2 reply (given _ List.mem_cons_self))
        fun said member => given said (.tail _ member)
      refine ⟨tells', fun before said after split => ?_⟩
      cases before with
      | nil =>
          cases split
          exact tells.1
      | cons first before =>
          obtain ⟨rfl, later⟩ := List.cons.inj split
          exact fit before said after later

end Program

/-! ## Threads of a run -/

section Pool

variable {W C : Type} {R : C → Type} {Choice Act Entry X ρ : Type}

/-- What a step said, if thread `t` made it. -/
def Label.saidBy (t : Nat) : Label W C R Choice Act → Dialogue C R
  | .served thread _ request reply _ _ => if thread = t then [⟨request, reply⟩] else []
  | .acted .. => []

/-- The dialogue of thread `t` in a trace. -/
def heard (t : Nat) : List (Label W C R Choice Act) → Dialogue C R
  | [] => []
  | label :: older => heard t older ++ label.saidBy t

@[simp] theorem heard_nil (t : Nat) : heard t ([] : List (Label W C R Choice Act)) = [] := rfl

@[simp] theorem heard_cons (t : Nat) (label : Label W C R Choice Act)
    (older : List (Label W C R Choice Act)) :
    heard t (label :: older) = heard t older ++ label.saidBy t := rfl

theorem Label.saidBy_self (t : Nat) (choice : Choice) (request : C) (reply : R request) (w w' : W) :
    (served t choice request reply w w' : Label W C R Choice Act).saidBy t = [⟨request, reply⟩] :=
  if_pos rfl

theorem Label.saidBy_of_ne {t thread : Nat} (other : thread ≠ t) (choice : Choice) (request : C)
    (reply : R request) (w w' : W) :
    (served thread choice request reply w w' : Label W C R Choice Act).saidBy t = [] :=
  if_neg other

theorem heard_append (t : Nat) (newer older : List (Label W C R Choice Act)) :
    heard t (newer ++ older) = heard t older ++ heard t newer := by
  induction newer with
  | nil => simp
  | cons label newer ih => rw [List.cons_append, heard_cons, ih, heard_cons, List.append_assoc]

theorem mem_heard {t : Nat} {trace : List (Label W C R Choice Act)}
    {said : (request : C) × R request} :
    said ∈ heard t trace ↔
      ∃ choice w w', .served t choice said.1 said.2 w w' ∈ trace := by
  induction trace with
  | nil => simp
  | cons label older ih =>
      rw [heard_cons, List.mem_append, ih]
      cases label with
      | acted action w w' => simp [Label.saidBy]
      | served thread choice request reply w w' =>
          by_cases same : thread = t
          · subst same
            rw [Label.saidBy_self, List.mem_singleton]
            constructor
            · rintro (⟨choice', w₀, w₁, member⟩ | rfl)
              · exact ⟨choice', w₀, w₁, .tail _ member⟩
              · exact ⟨choice, w, w', .head _⟩
            · rintro ⟨choice', w₀, w₁, member⟩
              rcases List.mem_cons.mp member with here | there
              · cases here
                exact .inr rfl
              · exact .inl ⟨choice', w₀, w₁, there⟩
          · rw [Label.saidBy_of_ne same]
            constructor
            · rintro (⟨choice', w₀, w₁, member⟩ | none_)
              · exact ⟨choice', w₀, w₁, .tail _ member⟩
              · cases none_
            · rintro ⟨choice', w₀, w₁, member⟩
              rcases List.mem_cons.mp member with here | there
              · cases here
                exact absurd rfl same
              · exact .inl ⟨choice', w₀, w₁, there⟩

variable {M : Machine W C R Choice Act Entry X ρ}

/-- Every thread is its entry program after what it has asked and heard, and nobody else
has asked anything. -/
theorem Machine.goes {first : W} {c : Configuration W C R Choice Act X ρ}
    (reached : M.Reaches (.start first) c) :
    (∀ t program, c.pool[t]? = some program →
      ∃ entry, (M.entry entry).Goes (heard t c.point.trace) program) ∧
    ∀ t, c.pool.length ≤ t → heard t c.point.trace = [] := by
  induction reached with
  | refl => exact ⟨fun t program found => by simp [Configuration.start] at found, fun _ _ => rfl⟩
  | @tail middle last _ step ih =>
      obtain ⟨started, silent⟩ := ih
      obtain ⟨entry, rfl⟩ | ⟨action, world, _, rfl⟩ |
        ⟨thread, choice, request, next, reply, world, pending, _, rfl⟩ := M.step_cases step
      · refine ⟨fun t program found => ?_, fun t outside => silent t ?_⟩
        · rcases Nat.lt_or_ge t middle.pool.length with old | new
          · exact started t program (by simpa [List.getElem?_append_left old] using found)
          · rw [List.getElem?_append_right new] at found
            have only : program = M.entry entry := by simpa using List.mem_of_getElem? found
            rw [silent t new, only]
            exact ⟨entry, .here _⟩
        · simp only [List.length_append, List.length_singleton] at outside
          omega
      · simp only [Point.log_trace, heard_cons, Label.saidBy, List.append_nil]
        exact ⟨started, silent⟩
      · have bound : thread < middle.pool.length := (List.getElem?_eq_some_iff.mp pending).1
        refine ⟨fun t program found => ?_, fun t outside => ?_⟩
        · by_cases same : thread = t
          · subst same
            rw [List.getElem?_set_self bound] at found
            cases found
            obtain ⟨entry, goes⟩ := started thread _ pending
            rw [Point.log_trace, heard_cons, Label.saidBy_self]
            exact ⟨entry, goes.snoc reply⟩
          · rw [List.getElem?_set_ne same] at found
            rw [Point.log_trace, heard_cons, Label.saidBy_of_ne same, List.append_nil]
            exact started t program found
        · rw [List.length_set] at outside
          rw [Point.log_trace, heard_cons, Label.saidBy_of_ne (by omega), List.append_nil]
          exact silent t outside

/-- Every reply of a trace was given by the world. -/
theorem Machine.served_of_mem {first : W} {c : Configuration W C R Choice Act X ρ}
    (reached : M.Reaches (.start first) c) {thread : Nat} {choice : Choice} {request : C}
    {reply : R request} {w w' : W}
    (member : .served thread choice request reply w w' ∈ c.point.trace) :
    M.serve choice request w = some (reply, w') ∧ thread < c.pool.length := by
  induction reached with
  | refl => simp [Configuration.start] at member
  | @tail middle last _ step ih =>
      obtain ⟨entry, rfl⟩ | ⟨action, world, _, rfl⟩ |
        ⟨thread', choice', request', next, reply', world, pending, moved, rfl⟩ := M.step_cases step
      · obtain ⟨served, bound⟩ := ih member
        exact ⟨served, by simp only [List.length_append, List.length_singleton]; omega⟩
      · rcases List.mem_cons.mp member with here | there
        · cases here
        · exact ih there
      · rw [List.length_set]
        rcases List.mem_cons.mp member with here | there
        · cases here
          exact ⟨moved, (List.getElem?_eq_some_iff.mp pending).1⟩
        · exact ih there

/-- **Dialogues of a run.**  If the entry programs are judged by their dialogues and only
possible replies were given, then so is, in every reachable configuration, what is left of
each thread. -/
theorem Machine.tells {possible : (request : C) → R request → Prop}
    {fits : Entry → Dialogue C R → C → Prop} {post : Entry → Dialogue C R → Except X ρ → Prop}
    (entries : ∀ entry, (M.entry entry).Tells possible (fits entry) (post entry))
    {first : W} {c : Configuration W C R Choice Act X ρ} (reached : M.Reaches (.start first) c)
    (given : ∀ thread choice request reply w w',
      .served thread choice request reply w w' ∈ c.point.trace → possible request reply)
    {t : Nat} {program : Program C R X ρ} (found : c.pool[t]? = some program) :
    ∃ entry, program.Tells possible (fun d => fits entry (heard t c.point.trace ++ d))
        (fun d => post entry (heard t c.point.trace ++ d)) ∧
      ∀ before said after, heard t c.point.trace = before ++ said :: after →
        fits entry before said.1 := by
  obtain ⟨entry, goes⟩ := (Machine.goes reached).1 t program found
  refine ⟨entry, goes.tells (entries entry) fun said member => ?_⟩
  obtain ⟨choice, w, w', logged⟩ := mem_heard.mp member
  exact given t choice _ _ w w' logged

end Pool

end Sluice.Theory
