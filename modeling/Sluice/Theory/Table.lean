/-
# Theory.Table -- a keyed table under constraints and a row trigger

A table is a dictionary from primary keys to rows.  `TableRules` is what it is declared with:
the key of a row, a check on single rows, a partial unique index, and a trigger that sees old
and new row before an update and may change or refuse the new one.

Statements are refused as a whole (`none`).  An update visits its rows in an order the
database chooses and checks each against the table as it then stands.  What the rules promise
(`Holds`) is kept by every statement; what the trigger promises of one row, every update
promises of every row (`update_row`).
-/
import Sluice.Theory.Dict

namespace Sluice.Theory

set_option autoImplicit false

/-- Keys `K`, rows `V`, values `U` of the unique index. -/
structure TableRules (K V U : Type) where
  key : V → K
  check : V → Bool
  /-- The indexed value, for rows the partial index covers. -/
  unique : V → Option U
  /-- Before an update, from the old and the proposed row: the row to store, or a refusal. -/
  trigger : V → V → Option V

namespace TableRules

variable {K V U : Type} [DecidableEq K] [DecidableEq U] (rules : TableRules K V U)

/-- Another row holds the indexed value. -/
def taken (table : Dict K V) (k : K) (row : V) : Bool :=
  match rules.unique row with
  | none => false
  | some value => table.entries.any fun entry =>
      entry.1 ≠ k && rules.unique entry.2 = some value

/-- The row may be stored under `k`. -/
def admits (table : Dict K V) (k : K) (row : V) : Bool :=
  rules.key row = k && rules.check row && !rules.taken table k row

def insert (table : Dict K V) (row : V) : Option (Dict K V) :=
  if (table.get? (rules.key row)).isNone && rules.admits table (rules.key row) row then
    some (table.set (rules.key row) row)
  else none

/-- One visited row.  An assignment that renames the row is refused. -/
def updateRow (assign : V → V) (table : Dict K V) (k : K) : Option (Dict K V) :=
  match table.get? k with
  | none => some table
  | some old =>
      (rules.trigger old (assign old)).bind fun row =>
        if rules.admits table k row then some (table.set k row) else none

def update (assign : V → V) (table : Dict K V) (visits : List K) : Option (Dict K V) :=
  visits.foldlM (rules.updateRow assign) table

/-- What the rules promise of the table. -/
structure Holds (table : Dict K V) : Prop where
  keyed : ∀ k row, table.get? k = some row → rules.key row = k
  checked : ∀ k row, table.get? k = some row → rules.check row = true
  unique : ∀ k k' row row' value, table.get? k = some row → table.get? k' = some row' →
    rules.unique row = some value → rules.unique row' = some value → k = k'

variable {rules} {table table' : Dict K V} {k : K} {row : V} {assign : V → V}

theorem taken_iff : rules.taken table k row = true ↔ ∃ value k' row',
    rules.unique row = some value ∧ k' ≠ k ∧ table.get? k' = some row' ∧
      rules.unique row' = some value := by
  unfold taken
  split
  · rename_i none_
    simp [none_]
  · rename_i value indexed
    simp only [List.any_eq_true, Bool.and_eq_true, decide_eq_true_eq, indexed]
    constructor
    · rintro ⟨⟨k', row'⟩, member, other, same⟩
      exact ⟨value, k', row', rfl, other, (Dict.get?_eq_some_iff _ _ _).mpr member, same⟩
    · rintro ⟨value', k', row', same, other, found, same'⟩
      cases same
      exact ⟨⟨k', row'⟩, (Dict.get?_eq_some_iff _ _ _).mp found, other, same'⟩

theorem admits_iff : rules.admits table k row = true ↔
    rules.key row = k ∧ rules.check row = true ∧ rules.taken table k row = false := by
  simp [admits, and_assoc]

/-- A row that keeps the indexed value of its predecessor is not in anybody's way. -/
theorem Holds.not_taken (holds : rules.Holds table) {old : V} (found : table.get? k = some old)
    (same : rules.unique row = rules.unique old) : rules.taken table k row = false := by
  rw [← Bool.not_eq_true, taken_iff]
  rintro ⟨value, k', row', indexed, other, found', indexed'⟩
  exact other (holds.unique k' k row' old value found' found indexed' (same ▸ indexed))

omit [DecidableEq U] in
theorem Holds.empty : rules.Holds Dict.empty := ⟨by simp, by simp, by simp⟩

theorem Holds.set (holds : rules.Holds table) (admitted : rules.admits table k row = true) :
    rules.Holds (table.set k row) := by
  obtain ⟨key, check, free⟩ := admits_iff.mp admitted
  have alone : ∀ k' row' value, k' ≠ k → table.get? k' = some row' →
      rules.unique row = some value → rules.unique row' ≠ some value := by
    intro k' row' value other found indexed indexed'
    have taken := taken_iff.mpr ⟨value, k', row', indexed, other, found, indexed'⟩
    rw [free] at taken
    cases taken
  refine ⟨fun k' row' found => ?_, fun k' row' found => ?_,
    fun k₁ k₂ row₁ row₂ value found₁ found₂ indexed₁ indexed₂ => ?_⟩
  · rw [Dict.get?_set] at found
    split at found
    · rename_i same
      cases found
      exact key.trans same.symm
    · exact holds.keyed k' row' found
  · rw [Dict.get?_set] at found
    split at found
    · cases found
      exact check
    · exact holds.checked k' row' found
  · rw [Dict.get?_set] at found₁ found₂
    split at found₁ <;> split at found₂
    · rename_i same₁ same₂
      exact same₁.trans same₂.symm
    · rename_i same₁ other₂
      cases found₁
      exact absurd indexed₂ (alone k₂ row₂ value other₂ found₂ indexed₁)
    · rename_i other₁ same₂
      cases found₂
      exact absurd indexed₁ (alone k₁ row₁ value other₁ found₁ indexed₂)
    · exact holds.unique k₁ k₂ row₁ row₂ value found₁ found₂ indexed₁ indexed₂

omit [DecidableEq U] in
theorem Holds.erase (holds : rules.Holds table) (k : K) : rules.Holds (table.erase k) := by
  have kept : ∀ {k' row'}, (table.erase k).get? k' = some row' → table.get? k' = some row' := by
    intro k' row' found
    rw [Dict.get?_erase] at found
    split at found
    · cases found
    · exact found
  exact ⟨fun k' row' found => holds.keyed k' row' (kept found),
    fun k' row' found => holds.checked k' row' (kept found),
    fun k₁ k₂ row₁ row₂ value found₁ found₂ =>
      holds.unique k₁ k₂ row₁ row₂ value (kept found₁) (kept found₂)⟩

/-! ## Statements -/

theorem insert_cases (done : rules.insert table row = some table') :
    table.get? (rules.key row) = none ∧ rules.admits table (rules.key row) row = true ∧
      table' = table.set (rules.key row) row := by
  unfold insert at done
  split at done
  · rename_i fits
    rw [Bool.and_eq_true, Option.isNone_iff_eq_none] at fits
    exact ⟨fits.1, fits.2, (Option.some.inj done).symm⟩
  · cases done

theorem updateRow_cases (done : rules.updateRow assign table k = some table') :
    (table.get? k = none ∧ table' = table) ∨
    ∃ old row, table.get? k = some old ∧ rules.trigger old (assign old) = some row ∧
      rules.admits table k row = true ∧ table' = table.set k row := by
  unfold updateRow at done
  split at done
  · rename_i absent
    exact .inl ⟨absent, (Option.some.inj done).symm⟩
  · rename_i old found
    obtain ⟨row, passed, stored⟩ := Option.bind_eq_some_iff.mp done
    split at stored
    · rename_i admitted
      exact .inr ⟨old, row, found, passed, admitted, (Option.some.inj stored).symm⟩
    · cases stored

theorem insert_eq (absent : table.get? (rules.key row) = none)
    (admitted : rules.admits table (rules.key row) row = true) :
    rules.insert table row = some (table.set (rules.key row) row) := by
  simp [insert, absent, admitted]

theorem updateRow_eq {old : V} (found : table.get? k = some old)
    (passed : rules.trigger old (assign old) = some row)
    (admitted : rules.admits table k row = true) :
    rules.updateRow assign table k = some (table.set k row) := by
  simp [updateRow, found, passed, admitted]

/-- What one visit keeps, an update keeps. -/
theorem update_induction {J : Dict K V → Prop}
    (visit : ∀ table k table', rules.updateRow assign table k = some table' → J table → J table')
    {visits : List K} (done : rules.update assign table visits = some table') (holds : J table) :
    J table' := by
  unfold update at done
  induction visits generalizing table with
  | nil =>
      cases done
      exact holds
  | cons k visits ih =>
      rw [List.foldlM_cons] at done
      obtain ⟨middle, first, rest⟩ := Option.bind_eq_some_iff.mp done
      exact ih rest (visit table k middle first holds)

theorem Holds.insert (holds : rules.Holds table) (done : rules.insert table row = some table') :
    rules.Holds table' := by
  obtain ⟨_, admitted, rfl⟩ := insert_cases done
  exact holds.set admitted

theorem Holds.update (holds : rules.Holds table) {visits : List K}
    (done : rules.update assign table visits = some table') : rules.Holds table' := by
  refine update_induction (J := rules.Holds) (fun table k table' visited holds => ?_) done holds
  rcases updateRow_cases visited with ⟨_, rfl⟩ | ⟨_, _, _, _, admitted, rfl⟩
  · exact holds
  · exact holds.set admitted

/-- **Row rule.**  What the trigger ensures between the old and the new version of a row holds
between the versions before and after an update, for every row. -/
theorem update_row {R : V → V → Prop} (refl : ∀ row, R row row)
    (trans : ∀ a b c, R a b → R b c → R a c)
    (passes : ∀ old new row, rules.trigger old new = some row → R old row)
    {visits : List K} (done : rules.update assign table visits = some table') {old : V}
    (found : table.get? k = some old) : ∃ row, table'.get? k = some row ∧ R old row := by
  refine update_induction (J := fun table => ∃ row, table.get? k = some row ∧ R old row)
    ?_ done ⟨old, found, refl old⟩
  rintro table k' table' visited ⟨row, here, way⟩
  rcases updateRow_cases visited with ⟨_, rfl⟩ | ⟨before, after, present, passed, _, rfl⟩
  · exact ⟨row, here, way⟩
  · rw [Dict.get?_set]
    split
    · rename_i same
      rw [same, present] at here
      cases here
      exact ⟨after, rfl, trans _ _ _ way (passes _ _ _ passed)⟩
    · exact ⟨row, here, way⟩

/-- An update that every visited row survives, with its key and its indexed value, replaces
exactly these rows. -/
theorem update_eq (f : V → V) : ∀ (olds : List V) (table : Dict K V), rules.Holds table →
    (olds.map rules.key).Nodup → (∀ old ∈ olds, table.get? (rules.key old) = some old ∧
      rules.trigger old (assign old) = some (f old) ∧ rules.key (f old) = rules.key old ∧
      rules.check (f old) = true ∧ rules.unique (f old) = rules.unique old) →
    rules.update assign table (olds.map rules.key) = some (table.mapValues fun k row =>
      ((olds.map f).find? fun new => rules.key new = k).getD row)
  | [], table, _, _, _ => by
      have same : table.mapValues (fun k row =>
          (([] : List V).find? fun new => rules.key new = k).getD row) = table :=
        Dict.ext_keys (by simp) (by simp)
      rw [List.map_nil, List.map_nil, same]
      rfl
  | old :: olds, table, holds, distinct, fits => by
      obtain ⟨new, distinct'⟩ := List.nodup_cons.mp distinct
      obtain ⟨found, passed, key, check, unique⟩ := fits old List.mem_cons_self
      have admitted := admits_iff.mpr ⟨key, check, holds.not_taken found unique⟩
      have visited := updateRow_eq found passed admitted
      have others : ∀ old' ∈ olds, rules.key old' ≠ rules.key old :=
        fun old' member same => new (same ▸ List.mem_map_of_mem member)
      have rest := update_eq f olds (table.set (rules.key old) (f old)) (holds.set admitted)
        distinct' fun old' member => by
          rw [Dict.get?_set_of_ne _ _ (others old' member)]
          exact fits old' (.tail _ member)
      rw [update, List.map_cons, List.foldlM_cons, visited]
      refine rest.trans (congrArg some (Dict.ext_keys ?_ fun k => ?_))
      · rw [Dict.keys_mapValues, Dict.keys_mapValues, Dict.keys_set table found]
      · rw [Dict.get?_mapValues, Dict.get?_mapValues, Dict.get?_set, List.map_cons, List.find?_cons]
        by_cases here : k = rules.key old
        · have absent : (olds.map f).find? (fun new => rules.key new = k) = none := by
            rw [List.find?_eq_none]
            intro new member
            obtain ⟨old', member', rfl⟩ := List.mem_map.mp member
            have key' := (fits old' (.tail _ member')).2.2.1
            simpa [key', here] using others old' member'
          simp [here, key, found, here ▸ absent]
        · simp [here, key, Ne.symm here]

end TableRules

end Sluice.Theory
