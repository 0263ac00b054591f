/-
# Theory.Dict -- insertion-ordered dictionaries

A dictionary in the reading of a language whose dictionaries remember the order
their keys were first written in: writing a present key replaces its value in
place, writing a fresh key appends.  The carrier is the entry list together with
the proof that no key occurs twice, so `get?` and membership in `entries` say the
same thing (`get?_eq_some_iff`).

Besides `set`, two bulk operations occur in programs that walk over a
dictionary's values: `mapValues`, and `mapAccum`, which walks the entries in order
and threads a state through.  Their lookup lemmas are the whole interface.
-/
import Mathlib.Data.List.Nodup

namespace Sluice.Theory

set_option autoImplicit false

/-- Entries in first-write order, one per key. -/
structure Dict (K V : Type) where
  entries : List (K × V)
  nodup : (entries.map Prod.fst).Nodup

namespace Dict

variable {K V S : Type} [DecidableEq K]

def empty : Dict K V := ⟨[], List.nodup_nil⟩

def keys (d : Dict K V) : List K := d.entries.map Prod.fst

def values (d : Dict K V) : List V := d.entries.map Prod.snd

def get? (d : Dict K V) (k : K) : Option V := d.entries.lookup k

/-- Replace in place, or append. -/
def setEntries (k : K) (v : V) : List (K × V) → List (K × V)
  | [] => [(k, v)]
  | (k', v') :: rest => if k' = k then (k', v) :: rest else (k', v') :: setEntries k v rest

theorem fst_setEntries (k : K) (v : V) (entries : List (K × V)) :
    (setEntries k v entries).map Prod.fst =
      if k ∈ entries.map Prod.fst then entries.map Prod.fst
      else entries.map Prod.fst ++ [k] := by
  induction entries with
  | nil => rfl
  | cons entry rest ih =>
      obtain ⟨k', v'⟩ := entry
      by_cases same : k' = k
      · subst same
        simp [setEntries]
      · simp only [setEntries, if_neg same, List.map_cons, ih, List.mem_cons]
        by_cases later : k ∈ rest.map Prod.fst
        · simp [later]
        · simp [later, Ne.symm same]

def set (d : Dict K V) (k : K) (v : V) : Dict K V where
  entries := setEntries k v d.entries
  nodup := by
    rw [fst_setEntries]
    split
    · exact d.nodup
    · rename_i fresh
      exact List.nodup_append.mpr ⟨d.nodup, List.nodup_singleton k, by
        intro a present b only same
        rw [List.mem_singleton] at only
        exact fresh (only ▸ same ▸ present)⟩

theorem lookup_cons_of_ne {k head : K} (ne : k ≠ head) (value : V) (rest : List (K × V)) :
    ((head, value) :: rest).lookup k = rest.lookup k := by
  simp only [List.lookup_cons, beq_eq_false_iff_ne.mpr ne]

theorem lookup_setEntries (k k' : K) (v : V) (entries : List (K × V)) :
    (setEntries k v entries).lookup k' = if k' = k then some v else entries.lookup k' := by
  induction entries with
  | nil =>
      by_cases same : k' = k
      · simp [setEntries, same]
      · rw [setEntries, lookup_cons_of_ne same, if_neg same]
  | cons entry rest ih =>
      obtain ⟨head, value⟩ := entry
      by_cases here : head = k
      · subst here
        by_cases same : k' = head
        · simp [setEntries, same]
        · rw [setEntries, if_pos rfl, lookup_cons_of_ne same, lookup_cons_of_ne same, if_neg same]
      · rw [setEntries, if_neg here]
        by_cases head' : k' = head
        · subst head'
          simp [here]
        · rw [lookup_cons_of_ne head', lookup_cons_of_ne head', ih]

theorem get?_set (d : Dict K V) (k k' : K) (v : V) :
    (d.set k v).get? k' = if k' = k then some v else d.get? k' :=
  lookup_setEntries k k' v d.entries

@[simp] theorem get?_set_self (d : Dict K V) (k : K) (v : V) : (d.set k v).get? k = some v := by
  simp [get?_set]

theorem get?_set_of_ne (d : Dict K V) {k k' : K} (v : V) (ne : k' ≠ k) :
    (d.set k v).get? k' = d.get? k' := by
  simp [get?_set, ne]

@[simp] theorem get?_empty (k : K) : (empty : Dict K V).get? k = none := rfl

theorem mem_of_lookup {k : K} {v : V} :
    ∀ {entries : List (K × V)}, entries.lookup k = some v → (k, v) ∈ entries
  | [], found => by simp at found
  | (head, value) :: rest, found => by
      rw [List.lookup_cons] at found
      by_cases same : k = head
      · subst same
        simp only [BEq.rfl] at found
        cases found
        exact List.mem_cons_self
      · simp only [beq_eq_false_iff_ne.mpr same] at found
        exact List.mem_cons_of_mem _ (mem_of_lookup found)

theorem lookup_of_mem {k : K} {v : V} :
    ∀ {entries : List (K × V)}, (entries.map Prod.fst).Nodup → (k, v) ∈ entries →
      entries.lookup k = some v
  | [], _, present => by simp at present
  | (head, value) :: rest, nodup, present => by
      simp only [List.map_cons, List.nodup_cons] at nodup
      rw [List.lookup_cons]
      rcases List.mem_cons.mp present with here | later
      · cases here
        simp
      · have ne : k ≠ head := by
          intro same
          exact nodup.1 (same ▸ List.mem_map_of_mem (f := Prod.fst) later)
        simp only [beq_eq_false_iff_ne.mpr ne]
        exact lookup_of_mem nodup.2 later

/-- Lookup and membership agree, because keys do not repeat. -/
theorem get?_eq_some_iff (d : Dict K V) (k : K) (v : V) :
    d.get? k = some v ↔ (k, v) ∈ d.entries :=
  ⟨mem_of_lookup, lookup_of_mem d.nodup⟩

theorem mem_keys_iff (d : Dict K V) (k : K) : k ∈ d.keys ↔ ∃ v, d.get? k = some v := by
  simp only [keys, List.mem_map, Prod.exists, exists_and_right, exists_eq_right,
    get?_eq_some_iff]

theorem mem_values_iff (d : Dict K V) (v : V) : v ∈ d.values ↔ ∃ k, d.get? k = some v := by
  simp only [values, List.mem_map, Prod.exists, exists_eq_right, get?_eq_some_iff]

/-- Writing a present key keeps the keys. -/
theorem keys_set (d : Dict K V) {k : K} {v : V} (present : d.get? k = some v) (v' : V) :
    (d.set k v').keys = d.keys := by
  have member : k ∈ d.entries.map Prod.fst := (d.mem_keys_iff k).mpr ⟨v, present⟩
  rw [keys, set, fst_setEntries, if_pos member]
  rfl

/-- Values that determine their keys are listed once. -/
theorem values_nodup (d : Dict K V) (key : V → K) (keyed : ∀ k v, d.get? k = some v → key v = k) :
    d.values.Nodup := by
  refine List.Nodup.map_on ?_ d.nodup.of_map
  rintro ⟨k, v⟩ present ⟨k', v'⟩ present' same
  have first := keyed k v ((d.get?_eq_some_iff _ _).mpr present)
  have second := keyed k' v' ((d.get?_eq_some_iff _ _).mpr present')
  simp only at same
  rw [← first, ← second, same]

/-- Equal keys in equal order, and equal values. -/
theorem ext_keys {d d' : Dict K V} (keys : d.keys = d'.keys) (values : ∀ k, d.get? k = d'.get? k) :
    d = d' := by
  obtain ⟨entries, nodup⟩ := d
  obtain ⟨entries', nodup'⟩ := d'
  simp only [Dict.keys] at keys
  congr
  refine List.ext_getElem (by simpa using congrArg List.length keys) fun i bound bound' => ?_
  have key : entries[i].1 = entries'[i].1 := by
    have here := congrArg (fun keys => keys[i]?) keys
    simpa [bound, bound'] using here
  have first : entries.lookup entries[i].1 = some entries[i].2 :=
    lookup_of_mem nodup (List.getElem_mem bound)
  have second : entries'.lookup entries'[i].1 = some entries'[i].2 :=
    lookup_of_mem nodup' (List.getElem_mem bound')
  have same : entries.lookup entries[i].1 = entries'.lookup entries[i].1 := values _
  rw [first, key, second] at same
  exact Prod.ext key (Option.some.inj same)

/-- Drop a key. -/
def erase (d : Dict K V) (k : K) : Dict K V where
  entries := d.entries.filter fun entry => entry.1 ≠ k
  nodup := (List.filter_sublist.map _).nodup d.nodup

theorem get?_erase (d : Dict K V) (k k' : K) :
    (d.erase k).get? k' = if k' = k then none else d.get? k' := by
  refine Option.ext fun v => ?_
  have listed : (d.erase k).get? k' = some v ↔ d.get? k' = some v ∧ k' ≠ k := by
    rw [get?_eq_some_iff, get?_eq_some_iff]
    simp [erase]
  rw [listed]
  split
  · simp [*]
  · simp [*]

/-! ## Walking the values -/

def mapValues (d : Dict K V) (f : K → V → V) : Dict K V where
  entries := d.entries.map fun entry => (entry.1, f entry.1 entry.2)
  nodup := by simpa [List.map_map, Function.comp_def] using d.nodup

omit [DecidableEq K] in
@[simp] theorem keys_mapValues (d : Dict K V) (f : K → V → V) : (d.mapValues f).keys = d.keys := by
  simp [keys, mapValues]

omit [DecidableEq K] in
theorem mapValues_self (d : Dict K V) : d.mapValues (fun _ v => v) = d := by
  obtain ⟨entries, nodup⟩ := d
  simp [mapValues]

theorem lookup_mapValues (f : K → V → V) (k : K) (entries : List (K × V)) :
    (entries.map fun entry => (entry.1, f entry.1 entry.2)).lookup k =
      (entries.lookup k).map (f k) := by
  induction entries with
  | nil => rfl
  | cons entry rest ih =>
      obtain ⟨head, value⟩ := entry
      simp only [List.map_cons, List.lookup_cons, ih]
      by_cases same : k = head
      · simp [same]
      · simp [beq_eq_false_iff_ne.mpr same]

@[simp] theorem get?_mapValues (d : Dict K V) (f : K → V → V) (k : K) :
    (d.mapValues f).get? k = (d.get? k).map (f k) :=
  lookup_mapValues f k d.entries

/-- Walk the entries in order, rewriting each value and threading a state. -/
def accumEntries (f : S → V → S × V) : S → List (K × V) → S × List (K × V)
  | s, [] => (s, [])
  | s, (k, v) :: rest =>
      let head := f s v
      let tail := accumEntries f head.1 rest
      (tail.1, (k, head.2) :: tail.2)

omit [DecidableEq K] in
theorem fst_accumEntries (f : S → V → S × V) (s : S) (entries : List (K × V)) :
    (accumEntries f s entries).2.map Prod.fst = entries.map Prod.fst := by
  induction entries generalizing s with
  | nil => rfl
  | cons entry rest ih => simp [accumEntries, ih]

def mapAccum (d : Dict K V) (f : S → V → S × V) (s : S) : S × Dict K V :=
  ((accumEntries f s d.entries).1,
    ⟨(accumEntries f s d.entries).2, by rw [fst_accumEntries]; exact d.nodup⟩)

theorem lookup_accumEntries (f : S → V → S × V) (k : K) (s : S) (entries : List (K × V)) :
    (entries.lookup k = none → (accumEntries f s entries).2.lookup k = none) ∧
      ∀ v, entries.lookup k = some v →
        ∃ s', (accumEntries f s entries).2.lookup k = some (f s' v).2 := by
  induction entries generalizing s with
  | nil => simp [accumEntries]
  | cons entry rest ih =>
      obtain ⟨head, value⟩ := entry
      simp only [accumEntries, List.lookup_cons]
      by_cases same : k = head
      · subst same
        simp only [BEq.rfl, reduceCtorEq, false_implies, true_and, Option.some.injEq]
        intro v found
        exact ⟨s, by rw [found]⟩
      · simp only [beq_eq_false_iff_ne.mpr same]
        exact ih _

theorem get?_mapAccum_none (d : Dict K V) (f : S → V → S × V) (s : S) {k : K}
    (absent : d.get? k = none) : (d.mapAccum f s).2.get? k = none :=
  (lookup_accumEntries f k s d.entries).1 absent

/-- A walked value is the rewriting of the old one at some intermediate state. -/
theorem get?_mapAccum_some (d : Dict K V) (f : S → V → S × V) (s : S) {k : K} {v : V}
    (present : d.get? k = some v) : ∃ s', (d.mapAccum f s).2.get? k = some (f s' v).2 :=
  (lookup_accumEntries f k s d.entries).2 v present

end Dict

end Sluice.Theory
