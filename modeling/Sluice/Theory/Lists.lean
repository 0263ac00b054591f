/-
# Theory.Lists -- counting, summing and numbering along a list

Facts about lists the standard library does not have in this form.

* A numbered log stays numbered when the next number is appended (`numbered_append`).
* What is counted per key is counted in all (`countP_le_mul`); two counted elements can be
  exhibited (`two_of_countP`).
* Sums over parts of a list (`sum_map_le_of_subset`, `sum_map_filter_split`).
* One more element: at the end (`filter_snoc`, `split_snoc`), or in place of one that did not
  count (`filterMap_set_perm`).
-/
import Mathlib.Algebra.Order.BigOperators.Group.List
import Mathlib.Data.List.Basic
import Mathlib.Data.List.Perm.Subperm

namespace Sluice.Theory

set_option autoImplicit false

theorem numbered_append {α : Type} {number : α → Nat} {log : List α} {next : Nat} {x : α}
    (ordered : log.Pairwise fun a b => number a < number b) (fresh : ∀ a ∈ log, number a < next)
    (numbered : number x = next) :
    ((log ++ [x]).Pairwise fun a b => number a < number b) ∧
      ∀ a ∈ log ++ [x], number a < next + 1 := by
  constructor
  · refine List.pairwise_append.mpr ⟨ordered, List.pairwise_singleton _ _, fun a old b last => ?_⟩
    rw [List.mem_singleton.mp last, numbered]
    exact fresh a old
  · intro a member
    rcases List.mem_append.mp member with old | last
    · exact Nat.lt_succ_of_lt (fresh a old)
    · rw [List.mem_singleton.mp last, numbered]
      exact Nat.lt_succ_self _

/-- A count over a list is bounded by the counts over its fibres. -/
theorem countP_le_mul {α κ : Type} [DecidableEq κ] (f : α → κ) (p : α → Bool) {bound : Nat}
    (keys : List κ) : ∀ l : List α, (∀ x ∈ l, f x ∈ keys) →
      (∀ k ∈ keys, (l.filter fun x => f x = k).countP p ≤ bound) →
      l.countP p ≤ keys.length * bound := by
  induction keys with
  | nil =>
      intro l covers _
      rw [List.eq_nil_iff_forall_not_mem.mpr fun x member => List.not_mem_nil (covers x member)]
      exact Nat.zero_le _
  | cons key keys ih =>
      intro l covers each
      obtain ⟨here, rest⟩ := List.forall_mem_cons.mp each
      have others := ih (l.filter fun x => !decide (f x = key))
        (fun x member => by
          obtain ⟨member, other⟩ := List.mem_filter.mp member
          exact (List.mem_cons.mp (covers x member)).resolve_left (by simpa using other))
        (fun k known => ((List.filter_sublist.filter _).countP_le).trans (rest k known))
      rw [List.countP_eq_countP_filter_add l p fun x => f x = key, List.length_cons, Nat.succ_mul]
      omega

theorem two_of_countP {α : Type} {p : α → Bool} {l : List α} (many : 1 < l.countP p) :
    ∃ first a second b rest, l = (first ++ a :: second) ++ b :: rest ∧ p a = true ∧ p b = true := by
  rw [List.countP_eq_length_filter] at many
  cases chosen : l.filter p with
  | nil =>
      rw [chosen] at many
      cases many
  | cons a others =>
      obtain ⟨first, rest, rfl, _, yes, chosen'⟩ := List.filter_eq_cons_iff.mp chosen
      cases others with
      | nil =>
          rw [chosen] at many
          exact absurd many (by simp)
      | cons b others =>
          obtain ⟨second, rest, rfl, _, yes', _⟩ := List.filter_eq_cons_iff.mp chosen'
          exact ⟨first, a, second, b, rest, by simp, yes, yes'⟩

/-- Distinct items of a list of non-negative values sum up to no more than the list. -/
theorem sum_map_le_of_subset {α M : Type} [AddCommMonoid M] [PartialOrder M]
    [IsOrderedAddMonoid M] (value : α → M) {xs ys : List α} (distinct : xs.Nodup)
    (inside : xs ⊆ ys) (natural : ∀ y ∈ ys, 0 ≤ value y) :
    (xs.map value).sum ≤ (ys.map value).sum := by
  obtain ⟨zs, perm, part⟩ := List.subperm_of_subset distinct inside
  rw [← (perm.map value).sum_eq]
  exact (part.map value).sum_le_sum (by simpa using natural)

/-- A part of a list that is made of two parts sums up to their sums. -/
theorem sum_map_filter_split {α M : Type} [AddCommMonoid M] (value : α → M)
    {whole left right : α → Bool} :
    ∀ {xs : List α}, (∀ x ∈ xs, whole x = (left x || right x)) →
      (∀ x ∈ xs, ¬ (left x = true ∧ right x = true)) →
      ((xs.filter whole).map value).sum =
        ((xs.filter left).map value).sum + ((xs.filter right).map value).sum
  | [], _, _ => (add_zero 0).symm
  | x :: xs, parts, apart => by
      have rest := sum_map_filter_split value (fun y member => parts y (.tail _ member))
        (fun y member => apart y (.tail _ member))
      have part := parts x List.mem_cons_self
      have once := apart x List.mem_cons_self
      cases inLeft : left x <;> cases inRight : right x
      · simp [part, inLeft, inRight, rest]
      · simp [part, inLeft, inRight, rest, add_left_comm]
      · simp [part, inLeft, inRight, rest, add_assoc]
      · exact absurd ⟨inLeft, inRight⟩ once

/-- Only the fibre of an appended item takes notice of it. -/
theorem filter_snoc {α κ : Type} [DecidableEq κ] (f : α → κ) (xs : List α) (x : α) (k : κ) :
    (xs ++ [x]).filter (fun y => f y = k) =
      xs.filter (fun y => f y = k) ++ if f x = k then [x] else [] := by
  rw [List.filter_append]
  split <;> simp [*]

/-- A place in a list with one more item is a place in the list, or the new item's. -/
theorem split_snoc {α : Type} {xs older newer : List α} {x y : α}
    (split : xs ++ [x] = older ++ y :: newer) :
    (∃ rest, xs = older ++ y :: rest) ∨ (xs = older ∧ x = y) := by
  rcases List.eq_nil_or_concat newer with rfl | ⟨rest, last, rfl⟩
  · obtain ⟨same, last⟩ := List.append_inj' split rfl
    exact .inr ⟨same, List.head_eq_of_cons_eq last⟩
  · rw [List.concat_eq_append, ← List.cons_append, ← List.append_assoc] at split
    exact .inl ⟨rest, (List.append_inj' split rfl).1⟩

theorem filterMap_set_perm {α β : Type} {f : α → Option β} {l : List α} {i : Nat} {old : α}
    (new : α) (found : l[i]? = some old) (blank : f old = none) :
    ((l.set i new).filterMap f).Perm (l.filterMap f ++ (f new).toList) := by
  obtain ⟨bound, rfl⟩ := List.getElem?_eq_some_iff.mp found
  obtain ⟨left, right, split, _, replaced⟩ : ∃ left right, l = left ++ l[i] :: right ∧
      left.length = i ∧ l.set i new = left ++ new :: right := List.exists_of_set bound
  rw [replaced, split, List.filterMap_append, List.filterMap_append, List.filterMap_cons,
    List.filterMap_cons, blank]
  cases counted : f new with
  | none => simp
  | some value =>
      simp only [Option.toList_some, List.append_assoc]
      exact (List.perm_append_singleton _ _).symm.append_left _

end Sluice.Theory
