/-
# Theory.Queue -- the first few of a sorted list

A list sorted by a key is a queue, and `take` serves its head.  The order of the queue
depends only on how the keys compare (`insertionSort_congr`), leaving rows out does not
reorder the rest (`filter_insertionSort`), and a row is served exactly if fewer rows than
are served stand ahead of it (`mem_take_iff`).
-/
import Mathlib.Data.List.Sort
import Mathlib.Order.Defs.LinearOrder

namespace Sluice.Theory.Queue

set_option autoImplicit false

variable {α κ κ' : Type} [LinearOrder κ] [LinearOrder κ'] {key : α → κ}

theorem insertionSort_congr {key' : α → κ'} {rows : List α}
    (alike : ∀ a ∈ rows, ∀ b ∈ rows, key a ≤ key b ↔ key' a ≤ key' b) :
    rows.insertionSort (fun a b => key a ≤ key b) =
      rows.insertionSort fun a b => key' a ≤ key' b := by
  have sorted := List.map_insertionSort (fun a b => key a ≤ key b) (fun a b => key' a ≤ key' b)
    id rows alike
  simpa using sorted

theorem pairwise_insertionSort (rows : List α) :
    (rows.insertionSort fun a b => key a ≤ key b).Pairwise fun a b => key a ≤ key b := by
  have : Std.Total fun a b : α => key a ≤ key b := ⟨fun a b => le_total (key a) (key b)⟩
  have : IsTrans α fun a b => key a ≤ key b := ⟨fun _ _ _ => le_trans⟩
  exact List.pairwise_insertionSort _ rows

/-- Leaving rows out does not reorder the rest, where keys are distinct. -/
theorem filter_insertionSort (keep : α → Bool) {rows : List α}
    (distinct : ∀ a ∈ rows, ∀ b ∈ rows, key a = key b → a = b) :
    (rows.insertionSort fun a b => key a ≤ key b).filter keep =
      (rows.filter keep).insertionSort fun a b => key a ≤ key b := by
  have perm : ((rows.insertionSort fun a b => key a ≤ key b).filter keep).Perm
      ((rows.filter keep).insertionSort fun a b => key a ≤ key b) :=
    ((List.perm_insertionSort _ rows).filter keep).trans (List.perm_insertionSort _ _).symm
  refine List.Perm.eq_of_pairwise ?_ ((pairwise_insertionSort rows).filter keep)
    (pairwise_insertionSort _) perm
  intro a b left right below above
  have left := (List.mem_insertionSort _).mp (List.mem_of_mem_filter left)
  have right := List.mem_of_mem_filter ((List.mem_insertionSort _).mp right)
  exact distinct a left b right (le_antisymm below above)

/-- Where the head of the queue passes a further test, the test does not change it. -/
theorem take_filter (test : α → Bool) :
    ∀ (n : Nat) {rows : List α}, (∀ a ∈ rows.take n, test a = true) →
      (rows.filter test).take n = rows.take n
  | 0, rows, _ => by simp
  | n + 1, [], _ => rfl
  | n + 1, a :: rows, passes => by
      rw [List.take_succ_cons, List.forall_mem_cons] at passes
      rw [List.filter_cons_of_pos passes.1, List.take_succ_cons, List.take_succ_cons,
        take_filter test n passes.2]

/-- A row is served exactly if fewer rows than are served stand ahead of it. -/
theorem mem_take_iff {a : α} :
    ∀ (n : Nat) {rows : List α}, rows.Pairwise (fun a b => key a < key b) → a ∈ rows →
      (a ∈ rows.take n ↔ (rows.filter fun b => key b < key a).length < n)
  | 0, rows, _, _ => by simp
  | n + 1, b :: rows, sorted, member => by
      obtain ⟨first, sorted⟩ := List.pairwise_cons.mp sorted
      rw [List.take_succ_cons, List.mem_cons]
      rcases List.mem_cons.mp member with rfl | later
      · -- nobody stands ahead of the first row
        have none_ahead : (a :: rows).filter (fun b => key b < key a) = [] := by
          rw [List.filter_eq_nil_iff]
          intro c present
          rcases List.mem_cons.mp present with rfl | behind
          · simp
          · simpa using (first c behind).le
        rw [none_ahead]
        simp
      · have ahead := first a later
        rw [List.filter_cons_of_pos (by simpa using ahead), List.length_cons,
          Nat.add_lt_add_iff_right, ← mem_take_iff n sorted later]
        refine ⟨fun served => served.resolve_left ?_, .inr⟩
        rintro rfl
        exact lt_irrefl _ ahead

end Sluice.Theory.Queue
