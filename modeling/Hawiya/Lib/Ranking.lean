import Mathlib.Data.List.Sort

/-!
# The best few of a list

`best key limit l` are the first `limit` elements of `l` in the order of a key. What is left out is
not before anything that is listed.
-/

namespace Ranking
variable {α β : Type} [LinearOrder β] (key : α → β)

def sorted (l : List α) : List α := l.insertionSort (fun a b => key a ≤ key b)

def best (limit : ℕ) (l : List α) : List α := (sorted key l).take limit

variable {key} {l : List α} {limit : ℕ} {a : α}

theorem perm_sorted (l : List α) : (sorted key l).Perm l := List.perm_insertionSort _ l

variable (key) in
theorem pairwise_sorted (l : List α) : (sorted key l).Pairwise (fun a b => key a ≤ key b) := by
  have htrans : IsTrans α (fun a b => key a ≤ key b) := ⟨fun _ _ _ => le_trans⟩
  have htotal : Std.Total (fun a b : α => key a ≤ key b) := ⟨fun a b => le_total (key a) (key b)⟩
  exact List.pairwise_insertionSort (fun a b => key a ≤ key b) l

theorem mem_of_mem_best (h : a ∈ best key limit l) : a ∈ l :=
  (perm_sorted l).mem_iff.mp (List.mem_of_mem_take h)

variable (key) in
theorem pairwise_best (limit : ℕ) (l : List α) :
    (best key limit l).Pairwise (fun a b => key a ≤ key b) :=
  (pairwise_sorted key l).sublist (List.take_sublist _ _)

theorem length_best (limit : ℕ) (l : List α) : (best key limit l).length = min limit l.length := by
  rw [best, List.length_take, (perm_sorted l).length_eq]

/-- What is left out of the list comes after everything in it, and the list is full. -/
theorem best_of_not_mem (ha : a ∈ l) (hout : a ∉ best key limit l) :
    (best key limit l).length = limit ∧ ∀ b ∈ best key limit l, key b ≤ key a := by
  have hsplit : a ∈ best key limit l ++ (sorted key l).drop limit := by
    rw [best, List.take_append_drop]
    exact (perm_sorted l).mem_iff.mpr ha
  have hdrop : a ∈ (sorted key l).drop limit := (List.mem_append.mp hsplit).resolve_left hout
  constructor
  · have hlt : limit < (sorted key l).length := by
      by_contra hle
      rw [List.drop_eq_nil_of_le (Nat.not_lt.mp hle)] at hdrop
      exact List.not_mem_nil hdrop
    rw [best, List.length_take, Nat.min_eq_left hlt.le]
  · intro b hb
    have hpairs := pairwise_sorted key l
    rw [← List.take_append_drop limit (sorted key l), List.pairwise_append] at hpairs
    exact hpairs.2.2 b hb a hdrop

end Ranking
