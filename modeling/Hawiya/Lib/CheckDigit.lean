import Mathlib.Data.Nat.ModEq
import Mathlib.Tactic

/-!
# Weighted check digits

The weighted sum of a list of values, with the weight of each position given. A single value that
is replaced by another changes the sum modulo `m` exactly when the two differ modulo `m`, provided
the weights are units. Neighbours that change places do so when they differ modulo the part of `m`
that the differences of the weights leave.
-/

namespace CheckDigit

def total (w : ℕ → ℕ) : ℕ → List ℕ → ℕ
  | _, [] => 0
  | i, v :: vs => v * w i + total w (i + 1) vs

variable (w : ℕ → ℕ)

theorem total_set (i k v : ℕ) {xs : List ℕ} (h : k < xs.length) :
    total w i (xs.set k v) + xs[k] * w (i + k) = total w i xs + v * w (i + k) := by
  induction xs generalizing i k with
  | nil => exact absurd h (Nat.not_lt_zero k)
  | cons x xs ih =>
    cases k with
    | zero =>
      simp only [List.set_cons_zero, List.getElem_cons_zero, total, Nat.add_zero]
      omega
    | succ k =>
      have hk : k < xs.length := Nat.lt_of_succ_lt_succ h
      have hrest := ih (i + 1) k hk
      have hshift : i + 1 + k = i + (k + 1) := by omega
      rw [hshift] at hrest
      simp only [List.set_cons_succ, List.getElem_cons_succ, total]
      omega

theorem total_set_mod_iff {m : ℕ} (hw : ∀ i, Nat.Coprime m (w i)) (i k v : ℕ) {xs : List ℕ}
    (h : k < xs.length) :
    total w i (xs.set k v) % m = total w i xs % m ↔ xs[k] % m = v % m := by
  have hset := total_set w i k v h
  constructor
  · intro hsame
    have hsum : total w i xs + xs[k] * w (i + k) ≡ total w i xs + v * w (i + k) [MOD m] := by
      have hleft : total w i xs + xs[k] * w (i + k) ≡
          total w i (xs.set k v) + xs[k] * w (i + k) [MOD m] :=
        Nat.ModEq.add_right _ hsame.symm
      rwa [hset] at hleft
    exact Nat.ModEq.cancel_right_of_coprime (hw (i + k)) (Nat.ModEq.add_left_cancel' _ hsum)
  · intro hsame
    have hterm : xs[k] * w (i + k) ≡ v * w (i + k) [MOD m] := Nat.ModEq.mul_right _ hsame
    have hsum : total w i (xs.set k v) + xs[k] * w (i + k) ≡
        total w i xs + xs[k] * w (i + k) [MOD m] := by
      rw [hset]
      exact Nat.ModEq.add_left _ hterm.symm
    exact Nat.ModEq.add_right_cancel' _ hsum

theorem total_swap (i k : ℕ) {xs : List ℕ} (h : k + 1 < xs.length) :
    total w i ((xs.set k xs[k + 1]).set (k + 1) xs[k]) +
        (xs[k] * w (i + k) + xs[k + 1] * w (i + k + 1)) =
      total w i xs + (xs[k + 1] * w (i + k) + xs[k] * w (i + k + 1)) := by
  have hfirst := total_set w i k xs[k + 1] (Nat.lt_of_succ_lt h)
  have hlength : k + 1 < (xs.set k xs[k + 1]).length := by rwa [List.length_set]
  have hsecond := total_set w i (k + 1) xs[k] hlength
  rw [List.getElem_set_ne (by omega), ← Nat.add_assoc] at hsecond
  omega

/-- Neighbours that change places are noticed modulo `g * n` unless they agree modulo `n`, provided
the weights of neighbours differ by `g` times a unit. -/
theorem total_swap_mod_iff {g n : ℕ} (hg : 0 < g)
    (hw : ∀ i, ∃ u : ℤ, (w i : ℤ) - w (i + 1) = g * u ∧ IsCoprime (n : ℤ) u) (i k : ℕ)
    {xs : List ℕ} (h : k + 1 < xs.length) :
    total w i ((xs.set k xs[k + 1]).set (k + 1) xs[k]) % (g * n) = total w i xs % (g * n) ↔
      xs[k] % n = xs[k + 1] % n := by
  obtain ⟨u, hu, hcoprime⟩ := hw (i + k)
  have hswap := congrArg (Nat.cast (R := ℤ)) (total_swap w i k h)
  push_cast at hswap
  have hdiff : (total w i xs : ℤ) - total w i ((xs.set k xs[k + 1]).set (k + 1) xs[k]) =
      g * ((xs[k] - xs[k + 1]) * u) := by
    linear_combination ((xs[k] : ℤ) - xs[k + 1]) * hu - hswap
  have hgroup : total w i ((xs.set k xs[k + 1]).set (k + 1) xs[k]) % (g * n) =
      total w i xs % (g * n) ↔ (n : ℤ) ∣ (xs[k] - xs[k + 1]) * u := by
    refine Nat.modEq_iff_dvd.trans ?_
    rw [hdiff, Nat.cast_mul]
    exact mul_dvd_mul_iff_left (by exact_mod_cast hg.ne')
  have hunit : (n : ℤ) ∣ (xs[k] - xs[k + 1]) * u ↔ (n : ℤ) ∣ xs[k] - xs[k + 1] :=
    ⟨hcoprime.dvd_of_dvd_mul_right, fun hdvd => hdvd.mul_right u⟩
  have hsymm : xs[k] % n = xs[k + 1] % n ↔ (n : ℤ) ∣ xs[k] - xs[k + 1] :=
    eq_comm.trans Nat.modEq_iff_dvd
  rw [hgroup, hunit, hsymm]

end CheckDigit
