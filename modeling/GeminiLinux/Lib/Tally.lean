import Mathlib

/-! Counting over threads. Each of finitely many threads is somewhere in its code, and `f` says how much of
    something a thread that is there has: a lock, a share of a counter, steps that are left. One thread goes on at
    a time, so that the sum moves by what is between its two places.

        tally f pc = f (pc 0) + f (pc 1) + ... + f (pc n) -/

namespace GeminiLinux.Tallies

variable {ι κ : Type} [Fintype ι] {f : κ → ℕ} {pc : ι → κ} {i j : ι}

/-- What all threads together have. -/
def tally (f : κ → ℕ) (pc : ι → κ) : ℕ := ∑ i, f (pc i)

theorem le_tally (f : κ → ℕ) (pc : ι → κ) (i : ι) : f (pc i) ≤ tally f pc :=
  Finset.single_le_sum (f := fun j => f (pc j)) (fun _ _ => Nat.zero_le _) (Finset.mem_univ i)

theorem tally_eq_zero_iff : tally f pc = 0 ↔ ∀ i, f (pc i) = 0 := by
  rw [tally, Finset.sum_eq_zero_iff]
  exact ⟨fun h i => h i (Finset.mem_univ i), fun h i _ => h i⟩

variable [DecidableEq ι]

theorem tally_update (f : κ → ℕ) (pc : ι → κ) (i : ι) (k : κ) :
    tally f (Function.update pc i k) + f (pc i) = tally f pc + f k := by
  have hmem : i ∈ Finset.univ := Finset.mem_univ i
  have hrest : ∑ j ∈ Finset.univ.erase i, f (Function.update pc i k j) = ∑ j ∈ Finset.univ.erase i, f (pc j) :=
    Finset.sum_congr rfl fun j hj => by rw [Function.update_of_ne (Finset.ne_of_mem_erase hj)]
  rw [tally, tally, ← Finset.add_sum_erase _ _ hmem, ← Finset.add_sum_erase _ (fun j => f (pc j)) hmem, hrest,
    Function.update_self]
  omega

theorem add_le_tally (f : κ → ℕ) (pc : ι → κ) (h : i ≠ j) : f (pc i) + f (pc j) ≤ tally f pc := by
  have hpair : ∑ k ∈ {i, j}, f (pc k) = f (pc i) + f (pc j) := Finset.sum_pair h
  rw [← hpair]
  exact Finset.sum_le_sum_of_subset (Finset.subset_univ _)

end GeminiLinux.Tallies
