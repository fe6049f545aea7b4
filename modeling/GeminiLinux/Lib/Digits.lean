import Mathlib

/-! Numbers written in a base, the highest digit first, in a fixed number of places. What does not fit
    into the places is lost, and nothing else.

        fixed 16 4 0x1c0  =  [0, 1, 12, 0]        place 16 [0, 1, 12, 0]  =  0x1c0 -/

namespace GeminiLinux.Digits

/-- The digits of `n` in the lowest `w` places. -/
def fixed (b : ℕ) : ℕ → ℕ → List ℕ
  | 0, _ => []
  | w + 1, n => n / b ^ w % b :: fixed b w n

/-- The number that digits stand for. -/
def place (b : ℕ) : List ℕ → ℕ
  | [] => 0
  | d :: ds => d * b ^ ds.length + place b ds

@[simp] theorem length_fixed (b w n : ℕ) : (fixed b w n).length = w := by
  induction w with
  | zero => rfl
  | succ w ih => rw [fixed, List.length_cons, ih]

theorem lt_of_mem_fixed {b w n d : ℕ} (hb : 0 < b) (h : d ∈ fixed b w n) : d < b := by
  induction w with
  | zero => cases h
  | succ w ih =>
    rw [fixed, List.mem_cons] at h
    rcases h with rfl | h
    · exact Nat.mod_lt _ hb
    · exact ih h

/-- The digits stand for what fits. -/
theorem place_fixed (b w n : ℕ) : place b (fixed b w n) = n % b ^ w := by
  induction w with
  | zero => rw [fixed, place, pow_zero, Nat.mod_one]
  | succ w ih =>
    rw [fixed, place, length_fixed, ih, pow_succ, Nat.mod_mul, Nat.mul_comm, Nat.add_comm]

end GeminiLinux.Digits
