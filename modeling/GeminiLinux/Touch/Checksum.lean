import GeminiLinux.Lib.Folds
import GeminiLinux.Touch.Ssd2092

/-! What the checksum word of the touchscreen catches. One changed byte moves the XOR (and the sum), so
    it never goes unseen; two changed bytes do only when the second undoes the first in both. -/

namespace GeminiLinux.Ssd2092
open Folds

/-! ### The two halves of the word -/

def xorOf (data : List UInt8) : UInt8 := data.foldl (· ^^^ ·) 0
def sumOf (data : List UInt8) : UInt8 := data.foldl (· + ·) 0

theorem xorOf_concat (data : List UInt8) (b : UInt8) : xorOf (data ++ [b]) = xorOf data ^^^ b :=
  List.foldl_concat ..

theorem sumOf_concat (data : List UInt8) (b : UInt8) : sumOf (data ++ [b]) = sumOf data + b :=
  List.foldl_concat ..

theorem le16_shiftRight (lo hi : UInt8) : le16 [lo, hi] 0 >>> 8 = hi.toNat := by
  have := lo.toNat_lt
  simp only [le16, List.getD_cons_zero, List.getD_cons_succ, Nat.shiftRight_eq_div_pow]
  omega

theorem le16_and (lo hi : UInt8) : le16 [lo, hi] 0 &&& 0xff = lo.toNat := by
  have := lo.toNat_lt
  rw [Nat.and_two_pow_sub_one_eq_mod _ 8]
  simp only [le16, List.getD_cons_zero, List.getD_cons_succ]
  omega

theorem checksumOk_iff (data : List UInt8) (lo hi : UInt8) :
    checksumOk data (le16 [lo, hi] 0) = true ↔ xorOf data = hi ∧ sumOf data = lo := by
  rw [checksumOk, le16_shiftRight, le16_and, Bool.and_eq_true, beq_iff_eq, beq_iff_eq, UInt8.toNat_inj,
    UInt8.toNat_inj, xorOf, sumOf]

theorem checksumOk_eq_false_iff (data : List UInt8) (lo hi : UInt8) :
    checksumOk data (le16 [lo, hi] 0) = false ↔ ¬ (xorOf data = hi ∧ sumOf data = lo) := by
  rw [← checksumOk_iff, Bool.not_eq_true]

/-! ### Changed bytes -/

variable {data : List UInt8} {i j : ℕ}

theorem xorOf_set_eq_iff (b : UInt8) (hi : i < data.length) :
    xorOf (data.set i b) = xorOf data ↔ data[i] = b :=
  foldl_set_eq_iff (fun a _ _ => UInt8.xor_right_inj a) 0 b hi

theorem xorOf_set_set_eq_iff (b b' : UInt8) (hi : i < data.length) (hj : j < data.length) (hij : i ≠ j) :
    xorOf ((data.set i b).set j b') = xorOf data ↔ data[i] ^^^ data[j] = b ^^^ b' :=
  foldl_set_set_eq_iff (fun a _ _ => UInt8.xor_right_inj a) 0 b b' hi hj hij

theorem sumOf_set_set_eq_iff (b b' : UInt8) (hi : i < data.length) (hj : j < data.length) (hij : i ≠ j) :
    sumOf ((data.set i b).set j b') = sumOf data ↔ data[i] + data[j] = b + b' :=
  foldl_set_set_eq_iff (fun a _ _ => UInt8.add_right_inj a) 0 b b' hi hj hij

/-- Two changes, of `a` to `b` and of `a'` to `b'`, that make up for each other. -/
def Cancel (a b a' b' : UInt8) : Prop := a ^^^ b = a' ^^^ b' ∧ b - a = -(b' - a')

theorem xor_eq_xor_comm (a b a' b' : UInt8) : a ^^^ a' = b ^^^ b' ↔ a ^^^ b = a' ^^^ b' := by
  have hleft : a ^^^ a' ^^^ (a' ^^^ b) = a ^^^ b := by
    rw [UInt8.xor_assoc, ← UInt8.xor_assoc a' a', UInt8.xor_self, UInt8.zero_xor]
  have hright : b ^^^ b' ^^^ (a' ^^^ b) = a' ^^^ b' := by
    rw [UInt8.xor_comm a', UInt8.xor_comm b, UInt8.xor_assoc, ← UInt8.xor_assoc b b, UInt8.xor_self,
      UInt8.zero_xor, UInt8.xor_comm]
  rw [← UInt8.xor_left_inj (a' ^^^ b), hleft, hright]

theorem add_eq_add_iff (a b a' b' : UInt8) : a + a' = b + b' ↔ b - a = -(b' - a') := by
  grind

/-- What data and the checksum word that goes with them are safe from. -/
structure Guarded (data : List UInt8) (lo hi : UInt8) : Prop where
  data_byte : ∀ i (h : i < data.length) b, b ≠ data[i] →
    checksumOk (data.set i b) (le16 [lo, hi] 0) = false
  low_byte : ∀ b, b ≠ lo → checksumOk data (le16 [b, hi] 0) = false
  high_byte : ∀ b, b ≠ hi → checksumOk data (le16 [lo, b] 0) = false
  two_bytes : ∀ i j (h : i < data.length) (h' : j < data.length), i ≠ j → ∀ b b',
    checksumOk ((data.set i b).set j b') (le16 [lo, hi] 0) = true ↔ Cancel data[i] b data[j] b'

theorem guarded_of_sums {data : List UInt8} {lo hi : UInt8} (hxor : xorOf data = hi)
    (hsum : sumOf data = lo) : Guarded data lo hi := by
  refine ⟨?_, ?_, ?_, ?_⟩
  · intro i h b hb
    rw [checksumOk_eq_false_iff]
    rintro ⟨hxor', -⟩
    exact hb ((xorOf_set_eq_iff b h).mp (hxor'.trans hxor.symm)).symm
  · intro b hb
    rw [checksumOk_eq_false_iff]
    rintro ⟨-, hsum'⟩
    exact hb (hsum'.symm.trans hsum)
  · intro b hb
    rw [checksumOk_eq_false_iff]
    rintro ⟨hxor', -⟩
    exact hb (hxor'.symm.trans hxor)
  · intro i j h h' hij b b'
    rw [checksumOk_iff, ← hxor, ← hsum, xorOf_set_set_eq_iff b b' h h' hij,
      sumOf_set_set_eq_iff b b' h h' hij, xor_eq_xor_comm, add_eq_add_iff, Cancel]

theorem checksum_guards {data : List UInt8} {lo hi : UInt8}
    (h : checksumOk data (le16 [lo, hi] 0) = true) : Guarded data lo hi := by
  obtain ⟨hxor, hsum⟩ := (checksumOk_iff data lo hi).mp h
  exact guarded_of_sums hxor hsum

theorem checksum_guards_finger : checksumOk (fingerPkt.take 6) (le16 [35, 27] 0) = true ∧
    Guarded (fingerPkt.take 6) 35 27 := ⟨by decide, checksum_guards (by decide)⟩

/-! ### Packets as they are read -/

/-- The test the driver makes on what it reads: `n` bytes of data, then their checksum word. -/
def packetOk (n : ℕ) (pkt : List UInt8) : Bool := checksumOk (pkt.take n) (le16 pkt n)

end GeminiLinux.Ssd2092
