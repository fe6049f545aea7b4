import Mathlib

/-! Fixed layouts in byte strings: a field is a stretch at a fixed offset (`slice`), `overlay` writes
    one in place, a list cut into pieces of one size is put together again by concatenation, 32-bit
    numbers are stored little endian one after another, and a section is filled up with zeros to a
    multiple of the page size. -/

namespace GeminiLinux.Bytes

variable {α : Type}

/-- The elements from `a` up to, not including, `b`; what lies past the end is left out. -/
def slice (l : List α) (a b : ℕ) : List α := (l.drop a).take (b - a)

/-- Write `src` over `dst` from `off` on. -/
def overlay (dst : List α) (off : ℕ) (src : List α) : List α :=
  dst.take off ++ src ++ dst.drop (off + src.length)

/-- The pieces of `n` elements from the start, as many as `k`, make up the first `k * n`. -/
theorem flatten_pieces (l : List α) (n : ℕ) : ∀ k : ℕ,
    ((List.range k).map fun i => (l.drop (i * n)).take n).flatten = l.take (k * n) := by
  intro k
  induction k with
  | zero => simp
  | succ k ih =>
    rw [List.range_succ, List.map_append, List.flatten_append, ih, Nat.succ_mul, List.take_add]
    simp

theorem length_slice {l : List α} {a b : ℕ} (h : b ≤ l.length) : (slice l a b).length = b - a := by
  rw [slice, List.length_take, List.length_drop]; omega

theorem slice_self (l : List α) (a : ℕ) : slice l a (a + 0) = [] := by
  rw [slice, Nat.add_zero, Nat.sub_self, List.take_zero]

theorem getElem?_slice (l : List α) (a b i : ℕ) : (slice l a b)[i]? = if i < b - a then l[a + i]? else none := by
  rw [slice, List.getElem?_take, List.getElem?_drop]

/-- Two slices that meet. -/
theorem slice_append_slice (l : List α) {a b c : ℕ} (hab : a ≤ b) (hbc : b ≤ c) :
    slice l a b ++ slice l b c = slice l a c := by
  have hc : c - a = (b - a) + (c - b) := by omega
  rw [slice, slice, slice, hc, List.take_add, List.drop_drop, Nat.add_sub_cancel' hab]

/-- A slice past a prefix is a slice of the rest. -/
theorem slice_append_right {pre l : List α} {a b : ℕ} (h : pre.length ≤ a) :
    slice (pre ++ l) a b = slice l (a - pre.length) (b - pre.length) := by
  rw [slice, slice, List.drop_append, List.drop_eq_nil_of_le h, List.nil_append]
  congr 1
  omega

/-- The slice that covers exactly the first part. -/
theorem slice_append_left (l rest : List α) {b : ℕ} (h : b = l.length) : slice (l ++ rest) 0 b = l := by
  rw [slice, h, List.drop_zero, Nat.sub_zero, List.take_left]

/-! ### Little-endian numbers -/

def le32 (n : ℕ) : List UInt8 :=
  [UInt8.ofNat n, UInt8.ofNat (n >>> 8), UInt8.ofNat (n >>> 16), UInt8.ofNat (n >>> 24)]

/-- The numbers stored one after another; a remainder of fewer than four bytes is left out. -/
def readLe32s : List UInt8 → List ℕ
  | b0 :: b1 :: b2 :: b3 :: rest =>
    (b0.toNat + 2 ^ 8 * b1.toNat + 2 ^ 16 * b2.toNat + 2 ^ 24 * b3.toNat) :: readLe32s rest
  | _ => []

theorem readLe32s_le32 {n : ℕ} (h : n < 2 ^ 32) (rest : List UInt8) :
    readLe32s (le32 n ++ rest) = n :: readLe32s rest := by
  simp only [le32, List.cons_append, List.nil_append, readLe32s, Nat.shiftRight_eq_div_pow,
    UInt8.toNat_ofNat']
  congr 1
  omega

theorem readLe32s_flatMap : ∀ {ns : List ℕ}, (∀ n ∈ ns, n < 2 ^ 32) →
    readLe32s (ns.flatMap le32) = ns := by
  intro ns
  induction ns with
  | nil =>
    intro _
    rfl
  | cons n ns ih =>
    intro h
    rw [List.flatMap_cons, readLe32s_le32 (h n (List.mem_cons_self ..)),
      ih fun m hm => h m (List.mem_cons_of_mem _ hm)]

theorem readLe32s_lt : ∀ {l : List UInt8} {n : ℕ}, n ∈ readLe32s l → n < 2 ^ 32
  | b0 :: b1 :: b2 :: b3 :: rest, n, h => by
      rcases List.mem_cons.mp h with rfl | h
      · have h0 := b0.toNat_lt
        have h1 := b1.toNat_lt
        have h2 := b2.toNat_lt
        have h3 := b3.toNat_lt
        omega
      · exact readLe32s_lt h

theorem length_le32s (ns : List ℕ) : (ns.flatMap le32).length = 4 * ns.length := by
  induction ns with
  | nil => rfl
  | cons n ns ih => rw [List.flatMap_cons, List.length_append, ih, List.length_cons, le32]; simp; omega

theorem length_readLe32s : ∀ {l : List UInt8} {n : ℕ}, l.length = 4 * n → (readLe32s l).length = n
  | [], 0, _ => rfl
  | b0 :: b1 :: b2 :: b3 :: rest, n + 1, h => by
      rw [readLe32s, List.length_cons, length_readLe32s (l := rest) (n := n) (by simp at h; omega)]
  | [_], n + 1, h => by simp at h; omega
  | [_, _], n + 1, h => by simp at h; omega
  | [_, _, _], n + 1, h => by simp at h; omega

theorem flatMap_readLe32s : ∀ {l : List UInt8} {n : ℕ}, l.length = 4 * n → (readLe32s l).flatMap le32 = l
  | [], 0, _ => rfl
  | b0 :: b1 :: b2 :: b3 :: rest, n + 1, h => by
      have hword : le32 (b0.toNat + 2 ^ 8 * b1.toNat + 2 ^ 16 * b2.toNat + 2 ^ 24 * b3.toNat) =
          [b0, b1, b2, b3] := by
        have h0 := b0.toNat_lt
        have h1 := b1.toNat_lt
        have h2 := b2.toNat_lt
        have h3 := b3.toNat_lt
        simp only [le32, Nat.shiftRight_eq_div_pow, List.cons.injEq, and_true, ← UInt8.toNat_inj,
          UInt8.toNat_ofNat']
        omega
      rw [readLe32s, List.flatMap_cons, hword, flatMap_readLe32s (l := rest) (n := n) (by simp at h; omega)]
      rfl
  | [_], n + 1, h => by simp at h; omega
  | [_, _], n + 1, h => by simp at h; omega
  | [_, _, _], n + 1, h => by simp at h; omega

/-! ### Pages -/

/-- The least multiple of `p` from `n` on. -/
def roundUp (n p : ℕ) : ℕ := (n + p - 1) / p * p

/-- Fill up with zeros to a multiple of `p`. -/
def padTo (p : ℕ) (l : List UInt8) : List UInt8 :=
  if l.length % p = 0 then l else l ++ List.replicate (p - l.length % p) 0

theorem dvd_roundUp (n p : ℕ) : p ∣ roundUp n p := Nat.dvd_mul_left ..

/-- The two ways of rounding agree. -/
theorem length_padTo {p : ℕ} (hp : 0 < p) (l : List UInt8) : (padTo p l).length = roundUp l.length p := by
  have hdiv : l.length / p * p + l.length % p = l.length := Nat.div_add_mod' ..
  have hmod := Nat.mod_lt l.length hp
  rw [padTo, roundUp]
  split_ifs with hrem
  · have hfull : (l.length + p - 1) / p = l.length / p := by
      refine Nat.div_eq_of_lt_le ?_ ?_
      · omega
      · rw [Nat.succ_mul]; omega
    rw [hfull]; omega
  · have hmore : (l.length + p - 1) / p = l.length / p + 1 := by
      refine Nat.div_eq_of_lt_le ?_ ?_
      · rw [Nat.succ_mul]; omega
      · rw [Nat.succ_mul, Nat.succ_mul]; omega
    rw [hmore, List.length_append, List.length_replicate, Nat.succ_mul]
    omega

theorem take_padTo (p : ℕ) (l rest : List UInt8) : (padTo p l ++ rest).take l.length = l := by
  rw [padTo]
  split_ifs
  · rw [List.take_left]
  · rw [List.append_assoc, List.take_left]

end GeminiLinux.Bytes
