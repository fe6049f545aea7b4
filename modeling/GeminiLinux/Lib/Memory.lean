import Mathlib

/-! Memories of bytes with 64-bit addresses, and the words in them, the lowest byte first. A word is read
    back as it was stored, and one at another place of a frame is left alone: the places are told apart by
    their distance, whatever address the frame begins at and wherever it wraps.

        frame      frame + 8      frame + 16
          │  word 0   │   word 1     │  …          word frame i = the eight bytes at frame + 8 * i -/

namespace GeminiLinux.Memory

abbrev Mem := BitVec 64 → BitVec 8

def byte (m : Mem) (a : BitVec 64) (k : ℕ) : BitVec 8 := m (a + BitVec.ofNat 64 k)

def load (m : Mem) (a : BitVec 64) : BitVec 64 :=
  byte m a 7 ++ byte m a 6 ++ byte m a 5 ++ byte m a 4 ++ byte m a 3 ++ byte m a 2 ++ byte m a 1 ++ byte m a 0

def store (m : Mem) (a v : BitVec 64) : Mem := fun b =>
  if (b - a).toNat < 8 then v.extractLsb' (8 * (b - a).toNat) 8 else m b

/-- The `i`-th word of a frame. -/
def word (frame : BitVec 64) (i : ℕ) : BitVec 64 := frame + BitVec.ofNat 64 (8 * i)

theorem byte_store (m : Mem) (a v : BitVec 64) {k : ℕ} (hk : k < 8) :
    byte (store m a v) a k = v.extractLsb' (8 * k) 8 := by
  have hdist : (a + BitVec.ofNat 64 k - a).toNat = k := by bv_omega
  rw [byte, store, hdist, if_pos hk]

theorem load_store (m : Mem) (a v : BitVec 64) : load (store m a v) a = v := by
  rw [load, byte_store m a v (by decide), byte_store m a v (by decide), byte_store m a v (by decide),
    byte_store m a v (by decide), byte_store m a v (by decide), byte_store m a v (by decide),
    byte_store m a v (by decide), byte_store m a v (by decide)]
  ext i hi
  simp only [BitVec.getElem_append, BitVec.getElem_extractLsb']
  split_ifs <;> grind

theorem byte_word (m : Mem) (frame : BitVec 64) (i k : ℕ) : byte m (word frame i) k = byte m frame (8 * i + k) := by
  rw [byte, word, byte, BitVec.add_assoc, BitVec.ofNat_add]

/-- A word is its bytes. -/
theorem load_congr {m m' : Mem} {a : BitVec 64} (h : ∀ k < 8, byte m a k = byte m' a k) : load m a = load m' a := by
  rw [load, h 7 (by decide), h 6 (by decide), h 5 (by decide), h 4 (by decide), h 3 (by decide), h 2 (by decide),
    h 1 (by decide), h 0 (by decide), load]

/-- Two places of one frame do not overlap. -/
theorem load_store_of_ne (m : Mem) (frame v : BitVec 64) {i j : ℕ} (hi : i < 2 ^ 32) (hj : j < 2 ^ 32) (hij : i ≠ j) :
    load (store m (word frame i) v) (word frame j) = load m (word frame j) := by
  refine load_congr fun k hk => ?_
  have hdist : ¬ (word frame j + BitVec.ofNat 64 k - word frame i).toNat < 8 := by
    unfold word
    bv_omega
  rw [byte, store, if_neg hdist, byte]

/-- What is not in a frame of `n` words, none of them changes. -/
theorem store_outside (m : Mem) (frame v : BitVec 64) {i n : ℕ} (hi : i < n) (hn : n < 2 ^ 32) {b : BitVec 64}
    (hb : 8 * n ≤ (b - frame).toNat) : store m (word frame i) v b = m b := by
  have hdist : ¬ (b - word frame i).toNat < 8 := by
    unfold word
    bv_omega
  rw [store, if_neg hdist]

end GeminiLinux.Memory
