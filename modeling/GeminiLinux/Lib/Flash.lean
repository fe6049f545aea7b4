import Mathlib

/-! Flash arrays. An erase makes a stretch of cells blank; programming can only add to what a cell
    holds, so what is programmed over a blank cell is what it holds afterwards, and over any other one
    it need not be. A page program takes its bytes in one latch of the size of a page: a byte past the
    end of the page lands at its start, and of the bytes for one place the last one stays.

        page:        [ . . . . a b c d ]      offset 4, "abcd":    fits
                     [ e f . . a b c d ]      offset 4, "abcdef":  the rest wraps around -/

namespace GeminiLinux.Flash

/-- What programming `b` over a cell leaves in it. -/
structure Cell (α : Type) where
  blank : α
  prog : α → α → α
  prog_blank : ∀ b, prog blank b = b

variable {α : Type} (c : Cell α)

/-- `n` cells from `a` on are erased. -/
def erase (m : ℕ → α) (a n : ℕ) : ℕ → α := fun x => if a ≤ x ∧ x < a + n then c.blank else m x

/-- `data` is programmed from `a` on. -/
def program (m : ℕ → α) (a : ℕ) (data : List α) : ℕ → α := fun x =>
  if a ≤ x then (data[x - a]?).elim (m x) (c.prog (m x)) else m x

/-- The byte of `data` that the latch of a page of `p` cells holds for the place `d` cells behind the
    first one, going round: the last of those that fall on it. -/
def latched (p d : ℕ) (data : List α) : Option α := data[d + p * ((data.length - 1 - d) / p)]?

/-- `data` is programmed into the page of `p` cells that `a` lies in, from `a` on. -/
def pageProgram (p : ℕ) (m : ℕ → α) (a : ℕ) (data : List α) : ℕ → α := fun x =>
  if x / p = a / p then (latched p ((x % p + p - a % p) % p) data).elim (m x) (c.prog (m x)) else m x

/-- The `n` cells from `a` on. -/
def stretch (m : ℕ → α) (a n : ℕ) : List α := (List.range n).map fun i => m (a + i)

/-! ### Stretches -/

@[simp] theorem length_stretch (m : ℕ → α) (a n : ℕ) : (stretch m a n).length = n := by
  rw [stretch, List.length_map, List.length_range]

theorem getElem?_stretch (m : ℕ → α) (a n i : ℕ) : (stretch m a n)[i]? = if i < n then some (m (a + i)) else none := by
  rw [stretch, List.getElem?_map]
  split_ifs with h
  · rw [List.getElem?_range h, Option.map_some]
  · rw [List.getElem?_eq_none (by simpa using h), Option.map_none]

theorem stretch_append (m : ℕ → α) (a n k : ℕ) : stretch m a n ++ stretch m (a + n) k = stretch m a (n + k) := by
  rw [stretch, stretch, stretch, List.range_add, List.map_append, List.map_map]
  congr 1
  refine List.map_congr_left fun i _ => ?_
  rw [Function.comp_apply, Nat.add_assoc]

theorem stretch_congr {m m' : ℕ → α} {a n : ℕ} (h : Set.EqOn m m' (Set.Ico a (a + n))) :
    stretch m a n = stretch m' a n := by
  refine List.map_congr_left fun i hi => h ?_
  rw [List.mem_range] at hi
  exact ⟨Nat.le_add_right a i, by omega⟩

/-- A stretch that holds `data` holds its bytes. -/
theorem eq_of_stretch {m : ℕ → α} {a : ℕ} {data : List α} (h : stretch m a data.length = data) {i : ℕ} {b : α}
    (hi : data[i]? = some b) : m (a + i) = b := by
  have hlen : i < data.length := (List.getElem?_eq_some_iff.mp hi).1
  have hcell := getElem?_stretch m a data.length i
  rw [h, hi, if_pos hlen] at hcell
  exact (Option.some.inj hcell).symm

/-! ### Erasing and programming -/

theorem erase_outside (m : ℕ → α) (a n : ℕ) : Set.EqOn (erase c m a n) m (Set.Ico a (a + n))ᶜ :=
  fun _ hx => if_neg fun h => hx h

theorem program_outside (m : ℕ → α) (a : ℕ) (data : List α) :
    Set.EqOn (program c m a data) m (Set.Ico a (a + data.length))ᶜ := by
  intro x hx
  rw [program]
  split_ifs with ha
  · rw [List.getElem?_eq_none (by simp only [Set.mem_compl_iff, Set.mem_Ico, not_and] at hx; have := hx ha; omega)]
    rfl
  · rfl

theorem program_inside {m : ℕ → α} {a i : ℕ} {data : List α} {b : α} (h : data[i]? = some b) :
    program c m a data (a + i) = c.prog (m (a + i)) b := by
  rw [program, if_pos (Nat.le_add_right a i), Nat.add_sub_cancel_left, h]
  rfl

@[simp] theorem program_nil (m : ℕ → α) (a : ℕ) : program c m a [] = m := by
  funext x
  rw [program]
  split_ifs <;> rfl

/-- Programming a stretch in two parts. -/
theorem program_append (m : ℕ → α) (a : ℕ) (xs ys : List α) :
    program c (program c m a xs) (a + xs.length) ys = program c m a (xs ++ ys) := by
  funext x
  by_cases hx : x < a + xs.length
  · rw [program, if_neg (by omega), program, program]
    split_ifs with ha
    · rw [List.getElem?_append_left (by omega)]
    · rfl
  · have hkeep : program c m a xs x = m x := program_outside c m a xs fun h => hx h.2
    rw [program, if_pos (by omega), hkeep, program, if_pos (by omega), List.getElem?_append_right (by omega),
      Nat.sub_sub]

/-- What is programmed over blank cells is what they hold. -/
theorem stretch_program {m : ℕ → α} {a : ℕ} {data : List α}
    (h : ∀ x ∈ Set.Ico a (a + data.length), m x = c.blank) :
    stretch (program c m a data) a data.length = data := by
  refine List.ext_getElem? fun i => ?_
  rw [getElem?_stretch]
  split_ifs with hi
  · obtain ⟨b, hb⟩ : ∃ b, data[i]? = some b := ⟨data[i], List.getElem?_eq_getElem hi⟩
    rw [program_inside c hb, h _ ⟨Nat.le_add_right a i, by omega⟩, c.prog_blank, hb]
  · rw [List.getElem?_eq_none (by omega)]

/-! ### Page programs -/

/-- One that ends before its page does programs the bytes where they belong. -/
theorem pageProgram_eq_program {p a : ℕ} {data : List α} (m : ℕ → α) (hp : 0 < p)
    (h : a % p + data.length ≤ p) : pageProgram c p m a data = program c m a data := by
  have hmod : a % p < p := Nat.mod_lt a hp
  have ha : p * (a / p) + a % p = a := Nat.div_add_mod a p
  funext x
  rw [pageProgram, program]
  have hx : p * (x / p) + x % p = x := Nat.div_add_mod x p
  have hxmod : x % p < p := Nat.mod_lt x hp
  by_cases hpage : x / p = a / p
  · rw [if_pos hpage]
    rw [hpage] at hx
    -- no byte goes round: the one for `x` is at its distance from `a`, if there is one
    by_cases hle : a ≤ x
    · have hd : (x % p + p - a % p) % p = x - a := by
        have hsum : x % p + p - a % p = (x - a) + p := by omega
        rw [hsum, Nat.add_mod_right, Nat.mod_eq_of_lt (by omega)]
      rw [if_pos hle, latched, hd, Nat.div_eq_of_lt (by omega), Nat.mul_zero, Nat.add_zero]
    · have hd : (x % p + p - a % p) % p = x % p + p - a % p := Nat.mod_eq_of_lt (by omega)
      rw [if_neg hle, latched, hd, Nat.div_eq_of_lt (by omega), Nat.mul_zero, Nat.add_zero,
        List.getElem?_eq_none (by omega)]
      rfl
  · rw [if_neg hpage]
    split_ifs with hle
    · have hfar : a + data.length ≤ x := by
        by_contra hlt
        refine hpage (Nat.div_eq_of_lt_le ?_ ?_)
        · rw [Nat.mul_comm]; omega
        · rw [Nat.succ_mul, Nat.mul_comm]; omega
      rw [List.getElem?_eq_none (by omega)]
      rfl
    · rfl

/-! ### Bytes -/

/-- A byte of NOR flash: erased it is `0xff`, and programming clears bits. -/
def norCell : Cell UInt8 where
  blank := 0xff
  prog old new := old &&& new
  prog_blank b := by
    have hall : (0xff : UInt8) = -1 := rfl
    rw [hall, UInt8.neg_one_and]

end GeminiLinux.Flash
