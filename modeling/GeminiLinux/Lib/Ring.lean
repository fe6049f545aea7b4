import Mathlib

/-! Rings of `n` slots that hold at most `n - 1` entries: `front` is the slot before the oldest entry, `rear`
    that of the newest one, and the slot behind `rear` is the writer's.

        slots:   . . a b c . .          front = 1, rear = 4: the queue is a, b, c
                   f     r

    The queue changes only where one of the two indices moves; what is written into the writer's slot in
    between is not in it. -/

namespace GeminiLinux.Rings

structure RingBuffer (α : Type) where
  front : ℕ
  rear : ℕ
  slots : ℕ → α

variable {α : Type} (n : ℕ)

/-- The slot behind. -/
def next (i : ℕ) : ℕ := (i + 1) % n

/-- How many entries there are. -/
def count (r : RingBuffer α) : ℕ := (r.rear + (n - r.front)) % n

/-- The entries, the oldest one first. -/
def queue (r : RingBuffer α) : List α := (List.range (count n r)).map fun i => r.slots ((r.front + 1 + i) % n)

structure Valid (r : RingBuffer α) : Prop where
  front_lt : r.front < n
  rear_lt : r.rear < n

def Full (r : RingBuffer α) : Prop := next n r.rear = r.front

def Empty (r : RingBuffer α) : Prop := r.front = r.rear

/-- The newest entry is the one in the writer's slot. -/
def put (r : RingBuffer α) : RingBuffer α := { r with rear := next n r.rear }

/-- The oldest entry is gone. -/
def get (r : RingBuffer α) : RingBuffer α := { r with front := next n r.front }

/-- The writer's slot holds `a`. -/
def fill (r : RingBuffer α) (a : α) : RingBuffer α := { r with slots := Function.update r.slots (next n r.rear) a }

variable {n} {r : RingBuffer α}

theorem next_lt (h : Valid n r) (i : ℕ) : next n i < n := Nat.mod_lt _ (Nat.zero_lt_of_lt h.front_lt)

theorem Valid.put (h : Valid n r) : Valid n (put n r) := ⟨h.front_lt, next_lt h _⟩

theorem Valid.get (h : Valid n r) : Valid n (get n r) := ⟨next_lt h _, h.rear_lt⟩

theorem Valid.fill (h : Valid n r) (a : α) : Valid n (fill n r a) := ⟨h.front_lt, h.rear_lt⟩

theorem count_lt (h : Valid n r) : count n r < n := Nat.mod_lt _ (Nat.zero_lt_of_lt h.front_lt)

@[simp] theorem length_queue (r : RingBuffer α) : (queue n r).length = count n r := by
  rw [queue, List.length_map, List.length_range]

/-- The slot behind the entries is the writer's. -/
theorem slot_count (h : Valid n r) : (r.front + 1 + count n r) % n = next n r.rear := by
  have hfront := h.front_lt
  have hsum : r.front + 1 + (r.rear + (n - r.front)) = r.rear + 1 + n := by omega
  rw [count, Nat.add_mod_mod, hsum, Nat.add_mod_right, next]

/-- Different places of the queue are in different slots. -/
theorem slot_inj {f i j : ℕ} (hi : i < n) (hj : j < n) (h : (f + i) % n = (f + j) % n) : i = j :=
  Nat.ModEq.eq_of_lt_of_lt (Nat.ModEq.add_left_cancel' f h) hi hj

theorem full_iff (h : Valid n r) : Full n r ↔ count n r + 1 = n := by
  have hlt := count_lt h
  have hfront : (r.front + 0) % n = r.front := Nat.mod_eq_of_lt h.front_lt
  rw [Full, ← slot_count h, Nat.add_assoc]
  constructor
  · intro heq
    by_contra hne
    have hzero := slot_inj (f := r.front) (i := 1 + count n r) (j := 0) (by omega) (by omega) (heq.trans hfront.symm)
    omega
  · intro heq
    rw [Nat.add_comm 1, heq, Nat.add_mod_right, Nat.mod_eq_of_lt h.front_lt]

theorem empty_iff (h : Valid n r) : Empty r ↔ count n r = 0 := by
  have hrear : (r.front + (n - r.front)) % n = 0 := by
    rw [Nat.add_sub_cancel' h.front_lt.le, Nat.mod_self]
  constructor
  · intro heq
    rw [count, ← (heq : r.front = r.rear), hrear]
  · intro heq
    rw [count, ← hrear, Nat.add_comm, Nat.add_comm r.front] at heq
    exact (slot_inj h.rear_lt h.front_lt heq).symm

theorem queue_of_empty (h : Valid n r) (hempty : Empty r) : queue n r = [] := by
  rw [queue, (empty_iff h).mp hempty, List.range_zero, List.map_nil]

/-- What the writer does to its slot is not seen. -/
theorem queue_fill (h : Valid n r) (a : α) : queue n (fill n r a) = queue n r := by
  have hlt := count_lt h
  refine List.map_congr_left fun i hi => Function.update_of_ne (fun heq => ?_) _ _
  rw [List.mem_range] at hi
  change i < count n r at hi
  rw [← slot_count h] at heq
  have hplace := slot_inj (f := r.front + 1) (by omega) hlt heq
  omega

theorem count_put (h : Valid n r) (hfull : ¬ Full n r) : count n (put n r) = count n r + 1 := by
  have hlt := count_lt h
  rw [full_iff h] at hfull
  have hfront := h.front_lt
  have hsum : r.rear + 1 + (n - r.front) = r.rear + (n - r.front) + 1 := by omega
  have hcount : count n (put n r) = (count n r + 1) % n := by
    show ((r.rear + 1) % n + (n - r.front)) % n = _
    rw [Nat.mod_add_mod, hsum, count, Nat.mod_add_mod]
  rw [hcount, Nat.mod_eq_of_lt (by omega)]

/-- The writer's slot becomes the newest entry. -/
theorem queue_put (h : Valid n r) (hfull : ¬ Full n r) :
    queue n (put n r) = queue n r ++ [r.slots (next n r.rear)] := by
  rw [queue, count_put h hfull, List.range_succ, List.map_append, ← slot_count h]
  rfl

theorem not_empty_put (h : Valid n r) (hfull : ¬ Full n r) : ¬ Empty (put n r) := by
  rw [empty_iff h.put, count_put h hfull]
  exact Nat.succ_ne_zero _

theorem count_get (h : Valid n r) (hempty : ¬ Empty r) : count n (get n r) + 1 = count n r := by
  have hlt := count_lt h
  rw [empty_iff h] at hempty
  have hfront := h.front_lt
  have hcount : (count n (get n r) + 1) % n = count n r % n := by
    have hget : count n (get n r) = (r.rear + (n - next n r.front)) % n := rfl
    rw [hget, Nat.mod_add_mod, count, Nat.mod_mod]
    rcases Nat.lt_or_ge (r.front + 1) n with hnext | hnext
    · rw [next, Nat.mod_eq_of_lt hnext]
      congr 1
      omega
    · have hn : n = r.front + 1 := by omega
      have hzero : next n r.front = 0 := by rw [next, ← hn, Nat.mod_self]
      have hsum : r.rear + (n - 0) + 1 = r.rear + (n - r.front) + n := by omega
      rw [hzero, hsum, Nat.add_mod_right]
  have hlt' := count_lt h.get
  rw [Nat.mod_eq_of_lt hlt] at hcount
  by_cases hlast : count n (get n r) + 1 = n
  · rw [hlast, Nat.mod_self] at hcount
    omega
  · rwa [Nat.mod_eq_of_lt (by omega)] at hcount

theorem not_full_get (h : Valid n r) (hempty : ¬ Empty r) : ¬ Full n (get n r) := by
  have hget := count_get h hempty
  have hlt := count_lt h
  rw [full_iff h.get]
  omega

/-- The oldest entry is not in the writer's slot. -/
theorem front_slot_ne (h : Valid n r) (hempty : ¬ Empty r) : next n r.front ≠ next n r.rear := by
  have hlt := count_lt h
  rw [empty_iff h] at hempty
  rw [← slot_count h]
  intro heq
  have hplace := slot_inj (f := r.front + 1) (i := 0) (by omega) hlt heq
  omega

/-- The oldest entry goes. -/
theorem queue_get (h : Valid n r) (hempty : ¬ Empty r) :
    queue n r = r.slots (next n r.front) :: queue n (get n r) := by
  have hnext : (r.front + 1 + 0) % n = next n r.front := rfl
  rw [queue, ← count_get h hempty, List.range_succ_eq_map, List.map_cons, List.map_map, hnext, queue]
  refine congrArg _ (List.map_congr_left fun i _ => ?_)
  show r.slots ((r.front + 1 + (i + 1)) % n) = r.slots (((r.front + 1) % n + 1 + i) % n)
  rw [Nat.add_assoc ((r.front + 1) % n), Nat.mod_add_mod, Nat.add_comm 1 i]

end GeminiLinux.Rings
