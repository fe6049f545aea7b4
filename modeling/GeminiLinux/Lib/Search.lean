import Mathlib

/-! Linear search. `find pat d` is the index of the first occurrence of `pat` in `d`. A text put together
    from parts is searched part by part where no occurrence can lie across the seam: none starts in a part
    without the first letter of the pattern, and none goes on into a part whose first letter the pattern
    has only in front. -/

namespace GeminiLinux.Search

variable {α : Type}

/-- An occurrence at the start does not go on into a part whose first letter the pattern has only in
    front. -/
theorem prefix_append_iff_of_seam {pat a b : List α} (ha : a ≠ []) (hb : ∀ x ∈ b.head?, x ∉ pat.tail) :
    pat <+: a ++ b ↔ pat <+: a := by
  refine ⟨fun h => ?_, fun h => h.trans (List.prefix_append ..)⟩
  rcases List.prefix_or_prefix_of_prefix h (List.prefix_append a b) with hpre | ⟨t, rfl⟩
  · exact hpre
  · cases t with
    | nil => rw [List.append_nil]
    | cons y t =>
      obtain ⟨x, a, rfl⟩ := List.exists_cons_of_ne_nil ha
      obtain ⟨rest, rfl⟩ := (List.prefix_append_right_inj (x :: a)).mp h
      exact absurd (List.mem_append_right a (List.mem_cons_self ..)) (hb y rfl)

variable [DecidableEq α]

/-- `d.find(pat)`. -/
def find (pat d : List α) : Option ℕ := d.tails.findIdx? (pat.isPrefixOf ·)

theorem find_nil (pat : List α) : find pat [] = if pat = [] then some 0 else none := by
  cases pat with
  | nil => rfl
  | cons => rfl

theorem find_cons (pat : List α) (x : α) (d : List α) :
    find pat (x :: d) = if pat <+: x :: d then some 0 else (find pat d).map (· + 1) := by
  rw [find, List.tails_cons, List.findIdx?_cons]
  exact if_congr List.isPrefixOf_iff_prefix rfl rfl

theorem find_of_prefix {pat d : List α} (h : pat <+: d) : find pat d = some 0 := by
  cases d with
  | nil => rw [find_nil, if_pos (List.prefix_nil.mp h)]
  | cons x d => rw [find_cons, if_pos h]

/-- The first occurrence, and nothing before it. -/
theorem find_eq_some_iff {pat d : List α} {i : ℕ} :
    find pat d = some i ↔ i ≤ d.length ∧ pat <+: d.drop i ∧ ∀ j < i, ¬ pat <+: d.drop j := by
  induction d generalizing i with
  | nil =>
    rw [find_nil]
    cases pat with
    | nil => cases i <;> simp
    | cons y pat => simp
  | cons x d ih =>
    rw [find_cons]
    by_cases hhere : pat <+: x :: d
    · rw [if_pos hhere]
      constructor
      · rintro ⟨⟩
        exact ⟨Nat.zero_le _, hhere, fun j hj => absurd hj (Nat.not_lt_zero j)⟩
      · rintro ⟨-, -, hfirst⟩
        rcases Nat.eq_zero_or_pos i with rfl | hpos
        · rfl
        · exact absurd hhere (hfirst 0 hpos)
    · rw [if_neg hhere, Option.map_eq_some_iff]
      constructor
      · rintro ⟨k, hk, rfl⟩
        obtain ⟨hle, hat, hfirst⟩ := ih.mp hk
        refine ⟨Nat.succ_le_succ hle, hat, ?_⟩
        intro j hj
        cases j with
        | zero => exact hhere
        | succ j => exact hfirst j (Nat.lt_of_succ_lt_succ hj)
      · rintro ⟨hle, hat, hfirst⟩
        cases i with
        | zero => exact absurd hat hhere
        | succ k =>
          exact ⟨k, ih.mpr ⟨Nat.le_of_succ_le_succ hle, hat,
            fun j hj => hfirst (j + 1) (Nat.succ_lt_succ hj)⟩, rfl⟩

theorem find_isSome_iff {pat d : List α} : (find pat d).isSome ↔ pat <:+: d := by
  rw [find, List.findIdx?_isSome, List.any_eq_true]
  constructor
  · rintro ⟨t, ht, hpre⟩
    exact (List.isPrefixOf_iff_prefix.mp hpre).isInfix.trans ((List.mem_tails ..).mp ht).isInfix
  · intro h
    obtain ⟨t, hpre, hsuf⟩ := List.infix_iff_prefix_suffix.mp h
    exact ⟨t, (List.mem_tails ..).mpr hsuf, List.isPrefixOf_iff_prefix.mpr hpre⟩

theorem find_eq_none_iff {pat d : List α} : find pat d = none ↔ ¬ pat <:+: d := by
  rw [← find_isSome_iff, Option.not_isSome_iff_eq_none]

/-- An occurrence is found, or an earlier one. -/
theorem find_le {pat d : List α} {n : ℕ} (h : pat <+: d.drop n) : ∃ i ≤ n, find pat d = some i := by
  have hinfix : pat <:+: d := h.isInfix.trans (List.drop_suffix n d).isInfix
  obtain ⟨i, hi⟩ := Option.isSome_iff_exists.mp (find_isSome_iff.mpr hinfix)
  refine ⟨i, ?_, hi⟩
  by_contra hlt
  exact (find_eq_some_iff.mp hi).2.2 n (Nat.lt_of_not_le hlt) h

theorem find_add_length_le {pat d : List α} {i : ℕ} (h : find pat d = some i) : i + pat.length ≤ d.length := by
  obtain ⟨hle, hat, -⟩ := find_eq_some_iff.mp h
  have hlen := hat.length_le
  rw [List.length_drop] at hlen
  omega

/-! ### Across a seam -/

theorem find_append {pat a b : List α} (hne : pat ≠ []) (hb : ∀ x ∈ b.head?, x ∉ pat.tail) :
    find pat (a ++ b) = (find pat a <|> (find pat b).map (a.length + ·)) := by
  induction a with
  | nil =>
    rw [find_nil, if_neg hne]
    simp
  | cons x a ih =>
    have hseam := prefix_append_iff_of_seam (List.cons_ne_nil x a) hb
    rw [List.cons_append, find_cons, find_cons, ← List.cons_append, ih]
    by_cases hhere : pat <+: x :: a
    · rw [if_pos hhere, if_pos (hseam.mpr hhere)]
      rfl
    · rw [if_neg hhere, if_neg fun h => hhere (hseam.mp h)]
      cases find pat a with
      | some i => rfl
      | none =>
        cases find pat b with
        | none => rfl
        | some j =>
          change some (a.length + j + 1) = some (a.length + 1 + j)
          rw [Nat.add_right_comm]

/-- No occurrence starts in a part without the first letter of the pattern. -/
theorem find_append_of_notMem {y : α} {pat a : List α} (ha : y ∉ a) (b : List α) :
    find (y :: pat) (a ++ b) = (find (y :: pat) b).map (a.length + ·) := by
  induction a with
  | nil => simp
  | cons x a ih =>
    have hhere : ¬ y :: pat <+: x :: (a ++ b) := by
      intro h
      exact ha (List.mem_cons.mpr (.inl (List.cons_prefix_cons.mp h).1))
    rw [List.cons_append, find_cons, if_neg hhere, ih fun h => ha (List.mem_cons_of_mem _ h), Option.map_map]
    refine Option.map_congr fun j _ => ?_
    rw [List.length_cons, Function.comp_apply, Nat.add_right_comm]

end GeminiLinux.Search
