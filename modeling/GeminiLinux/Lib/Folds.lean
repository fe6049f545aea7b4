import Mathlib

/-! Folds with an operation that does not mind the order. Replacing one element of the list trades it for
    the new one in the result (`foldl_set`), so that a result kept means an element kept
    (`foldl_set_eq_iff`), and two replacements can only make up for each other
    (`foldl_set_set_eq_iff`). -/

namespace GeminiLinux.Folds

variable {α : Type} {f : α → α → α}

theorem regroup [Std.Associative f] (a b c : α) : f (f a b) c = f a (f b c) :=
  Std.Associative.assoc a b c

theorem swap [Std.Commutative f] (a b : α) : f a b = f b a := Std.Commutative.comm a b

variable [Std.Associative f] [Std.Commutative f]

theorem swap_right (a b c : α) : f (f a b) c = f (f a c) b := by
  rw [regroup (f := f) a, regroup (f := f) a, swap (f := f) b]

instance rightCommutative : RightCommutative f := ⟨swap_right⟩

theorem foldl_middle (e a : α) (l₁ l₂ : List α) :
    (l₁ ++ a :: l₂).foldl f e = f a ((l₁ ++ l₂).foldl f e) := by
  rw [List.perm_middle.foldl_eq e, List.foldl_cons, swap (f := f) e, List.foldl_assoc]

theorem foldl_set (e b : α) {l : List α} {i : ℕ} (hi : i < l.length) :
    f ((l.set i b).foldl f e) l[i] = f (l.foldl f e) b := by
  have hsplit : l = l.take i ++ l[i] :: l.drop (i + 1) := by
    rw [List.cons_getElem_drop_succ, List.take_append_drop]
  have hfold : l.foldl f e = f l[i] ((l.take i ++ l.drop (i + 1)).foldl f e) := by
    rw [← foldl_middle (f := f), ← hsplit]
  rw [List.set_eq_take_cons_drop b hi, foldl_middle, hfold, swap (f := f) b, swap_right (f := f),
    swap (f := f) l[i]]

section Cancel

variable (hcancel : ∀ a b c, f a b = f a c ↔ b = c)
include hcancel

theorem foldl_set_eq_iff (e b : α) {l : List α} {i : ℕ} (hi : i < l.length) :
    (l.set i b).foldl f e = l.foldl f e ↔ l[i] = b := by
  have htrade := foldl_set (f := f) e b hi
  constructor
  · intro h
    rw [h] at htrade
    exact (hcancel _ _ _).mp htrade
  · rintro rfl
    rw [List.set_getElem_self]

theorem foldl_set_set_eq_iff (e b b' : α) {l : List α} {i j : ℕ} (hi : i < l.length) (hj : j < l.length)
    (hij : i ≠ j) : ((l.set i b).set j b').foldl f e = l.foldl f e ↔ f l[i] l[j] = f b b' := by
  have hj' : j < (l.set i b).length := by rwa [List.length_set]
  have hfirst := foldl_set (f := f) e b hi
  have hsecond := foldl_set (f := f) e b' hj'
  rw [List.getElem_set_of_ne hij] at hsecond
  have htrade : f (((l.set i b).set j b').foldl f e) (f l[i] l[j]) = f (l.foldl f e) (f b b') := by
    rw [swap (f := f) l[i], ← regroup (f := f), hsecond, swap_right (f := f), hfirst, regroup (f := f)]
  constructor
  · intro h
    rw [h] at htrade
    exact (hcancel _ _ _).mp htrade
  · intro h
    rw [h, swap (f := f), swap (f := f) (l.foldl f e)] at htrade
    exact (hcancel _ _ _).mp htrade

end Cancel

end GeminiLinux.Folds
