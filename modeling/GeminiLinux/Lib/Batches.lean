import GeminiLinux.Lib.Runs

/-! Batches through a bounded buffer. A maker puts in one item after another, which is lost if `cap` items wait, and
    announces every `n`-th; a taker takes what was announced, all of it before the next item comes.

        make … make (n of them) ──▶ announce ──▶ take … take (n of them) ──▶ make …

    The taker is served, i.e. finds an item whenever one is announced that it has not taken, exactly if a batch
    fits into the buffer. -/

namespace GeminiLinux.Batches
open Runs

/-- The items that wait, those made since the last announcement, the announcements, and the items taken. -/
structure State where
  waiting : ℕ
  fresh : ℕ
  batches : ℕ
  taken : ℕ
  deriving DecidableEq

inductive Event where
  | make | take

def start : State := ⟨0, 0, 0, 0⟩

variable (cap n : ℕ)

def step (s : State) : Event → State
  | .make =>
    let waiting := if s.waiting < cap then s.waiting + 1 else s.waiting
    if s.fresh + 1 < n then { s with waiting := waiting, fresh := s.fresh + 1 }
    else { s with waiting := waiting, fresh := 0, batches := s.batches + 1 }
  | .take => if s.waiting = 0 then s else { s with waiting := s.waiting - 1, taken := s.taken + 1 }

/-- The taker takes what was announced, before the next item is made. -/
def Prompt (s : State) : Event → Prop
  | .make => s.taken = s.batches * n
  | .take => s.taken < s.batches * n

def Served (s : State) : Prop := s.taken < s.batches * n → 0 < s.waiting

variable {cap n}

/-- Nothing was lost. -/
structure Complete (n : ℕ) (s : State) : Prop where
  fresh_lt : s.fresh < n
  total : s.taken + s.waiting = s.batches * n + s.fresh
  taken_le : s.taken ≤ s.batches * n
  drained : s.fresh = 0 ∨ s.taken = s.batches * n

theorem complete_step (hcap : n ≤ cap) (s : State) (e : Event) (h : Complete n s) (he : Prompt n s e) :
    Complete n (step cap n s e) := by
  obtain ⟨hfresh, htotal, htaken, hdrained⟩ := h
  cases e with
  | make =>
    have hprompt : s.taken = s.batches * n := he
    have hroom : s.waiting < cap := by omega
    rw [step, if_pos hroom]
    split_ifs with hlast
    · refine ⟨hlast, ?_, htaken, .inr hprompt⟩
      show s.taken + (s.waiting + 1) = s.batches * n + (s.fresh + 1)
      omega
    · have hbatch : (s.batches + 1) * n = s.batches * n + n := Nat.succ_mul ..
      refine ⟨by show 0 < n; omega, ?_, ?_, .inl rfl⟩
      · show s.taken + (s.waiting + 1) = (s.batches + 1) * n + 0
        omega
      · show s.taken ≤ (s.batches + 1) * n
        omega
  | take =>
    have hprompt : s.taken < s.batches * n := he
    rw [step, if_neg (by omega)]
    refine ⟨hfresh, ?_, hprompt, .inl (by show s.fresh = 0; omega)⟩
    show s.taken + 1 + (s.waiting - 1) = s.batches * n + s.fresh
    omega

/-- Where a batch that does not fit has brought the buffer. -/
def Short (cap n : ℕ) (s : State) : Prop :=
  s.batches = 0 ∧ s.taken = 0 ∧ s.fresh < n ∧ s.waiting = min s.fresh cap ∨
    s.batches = 1 ∧ s.fresh = 0 ∧ s.taken + s.waiting = cap

theorem short_step (hcap : cap < n) (s : State) (e : Event) (h : Short cap n s) (he : Prompt n s e) :
    Short cap n (step cap n s e) := by
  obtain ⟨hbatches, htaken, hfresh, hwaiting⟩ | ⟨hbatches, hfresh, htotal⟩ := h
  · cases e with
    | make =>
      rw [step]
      split_ifs with hlast hroom hroom
      · exact .inl ⟨hbatches, htaken, hlast, by show s.waiting + 1 = min (s.fresh + 1) cap; omega⟩
      · exact .inl ⟨hbatches, htaken, hlast, by show s.waiting = min (s.fresh + 1) cap; omega⟩
      · exact .inr ⟨by show s.batches + 1 = 1; omega, rfl, by show s.taken + (s.waiting + 1) = cap; omega⟩
      · exact .inr ⟨by show s.batches + 1 = 1; omega, rfl, by show s.taken + s.waiting = cap; omega⟩
    | take =>
      have hprompt : s.taken < s.batches * n := he
      rw [hbatches] at hprompt
      omega
  · cases e with
    | make =>
      have hprompt : s.taken = s.batches * n := he
      rw [hbatches] at hprompt
      omega
    | take =>
      rw [step]
      split_ifs with hempty
      · exact .inr ⟨hbatches, hfresh, htotal⟩
      · exact .inr ⟨hbatches, hfresh, by show s.taken + 1 + (s.waiting - 1) = cap; omega⟩

theorem short_start (hcap : cap < n) : Short cap n start := by
  refine .inl ⟨rfl, rfl, ?_, ?_⟩
  · show 0 < n
    omega
  · show 0 = min 0 cap
    omega

/-- A batch that does not fit leaves the taker without an item. -/
theorem exists_unserved (hcap : cap < n) :
    ∃ es, Steps (step cap n) (Prompt n) start es ∧ ¬ Served n (run (step cap n) start es) := by
  let rank (s : State) : ℕ := if s.batches = 0 then n - s.fresh + cap + 1 else s.waiting
  have hgo (s : State) (hs : Short cap n s) (hserved : ¬ ¬ Served n s) :
      ∃ e, Prompt n s e ∧ rank (step cap n s e) < rank s := by
    rw [not_not] at hserved
    obtain ⟨hbatches, htaken, hfresh, hwaiting⟩ | ⟨hbatches, hfresh, htotal⟩ := hs
    · refine ⟨.make, by show s.taken = s.batches * n; rw [hbatches, htaken, Nat.zero_mul], ?_⟩
      have hrank : rank s = n - s.fresh + cap + 1 := if_pos hbatches
      rw [hrank, step]
      split_ifs with hlast hroom hroom
      · show (if s.batches = 0 then n - (s.fresh + 1) + cap + 1 else s.waiting + 1) < _
        rw [if_pos hbatches]
        omega
      · show (if s.batches = 0 then n - (s.fresh + 1) + cap + 1 else s.waiting) < _
        rw [if_pos hbatches]
        omega
      · show s.waiting + 1 < _
        omega
      · show s.waiting < _
        omega
    · have hprompt : s.taken < s.batches * n := by
        rw [hbatches]
        omega
      have hwaiting := hserved hprompt
      have hone : s.batches ≠ 0 := by omega
      refine ⟨.take, hprompt, ?_⟩
      have hrank : rank s = s.waiting := if_neg hone
      rw [hrank, step, if_neg hwaiting.ne']
      show (if s.batches = 0 then _ else s.waiting - 1) < _
      rw [if_neg hone]
      omega
  exact exists_steps_of_rank rank (short_step hcap) hgo (short_start hcap)

/-- The taker is always served exactly if a batch fits. -/
theorem stays_served_iff (hn : 0 < n) : Stays (step cap n) (Prompt n) (Served n) start ↔ n ≤ cap := by
  constructor
  · intro h
    by_contra hcap
    obtain ⟨es, hes, hunserved⟩ := exists_unserved (Nat.lt_of_not_le hcap)
    exact hunserved (h es hes).last
  · intro hcap es hes
    have hstart : Complete n start := ⟨hn, by show 0 = 0 * n + 0; omega, Nat.zero_le _, .inl rfl⟩
    refine always_of_steps (fun s hs hlt => ?_) (complete_step hcap) hstart hes
    have htotal := hs.total
    omega

end GeminiLinux.Batches
