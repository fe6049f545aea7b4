import Mathlib

/-! Bytes as text, whatever they are: the UTF-8 decoder that never fails. What cannot be part of a character
    becomes U+FFFD, one for each longest run of bytes that begins a character and is not completed, and one
    for each byte that begins none. The decoder goes over the bytes once and remembers the character that
    has begun.

        lead byte      next byte      further bytes
        c2 .. df       80 .. bf       none
        e0             a0 .. bf       1
        e1 .. ec       80 .. bf       1
        ed             80 .. 9f       1
        ee, ef         80 .. bf       1
        f0             90 .. bf       2
        f1 .. f3       80 .. bf       2
        f4             80 .. 8f       2

    The UTF-8 of a text is read back. A byte below 0x80 ends what has begun and stands for itself, so bytes
    can be cut into lines before they are decoded or after. -/

namespace GeminiLinux.LossyUtf8

def replacement : Char := Char.ofNat 0xfffd

/-- A character that has begun: its bits so far, the range of its next byte, and how many bytes follow
    that one. -/
structure Pending where
  bits : ℕ
  lo : ℕ
  hi : ℕ
  more : ℕ
  /-- A byte below 0x80 goes on with no character. -/
  continues : 0x80 ≤ lo
  /-- What it can still become is not a character of one byte. -/
  long : 0x80 ≤ (bits * 64 + (lo - 0x80)) * 64 ^ more

/-- The first byte of a character. -/
def lead (b : UInt8) : List Char × Option Pending :=
  let n := b.toNat
  if n < 0x80 then ([Char.ofNat n], none)
  else if h : n < 0xc2 then ([replacement], none)
  else if h : n < 0xe0 then ([], some ⟨n - 0xc0, 0x80, 0xbf, 0, by decide, by omega⟩)
  else if h : n = 0xe0 then ([], some ⟨0, 0xa0, 0xbf, 1, by decide, by decide⟩)
  else if n = 0xed then ([], some ⟨0xd, 0x80, 0x9f, 1, by decide, by decide⟩)
  else if h : n < 0xf0 then ([], some ⟨n - 0xe0, 0x80, 0xbf, 1, by decide, by omega⟩)
  else if h : n = 0xf0 then ([], some ⟨0, 0x90, 0xbf, 2, by decide, by decide⟩)
  else if n < 0xf4 then ([], some ⟨n - 0xf0, 0x80, 0xbf, 2, by decide, by omega⟩)
  else if n = 0xf4 then ([], some ⟨4, 0x80, 0x8f, 2, by decide, by decide⟩)
  else ([replacement], none)

/-- The next byte of a character. -/
def next (p : Pending) (b : UInt8) (h : p.lo ≤ b.toNat) : List Char × Option Pending :=
  let bits := p.bits * 64 + (b.toNat - 0x80)
  match hmore : p.more with
  | 0 => ([Char.ofNat bits], none)
  | more + 1 => ([], some ⟨bits, 0x80, 0xbf, more, le_rfl, by
      have hlong := p.long
      rw [hmore, Nat.pow_succ', ← Nat.mul_assoc] at hlong
      exact hlong.trans (Nat.mul_le_mul_right _ (by omega))⟩)

def step : Option Pending → UInt8 → List Char × Option Pending
  | none, b => lead b
  | some p, b =>
    if h : p.lo ≤ b.toNat ∧ b.toNat ≤ p.hi then next p b h.1
    else (replacement :: (lead b).1, (lead b).2)

/-- What is left of a character that ends too early. -/
def flush : Option Pending → List Char
  | none => []
  | some _ => [replacement]

def decodeFrom : Option Pending → List UInt8 → List Char
  | st, [] => flush st
  | st, b :: bytes => (step st b).1 ++ decodeFrom (step st b).2 bytes

/-- `bytes.decode("utf-8", errors="replace")`. -/
def decodeReplace (bytes : List UInt8) : List Char := decodeFrom none bytes

/-! ### Bytes below 0x80 -/

theorem lead_ascii {b : UInt8} (hb : b.toNat < 0x80) : lead b = ([Char.ofNat b.toNat], none) := if_pos hb

theorem step_ascii (st : Option Pending) {b : UInt8} (hb : b.toNat < 0x80) :
    step st b = (flush st ++ [Char.ofNat b.toNat], none) := by
  cases st with
  | none => exact lead_ascii hb
  | some p =>
    have hout : ¬ (p.lo ≤ b.toNat ∧ b.toNat ≤ p.hi) := by
      have := p.continues
      omega
    rw [step, dif_neg hout, lead_ascii hb]
    rfl

theorem decodeFrom_ascii (st : Option Pending) {b : UInt8} (hb : b.toNat < 0x80) (rest : List UInt8) :
    decodeFrom st (b :: rest) = flush st ++ Char.ofNat b.toNat :: decodeReplace rest := by
  rw [decodeFrom, step_ascii st hb, List.append_assoc]
  rfl

/-- A byte below 0x80 cuts the text in two. -/
theorem decodeFrom_append_ascii (st : Option Pending) (bytes : List UInt8) {b : UInt8} (hb : b.toNat < 0x80)
    (rest : List UInt8) :
    decodeFrom st (bytes ++ b :: rest) = decodeFrom st bytes ++ Char.ofNat b.toNat :: decodeReplace rest := by
  induction bytes generalizing st with
  | nil => exact decodeFrom_ascii st hb rest
  | cons b' bytes ih => rw [List.cons_append, decodeFrom, decodeFrom, ih, List.append_assoc]

theorem decodeReplace_ascii_append {front : List UInt8} (hfront : ∀ b ∈ front, b.toNat < 0x80)
    (rest : List UInt8) :
    decodeReplace (front ++ rest) = front.map (fun b => Char.ofNat b.toNat) ++ decodeReplace rest := by
  induction front with
  | nil => rfl
  | cons b front ih =>
    rw [List.cons_append, decodeReplace, decodeFrom_ascii none (hfront b (List.mem_cons_self ..)),
      ih fun b' hb' => hfront b' (List.mem_cons_of_mem _ hb')]
    rfl

theorem utf8EncodeChar_ascii {b : UInt8} (hb : b.toNat < 0x80) :
    String.utf8EncodeChar (Char.ofNat b.toNat) = [b] := by
  have hvalid : b.toNat.isValidChar := .inl (by omega)
  have hval : (Char.ofNat b.toNat).val.toNat = b.toNat := by
    rw [Char.ofNat, dif_pos hvalid]
    rfl
  unfold String.utf8EncodeChar
  simp only [hval]
  rw [if_pos (by omega), UInt8.ofNat_toNat]

theorem utf8Encode_ascii {front : List UInt8} (hfront : ∀ b ∈ front, b.toNat < 0x80) :
    (front.map fun b => Char.ofNat b.toNat).flatMap String.utf8EncodeChar = front := by
  induction front with
  | nil => rfl
  | cons b front ih =>
    rw [List.map_cons, List.flatMap_cons, utf8EncodeChar_ascii (hfront b (List.mem_cons_self ..)),
      ih fun b' hb' => hfront b' (List.mem_cons_of_mem _ hb'), List.singleton_append]

/-! ### Text -/

/-- A byte that goes on with a character. -/
def IsTail (b : UInt8) : Prop := 0x80 ≤ b.toNat ∧ b.toNat ≤ 0xbf

theorem step_next {p : Pending} {b : UInt8} (h : p.lo ≤ b.toNat ∧ b.toNat ≤ p.hi) :
    step (some p) b = next p b h.1 := dif_pos h

theorem lead_two {b : UInt8} (h : 0xc2 ≤ b.toNat) (h' : b.toNat < 0xe0) :
    ∃ p, lead b = ([], some p) ∧ p.bits = b.toNat - 0xc0 ∧ p.lo = 0x80 ∧ p.hi = 0xbf ∧ p.more = 0 := by
  unfold lead
  dsimp only
  rw [if_neg (by omega), dif_neg (by omega), dif_pos h']
  exact ⟨_, rfl, rfl, rfl, rfl, rfl⟩

/-- A lead byte of three, with a second byte that makes the form no longer than it must be and the character
    no surrogate. -/
theorem lead_three {b b' : UInt8} (h : 0xe0 ≤ b.toNat) (h' : b.toNat < 0xf0) (htail : IsTail b')
    (hshort : b.toNat = 0xe0 → 0xa0 ≤ b'.toNat) (hsurr : b.toNat = 0xed → b'.toNat ≤ 0x9f) :
    ∃ p, lead b = ([], some p) ∧ p.bits = b.toNat - 0xe0 ∧ p.lo ≤ b'.toNat ∧ b'.toNat ≤ p.hi ∧ p.more = 1 := by
  unfold lead
  dsimp only
  rw [if_neg (by omega), dif_neg (by omega), dif_neg (by omega)]
  by_cases he0 : b.toNat = 0xe0
  · rw [dif_pos he0]
    exact ⟨_, rfl, by dsimp only; omega, hshort he0, htail.2, rfl⟩
  rw [dif_neg he0]
  by_cases hed : b.toNat = 0xed
  · rw [if_pos hed]
    exact ⟨_, rfl, by dsimp only; omega, htail.1, hsurr hed, rfl⟩
  rw [if_neg hed, dif_pos h']
  exact ⟨_, rfl, rfl, htail.1, htail.2, rfl⟩

/-- A lead byte of four, with a second byte that makes the form no longer than it must be and the character
    no later than the last. -/
theorem lead_four {b b' : UInt8} (h : 0xf0 ≤ b.toNat) (h' : b.toNat < 0xf5) (htail : IsTail b')
    (hshort : b.toNat = 0xf0 → 0x90 ≤ b'.toNat) (hlast : b.toNat = 0xf4 → b'.toNat ≤ 0x8f) :
    ∃ p, lead b = ([], some p) ∧ p.bits = b.toNat - 0xf0 ∧ p.lo ≤ b'.toNat ∧ b'.toNat ≤ p.hi ∧ p.more = 2 := by
  unfold lead
  dsimp only
  rw [if_neg (by omega), dif_neg (by omega), dif_neg (by omega), dif_neg (by omega), if_neg (by omega),
    dif_neg (by omega)]
  by_cases hf0 : b.toNat = 0xf0
  · rw [dif_pos hf0]
    exact ⟨_, rfl, by dsimp only; omega, hshort hf0, htail.2, rfl⟩
  rw [dif_neg hf0]
  by_cases hf4 : b.toNat = 0xf4
  · rw [if_neg (by omega), if_pos hf4]
    exact ⟨_, rfl, by dsimp only; omega, htail.1, hlast hf4, rfl⟩
  rw [if_pos (by omega)]
  exact ⟨_, rfl, rfl, htail.1, htail.2, rfl⟩

/-- The last byte of a character. -/
theorem decodeFrom_last {p : Pending} (hmore : p.more = 0) {b : UInt8} (hlo : p.lo ≤ b.toNat)
    (hhi : b.toNat ≤ p.hi) (rest : List UInt8) : decodeFrom (some p) (b :: rest) =
      Char.ofNat (p.bits * 64 + (b.toNat - 0x80)) :: decodeReplace rest := by
  rw [decodeFrom, step_next ⟨hlo, hhi⟩]
  unfold next
  dsimp only
  split
  · rfl
  · next h => rw [hmore] at h; cases h

theorem decodeFrom_more {p : Pending} {n : ℕ} (hmore : p.more = n + 1) {b : UInt8} (hlo : p.lo ≤ b.toNat)
    (hhi : b.toNat ≤ p.hi) (rest : List UInt8) :
    ∃ q : Pending, decodeFrom (some p) (b :: rest) = decodeFrom (some q) rest ∧
      q.bits = p.bits * 64 + (b.toNat - 0x80) ∧ q.lo = 0x80 ∧ q.hi = 0xbf ∧ q.more = n := by
  rw [decodeFrom, step_next ⟨hlo, hhi⟩]
  unfold next
  dsimp only
  split
  · next h => rw [hmore] at h; cases h
  · next m h =>
    rw [hmore] at h
    cases h
    exact ⟨_, rfl, rfl, rfl, rfl, rfl⟩

theorem decodeFrom_lead {b : UInt8} {p : Pending} (h : lead b = ([], some p)) (bytes : List UInt8) :
    decodeReplace (b :: bytes) = decodeFrom (some p) bytes := by
  rw [decodeReplace, decodeFrom, step, h]
  rfl

theorem decode_two {b₀ b₁ : UInt8} (h₀ : 0xc2 ≤ b₀.toNat ∧ b₀.toNat < 0xe0) (h₁ : IsTail b₁)
    (rest : List UInt8) : decodeReplace (b₀ :: b₁ :: rest) =
      Char.ofNat ((b₀.toNat - 0xc0) * 64 + (b₁.toNat - 0x80)) :: decodeReplace rest := by
  obtain ⟨p, hlead, hbits, hlo, hhi, hmore⟩ := lead_two h₀.1 h₀.2
  rw [decodeFrom_lead hlead, decodeFrom_last hmore (hlo ▸ h₁.1) (hhi ▸ h₁.2), hbits]

theorem decode_three {b₀ b₁ b₂ : UInt8} (h₀ : 0xe0 ≤ b₀.toNat ∧ b₀.toNat < 0xf0) (h₁ : IsTail b₁)
    (h₂ : IsTail b₂) (hshort : b₀.toNat = 0xe0 → 0xa0 ≤ b₁.toNat)
    (hsurr : b₀.toNat = 0xed → b₁.toNat ≤ 0x9f) (rest : List UInt8) :
    decodeReplace (b₀ :: b₁ :: b₂ :: rest) = Char.ofNat (((b₀.toNat - 0xe0) * 64 + (b₁.toNat - 0x80)) * 64 +
      (b₂.toNat - 0x80)) :: decodeReplace rest := by
  obtain ⟨p, hlead, hbits, hlo, hhi, hmore⟩ := lead_three h₀.1 h₀.2 h₁ hshort hsurr
  obtain ⟨q, hq, hqbits, hqlo, hqhi, hqmore⟩ := decodeFrom_more hmore hlo hhi (b₂ :: rest)
  rw [decodeFrom_lead hlead, hq, decodeFrom_last hqmore (hqlo ▸ h₂.1) (hqhi ▸ h₂.2), hqbits, hbits]

theorem decode_four {b₀ b₁ b₂ b₃ : UInt8} (h₀ : 0xf0 ≤ b₀.toNat ∧ b₀.toNat < 0xf5) (h₁ : IsTail b₁)
    (h₂ : IsTail b₂) (h₃ : IsTail b₃) (hshort : b₀.toNat = 0xf0 → 0x90 ≤ b₁.toNat) (hlast : b₀.toNat = 0xf4 → b₁.toNat ≤ 0x8f)
    (rest : List UInt8) : decodeReplace (b₀ :: b₁ :: b₂ :: b₃ :: rest) =
      Char.ofNat ((((b₀.toNat - 0xf0) * 64 + (b₁.toNat - 0x80)) * 64 + (b₂.toNat - 0x80)) * 64 +
        (b₃.toNat - 0x80)) :: decodeReplace rest := by
  obtain ⟨p, hlead, hbits, hlo, hhi, hmore⟩ := lead_four h₀.1 h₀.2 h₁ hshort hlast
  obtain ⟨q, hq, hqbits, hqlo, hqhi, hqmore⟩ := decodeFrom_more hmore hlo hhi (b₂ :: b₃ :: rest)
  obtain ⟨r, hr, hrbits, hrlo, hrhi, hrmore⟩ := decodeFrom_more hqmore (hqlo ▸ h₂.1) (hqhi ▸ h₂.2) (b₃ :: rest)
  rw [decodeFrom_lead hlead, hq, hr, decodeFrom_last hrmore (hrlo ▸ h₃.1) (hrhi ▸ h₃.2), hrbits, hqbits, hbits]

/-- A character is read back from its bytes. -/
theorem decodeReplace_char (c : Char) (rest : List UInt8) :
    decodeReplace (String.utf8EncodeChar c ++ rest) = c :: decodeReplace rest := by
  have hc : Char.ofNat c.val.toNat = c := Char.ofNat_toNat c
  have hvalid : c.val.toNat < 0xd800 ∨ 0xdfff < c.val.toNat ∧ c.val.toNat < 0x110000 := c.valid
  have hbyte {n : ℕ} (h : n < 256) : (UInt8.ofNat n).toNat = n := by
    rw [UInt8.toNat_ofNat', Nat.mod_eq_of_lt h]
  have htail (n : ℕ) : (UInt8.ofNat (n % 0x40 + 0x80)).toNat = n % 0x40 + 0x80 := hbyte (by omega)
  have hisTail (n : ℕ) : IsTail (UInt8.ofNat (n % 0x40 + 0x80)) := by
    rw [IsTail, htail]
    omega
  unfold String.utf8EncodeChar
  dsimp only
  generalize c.val.toNat = v at hc hvalid
  split_ifs with h1 h2 h3
  · have hv := hbyte (n := v) (by omega)
    rw [List.singleton_append, decodeReplace, decodeFrom_ascii none (by omega), hv, hc]
    rfl
  · have h₀ := hbyte (n := v / 64 % 0x20 + 0xc0) (by omega)
    have hv : (v / 64 % 0x20 + 0xc0 - 0xc0) * 64 + (v % 0x40 + 0x80 - 0x80) = v := by omega
    rw [List.cons_append, List.singleton_append, decode_two (by omega) (hisTail v), h₀, htail, hv, hc]
  · have h₀ := hbyte (n := v / 4096 % 0x10 + 0xe0) (by omega)
    have h₁ := htail (v / 64)
    have hv : ((v / 4096 % 0x10 + 0xe0 - 0xe0) * 64 + (v / 64 % 0x40 + 0x80 - 0x80)) * 64 +
        (v % 0x40 + 0x80 - 0x80) = v := by omega
    simp only [List.cons_append, List.nil_append]
    rw [decode_three (by omega) (hisTail _) (hisTail v) (by omega) (by omega), h₀, h₁, htail, hv, hc]
  · have h₀ := hbyte (n := v / 262144 % 0x08 + 0xf0) (by omega)
    have h₁ := htail (v / 4096)
    have h₂ := htail (v / 64)
    have hv : (((v / 262144 % 0x08 + 0xf0 - 0xf0) * 64 + (v / 4096 % 0x40 + 0x80 - 0x80)) * 64 +
        (v / 64 % 0x40 + 0x80 - 0x80)) * 64 + (v % 0x40 + 0x80 - 0x80) = v := by omega
    simp only [List.cons_append, List.nil_append]
    rw [decode_four (by omega) (hisTail _) (hisTail _) (hisTail v) (by omega) (by omega), h₀, h₁, h₂, htail,
      hv, hc]

/-- Text is read back from its UTF-8. -/
theorem decodeReplace_encode (text : List Char) :
    decodeReplace (text.flatMap String.utf8EncodeChar) = text := by
  induction text with
  | nil => rfl
  | cons c text ih => rw [List.flatMap_cons, decodeReplace_char, ih]
/-! ### Lines -/

theorem ofNat_eq_newline {n : ℕ} (h : Char.ofNat n = '\n') : n = 0x0a := by
  unfold Char.ofNat at h
  split at h
  · exact congrArg Char.toNat h
  · exact absurd h (by decide)

theorem replacement_ne_newline : '\n' ≠ replacement := by decide

/-- A first byte is put out itself, or replaced, or waits. -/
theorem lead_out {b : UInt8} {c : Char} (h : c ∈ (lead b).1) : c = Char.ofNat b.toNat ∨ c = replacement := by
  unfold lead at h
  dsimp only at h
  repeat' split at h
  all_goals simp only [List.mem_singleton, List.not_mem_nil] at h
  · exact .inl h
  · exact .inr h
  · exact .inr h

/-- A newline is put out for a newline only. -/
theorem lead_newline {b : UInt8} (h : '\n' ∈ (lead b).1) : b.toNat = 0x0a := by
  rcases lead_out h with hself | hreplaced
  · exact ofNat_eq_newline hself.symm
  · exact absurd hreplaced replacement_ne_newline

theorem next_newline {p : Pending} {b : UInt8} {hlo : p.lo ≤ b.toNat} : '\n' ∉ (next p b hlo).1 := by
  intro h
  unfold next at h
  simp only at h
  split at h
  · next hmore =>
    have hlong := p.long
    rw [hmore, Nat.pow_zero, Nat.mul_one] at hlong
    have hten := ofNat_eq_newline (List.mem_singleton.mp h).symm
    omega
  · cases h

theorem step_newline {st : Option Pending} {b : UInt8} (h : '\n' ∈ (step st b).1) : b.toNat = 0x0a := by
  cases st with
  | none => exact lead_newline h
  | some p =>
    rw [step] at h
    split_ifs at h
    · exact absurd h next_newline
    · exact lead_newline ((List.mem_cons.mp h).resolve_left replacement_ne_newline)

theorem newline_mem_decodeFrom {st : Option Pending} {bytes : List UInt8} (h : '\n' ∈ decodeFrom st bytes) :
    0x0a ∈ bytes := by
  induction bytes generalizing st with
  | nil =>
    cases st with
    | none => cases h
    | some p => exact absurd (List.mem_singleton.mp h) replacement_ne_newline
  | cons b bytes ih =>
    rcases List.mem_append.mp h with hhere | hlater
    · have hb : b = 0x0a := UInt8.toNat_inj.mp (step_newline hhere)
      rw [hb]
      exact List.mem_cons_self ..
    · exact List.mem_cons_of_mem _ (ih hlater)

/-- The lines of the text are the texts of the lines. -/
theorem splitOn_decodeReplace (bytes : List UInt8) :
    (decodeReplace bytes).splitOn '\n' = (bytes.splitOn 0x0a).map decodeReplace := by
  induction hlen : bytes.length using Nat.strong_induction_on generalizing bytes with
  | h n ih =>
    have hnewline {line : List UInt8} (hline : 0x0a ∉ line) : '\n' ∉ decodeReplace line :=
      fun h => hline (newline_mem_decodeFrom h)
    by_cases hmem : (0x0a : UInt8) ∈ bytes
    · obtain ⟨line, rest, rfl, hline⟩ := List.eq_append_cons_of_mem hmem
      have hcut : decodeReplace (line ++ 0x0a :: rest) = decodeReplace line ++ '\n' :: decodeReplace rest :=
        decodeFrom_append_ascii none line (by decide) rest
      have hshorter : rest.length < n := by
        rw [← hlen, List.length_append, List.length_cons]
        omega
      rw [hcut, List.splitOn_append_cons_self_of_not_mem (hnewline hline),
        List.splitOn_append_cons_self_of_not_mem hline, ih _ hshorter rest rfl, List.map_cons]
    · rw [List.splitOn_eq_singleton hmem, List.splitOn_eq_singleton (hnewline hmem), List.map_singleton]

theorem notMem_of_mem_splitOn {α : Type} [DecidableEq α] {x : α} {l piece : List α}
    (h : piece ∈ l.splitOn x) : x ∉ piece := by
  induction l generalizing piece with
  | nil =>
    rw [List.splitOn_nil, List.mem_singleton] at h
    rw [h]
    exact List.not_mem_nil
  | cons y l ih =>
    rw [List.splitOn_cons_eq_if_modifyHead] at h
    split_ifs at h with heq
    · rcases List.mem_cons.mp h with rfl | hrest
      · exact List.not_mem_nil
      · exact ih hrest
    · cases hparts : l.splitOn x with
      | nil => exact absurd hparts (List.splitOn_ne_nil x l)
      | cons first parts =>
        rw [hparts] at h ih
        rcases List.mem_cons.mp h with rfl | hrest
        · refine fun hx => ?_
          rcases List.mem_cons.mp hx with rfl | hx
          · exact heq (beq_self_eq_true x)
          · exact ih (List.mem_cons_self ..) hx
        · exact ih (List.mem_cons_of_mem _ hrest)

end GeminiLinux.LossyUtf8
