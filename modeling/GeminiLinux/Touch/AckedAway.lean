import GeminiLinux.Touch.Ack
import GeminiLinux.Touch.Snl

/-! Which transfers let a poll acknowledge away a report. Numbered from the first one of the poll, they are
    the tries at Status&Length, of two transfers each, or of four where the address is echoed, then what
    the word leads to, and the write of INT_CLEAR; each row ends at the first transfer that fails, and the
    write comes next.

        try   try   try    word              configuration (7)    INT_CLEAR
        0 1   2 3   4 5 ─▶ q: BOOT ────────▶ q ... q+6 ─────────▶ next
                           points ─────────▶ q, q+1 ────────────▶ next
                           none, or lost ──────────────────────▶ q            -/

namespace GeminiLinux.Ssd2092
open Prog InputMt

/-! ### Transfers by number -/

/-- Transfer `j` succeeds. -/
def Ok (bus : Bus) (j : ℕ) : Prop := ∃ data, bus.get j = .ok data

/-- Transfer `j` succeeds, and reads these `n` bytes. -/
def Gives (bus : Bus) (j n : ℕ) (bytes : List UInt8) : Prop :=
  ∃ data, bus.get j = .ok data ∧ bytes = (List.range n).map data

/-- How many transfers are made of a row of `n` that ends at the first that fails. -/
def made : ℕ → Bus → ℕ
  | 0, _ => 0
  | n + 1, bus =>
    match bus.head with
    | .ok _ => made n bus.tail + 1
    | .error _ => 1

/-- A row of `n` transfers from `q` on is made, and the one after it succeeds. -/
def OkAfter (bus : Bus) (q n : ℕ) : Prop := Ok bus (q + made n (bus.drop q))

/-- A try at Status&Length that delivers `snl`, in the transfers from `p` to `q`: the address and four
    bytes, and where these start with the address itself the other address and four bytes. -/
inductive Try (bus : Bus) (p : ℕ) (snl : List UInt8) : ℕ → Prop where
  | direct (haddr : Ok bus p) (hword : Gives bus (p + 1) 4 snl) (hne : le16 snl 0 ≠ regStatusLength) :
      Try bus p snl (p + 2)
  | echoed {echo : List UInt8} (haddr : Ok bus p) (hword : Gives bus (p + 1) 4 echo)
      (heq : le16 echo 0 = regStatusLength) (haddr' : Ok bus (p + 2)) (hword' : Gives bus (p + 3) 4 snl) :
      Try bus p snl (p + 4)

/-- A try from `p` on whose last transfer before `q` fails. -/
inductive Broken (bus : Bus) (p : ℕ) : ℕ → Prop where
  | addr (haddr : ¬ Ok bus p) : Broken bus p (p + 1)
  | word (haddr : Ok bus p) (hword : ¬ Ok bus (p + 1)) : Broken bus p (p + 2)
  | addr' {echo : List UInt8} (haddr : Ok bus p) (hword : Gives bus (p + 1) 4 echo)
      (heq : le16 echo 0 = regStatusLength) (haddr' : ¬ Ok bus (p + 2)) : Broken bus p (p + 3)
  | word' {echo : List UInt8} (haddr : Ok bus p) (hword : Gives bus (p + 1) 4 echo)
      (heq : le16 echo 0 = regStatusLength) (haddr' : Ok bus (p + 2)) (hword' : ¬ Ok bus (p + 3)) :
      Broken bus p (p + 4)

/-- The transfers before `p` are `k` tries, all with a wrong checksum. -/
inductive Rejected (bus : Bus) : ℕ → ℕ → Prop where
  | none : Rejected bus 0 0
  | more {k p q : ℕ} {snl : List UInt8} (h : Rejected bus k p) (htry : Try bus p snl q)
      (hsum : packetOk 2 snl = false) : Rejected bus (k + 1) q

/-- The transfers before `q` deliver the word `w`: one of the three tries has the right checksum. -/
def WordRead (bus : Bus) (w q : ℕ) : Prop :=
  ∃ k < 3, ∃ p snl, Rejected bus k p ∧ Try bus p snl q ∧ packetOk 2 snl = true ∧ le16 snl 0 = w

/-- They deliver no word: all three tries have a wrong one, or one of them breaks off. -/
def WordLost (bus : Bus) (q : ℕ) : Prop :=
  Rejected bus 3 q ∨ ∃ k < 3, ∃ p, Rejected bus k p ∧ Broken bus p q

/-! ### What the functions make of them -/

theorem not_ok_iff {bus : Bus} {p : ℕ} : ¬ Ok bus p ↔ ∃ e, bus.get p = .error e := by
  rw [Ok]
  rcases bus.get p with e | data
  · simp
  · simp

section At

variable {bus : Bus} {p : ℕ} {ts : Ts} (h : ts.i2c = bus.drop p)
include h

theorem send_bus (pkt : List UInt8) : (finalState (i2cMasterSend pkt) ts).i2c = bus.drop (p + 1) := by
  have htail : ts.i2c.tail = bus.drop (p + 1) := by rw [h, Stream'.tail_drop']
  unfold finalState i2cMasterSend
  cases ts.i2c.head <;> exact htail

theorem recv_bus (n : ℕ) : (finalState (i2cMasterRecv n) ts).i2c = bus.drop (p + 1) := by
  have htail : ts.i2c.tail = bus.drop (p + 1) := by rw [h, Stream'.tail_drop']
  unfold finalState i2cMasterRecv
  cases ts.i2c.head <;> exact htail

theorem send_ok (hok : Ok bus p) (pkt : List UInt8) : outcome (i2cMasterSend pkt) ts = .ok () := by
  obtain ⟨data, hdata⟩ := hok
  have hhead : ts.i2c.head = .ok data := by rw [h, Stream'.head_drop, hdata]
  rw [outcome, i2cMasterSend, hhead]

theorem send_fails (hfail : ¬ Ok bus p) (pkt : List UInt8) :
    ∃ e, outcome (i2cMasterSend pkt) ts = .error e := by
  obtain ⟨e, he⟩ := not_ok_iff.mp hfail
  have hhead : ts.i2c.head = .error e := by rw [h, Stream'.head_drop, he]
  exact ⟨e, by rw [outcome, i2cMasterSend, hhead]⟩

theorem recv_ok {n : ℕ} {bytes : List UInt8} (hread : Gives bus p n bytes) :
    outcome (i2cMasterRecv n) ts = .ok bytes := by
  obtain ⟨data, hdata, rfl⟩ := hread
  have hhead : ts.i2c.head = .ok data := by rw [h, Stream'.head_drop, hdata]
  rw [outcome, i2cMasterRecv, hhead]

theorem recv_fails (hfail : ¬ Ok bus p) (n : ℕ) : ∃ e, outcome (i2cMasterRecv n) ts = .error e := by
  obtain ⟨e, he⟩ := not_ok_iff.mp hfail
  have hhead : ts.i2c.head = .error e := by rw [h, Stream'.head_drop, he]
  exact ⟨e, by rw [outcome, i2cMasterRecv, hhead]⟩

theorem readReg_ok (reg : ℕ) {n : ℕ} {bytes : List UInt8} (haddr : Ok bus p)
    (hread : Gives bus (p + 1) n bytes) :
    outcome (readReg reg n) ts = .ok bytes ∧ (finalState (readReg reg n) ts).i2c = bus.drop (p + 2) := by
  have hsend := send_ok h haddr (regBytes reg)
  have hbus := send_bus h (regBytes reg)
  rw [readReg, outcome_bind_ok _ hsend, finalState_bind_ok _ hsend]
  exact ⟨recv_ok hbus hread, recv_bus hbus n⟩

theorem readReg_addr (reg n : ℕ) (haddr : ¬ Ok bus p) : ∃ e, outcome (readReg reg n) ts = .error e ∧
    (finalState (readReg reg n) ts).i2c = bus.drop (p + 1) := by
  obtain ⟨e, hsend⟩ := send_fails h haddr (regBytes reg)
  rw [readReg, outcome_bind_error _ hsend, finalState_bind_error _ hsend]
  exact ⟨e, rfl, send_bus h _⟩

theorem readReg_word (reg n : ℕ) (haddr : Ok bus p) (hword : ¬ Ok bus (p + 1)) :
    ∃ e, outcome (readReg reg n) ts = .error e ∧
      (finalState (readReg reg n) ts).i2c = bus.drop (p + 2) := by
  have hsend := send_ok h haddr (regBytes reg)
  have hbus := send_bus h (regBytes reg)
  obtain ⟨e, hrecv⟩ := recv_fails hbus hword n
  rw [readReg, outcome_bind_ok _ hsend, finalState_bind_ok _ hsend]
  exact ⟨e, hrecv, recv_bus hbus n⟩

theorem readReg_ok_iff (reg : ℕ) {n : ℕ} {bytes : List UInt8} :
    outcome (readReg reg n) ts = .ok bytes ↔ Ok bus p ∧ Gives bus (p + 1) n bytes := by
  constructor
  · intro hout
    by_cases haddr : Ok bus p
    · by_cases hword : Ok bus (p + 1)
      · obtain ⟨data, hdata⟩ := hword
        have hread := (readReg_ok h reg haddr (n := n) ⟨data, hdata, rfl⟩).1
        rw [hout] at hread
        cases hread
        exact ⟨haddr, data, hdata, rfl⟩
      · obtain ⟨e, he, -⟩ := readReg_word h reg n haddr hword
        rw [hout] at he
        cases he
    · obtain ⟨e, he, -⟩ := readReg_addr h reg n haddr
      rw [hout] at he
      cases he
  · rintro ⟨haddr, hread⟩
    exact (readReg_ok h reg haddr hread).1

end At

section Word

variable {bus : Bus} {p q : ℕ} {ts : Ts} {snl : List UInt8}

theorem readSnlWords_try (htry : Try bus p snl q) (h : ts.i2c = bus.drop p) :
    outcome readSnlWords ts = .ok snl ∧ (finalState readSnlWords ts).i2c = bus.drop q := by
  cases htry with
  | direct haddr hword hne =>
    obtain ⟨hout, hbus⟩ := readReg_ok h regStatusLength haddr hword
    rw [readSnlWords, outcome_bind_ok _ hout, finalState_bind_ok _ hout, if_neg hne]
    exact ⟨rfl, hbus⟩
  | echoed haddr hword heq haddr' hword' =>
    obtain ⟨hout, hbus⟩ := readReg_ok h regStatusLength haddr hword
    rw [readSnlWords, outcome_bind_ok _ hout, finalState_bind_ok _ hout, if_pos heq]
    exact readReg_ok hbus regStatusLengthAlt haddr' hword'

theorem readSnlWords_broken (hbroken : Broken bus p q) (h : ts.i2c = bus.drop p) :
    ∃ e, outcome readSnlWords ts = .error e ∧ (finalState readSnlWords ts).i2c = bus.drop q := by
  cases hbroken with
  | addr haddr =>
    obtain ⟨e, hout, hbus⟩ := readReg_addr h regStatusLength 4 haddr
    rw [readSnlWords, outcome_bind_error _ hout, finalState_bind_error _ hout]
    exact ⟨e, rfl, hbus⟩
  | word haddr hword =>
    obtain ⟨e, hout, hbus⟩ := readReg_word h regStatusLength 4 haddr hword
    rw [readSnlWords, outcome_bind_error _ hout, finalState_bind_error _ hout]
    exact ⟨e, rfl, hbus⟩
  | addr' haddr hword heq haddr' =>
    obtain ⟨hout, hbus⟩ := readReg_ok h regStatusLength haddr hword
    rw [readSnlWords, outcome_bind_ok _ hout, finalState_bind_ok _ hout, if_pos heq]
    exact readReg_addr hbus regStatusLengthAlt 4 haddr'
  | word' haddr hword heq haddr' hword' =>
    obtain ⟨hout, hbus⟩ := readReg_ok h regStatusLength haddr hword
    rw [readSnlWords, outcome_bind_ok _ hout, finalState_bind_ok _ hout, if_pos heq]
    exact readReg_word hbus regStatusLengthAlt 4 haddr' hword'

/-- Rejected tries leave the reading to the ones behind them. -/
theorem readSnlTries_rejected {k : ℕ} (hrej : Rejected ts.i2c k p) : ∀ n, ∃ ts', ts'.i2c = ts.i2c.drop p ∧
    outcome (readSnlTries (n + k)) ts = outcome (readSnlTries n) ts' ∧
    finalState (readSnlTries (n + k)) ts = finalState (readSnlTries n) ts' := by
  induction hrej with
  | none => exact fun n => ⟨ts, rfl, rfl, rfl⟩
  | @more k p q snl _ htry hsum ih =>
    intro n
    obtain ⟨ts', hbus, hout, hstate⟩ := ih (n + 1)
    obtain ⟨hwords, hbus'⟩ := readSnlWords_try htry hbus
    have hnext : ¬ checksumOk (snl.take 2) (le16 snl 2) = true := fun hok => by
      rw [packetOk, hok] at hsum
      cases hsum
    rw [readSnlTries, outcome_bind_ok _ hwords, if_neg hnext] at hout
    rw [readSnlTries, finalState_bind_ok _ hwords, if_neg hnext] at hstate
    rw [Nat.add_right_comm] at hout hstate
    exact ⟨_, hbus', hout, hstate⟩

/-- A word that the transfers deliver is the one that is read. -/
theorem readSnl_word {w : ℕ} (h : WordRead ts.i2c w q) :
    outcome readSnl ts = .ok w ∧ (finalState readSnl ts).i2c = ts.i2c.drop q := by
  obtain ⟨k, hk, p, snl, hrej, htry, hsum, rfl⟩ := h
  obtain ⟨n, hn⟩ : ∃ n, n + 1 + k = 3 := ⟨2 - k, by omega⟩
  obtain ⟨ts', hbus, hout, hstate⟩ := readSnlTries_rejected hrej (n + 1)
  obtain ⟨hwords, hbus'⟩ := readSnlWords_try htry hbus
  have hok : checksumOk (snl.take 2) (le16 snl 2) = true := hsum
  rw [readSnlTries, outcome_bind_ok _ hwords, if_pos hok] at hout
  rw [readSnlTries, finalState_bind_ok _ hwords, if_pos hok] at hstate
  rw [readSnl, ← hn, hout, hstate]
  exact ⟨rfl, hbus'⟩

theorem readSnl_lost (h : WordLost ts.i2c q) :
    ∃ e, outcome readSnl ts = .error e ∧ (finalState readSnl ts).i2c = ts.i2c.drop q := by
  rcases h with hrej | ⟨k, hk, p, hrej, hbroken⟩
  · obtain ⟨ts', hbus, hout, hstate⟩ := readSnlTries_rejected hrej 0
    rw [Nat.zero_add] at hout hstate
    rw [readSnl, hout, hstate]
    exact ⟨.EBADMSG, rfl, hbus⟩
  · obtain ⟨n, hn⟩ : ∃ n, n + 1 + k = 3 := ⟨2 - k, by omega⟩
    obtain ⟨ts', hbus, hout, hstate⟩ := readSnlTries_rejected hrej (n + 1)
    obtain ⟨e, hwords, hbus'⟩ := readSnlWords_broken hbroken hbus
    rw [readSnlTries, outcome_bind_error _ hwords] at hout
    rw [readSnlTries, finalState_bind_error _ hwords] at hstate
    rw [readSnl, ← hn, hout, hstate]
    exact ⟨e, rfl, hbus'⟩

theorem gives_of_ok {bus : Bus} {j : ℕ} (h : Ok bus j) (n : ℕ) : ∃ bytes, Gives bus j n bytes := by
  obtain ⟨data, hdata⟩ := h
  exact ⟨_, data, hdata, rfl⟩

/-- A try delivers something or breaks off. -/
theorem try_or_broken (bus : Bus) (p : ℕ) : (∃ snl q, Try bus p snl q) ∨ ∃ q, Broken bus p q := by
  by_cases haddr : Ok bus p
  · by_cases hword : Ok bus (p + 1)
    · obtain ⟨snl, hsnl⟩ := gives_of_ok hword 4
      by_cases hecho : le16 snl 0 = regStatusLength
      · by_cases haddr' : Ok bus (p + 2)
        · by_cases hword' : Ok bus (p + 3)
          · obtain ⟨snl', hsnl'⟩ := gives_of_ok hword' 4
            exact .inl ⟨snl', _, .echoed haddr hsnl hecho haddr' hsnl'⟩
          · exact .inr ⟨_, .word' haddr hsnl hecho haddr' hword'⟩
        · exact .inr ⟨_, .addr' haddr hsnl hecho haddr'⟩
      · exact .inl ⟨snl, _, .direct haddr hsnl hecho⟩
    · exact .inr ⟨_, .word haddr hword⟩
  · exact .inr ⟨_, .addr haddr⟩

/-- So the transfers deliver a word or none. -/
theorem word_or_lost (bus : Bus) : (∃ w q, WordRead bus w q) ∨ ∃ q, WordLost bus q := by
  have hrun : ∀ k ≤ 3, (∃ p, Rejected bus k p) ∨ (∃ w q, WordRead bus w q) ∨ ∃ q, WordLost bus q := by
    intro k
    induction k with
    | zero => exact fun _ => .inl ⟨0, .none⟩
    | succ k ih =>
      intro hk
      rcases ih (by omega) with ⟨p, hrej⟩ | hdone
      · rcases try_or_broken bus p with ⟨snl, q, htry⟩ | ⟨q, hbroken⟩
        · rcases hsum : packetOk 2 snl with _ | _
          · exact .inl ⟨q, .more hrej htry hsum⟩
          · exact .inr (.inl ⟨_, q, k, hk, p, snl, hrej, htry, hsum, rfl⟩)
        · exact .inr (.inr ⟨q, .inr ⟨k, hk, p, hrej, hbroken⟩⟩)
      · exact .inr hdone
  rcases hrun 3 le_rfl with ⟨q, hrej⟩ | hdone
  · exact .inr ⟨q, .inl hrej⟩
  · exact hdone

end Word

/-! ### Rows of transfers -/

/-- `p` makes a row of `n` transfers. -/
def Row {α : Type} (n : ℕ) (p : TsM α) : Prop :=
  ∀ ts, (finalState p ts).i2c = ts.i2c.drop (made n ts.i2c)

section Rows

variable {α β : Type} {n m : ℕ} {p : TsM α} {bus : Bus}

theorem made_add_of_answers (h : Answers n bus) (m : ℕ) : made (n + m) bus = n + made m (bus.drop n) := by
  induction n generalizing bus with
  | zero => rw [Nat.zero_add, Nat.zero_add, Stream'.drop_zero]
  | succ n ih =>
    obtain ⟨data, hdata⟩ := h 0 n.succ_pos
    have hhead : bus.head = .ok data := hdata
    have htail : Answers n bus.tail := fun j hj => h (j + 1) (Nat.succ_lt_succ hj)
    have hrest := ih htail
    rw [Stream'.drop_tail'] at hrest
    rw [Nat.add_right_comm, made, hhead]
    show made (n + m) bus.tail + 1 = _
    omega

theorem made_add_of_not (h : ¬ Answers n bus) (m : ℕ) : made (n + m) bus = made n bus := by
  induction n generalizing bus with
  | zero => exact absurd (fun j hj => absurd hj (Nat.not_lt_zero j)) h
  | succ n ih =>
    rw [Nat.add_right_comm, made, made]
    rcases hhead : bus.head with e | data
    · rfl
    · have htail : ¬ Answers n bus.tail := fun hall => h fun j hj => by
        cases j with
        | zero => exact ⟨data, hhead⟩
        | succ j => exact hall j (Nat.lt_of_succ_lt_succ hj)
      exact congrArg (· + 1) (ih htail)

theorem Needs.bind_row {f : α → TsM β} (hp : Needs n p) (hrow : Row n p) (hf : ∀ a, Row m (f a)) :
    Row (n + m) (p >>= f) := by
  intro ts
  rcases hout : outcome p ts with e | a
  · have hnot : ¬ Answers n ts.i2c := fun hall => by
      obtain ⟨a, ha⟩ := (hp.ok_iff ts).mpr hall
      rw [hout] at ha
      cases ha
    rw [finalState_bind_error _ hout, hrow, made_add_of_not hnot]
  · have hall := (hp.ok_iff ts).mp ⟨a, hout⟩
    rw [finalState_bind_ok _ hout, hf, hp.rest ts a hout, made_add_of_answers hall, Stream'.drop_drop]

theorem Row.attempt (hp : Row n p) : Row n (Prog.attempt p) := fun ts => by
  rw [finalState_attempt]
  exact hp ts

theorem Row.orFail {fmt : String} (hp : Row n p) : Row n (Ssd2092.orFail p fmt) := by
  intro ts
  rw [← hp ts]
  rcases hout : outcome p ts with e | a
  · exact (congrArg Ts.i2c (finalState_onError_error hout)).trans rfl
  · exact congrArg Ts.i2c (finalState_onError_ok hout)

theorem Row.free {f : α → TsM β} (hp : Needs 0 p) (hrow : Row 0 p) (hf : ∀ a, Row m (f a)) :
    Row m (p >>= f) := Nat.zero_add m ▸ hp.bind_row hrow hf

/-- What comes after the row makes no transfer. -/
theorem Row.last {f : α → TsM β} (hp : Row n p) (hf : ∀ a, Row 0 (f a)) : Row n (p >>= f) := by
  intro ts
  rw [← hp ts]
  rcases hout : outcome p ts with e | a
  · rw [finalState_bind_error _ hout]
  · rw [finalState_bind_ok _ hout]
    exact hf a _

end Rows

theorem row_one {α : Type} {p : TsM α} (h : ∀ ts, (finalState p ts).i2c = ts.i2c.tail) : Row 1 p := by
  intro ts
  rw [h, made]
  rcases ts.i2c.head with e | data
  · rfl
  · rfl

theorem send_row (pkt : List UInt8) : Row 1 (i2cMasterSend pkt) := row_one fun _ => send_bus rfl pkt

theorem recv_row (n : ℕ) : Row 1 (i2cMasterRecv n) := row_one fun _ => recv_bus rfl n

theorem readReg_row (reg n : ℕ) : Row 2 (readReg reg n) :=
  (send_needs _).bind_row (send_row _) fun _ => recv_row n

theorem writeWord_row (reg val : ℕ) : Row 1 (writeWord reg val) := by
  rw [writeWord, write, if_neg (by rw [regBytes_length]; decide)]
  exact send_row _

theorem modify_row {f : Ts → Ts} (h : ∀ ts, (f ts).i2c = ts.i2c) : Row 0 (modify f : TsM PUnit) := h

theorem devLog_row (fmt : String) (args : List ℤ) : Row 0 (devLog fmt args) := fun _ => rfl

/-- The configuration is a row of seven; the last two need not succeed. -/
theorem tmcConfig_row : Row 7 tmcConfig := by
  refine Row.last ?_ fun val => ?_
  · refine (writeWord_needs _ _).orFail.bind_row (m := 6) (writeWord_row _ _).orFail fun _ =>
      (readReg_needs _ _).orFail.bind_row (m := 4) (readReg_row _ _).orFail fun x =>
      Row.free (needs_modify fun _ => rfl) (modify_row fun _ => rfl) fun _ =>
      (readReg_needs _ _).orFail.bind_row (m := 2) (readReg_row _ _).orFail fun y =>
      Row.free (needs_modify fun _ => rfl) (modify_row fun _ => rfl) fun _ =>
      (readReg_row _ _).attempt.last fun r => ?_
    rcases r with e | val
    · exact Row.last (devLog_row _ _) fun _ _ => rfl
    · exact fun _ => rfl
  · refine Row.last (p := get) (fun _ => rfl) fun ts => Row.last (devLog_row _ _) fun _ => ?_
    split_ifs
    · exact Row.last (devLog_row _ _) fun _ => modify_row fun _ => rfl
    · exact fun _ => rfl

/-- So is a point read, of two. -/
theorem readPoints_row (info : ℕ) : Row 2 (readPoints info) := by
  refine (readReg_row _ _).attempt.last fun r ts => ?_
  rcases r with e | pkt
  · rfl
  · dsimp only
    split_ifs
    · rfl
    · rfl

/-! ### Where the acknowledgement comes -/

def Report.Nothing (rep : Report) : Prop := ¬ rep.HasBoot ∧ ¬ rep.HasAux ∧ ¬ rep.HasPoints

/-- The point read behind the word delivers a packet whose checksum is right, and whose records tell the
    input core what those of the report do. -/
def PointsGiven (bus : Bus) (prop : TouchProp) (rep : Report) (w q : ℕ) : Prop :=
  ∃ pkt, Ok bus q ∧ Gives bus (q + 1) (pointLen w + 2) pkt ∧ packetOk (pointLen w) pkt = true ∧
    pointsPacket prop pkt (pointLen w / pointSz) = rep.packet prop

section Body

variable {ts : Ts} {w q : ℕ}

theorem pollBody_lost (h : WordLost ts.i2c q) :
    Marks pollBody ts true [] ∧ (finalState pollBody ts).i2c = ts.i2c.drop q := by
  obtain ⟨e, hout, hbus⟩ := readSnl_lost h
  refine ⟨pollBody_error hout, ?_⟩
  rw [pollBody, finalState_bind_ok _ (outcome_attempt _ ts), finalState_attempt, hout]
  exact hbus

theorem pollBody_row {n : ℕ} {b : Bool} {ms : List Mark} (h : WordRead ts.i2c w q)
    (hw : Marks (pollWord w) (finalState readSnl ts) b ms) (hrow : Row n (pollWord w)) :
    Marks pollBody ts b ms ∧ (finalState pollBody ts).i2c =
      ts.i2c.drop (q + made n (ts.i2c.drop q)) := by
  obtain ⟨hout, hbus⟩ := readSnl_word h
  refine ⟨pollBody_marks hout hw, ?_⟩
  rw [pollBody, finalState_bind_ok _ (outcome_attempt _ ts), finalState_attempt, hout]
  show (finalState (pollWord w) (finalState readSnl ts)).i2c = _
  rw [hrow, hbus, Stream'.drop_drop]

theorem head_drop_ok {bus : Bus} {q : ℕ} : (∃ data, (bus.drop q).head = .ok data) ↔ Ok bus q := by
  rw [Stream'.head_drop, Ok]

/-- A poll that reads no word keeps a report only if the acknowledgement fails or it is empty. -/
theorem keeps_lost (h : WordLost ts.i2c q) (rep : Report) :
    Keeps ts rep ↔ (Ok ts.i2c q → rep.Nothing) := by
  obtain ⟨hmarks, hbus⟩ := pollBody_lost h
  rw [keeps_iff hmarks, hbus, head_drop_ok, handled_none_iff]
  exact ⟨fun h => h rfl, fun h _ => h⟩

theorem keeps_zero (h : WordRead ts.i2c w q) (hzero : w = 0) (rep : Report) : Keeps ts rep := by
  have hmarks := pollBody_marks (readSnl_word h).1 (pollWord_zero (finalState readSnl ts) hzero)
  exact (keeps_iff hmarks rep).mpr fun hb => absurd hb Bool.false_ne_true

theorem keeps_boot (h : WordRead ts.i2c w q) (hboot : status w &&& statusBootSt ≠ 0) (rep : Report) :
    Keeps ts rep ↔ (OkAfter ts.i2c q 7 →
      ¬ rep.HasAux ∧ ¬ rep.HasPoints ∧ (rep.HasBoot → Answers 5 (ts.i2c.drop q))) := by
  have hzero : w ≠ 0 := by
    rintro rfl
    exact hboot rfl
  have hrow : Row 7 (pollWord w) := by
    rw [pollWord, if_neg hzero, if_pos hboot]
    exact Row.free (devLog_needs _ _) (devLog_row _ _) fun _ => tmcConfig_row.attempt.last fun _ _ => rfl
  obtain ⟨-, hbus⟩ := readSnl_word h
  rcases pollWord_boot (finalState readSnl ts) hzero hboot with ⟨hans, hw⟩ | ⟨hans, hw⟩
  · obtain ⟨hmarks, hi2c⟩ := pollBody_row h hw hrow
    rw [hbus] at hans
    rw [keeps_iff hmarks, hi2c, head_drop_ok, handled_configured_iff, OkAfter]
    simp only [true_imp_iff, hans, implies_true, and_true]
  · obtain ⟨hmarks, hi2c⟩ := pollBody_row h hw hrow
    rw [hbus] at hans
    rw [keeps_iff hmarks, hi2c, head_drop_ok, handled_none_iff, OkAfter]
    simp only [true_imp_iff, hans, imp_false]
    tauto

theorem keeps_aux (h : WordRead ts.i2c w q) (hzero : w ≠ 0) (hboot : ¬ status w &&& statusBootSt ≠ 0)
    (haux : status w &&& statusAux ≠ 0) (rep : Report) : Keeps ts rep := by
  obtain ⟨ms, hw⟩ := pollWord_aux (finalState readSnl ts) hzero hboot haux
  exact (keeps_iff (pollBody_marks (readSnl_word h).1 hw) rep).mpr fun hb => absurd hb Bool.false_ne_true

/-- A point read delivers the points of a report exactly if its two transfers succeed with them. -/
theorem handled_pointMarks_iff {bus : Bus} {rep : Report} (h : ts.i2c = bus.drop q) :
    Handled ts.prop rep (pointMarks w ts) ↔
      ¬ rep.HasBoot ∧ ¬ rep.HasAux ∧ (rep.HasPoints → PointsGiven bus ts.prop rep w q) := by
  have hread : PointsGiven bus ts.prop rep w q ↔ ∃ pkt,
      outcome (readReg regPointData (pointLen w + 2)) ts = .ok pkt ∧ packetOk (pointLen w) pkt = true ∧
        pointsPacket ts.prop pkt (pointLen w / pointSz) = rep.packet ts.prop :=
    exists_congr fun pkt => by rw [readReg_ok_iff h, and_assoc]
  rw [hread, pointMarks]
  rcases hout : outcome (readReg regPointData (pointLen w + 2)) ts with e | pkt
  · simp only [handled_none_iff, reduceCtorEq, false_and, exists_false, imp_false]
  · dsimp only
    split_ifs with hsum
    · rw [handled_delivered_iff]
      simp [packetOk, hsum]
    · rw [handled_none_iff]
      simp [packetOk, hsum]

theorem keeps_points (h : WordRead ts.i2c w q) (hboot : status w &&& statusBootSt = 0)
    (haux : status w &&& statusAux = 0) (hlen : len w ≠ 0) (hpoints : status w &&& 0x7f ≠ 0) (rep : Report) :
    Keeps ts rep ↔ (OkAfter ts.i2c q 2 → ¬ rep.HasBoot ∧ ¬ rep.HasAux ∧
      (rep.HasPoints → PointsGiven ts.i2c ts.prop rep w q)) := by
  have hzero : w ≠ 0 := by
    rintro rfl
    exact hlen rfl
  have hw := pollWord_points (finalState readSnl ts) hzero (not_not.mpr hboot) (not_not.mpr haux)
    ⟨hlen, hpoints⟩
  have hrow : Row 2 (pollWord w) := by
    rw [pollWord, if_neg hzero, if_neg (not_not.mpr hboot), if_neg (not_not.mpr haux), if_pos ⟨hlen, hpoints⟩]
    exact (readPoints_row w).last fun _ _ => rfl
  obtain ⟨hmarks, hi2c⟩ := pollBody_row h hw hrow
  have hprop : (finalState readSnl ts).prop = ts.prop := (readSnl_plain ts).emits.prop
  have hhandled : Handled _ rep (pointMarks w _) ↔ _ := handled_pointMarks_iff (readSnl_word h).2
  rw [hprop] at hhandled
  rw [keeps_iff hmarks, hi2c, head_drop_ok, hhandled, OkAfter]
  exact ⟨fun h => h rfl, fun h _ => h⟩

theorem keeps_rest (h : WordRead ts.i2c w q) (hzero : w ≠ 0) (hboot : status w &&& statusBootSt = 0)
    (haux : status w &&& statusAux = 0) (hrest : len w = 0 ∨ status w &&& 0x7f = 0) (rep : Report) :
    Keeps ts rep ↔ (Ok ts.i2c q → rep.Nothing) := by
  have hnone : ¬ (len w ≠ 0 ∧ status w &&& 0x7f ≠ 0) := by tauto
  have hw := pollWord_rest (finalState readSnl ts) hzero (not_not.mpr hboot) (not_not.mpr haux) hnone
  have hrow : Row 0 (pollWord w) := by
    rw [pollWord, if_neg hzero, if_neg (not_not.mpr hboot), if_neg (not_not.mpr haux), if_neg hnone]
    exact fun _ => rfl
  obtain ⟨hmarks, hi2c⟩ := pollBody_row h hw hrow
  rw [keeps_iff hmarks, hi2c, head_drop_ok, handled_none_iff]
  exact ⟨fun h => h rfl, fun h _ => h⟩

end Body

/-- What the bus must do in a poll while `rep` is latched. -/
structure Covered (bus : Bus) (prop : TouchProp) (rep : Report) : Prop where
  /-- Where no word is read and INT_CLEAR is written, nothing is latched. -/
  lost : ∀ q, WordLost bus q → Ok bus q → rep.Nothing
  /-- Where the word has the boot flag, that is all of the report, and the configuration is read. -/
  boot : ∀ w q, WordRead bus w q → status w &&& statusBootSt ≠ 0 → OkAfter bus q 7 →
    ¬ rep.HasAux ∧ ¬ rep.HasPoints ∧ (rep.HasBoot → Answers 5 (bus.drop q))
  /-- Where the word has points and neither flag, the points are all of the report, and are read. -/
  points : ∀ w q, WordRead bus w q → status w &&& statusBootSt = 0 → status w &&& statusAux = 0 →
    len w ≠ 0 → status w &&& 0x7f ≠ 0 → OkAfter bus q 2 →
    ¬ rep.HasBoot ∧ ¬ rep.HasAux ∧ (rep.HasPoints → PointsGiven bus prop rep w q)
  /-- Where the word has none of these, nothing is latched. -/
  rest : ∀ w q, WordRead bus w q → w ≠ 0 → status w &&& statusBootSt = 0 → status w &&& statusAux = 0 →
    (len w = 0 ∨ status w &&& 0x7f = 0) → Ok bus q → rep.Nothing

/-- A poll keeps what is latched exactly if the transfers it makes cover it. -/
theorem keeps_iff_covered (ts : Ts) (rep : Report) : Keeps ts rep ↔ Covered ts.i2c ts.prop rep := by
  constructor
  · intro hkeeps
    refine ⟨fun q hlost => ?_, fun w q hword hboot => ?_, fun w q hword hboot haux hlen hpoints => ?_,
      fun w q hword hzero hboot haux hrest => ?_⟩
    · exact (keeps_lost hlost rep).mp hkeeps
    · exact (keeps_boot hword hboot rep).mp hkeeps
    · exact (keeps_points hword hboot haux hlen hpoints rep).mp hkeeps
    · exact (keeps_rest hword hzero hboot haux hrest rep).mp hkeeps
  · intro hcov
    rcases word_or_lost ts.i2c with ⟨w, q, hword⟩ | ⟨q, hlost⟩
    · by_cases hzero : w = 0
      · exact keeps_zero hword hzero rep
      · by_cases hboot : status w &&& statusBootSt = 0
        · by_cases haux : status w &&& statusAux = 0
          · by_cases hpoints : len w ≠ 0 ∧ status w &&& 0x7f ≠ 0
            · obtain ⟨hlen, hpoints⟩ := hpoints
              exact (keeps_points hword hboot haux hlen hpoints rep).mpr
                (hcov.points w q hword hboot haux hlen hpoints)
            · have hrest : len w = 0 ∨ status w &&& 0x7f = 0 := by tauto
              exact (keeps_rest hword hzero hboot haux hrest rep).mpr
                (hcov.rest w q hword hzero hboot haux hrest)
          · exact keeps_aux hword hzero (not_not.mpr hboot) haux rep
        · exact (keeps_boot hword hboot rep).mpr (hcov.boot w q hword hboot)
    · exact (keeps_lost hlost rep).mpr (hcov.lost q hlost)

/-- Over a run of polls, whatever is latched at each, no poll acknowledges away what it has not handled,
    exactly if the transfers of each cover what is latched. -/
theorem never_acked_away_iff (ts : Ts) (n : ℕ) (latched : ℕ → Report) :
    (∀ k < n, Keeps (after poll k ts) (latched k)) ↔
      ∀ k < n, Covered (after poll k ts).i2c (after poll k ts).prop (latched k) :=
  forall₂_congr fun _ _ => keeps_iff_covered _ _

/-- A finger goes down; it is lifted when the next S&L read fails. -/
def glitched : Ts :=
  afterProbe (pointsReplies [6, 1, 7, 7] fingerPkt ++ [.error (.other 5)]) (Stream'.const true)

def liftOff : Report := ⟨0x0106, [0, 10, 20, 0, 0, 0, 30, 30]⟩

theorem lift_off_acked_away : Probed glitched ∧ ¬ Keeps (after poll 1 glitched) liftOff := by
  refine ⟨afterProbe_probed (by decide +kernel), ?_⟩
  intro hkeeps
  have hacked : marks (finalState poll (after poll 1 glitched)) =
      marks (after poll 1 glitched) ++ [] ++ .acked :: [] := by decide +kernel
  exact absurd ((hkeeps [] [] hacked).points ⟨by decide, by decide⟩) List.not_mem_nil

end GeminiLinux.Ssd2092
