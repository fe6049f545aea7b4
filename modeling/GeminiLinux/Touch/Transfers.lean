import GeminiLinux.Touch.Frames

/-! Which transfers a function of the touch driver needs. It returns early at the first that fails, so
    it succeeds exactly if all of them do, and the next function goes on with the rest of the bus. -/

namespace GeminiLinux.Ssd2092
open Prog

/-- The next `k` transfers succeed. -/
def Answers (k : ℕ) (bus : Stream' (Except Errno (ℕ → UInt8))) : Prop :=
  ∀ j < k, ∃ data, bus.get j = .ok data

/-- `p` succeeds exactly if the next `k` transfers do. -/
def OkIff {α : Type} (k : ℕ) (p : TsM α) : Prop :=
  ∀ ts, (∃ a, outcome p ts = .ok a) ↔ Answers k ts.i2c

/-- In addition these are all it makes if it succeeds. -/
structure Needs {α : Type} (k : ℕ) (p : TsM α) : Prop where
  ok_iff : OkIff k p
  rest : ∀ ts a, outcome p ts = .ok a → (finalState p ts).i2c = ts.i2c.drop k

theorem answers_add {k m : ℕ} {bus : Stream' (Except Errno (ℕ → UInt8))} :
    Answers (k + m) bus ↔ Answers k bus ∧ Answers m (bus.drop k) := by
  refine ⟨fun h => ⟨fun j hj => h j (by omega), fun j hj => ?_⟩, fun ⟨hk, hm⟩ j hj => ?_⟩
  · rw [Stream'.get_drop]
    exact h (k + j) (by omega)
  · rcases Nat.lt_or_ge j k with hlt | hge
    · exact hk j hlt
    · obtain ⟨data, hdata⟩ := hm (j - k) (by omega)
      rw [Stream'.get_drop, show k + (j - k) = j by omega] at hdata
      exact ⟨data, hdata⟩

theorem answers_one {bus : Stream' (Except Errno (ℕ → UInt8))} :
    Answers 1 bus ↔ ∃ data, bus.head = .ok data := by
  refine ⟨fun h => h 0 (by decide), ?_⟩
  intro h j hj
  obtain rfl : j = 0 := by omega
  exact h

section Rules

variable {α β : Type} {k m : ℕ} {p : TsM α}

theorem Needs.pure (a : α) : Needs 0 (pure a : TsM α) :=
  ⟨fun _ => ⟨fun _ j hj => absurd hj (Nat.not_lt_zero j), fun _ => ⟨a, rfl⟩⟩, fun _ _ _ => rfl⟩

theorem Needs.bind_okIff {f : α → TsM β} (hp : Needs k p) (hf : ∀ a, OkIff m (f a)) :
    OkIff (k + m) (p >>= f) := by
  intro ts
  rw [answers_add, ← hp.ok_iff ts]
  rcases hout : outcome p ts with e | a
  · rw [outcome_bind_error _ hout]
    refine ⟨?_, ?_⟩
    · rintro ⟨b, hb⟩
      cases hb
    · rintro ⟨⟨a, ha⟩, -⟩
      cases ha
  · rw [outcome_bind_ok _ hout, hf a, hp.rest ts a hout]
    exact ⟨fun h => ⟨⟨a, rfl⟩, h⟩, fun h => h.2⟩

theorem Needs.bind {f : α → TsM β} (hp : Needs k p) (hf : ∀ a, Needs m (f a)) :
    Needs (k + m) (p >>= f) := by
  refine ⟨hp.bind_okIff fun a => (hf a).ok_iff, ?_⟩
  intro ts b hb
  rcases hout : outcome p ts with e | a
  · rw [outcome_bind_error _ hout] at hb
    cases hb
  · rw [outcome_bind_ok _ hout] at hb
    rw [finalState_bind_ok _ hout, (hf a).rest _ b hb, hp.rest ts a hout, Stream'.drop_drop]

/-- A step that makes no transfer and cannot fail. -/
theorem Needs.free_okIff {f : α → TsM β} (hp : Needs 0 p) (hf : ∀ a, OkIff m (f a)) :
    OkIff m (p >>= f) := Nat.zero_add m ▸ hp.bind_okIff hf

theorem needs_modify {f : Ts → Ts} (h : ∀ ts, (f ts).i2c = ts.i2c) : Needs 0 (modify f : TsM PUnit) :=
  ⟨fun _ => ⟨fun _ j hj => absurd hj (Nat.not_lt_zero j), fun _ => ⟨_, rfl⟩⟩, fun ts _ _ => h ts⟩

theorem outcome_orFail (p : TsM α) (fmt : String) (ts : Ts) :
    outcome (orFail p fmt) ts = outcome p ts := outcome_onError fun _ _ => rfl

theorem finalState_orFail {fmt : String} {ts : Ts} {a : α} (h : outcome p ts = .ok a) :
    finalState (orFail p fmt) ts = finalState p ts := finalState_onError_ok h

theorem Needs.orFail {fmt : String} (hp : Needs k p) : Needs k (orFail p fmt) := by
  refine ⟨?_, ?_⟩
  · intro ts
    rw [outcome_orFail]
    exact hp.ok_iff ts
  · intro ts a ha
    rw [outcome_orFail] at ha
    rw [finalState_orFail ha]
    exact hp.rest ts a ha

end Rules

theorem devLog_needs (fmt : String) (args : List ℤ) : Needs 0 (devLog fmt args) :=
  needs_modify fun _ => rfl

theorem send_needs (pkt : List UInt8) : Needs 1 (i2cMasterSend pkt) := by
  refine ⟨?_, ?_⟩
  · intro ts
    rw [answers_one]
    unfold outcome i2cMasterSend
    rcases ts.i2c.head with e | data
    · simp
    · exact ⟨fun _ => ⟨data, rfl⟩, fun _ => ⟨(), rfl⟩⟩
  · intro ts a ha
    unfold finalState i2cMasterSend
    cases ts.i2c.head <;> rfl

theorem recv_needs (len : ℕ) : Needs 1 (i2cMasterRecv len) := by
  refine ⟨?_, ?_⟩
  · intro ts
    rw [answers_one]
    unfold outcome i2cMasterRecv
    rcases ts.i2c.head with e | data
    · simp
    · exact ⟨fun _ => ⟨data, rfl⟩, fun _ => ⟨_, rfl⟩⟩
  · intro ts a ha
    unfold finalState i2cMasterRecv
    cases ts.i2c.head <;> rfl

theorem readReg_needs (reg len : ℕ) : Needs 2 (readReg reg len) :=
  .bind (send_needs _) fun _ => recv_needs len

theorem readCmd_needs (cmd : List UInt8) (len : ℕ) : Needs 2 (readCmd cmd len) :=
  .bind (send_needs _) fun _ => recv_needs len

theorem write_needs {reg : ℕ} {val : List UInt8} (h : val.length + 2 ≤ 8) :
    Needs 1 (write reg val) := by
  rw [write, if_neg (by omega)]
  exact send_needs _

theorem writeWord_needs (reg val : ℕ) : Needs 1 (writeWord reg val) :=
  write_needs (by rw [regBytes_length]; decide)

theorem eflashWrite_needs (addr data : ℕ) : Needs 1 (eflashWrite addr data) :=
  write_needs (by simp [regBytes_length])

/-! ### The configuration -/

theorem okIff_zero {α : Type} {p : TsM α} (h : ∀ ts, ∃ a, outcome p ts = .ok a) : OkIff 0 p :=
  fun ts => ⟨fun _ j hj => absurd hj (Nat.not_lt_zero j), fun _ => h ts⟩

/-- What it needs are the touch mode and the two resolutions; the number of points it can do without. -/
theorem tmcRead_okIff : OkIff 5 tmcRead := by
  refine (writeWord_needs _ _).orFail.bind_okIff (m := 4) fun _ =>
    (readReg_needs _ _).orFail.bind_okIff (m := 2) fun x =>
    Needs.free_okIff (needs_modify fun _ => rfl) fun _ =>
    (readReg_needs _ _).orFail.bind_okIff (m := 0) fun y =>
    Needs.free_okIff (needs_modify fun _ => rfl) fun _ => okIff_zero fun ts => ?_
  rw [outcome_bind_ok _ (outcome_attempt _ ts)]
  rcases outcome (readReg regUsingPointNum 2) ts with e | val
  · exact ⟨_, rfl⟩
  · exact ⟨_, rfl⟩

end GeminiLinux.Ssd2092
