import GeminiLinux.Consys.WmtPush

/-! Which command an acknowledgement belongs to. `wmt_cmd_evt` scans whatever bytes the drain has
    collected for the event, and register writes share one event, as fragments do; neither the event
    nor the frame says which command it answers. So an acknowledgement is attributed rightly as long
    as the event stands first in the reply to that command, of the bytes that come in time, and wrongly
    when a late or left-over reply comes first.

        on offer:  unread at the call | answered while the frame goes out | answered after it
        in time:   byte k is taken by the first pass after byte k-1's that finds it in the FIFO -/

namespace GeminiLinux.Wmt
open Btif Prog

/-! ### What the MCU puts on the line -/

/-- The bytes of the answers given in the course of `acts`, `u` being the commands unanswered. -/
def answered : List ℕ → List McuAct → List RxByte
  | _, [] => []
  | u, .deliver :: acts => answered u acts
  | u, .answer k bytes :: acts =>
    if k ∈ u then bytes.map (⟨·, k⟩) ++ answered (u.erase k) acts else answered u acts

/-- The commands still unanswered after `acts`. -/
def owed : List ℕ → List McuAct → List ℕ
  | u, [] => u
  | u, .deliver :: acts => owed u acts
  | u, .answer k _ :: acts => if k ∈ u then owed (u.erase k) acts else owed u acts

theorem answered_append : ∀ (acts acts' : List McuAct) (u : List ℕ),
    answered u (acts ++ acts') = answered u acts ++ answered (owed u acts) acts'
  | [], _, _ => rfl
  | .deliver :: acts, acts', u => answered_append acts acts' u
  | .answer k bytes :: acts, acts', u => by
      rw [List.cons_append, answered, answered, owed]
      by_cases hk : k ∈ u
      · rw [if_pos hk, if_pos hk, if_pos hk, answered_append, List.append_assoc]
      · rw [if_neg hk, if_neg hk, if_neg hk, answered_append]

/-- The reply bytes the AP has not read. -/
def pending (bus : Bus) : List RxByte := bus.fifo ++ bus.wire

theorem mcuRun_spec : ∀ (acts : List McuAct) (bus : Bus),
    pending (mcuRun bus acts) = pending bus ++ answered bus.unanswered acts ∧
      (mcuRun bus acts).unanswered = owed bus.unanswered acts
  | [], bus => ⟨(List.append_nil _).symm, rfl⟩
  | .deliver :: acts, bus => by
      obtain ⟨hpend, howed⟩ := mcuRun_spec acts (mcuStep bus .deliver)
      have hstep : pending (mcuStep bus .deliver) = pending bus := by
        rw [mcuStep]
        split
        · rfl
        · next b bs hwire => rw [pending, pending, hwire, List.append_assoc]; rfl
      have hun : (mcuStep bus .deliver).unanswered = bus.unanswered := by
        rw [mcuStep]; split <;> rfl
      rw [hstep, hun] at hpend
      rw [hun] at howed
      exact ⟨hpend, howed⟩
  | .answer k bytes :: acts, bus => by
      obtain ⟨hpend, howed⟩ := mcuRun_spec acts (mcuStep bus (.answer k bytes))
      rw [answered, owed]
      by_cases hk : k ∈ bus.unanswered
      · have hstep : mcuStep bus (.answer k bytes) = { bus with
            unanswered := bus.unanswered.erase k, wire := bus.wire ++ bytes.map (⟨·, k⟩) } := if_pos hk
        rw [hstep] at hpend howed
        rw [if_pos hk, if_pos hk, mcuRun, List.foldl_cons, hstep]
        exact ⟨hpend.trans (by simp only [pending, List.append_assoc]), howed⟩
      · have hstep : mcuStep bus (.answer k bytes) = bus := if_neg hk
        rw [hstep] at hpend howed
        rw [if_neg hk, if_neg hk, mcuRun, List.foldl_cons, hstep]
        exact ⟨hpend, howed⟩

/-- A drain reads from the front of what is on offer. -/
theorem btifRxDrainLoop_prefix : ∀ (ps : List RxPass) (room : ℕ) (rx : List RxByte) (bus : Bus),
    (btifRxDrainLoop ps room rx bus).1 <+:
      rx ++ (pending bus ++ answered bus.unanswered (ps.flatMap RxPass.acts))
  | [], _, rx, _ => by rw [btifRxDrainLoop]; exact List.prefix_append ..
  | _ :: _, 0, rx, _ => List.prefix_append ..
  | p :: ps, room + 1, rx, bus => by
      obtain ⟨hpend, howed⟩ := mcuRun_spec p.acts bus
      have hoffer : pending bus ++ answered bus.unanswered ((p :: ps).flatMap RxPass.acts) =
          pending (mcuRun bus p.acts) ++
            answered (mcuRun bus p.acts).unanswered (ps.flatMap RxPass.acts) := by
        rw [hpend, howed, List.flatMap_cons, answered_append, List.append_assoc]
      rw [btifRxDrainLoop, hoffer]
      generalize mcuRun bus p.acts = bus'
      split
      · next b bs hfifo =>
        have ih := btifRxDrainLoop_prefix ps room (rx ++ [b]) { bus' with fifo := bs }
        simp only [pending, hfifo, List.append_assoc, List.cons_append, List.nil_append] at ih ⊢
        exact ih
      · split
        · exact List.prefix_append ..
        · exact btifRxDrainLoop_prefix ps (room + 1) rx bus'

theorem btifRxDrainLoop_length : ∀ (ps : List RxPass) (room : ℕ) (rx : List RxByte) (bus : Bus),
    (btifRxDrainLoop ps room rx bus).1.length ≤ rx.length + room
  | [], _, _, _ => by rw [btifRxDrainLoop]; exact Nat.le_add_right ..
  | _ :: _, 0, _, _ => Nat.le_add_right ..
  | p :: ps, room + 1, rx, bus => by
      rw [btifRxDrainLoop]
      split
      · next b bs _ =>
        refine (btifRxDrainLoop_length ps room (rx ++ [b]) _).trans ?_
        rw [List.length_append, List.length_singleton]
        omega
      · split_ifs
        · exact Nat.le_add_right ..
        · exact btifRxDrainLoop_length ps (room + 1) rx _

/-! ### What a drain gets -/

/-- What has reached the RX FIFO when pass `p` reads LSR, the bytes that were taken before it included:
    the line as it would be if nothing were read. -/
def arrived (ps : List RxPass) (line : Bus) (p : ℕ) : List RxByte :=
  (mcuRun line ((ps.take (p + 1)).flatMap RxPass.acts)).fifo

/-- Pass `p` comes after the passes that took the first `k` bytes. -/
def Behind (t : ℕ → ℕ) (k p : ℕ) : Prop := ∀ j < k, t j < p

/-- At pass `p` byte `k` has not arrived, and the line has not been idle for too long. -/
def Waits (ps : List RxPass) (line : Bus) (k p : ℕ) : Prop :=
  (arrived ps line p).length ≤ k ∧ (0 < k → ∀ pass ∈ ps[p]?, pass.idle = false)

/-- There is time for the first `n` bytes of the line: byte `k` is taken in pass `t k`, the first behind
    the one before it by which it has arrived, and up to there the line is never found idle. -/
structure Schedule (ps : List RxPass) (line : Bus) (n : ℕ) (t : ℕ → ℕ) : Prop where
  pass : ∀ k < n, t k < ps.length
  arrived : ∀ k < n, k < (arrived ps line (t k)).length
  behind : ∀ k < n, Behind t k (t k)
  waits : ∀ k < n, ∀ p < t k, Behind t k p → Waits ps line k p

/-- There is no room, or no time, for one more. -/
def Ends (ps : List RxPass) (line : Bus) (max n : ℕ) (t : ℕ → ℕ) : Prop :=
  n = max ∨ ∀ q < ps.length, Behind t n q → n < (arrived ps line q).length →
    ∃ p < q, Behind t n p ∧ ¬ Waits ps line n p

section Schedules

variable {ps : List RxPass} {line : Bus} {n m max : ℕ} {t s : ℕ → ℕ}

theorem behind_congr {k p : ℕ} (h : ∀ j < k, t j = s j) : Behind t k p ↔ Behind s k p :=
  forall₂_congr fun j hj => by rw [h j hj]

/-- The passes are determined by the arrivals. -/
theorem Schedule.unique (ht : Schedule ps line n t) (hs : Schedule ps line m s) :
    ∀ k, k < n → k < m → t k = s k := by
  intro k
  induction k using Nat.strongRecOn with
  | ind k ih =>
    intro hn hm
    have hsame : ∀ j < k, t j = s j := fun j hj => ih j hj (hj.trans hn) (hj.trans hm)
    rcases Nat.lt_trichotomy (t k) (s k) with hlt | heq | hgt
    · have hearly := (hs.waits k hm (t k) hlt ((behind_congr hsame).mp (ht.behind k hn))).1
      have := ht.arrived k hn
      omega
    · exact heq
    · have hearly := (ht.waits k hn (s k) hgt ((behind_congr hsame).mpr (hs.behind k hm))).1
      have := hs.arrived k hm
      omega

/-- Where a schedule ends no other goes further. -/
theorem Schedule.le_of_ends (ht : Schedule ps line n t) (hends : Ends ps line max n t)
    (hs : Schedule ps line m s) (hm : m ≤ max) : m ≤ n := by
  by_contra hlt
  have hn : n < m := Nat.lt_of_not_le hlt
  have hsame : ∀ j < n, t j = s j := fun j hj => ht.unique hs j hj (hj.trans hn)
  rcases hends with hfull | hnone
  · omega
  · obtain ⟨p, hp, hbehind, hwaits⟩ := hnone (s n) (hs.pass n hn)
      ((behind_congr hsame).mpr (hs.behind n hn)) (hs.arrived n hn)
    exact hwaits (hs.waits n hn p hp ((behind_congr hsame).mp hbehind))

/-- One byte more, in the first pass by which it has arrived. -/
theorem Schedule.snoc {q : ℕ} (ht : Schedule ps line n t) (hbefore : Behind t n q) (hq : q < ps.length)
    (harrived : n < (GeminiLinux.Wmt.arrived ps line q).length)
    (hwaits : ∀ p < q, Behind t n p → Waits ps line n p) :
    Schedule ps line (n + 1) (Function.update t n q) := by
  have hnew : Function.update t n q n = q := Function.update_self ..
  have hold : ∀ j < n, Function.update t n q j = t j := fun j hj => Function.update_of_ne hj.ne _ _
  refine ⟨?_, ?_, ?_, ?_⟩ <;> intro k hk <;> rcases Nat.lt_succ_iff_lt_or_eq.mp hk with hlt | rfl
  · rw [hold k hlt]
    exact ht.pass k hlt
  · rwa [hnew]
  · rw [hold k hlt]
    exact ht.arrived k hlt
  · rwa [hnew]
  · rw [hold k hlt, behind_congr fun j hj => hold j (hj.trans hlt)]
    exact ht.behind k hlt
  · rw [hnew, behind_congr hold]
    exact hbefore
  · rw [hold k hlt]
    intro p hp hbehind
    exact ht.waits k hlt p hp ((behind_congr fun j hj => hold j (hj.trans hlt)).mp hbehind)
  · rw [hnew]
    intro p hp hbehind
    exact hwaits p hp ((behind_congr hold).mp hbehind)

end Schedules

/-- What was taken makes no difference to the MCU. -/
theorem mcuRun_taken (rx : List RxByte) : ∀ (acts : List McuAct) (bus : Bus),
    mcuRun { bus with fifo := rx ++ bus.fifo } acts =
      { mcuRun bus acts with fifo := rx ++ (mcuRun bus acts).fifo } := by
  have hstep (bus : Bus) (act : McuAct) : mcuStep { bus with fifo := rx ++ bus.fifo } act =
      { mcuStep bus act with fifo := rx ++ (mcuStep bus act).fifo } := by
    cases act with
    | answer k bytes =>
      rw [mcuStep, mcuStep]
      split_ifs <;> rfl
    | deliver =>
      rcases bus with ⟨tx, sent, unanswered, _ | ⟨b, bs⟩, fifo⟩
      · rfl
      · simp only [mcuStep, List.append_assoc]
  intro acts
  induction acts with
  | nil =>
    intro bus
    rfl
  | cons act acts ih =>
    intro bus
    rw [mcuRun, mcuRun, List.foldl_cons, List.foldl_cons, hstep]
    exact ih _

/-- The drain takes what there is time for, and then there is none for more. Of `ps` it has the passes
    from `done` on before it, and has taken `rx`. -/
theorem btifRxDrainLoop_schedule {ps : List RxPass} {line : Bus} : ∀ (rest done : List RxPass)
    (room : ℕ) (rx : List RxByte) (bus : Bus) (t : ℕ → ℕ), ps = done ++ rest →
    mcuRun line (done.flatMap RxPass.acts) = { bus with fifo := rx ++ bus.fifo } →
    Schedule ps line rx.length t → Behind t rx.length done.length →
    (∀ p < done.length, Behind t rx.length p → Waits ps line rx.length p) →
    ∃ t', Schedule ps line (btifRxDrainLoop rest room rx bus).1.length t' ∧
      Ends ps line (rx.length + room) (btifRxDrainLoop rest room rx bus).1.length t' := by
  intro rest
  induction rest with
  | nil =>
    intro done room rx bus t hps _ hsched _ hwaits
    rw [btifRxDrainLoop]
    refine ⟨t, hsched, .inr fun q hq hbehind harrived => ?_⟩
    rw [hps, List.append_nil] at hq
    exact absurd (hwaits q hq hbehind).1 (Nat.not_le_of_lt harrived)
  | cons pass rest ih =>
    intro done room rx bus t hps hline hsched hbefore hwaits
    cases room with
    | zero => exact ⟨t, hsched, .inl (Nat.add_zero _).symm⟩
    | succ room =>
      have hps' : ps = done ++ [pass] ++ rest := by rw [hps, List.append_assoc]; rfl
      have hlen : done.length < ps.length := by
        rw [hps, List.length_append, List.length_cons]; omega
      have hhere : ps[done.length]? = some pass := by
        rw [hps, List.getElem?_append_right le_rfl, Nat.sub_self]; rfl
      have htake : ps.take (done.length + 1) = done ++ [pass] := by
        rw [hps', List.take_left' (by rw [List.length_append]; rfl)]
      have hline' : mcuRun line ((done ++ [pass]).flatMap RxPass.acts) =
          { mcuRun bus pass.acts with fifo := rx ++ (mcuRun bus pass.acts).fifo } := by
        rw [List.flatMap_append, mcuRun, List.foldl_append, List.flatMap_singleton]
        exact (congrArg (mcuRun · pass.acts) hline).trans (mcuRun_taken rx pass.acts bus)
      have harrived : arrived ps line done.length = rx ++ (mcuRun bus pass.acts).fifo := by
        rw [arrived, htake, hline']
      rw [btifRxDrainLoop]
      generalize mcuRun bus pass.acts = bus' at hline' harrived
      split
      · next b bs hfifo =>
        have hmore : rx.length < (arrived ps line done.length).length := by
          rw [harrived, hfifo, List.length_append, List.length_cons]; omega
        have hone : (rx ++ [b]).length = rx.length + 1 := by rw [List.length_append]; rfl
        have hroom : rx.length + (room + 1) = (rx ++ [b]).length + room := by omega
        rw [hroom]
        refine ih (done ++ [pass]) room (rx ++ [b]) { bus' with fifo := bs }
          (Function.update t rx.length done.length) hps' ?_ ?_ ?_ ?_
        · rw [hline', hfifo, List.append_assoc]
          rfl
        · rw [hone]
          exact hsched.snoc hbefore hlen hmore hwaits
        · rw [hone]
          intro k hk
          rw [List.length_append, List.length_singleton, Function.update_apply]
          split_ifs with hlast
          · exact Nat.lt_succ_self _
          · exact Nat.lt_succ_of_lt (hbefore k (by omega))
        · rw [hone]
          intro p hp hbehind
          have hlast := hbehind rx.length (Nat.lt_succ_self _)
          rw [Function.update_self] at hlast
          rw [List.length_append, List.length_singleton] at hp
          omega
      · next hfifo =>
        rw [hfifo, List.append_nil] at harrived
        split_ifs with hidle
        · obtain ⟨hrx, hidle⟩ := hidle
          refine ⟨t, hsched, .inr fun q _ hbehind hq => ⟨done.length, ?_, hbefore, ?_⟩⟩
          · rcases Nat.lt_trichotomy q done.length with hlt | rfl | hgt
            · exact absurd (hwaits q hlt hbehind).1 (Nat.not_le_of_lt hq)
            · rw [harrived] at hq
              exact absurd hq (Nat.lt_irrefl _)
            · exact hgt
          · intro hwait
            have hbusy := hwait.2 (List.length_pos_iff.mpr hrx) pass hhere
            rw [hidle] at hbusy
            cases hbusy
        · refine ih (done ++ [pass]) (room + 1) rx bus' t hps' hline' hsched ?_ ?_
          · intro k hk
            rw [List.length_append]
            exact Nat.lt_add_right _ (hbefore k hk)
          · intro p hp hbehind
            rw [List.length_append, List.length_singleton] at hp
            rcases Nat.lt_succ_iff_lt_or_eq.mp hp with hlt | rfl
            · exact hwaits p hlt hbehind
            · refine ⟨by rw [harrived], ?_⟩
              rintro hpos pass' hpass'
              rw [hhere] at hpass'
              cases hpass'
              have hrx := List.length_pos_iff.mp hpos
              simpa [hrx] using hidle

/-! ### One exchange -/

/-- The line at the start of the drain: what the MCU has made of it while the frame went out, with the
    command now among those that are unanswered. -/
def Call.line (c : Call) : Bus :=
  let bus := mcuRun c.start c.env.during
  { bus with unanswered := bus.unanswered ++ [c.start.sent] }

/-- The bytes on offer to a call: those unread at the start of the drain, then the answers of the MCU up
    to its deadline. -/
def Call.offered (c : Call) : List RxByte :=
  pending c.line ++ answered c.line.unanswered (c.env.passes.flatMap RxPass.acts)

/-- The bytes matched by a call that returned 0 were all emitted in reply to its command. -/
def Call.Attributed (c : Call) : Prop :=
  ∀ rx, c.result = .ok rx → ∀ b ∈ rx, b.origin = c.start.sent

/-- The frame goes out: `kmalloc` gives it, and no wait for TEMT outlasts its deadline. -/
def Call.Goes (c : Call) : Prop :=
  c.env.frameAlloc = true ∧ KeepsUp c.env.bursts 0 (stpFrame c.cmd).length

/-- As many of the bytes on offer as the event has, from the `i`-th on. -/
def Call.window (c : Call) (i : ℕ) : List RxByte := (c.offered.drop i).take c.evt.length

/-- The event stands there, in bytes of whatever replies. -/
def Call.Stands (c : Call) (i : ℕ) : Prop := (c.window i).map RxByte.val = c.evt

instance (c : Call) : DecidablePred c.Stands := fun _ => by unfold Call.Stands; infer_instance

/-- All the bytes there are of the reply to this command. -/
def Call.Own (c : Call) (i : ℕ) : Prop := ∀ b ∈ c.window i, b.origin = c.start.sent

/-- Wherever the event stands in the bytes for which the drain has room and time, it stands in the reply
    to this very command, or has done so before. -/
def Call.OwnFirst (c : Call) : Prop :=
  ∀ n t, n ≤ rxBufSz → Schedule c.env.passes c.line n t → ∀ i, i + c.evt.length ≤ n → c.Stands i →
    c.Own i ∨ ∃ j < i, c.Stands j ∧ c.Own j

/-- A recorded call says what `wmt_cmd_evt` did. -/
def Call.Truthful (c : Call) : Prop := outcome (exchange c.env c.cmd c.evt) c.start = c.result

theorem findEvt_eq_some {rx : List RxByte} {evt : List UInt8} {i : ℕ} :
    findEvt rx evt = some i ↔ i + evt.length ≤ rx.length ∧
      ((rx.drop i).take evt.length).map RxByte.val = evt ∧
      ∀ j < i, ((rx.drop j).take evt.length).map RxByte.val ≠ evt := by
  rw [findEvt, List.find?_range_eq_some]
  simp only [List.mem_range, beq_iff_eq, Bool.not_eq_true', beq_eq_false_iff_ne]
  constructor
  · rintro ⟨hi, hlt, hfirst⟩
    refine ⟨?_, hi, hfirst⟩
    omega
  · rintro ⟨hlt, hi, hfirst⟩
    refine ⟨hi, ?_, hfirst⟩
    omega

theorem window_prefixed {rx off : List RxByte} (h : rx <+: off) {j n : ℕ} (hj : j + n ≤ rx.length) :
    (off.drop j).take n = (rx.drop j).take n := by
  obtain ⟨rest, rfl⟩ := h
  rw [List.drop_append_of_le_length (by omega), List.take_append_of_le_length]
  rw [List.length_drop]; omega

/-- Two buses with the same bytes and commands on the way. -/
structure SameLine (bus bus' : Bus) : Prop where
  fifo : bus.fifo = bus'.fifo
  wire : bus.wire = bus'.wire
  unanswered : bus.unanswered = bus'.unanswered

theorem SameLine.symm {bus bus' : Bus} (h : SameLine bus bus') : SameLine bus' bus :=
  ⟨h.fifo.symm, h.wire.symm, h.unanswered.symm⟩

theorem SameLine.mcuRun {bus bus' : Bus} (h : SameLine bus bus') (acts : List McuAct) :
    SameLine (mcuRun bus acts) (mcuRun bus' acts) := by
  have hstep {bus bus' : Bus} (act : McuAct) (h : SameLine bus bus') :
      SameLine (mcuStep bus act) (mcuStep bus' act) := by
    rcases bus with ⟨_, _, unanswered, wire, fifo⟩
    rcases bus' with ⟨_, _, unanswered', wire', fifo'⟩
    obtain ⟨hfifo, hwire, hun⟩ := h
    cases hfifo
    cases hwire
    cases hun
    cases act with
    | answer k bytes =>
      rw [mcuStep, mcuStep]
      split_ifs <;> exact ⟨rfl, rfl, rfl⟩
    | deliver => cases wire <;> exact ⟨rfl, rfl, rfl⟩
  induction acts generalizing bus bus' with
  | nil => exact h
  | cons act acts ih => exact ih (hstep act h)

theorem SameLine.schedule {ps : List RxPass} {bus bus' : Bus} (h : SameLine bus bus') {n : ℕ} {t : ℕ → ℕ}
    (hsched : Schedule ps bus n t) : Schedule ps bus' n t := by
  have harr (p : ℕ) : arrived ps bus p = arrived ps bus' p := (h.mcuRun _).fifo
  refine ⟨hsched.pass, fun k hk => ?_, hsched.behind, fun k hk p hp hbehind => ?_⟩
  · rw [← harr]
    exact hsched.arrived k hk
  · rw [Waits, ← harr]
    exact hsched.waits k hk p hp hbehind

theorem sendFrame_rx (env : CmdEnv) (cmd : List UInt8) (bus : Bus) :
    SameLine (finalState (sendFrame env cmd) bus) (mcuRun bus env.during) := by
  have hsame : SameLine { bus with tx := bus.tx ++ [.wak false, .wak true] } bus := ⟨rfl, rfl, rfl⟩
  obtain ⟨hfifo, hwire, hun⟩ := hsame.mcuRun env.during
  simp only [finalState, sendFrame, bind_apply, modify_apply, btifWakeupConsys, btifTx]
  split_ifs <;> exact ⟨hfifo, hwire, hun⟩

theorem sendFrame_ok (env : CmdEnv) (cmd : List UInt8) (bus : Bus) :
    outcome (sendFrame env cmd) bus = .ok () ↔ KeepsUp env.bursts 0 (stpFrame cmd).length := by
  rw [← btifTxLoop_ready env.bursts (stpFrame cmd).length 0 (stpFrame cmd) le_rfl]
  simp only [outcome, sendFrame, bind_apply, modify_apply, btifWakeupConsys, btifTx]
  split_ifs with h <;> simp [h, pure_apply, throw_apply]

theorem awaitEvt_outcome (env : CmdEnv) (id : ℕ) (evt : List UInt8) (bus : Bus) :
    outcome (awaitEvt env id evt) bus = scanEvt (btifRxDrainLoop env.passes rxBufSz []
      { bus with unanswered := bus.unanswered ++ [id] }).1 evt := by
  rw [awaitEvt, outcome_bind_ok _ (outcome_modify ..), btifRxDrain,
    outcome_bind_ok _ (outcome_modifyGet ..), outcome_ofExcept, finalState_modify]

/-- An exchange whose frame goes out is decided by what it drains of the line. -/
theorem exchange_goes {c : Call} (h : c.Goes) : ∃ bus, SameLine bus c.line ∧
    outcome (exchange c.env c.cmd c.evt) c.start =
      scanEvt (btifRxDrainLoop c.env.passes rxBufSz [] bus).1 c.evt := by
  have hsend := (sendFrame_ok c.env c.cmd { c.start with sent := c.start.sent + 1 }).mpr h.2
  have hrx := sendFrame_rx c.env c.cmd { c.start with sent := c.start.sent + 1 }
  have hsame : SameLine { c.start with sent := c.start.sent + 1 } c.start := ⟨rfl, rfl, rfl⟩
  have hstart := hsame.mcuRun c.env.during
  generalize hbus : finalState (sendFrame c.env c.cmd) { c.start with sent := c.start.sent + 1 } = bus at hrx
  have hout : outcome (exchange c.env c.cmd c.evt) c.start = scanEvt (btifRxDrainLoop c.env.passes rxBufSz []
      { bus with unanswered := bus.unanswered ++ [c.start.sent] }).1 c.evt := by
    rw [exchange, outcome_bind_ok _ (outcome_get _), outcome_bind_ok _ (outcome_modify ..),
      finalState_get, finalState_modify, if_pos h.1, outcome_bind_ok _ hsend, awaitEvt_outcome, hbus]
  refine ⟨{ bus with unanswered := bus.unanswered ++ [c.start.sent] },
    ⟨hrx.fifo.trans hstart.fifo, hrx.wire.trans hstart.wire, ?_⟩, hout⟩
  exact congrArg (· ++ [c.start.sent]) (hrx.unanswered.trans hstart.unanswered)

/-- Any other fails. -/
theorem exchange_stays {c : Call} (h : ¬ c.Goes) :
    ∃ e, outcome (exchange c.env c.cmd c.evt) c.start = .error e := by
  rw [exchange, outcome_bind_ok _ (outcome_get _), outcome_bind_ok _ (outcome_modify ..),
    finalState_get, finalState_modify]
  split_ifs with halloc
  · rcases hsend : outcome (sendFrame c.env c.cmd) { c.start with sent := c.start.sent + 1 } with e | _
    · exact ⟨e, outcome_bind_error _ hsend⟩
    · exact absurd ⟨halloc, (sendFrame_ok _ _ _).mp hsend⟩ h
  · exact ⟨_, rfl⟩

theorem scanEvt_ok {rx win : List RxByte} {evt : List UInt8} (h : scanEvt rx evt = .ok win) :
    ∃ i, findEvt rx evt = some i ∧ win = (rx.drop i).take evt.length := by
  rw [scanEvt] at h
  split_ifs at h
  split at h
  · next i hfind =>
    cases h
    exact ⟨i, hfind, rfl⟩
  · cases h

/-- What a call drains: a part of the bytes on offer, and all that there is room and time for. -/
structure Call.Drains (c : Call) (rx : List RxByte) : Prop where
  room : rx.length ≤ rxBufSz
  offered : rx <+: c.offered
  schedule : ∃ t, Schedule c.env.passes c.line rx.length t
  all : ∀ n t, n ≤ rxBufSz → Schedule c.env.passes c.line n t → n ≤ rx.length

theorem drains {c : Call} {bus : Bus} (h : SameLine bus c.line) :
    c.Drains (btifRxDrainLoop c.env.passes rxBufSz [] bus).1 := by
  have hprefix := btifRxDrainLoop_prefix c.env.passes rxBufSz [] bus
  rw [List.nil_append, pending, h.fifo, h.wire, h.unanswered] at hprefix
  have hroom := btifRxDrainLoop_length c.env.passes rxBufSz [] bus
  rw [List.length_nil, Nat.zero_add] at hroom
  have hnone : Schedule c.env.passes bus ([] : List RxByte).length fun _ => 0 := by
    refine ⟨?_, ?_, ?_, ?_⟩ <;> intro k hk <;> cases hk
  obtain ⟨t, hsched, hends⟩ := btifRxDrainLoop_schedule c.env.passes [] rxBufSz [] bus _ rfl rfl hnone
    nofun nofun
  rw [List.length_nil, Nat.zero_add] at hends
  refine ⟨hroom, hprefix, ⟨t, h.schedule hsched⟩, ?_⟩
  intro n s hn hs
  exact hsched.le_of_ends hends (h.symm.schedule hs) hn

section Scan

variable {c : Call} {rx : List RxByte} (h : c.Drains rx)
include h

theorem Call.Drains.window {i : ℕ} (hi : i + c.evt.length ≤ rx.length) :
    c.window i = (rx.drop i).take c.evt.length := window_prefixed h.offered hi

/-- The scan finds the first place where the event stands in the bytes that were drained. -/
theorem Call.Drains.findEvt_iff {i : ℕ} : findEvt rx c.evt = some i ↔
    i + c.evt.length ≤ rx.length ∧ c.Stands i ∧ ∀ j < i, ¬ c.Stands j := by
  rw [findEvt_eq_some]
  refine and_congr_right fun hi => ?_
  rw [Call.Stands, h.window hi]
  refine and_congr_right fun _ => forall₂_congr fun j hj => ?_
  rw [Call.Stands, h.window (by omega)]

theorem Call.Drains.scanEvt_ok_iff {win : List RxByte} : scanEvt rx c.evt = .ok win ↔
    ∃ i, i + c.evt.length ≤ rx.length ∧ c.Stands i ∧ (∀ j < i, ¬ c.Stands j) ∧ win = c.window i := by
  constructor
  · intro hok
    obtain ⟨i, hfind, rfl⟩ := scanEvt_ok hok
    obtain ⟨hi, hstands, hfirst⟩ := h.findEvt_iff.mp hfind
    exact ⟨i, hi, hstands, hfirst, (h.window hi).symm⟩
  · rintro ⟨i, hi, hstands, hfirst, rfl⟩
    rw [scanEvt, if_neg (by omega), h.findEvt_iff.mpr ⟨hi, hstands, hfirst⟩, h.window hi]

/-- The first place is in the reply to this command exactly if the event never stands in another one
    before it has stood in that. -/
theorem Call.Drains.ownFirst_iff : (∀ win, scanEvt rx c.evt = .ok win → ∀ b ∈ win, b.origin = c.start.sent) ↔
    c.OwnFirst := by
  constructor
  · intro hown n t hn hsched i hi hstands
    have hle := h.all n t hn hsched
    have hsome : ∃ j, c.Stands j := ⟨i, hstands⟩
    have hfirst : ∀ j < Nat.find hsome, ¬ c.Stands j := fun j => Nat.find_min hsome
    have hstandsj := Nat.find_spec hsome
    have hj : Nat.find hsome ≤ i := Nat.find_min' hsome hstands
    generalize Nat.find hsome = j at hfirst hstandsj hj
    have hownj : c.Own j := hown _ (h.scanEvt_ok_iff.mpr ⟨j, by omega, hstandsj, hfirst, rfl⟩)
    rcases hj.lt_or_eq with hlt | rfl
    · exact .inr ⟨j, hlt, hstandsj, hownj⟩
    · exact .inl hownj
  · intro hown win hok
    obtain ⟨i, hi, hstands, hfirst, rfl⟩ := h.scanEvt_ok_iff.mp hok
    obtain ⟨t, hsched⟩ := h.schedule
    rcases hown _ t h.room hsched i hi hstands with howni | ⟨j, hj, hstandsj, -⟩
    · exact howni
    · exact absurd hstandsj (hfirst j hj)

end Scan

/-- A call is attributed rightly exactly if its frame does not go out, or the event stands first in its own
    reply. -/
theorem attributed_iff {c : Call} (htrue : c.Truthful) : c.Attributed ↔ (c.Goes → c.OwnFirst) := by
  rw [Call.Attributed, ← htrue]
  by_cases hgoes : c.Goes
  · obtain ⟨bus, hsame, hout⟩ := exchange_goes hgoes
    rw [hout, (drains hsame).ownFirst_iff]
    exact ⟨fun h _ => h, fun h => h hgoes⟩
  · obtain ⟨e, he⟩ := exchange_stays hgoes
    rw [he]
    exact ⟨fun _ h => absurd h hgoes, fun _ => nofun⟩

/-! ### Whole runs -/

/-- A program that only adds truthful calls to the record. -/
def Records (s s' : Ap) : Prop := ∃ calls, s'.calls = s.calls ++ calls ∧ ∀ c ∈ calls, c.Truthful

instance : Std.Refl Records where
  refl s := ⟨[], (List.append_nil _).symm, by simp⟩

instance : IsTrans Ap Records where
  trans := by
    rintro s s' s'' ⟨calls, hcalls, htrue⟩ ⟨calls', hcalls', htrue'⟩
    refine ⟨calls ++ calls', by rw [hcalls', hcalls, List.append_assoc], ?_⟩
    intro c hc
    rcases List.mem_append.mp hc with hc | hc
    · exact htrue c hc
    · exact htrue' c hc

theorem wmtCmdEvt_records (cmd evt : List UInt8) : Within Records (wmtCmdEvt cmd evt) := by
  intro s
  rw [wmtCmdEvt_state]
  refine ⟨_, rfl, ?_⟩
  intro c hc
  rw [List.mem_singleton.mp hc]
  rfl

theorem sendEach_records : ∀ cmds, Within Records (sendEach cmds) := by
  intro cmds
  induction cmds with
  | nil => exact .pure ()
  | cons c cs ih => exact .bind (.attempt (wmtCmdEvt_records c.1 c.2)) fun _ => ih

theorem pushFrags_records (fw : List UInt8) :
    ∀ fuel fragSeq off : ℕ, Within Records (pushFrags fw fuel fragSeq off) := by
  intro fuel
  induction fuel with
  | zero =>
    intro fragSeq off
    exact .pure ()
  | succ fuel ih =>
    intro fragSeq off
    rw [pushFrags]
    split_ifs
    · exact .bind (wmtCmdEvt_records _ _) fun _ => ih _ _
    · exact .pure ()

theorem wmtPushPatch_records (fw : List UInt8) : Within Records (wmtPushPatch fw) := by
  rw [wmtPushPatch]
  split_ifs
  · exact .throw _
  · have hbuf : Within Records kmallocFrag := fun s =>
      ⟨[], by rw [kmallocFrag_calls, List.append_nil], by simp⟩
    exact .bind (wmtCmdEvt_records _ _) fun _ => .bind (wmtCmdEvt_records _ _) fun _ =>
      .bind hbuf fun _ => .bind (pushFrags_records fw _ _ _) fun _ => wmtCmdEvt_records _ _

theorem pushPatches_records : ∀ names, Within Records (pushPatches names) := by
  intro names
  induction names with
  | nil => exact .pure _
  | cons name names ih =>
    have hfw : Within Records (requestFirmware name) := .bind .get fun _ => .ofExcept _
    refine .bind hfw fun fw => .bind (.attempt (wmtPushPatch_records fw)) fun r => ?_
    rcases r with e | _
    · exact .pure _
    · exact ih

theorem wmtFirmwarePush_records : Within Records wmtFirmwarePush :=
  .bind (sendEach_records _) fun _ => .bind (sendEach_records _) fun _ =>
    .bind (pushPatches_records _) fun _ => .bind (sendEach_records _) fun _ => .ofExcept _

theorem queryStp_records : Within Records queryStp := by
  refine .bind (.attempt (wmtCmdEvt_records _ _)) fun ret => ?_
  split
  · exact wmtCmdEvt_records _ _
  · exact .ofExcept _

theorem consysGateG2b_records (postRelease : List RxPass) :
    Within Records (consysGateG2b postRelease) :=
  .bind (.modify fun _ => ⟨[], (List.append_nil _).symm, by simp⟩) fun _ =>
    .bind (.attempt queryStp_records) fun _ => .bind (.attempt wmtFirmwarePush_records) fun _ =>
      wmtCmdEvt_records _ _

/-- In every run of the gate the acknowledgements are all attributed to the right commands exactly if, at
    each call whose frame goes out, of the bytes that the MCU gets to the FIFO in time none in the reply
    to an earlier command is part of the event before it stands in the reply to this one. -/
theorem gate_acks_attributed (postRelease : List RxPass) (s : Ap) (hstart : s.calls = []) :
    (∀ c ∈ (finalState (consysGateG2b postRelease) s).calls, c.Attributed) ↔
      ∀ c ∈ (finalState (consysGateG2b postRelease) s).calls, c.Goes → c.OwnFirst := by
  obtain ⟨calls, hcalls, htrue⟩ := consysGateG2b_records postRelease s
  rw [hstart, List.nil_append] at hcalls
  rw [hcalls]
  exact forall₂_congr fun c hc => attributed_iff (htrue c hc)

/-- A board whose MCU answers the query, leaves the first DLM write unanswered until the driver has
    given up on it, answers it while the second is being sent, and then says nothing more. -/
def lateDlm : Ap :=
  let silent : CmdEnv := ⟨true, fun _ => ⟨0, 9⟩, [], []⟩
  let answers (k : ℕ) (evt : List UInt8) : CmdEnv :=
    { silent with passes := ⟨[.answer k evt], false⟩ :: evt.map fun _ => ⟨[.deliver], false⟩ }
  { env := Stream'.cons (answers 0 wmtQueryStpEvt) (Stream'.cons silent
      (Stream'.cons (answers 1 wmtRegEvt) (Stream'.const silent)))
    bus := ⟨[], 0, [], [], []⟩
    calls := []
    fragAlloc := Stream'.const true
    firmware := fun _ => .error .ENODEV }

theorem gate_acks_attributed_late :
    (∀ c ∈ (finalState (consysGateG2b []) lateDlm).calls, c.Attributed) ↔
      ∀ c ∈ (finalState (consysGateG2b []) lateDlm).calls, c.Goes → c.OwnFirst :=
  gate_acks_attributed [] lateDlm rfl

/-- The second DLM write (command 2) is acknowledged by the reply to the first (command 1). -/
theorem gate_ack_misattributed :
    ¬ ∀ c ∈ (finalState (consysGateG2b []) lateDlm).calls, c.Attributed := by
  have hcall : (finalState (consysGateG2b []) lateDlm).calls[2]?.map
      (fun c => (c.cmd, c.result.toOption, c.start.sent)) =
      some (wmtDlmCmd2, some (wmtRegEvt.map (⟨·, 1⟩)), 2) := by decide +kernel
  obtain ⟨c, hget, hc⟩ := Option.map_eq_some_iff.mp hcall
  obtain ⟨-, hok, hsent⟩ : _ ∧ c.result.toOption = _ ∧ c.start.sent = 2 := by simpa using hc
  intro hall
  rcases hres : c.result with e | rx
  · rw [hres] at hok; cases hok
  · rw [hres] at hok
    have horigin := hall c (List.mem_of_getElem? hget) rx hres ⟨0x02, 1⟩ (by
      rw [Option.some.inj hok]; decide)
    rw [hsent] at horigin
    cases horigin

end GeminiLinux.Wmt
