import GeminiLinux.Baremetal.Uart
import GeminiLinux.Lib.Runs

/-! The payload's loop and its interrupt, over every way in which the two can come to run.

        timer  ──30──▶ c_irq_handler: g_heartbeat + 1, the timer again, EOIR
        loop:  g_heartbeat new?  ── "[hb] " n " cntpct=" c "\n", a character at a time ──▶ UART
        other ─intid─▶ c_irq_handler: a line of its own into the loop's

    The loop reads the counter once for a line, and what it writes is the lines of later and later ticks. -/

namespace GeminiLinux.Baremetal
open Digits Framing Runs

/-- Who wrote a character. -/
inductive Writer where
  | main
  | irq
deriving DecidableEq

/-- Where the loop is: at its top, or with characters left of the line's first part or its second. -/
inductive Pc where
  | sample
  | number (rest : Text)
  | counter (cntpct : BitVec 64) (rest : Text)

structure Cpu where
  gHeartbeat : BitVec 64
  gPeriodTicks : BitVec 64
  cntpTval : BitVec 64
  cntpCtl : BitVec 64
  /-- What was written to the end-of-interrupt register. -/
  eoir : List (BitVec 64)
  hb : BitVec 64
  lastReported : BitVec 64
  pc : Pc
  wire : List (Writer × Char)

def ppiPhysTimerNs : BitVec 64 := 30

def intid (iar : BitVec 64) : BitVec 64 := iar &&& 0xffffff

def Cpu.put (cpu : Cpu) (writer : Writer) (text : Text) : Cpu :=
  { cpu with wire := cpu.wire ++ text.map (writer, ·) }

def timerArm (periodTicks : BitVec 64) (cpu : Cpu) : Cpu := { cpu with cntpTval := periodTicks, cntpCtl := 1 }

def unexpectedText (intid : BitVec 64) : Text :=
  uartPuts "[irq] unexpected INTID ".toList ++ uartPutdec intid ++ uartPuts "\n".toList

def cIrqHandler (iar : BitVec 64) (cpu : Cpu) : Cpu :=
  let cpu' :=
    if intid iar = ppiPhysTimerNs then timerArm cpu.gPeriodTicks { cpu with gHeartbeat := cpu.gHeartbeat + 1 }
    else cpu.put .irq (unexpectedText (intid iar))
  { cpu' with eoir := cpu'.eoir ++ [iar] }

def numberText (hb : BitVec 64) : Text := uartPuts "[hb] ".toList ++ uartPutdec hb ++ uartPuts " cntpct=".toList

def counterText (cntpct : BitVec 64) : Text := uartPuthex cntpct ++ uartPuts "\n".toList

/-- A character of the loop, or what it does between two of its texts. -/
def mainStep (cntpct : BitVec 64) (cpu : Cpu) : Cpu :=
  match cpu.pc with
  | .sample =>
    if cpu.gHeartbeat ≠ cpu.lastReported then
      { cpu with hb := cpu.gHeartbeat, pc := .number (numberText cpu.gHeartbeat) }
    else cpu
  | .number (c :: rest) => { cpu.put .main [c] with pc := .number rest }
  | .number [] => { cpu with pc := .counter cntpct (counterText cntpct) }
  | .counter v (c :: rest) => { cpu.put .main [c] with pc := .counter v rest }
  | .counter _ [] => { cpu with lastReported := cpu.hb, pc := .sample }

/-- The loop goes on, and may read the system counter; or an interrupt is acknowledged, with others masked
    until the handler returns. -/
inductive Event where
  | main (cntpct : BitVec 64)
  | irq (iar : BitVec 64)

def step (cpu : Cpu) : Event → Cpu
  | .main cntpct => mainStep cntpct cpu
  | .irq iar => cIrqHandler iar cpu

/-- At the loop, after `h` ticks since the timer was armed. -/
def enter (period h : BitVec 64) : Cpu := ⟨h, period, period, 1, [], 0, 0, .sample, []⟩

/-! ### A line and its reading -/

def report (r : BitVec 64 × BitVec 64) : Text := numberText r.1 ++ counterText r.2

/-- Behind the text `p`. -/
def strip (p s : Text) : Option Text := if p.isPrefixOf s then some (s.drop p.length) else none

def readReport (s : Text) : Option ((BitVec 64 × BitVec 64) × Text) := do
  let s ← strip "[hb] ".toList s
  let hb ← readDigits 10 (s.takeWhile (· ≠ ' '))
  let s ← strip " cntpct=0x".toList (s.dropWhile (· ≠ ' '))
  let cntpct ← readDigits 16 (s.take 16)
  let s ← strip ['\r', '\n'] (s.drop 16)
  some ((BitVec.ofNat 64 hb, BitVec.ofNat 64 cntpct), s)

theorem strip_append (p s : Text) : strip p (p ++ s) = some s := by
  rw [strip, if_pos (List.isPrefixOf_iff_prefix.mpr (List.prefix_append p s)), List.drop_left]

theorem digit_ne_space {d : ℕ} (h : d < 16) : digit d ≠ ' ' := by
  have hall : ∀ d : Fin 16, digit d ≠ ' ' := by decide
  exact hall ⟨d, h⟩

/-- A line with what is in its two numbers spread out. -/
theorem report_eq (r : BitVec 64 × BitVec 64) : report r = "[hb] ".toList ++ (uartPutdec r.1 ++
    (" cntpct=0x".toList ++ ((fixed 16 16 r.2.toNat).map digit ++ ['\r', '\n']))) := by
  have hlead : uartPuts "[hb] ".toList = "[hb] ".toList := rfl
  have hmid : uartPuts " cntpct=".toList ++ "0x".toList = " cntpct=0x".toList := rfl
  have hend : uartPuts "\n".toList = ['\r', '\n'] := rfl
  rw [report, numberText, counterText, uartPuthex_eq, hlead, hend, ← hmid]
  simp only [List.append_assoc]

theorem readReport_report (r : BitVec 64 × BitVec 64) (rest : Text) :
    readReport (report r ++ rest) = some (r, rest) := by
  obtain ⟨hb, cntpct⟩ := r
  obtain ⟨ds, hds, hlt, -⟩ := exists_uartPutdec hb
  have hspace : ∀ c ∈ uartPutdec hb, decide (c ≠ ' ') = true := by
    intro c hc
    rw [hds] at hc
    obtain ⟨d, hd, rfl⟩ := List.mem_map.mp hc
    exact decide_eq_true (digit_ne_space ((hlt d hd).trans (by decide)))
  have hlen : ((fixed 16 16 cntpct.toNat).map digit).length = 16 := by rw [List.length_map, length_fixed]
  have htake (s : Text) : (" cntpct=0x".toList ++ s).takeWhile (· ≠ ' ') = [] := rfl
  have hdrop (s : Text) : (" cntpct=0x".toList ++ s).dropWhile (· ≠ ' ') = " cntpct=0x".toList ++ s := rfl
  rw [report_eq, readReport]
  simp only [List.append_assoc]
  rw [strip_append, Option.bind_eq_bind, Option.bind_some, List.takeWhile_append_of_pos hspace,
    List.dropWhile_append_of_pos hspace, htake, hdrop, List.append_nil, readDigits_uartPutdec]
  simp only [Option.bind_eq_bind, Option.bind_some]
  rw [strip_append, Option.bind_some, List.take_left' hlen, List.drop_left' hlen, readDigits_fixed, Option.bind_some,
    strip_append, Option.bind_some, BitVec.ofNat_toNat, BitVec.ofNat_toNat, BitVec.setWidth_eq, BitVec.setWidth_eq]

/-- The lines of the loop. -/
def reports : Code (BitVec 64 × BitVec 64) Char where
  enc := report
  dec := readReport
  Valid _ := True
  enc_ne_nil r := by
    rw [report_eq]
    exact List.append_ne_nil_of_left_ne_nil (by decide) _
  dec_enc r rest _ := readReport_report r rest

/-! ### What the loop has written -/

/-- The loop's own characters. -/
def Cpu.mainText (cpu : Cpu) : Text := (cpu.wire.filter fun w => w.1 = .main).map Prod.snd

theorem mainText_put_main (cpu : Cpu) (text : Text) : (cpu.put .main text).mainText = cpu.mainText ++ text := by
  simp only [Cpu.mainText, Cpu.put, List.filter_append, List.map_append, List.filter_map, List.map_map]
  simp

theorem mainText_put_irq (cpu : Cpu) (text : Text) : (cpu.put .irq text).mainText = cpu.mainText := by
  simp only [Cpu.mainText, Cpu.put, List.filter_append, List.map_append, List.filter_map]
  simp

def Event.isTimer : Event → Bool
  | .main _ => false
  | .irq iar => intid iar = ppiPhysTimerNs

/-- How often the timer came. -/
def timers (es : List Event) : ℕ := es.countP Event.isTimer

variable (h : BitVec 64)

/-- The counter's value after `n` ticks. -/
def tick (n : ℕ) : BitVec 64 := h + BitVec.ofNat 64 n

/-- The lines of these ticks, the newest one first. -/
def linesOf (ticks : List (ℕ × BitVec 64)) : List (BitVec 64 × BitVec 64) :=
  ticks.reverse.map fun t => (tick h t.1, t.2)

/-- The place in the line, `part` of which is written. -/
def AtPc (n : ℕ) (cpu : Cpu) (ticks : List (ℕ × BitVec 64)) (part : Text) : Prop :=
  match cpu.pc with
  | .sample => part = [] ∧ cpu.lastReported = (ticks.head?.map fun t => tick h t.1).getD 0
  | .number rest => part ++ rest = numberText cpu.hb ∧ ∃ k ≤ n, cpu.hb = tick h k ∧ ∀ t ∈ ticks, t.1 < k
  | .counter v rest => part ++ rest = report (cpu.hb, v) ∧ ∃ k ≤ n, cpu.hb = tick h k ∧ ∀ t ∈ ticks, t.1 < k

/-- After `n` ticks: whole lines for some of them, in their order, and a part of the next one. -/
structure Told (n : ℕ) (cpu : Cpu) (ticks : List (ℕ × BitVec 64)) (part : Text) : Prop where
  text : cpu.mainText = (linesOf h ticks).flatMap report ++ part
  heartbeat : cpu.gHeartbeat = tick h n
  later : ticks.Pairwise fun t t' => t'.1 < t.1
  le : ∀ t ∈ ticks, t.1 ≤ n
  atPc : AtPc h n cpu ticks part

variable {h} {n : ℕ} {cpu : Cpu} {ticks : List (ℕ × BitVec 64)} {part : Text}

theorem AtPc.mono {n' : ℕ} (hle : n ≤ n') (hat : AtPc h n cpu ticks part) : AtPc h n' cpu ticks part := by
  unfold AtPc at hat ⊢
  cases hpc : cpu.pc with
  | sample =>
    rw [hpc] at hat
    exact hat
  | number rest =>
    rw [hpc] at hat
    obtain ⟨htext, k, hk, hhb, hlt⟩ := hat
    exact ⟨htext, k, hk.trans hle, hhb, hlt⟩
  | counter v rest =>
    rw [hpc] at hat
    obtain ⟨htext, k, hk, hhb, hlt⟩ := hat
    exact ⟨htext, k, hk.trans hle, hhb, hlt⟩

theorem told_enter (period h : BitVec 64) : Told h 0 (enter period h) [] [] where
  text := rfl
  heartbeat := (BitVec.add_zero h).symm
  later := List.Pairwise.nil
  le := nofun
  atPc := ⟨rfl, rfl⟩

/-- The interrupt adds to the counter, or to the wire, and to nothing else that the loop knows of. -/
theorem Told.irq (htold : Told h n cpu ticks part) (iar : BitVec 64) :
    Told h (n + timers [.irq iar]) (cIrqHandler iar cpu) ticks part := by
  obtain ⟨htext, hheart, hlater, hle, hat⟩ := htold
  by_cases htimer : intid iar = ppiPhysTimerNs
  · have hone : timers [.irq iar] = 1 := by simp [timers, Event.isTimer, htimer]
    have hhandler : cIrqHandler iar cpu =
        { cpu with
          gHeartbeat := cpu.gHeartbeat + 1, cntpTval := cpu.gPeriodTicks, cntpCtl := 1, eoir := cpu.eoir ++ [iar] } := by
      rw [cIrqHandler, if_pos htimer]
      rfl
    rw [hone, hhandler]
    refine ⟨htext, ?_, hlater, fun t ht => (hle t ht).trans (Nat.le_succ n), hat.mono (Nat.le_succ n)⟩
    show cpu.gHeartbeat + 1 = tick h (n + 1)
    rw [hheart, tick, tick, BitVec.add_assoc, BitVec.ofNat_add]
    rfl
  · have hzero : timers [.irq iar] = 0 := by simp [timers, Event.isTimer, htimer]
    have hhandler : cIrqHandler iar cpu =
        { cpu.put .irq (unexpectedText (intid iar)) with eoir := cpu.eoir ++ [iar] } := by
      rw [cIrqHandler, if_neg htimer]
      rfl
    rw [hzero, hhandler]
    exact ⟨(mainText_put_irq cpu _).trans htext, hheart, hlater, hle, hat⟩

/-- A line that is whole. -/
theorem linesOf_cons (t : ℕ × BitVec 64) : linesOf h (t :: ticks) = linesOf h ticks ++ [(tick h t.1, t.2)] := by
  rw [linesOf, List.reverse_cons, List.map_append]
  rfl

theorem Told.main (htold : Told h n cpu ticks part) (cntpct : BitVec 64) :
    ∃ ticks' part', Told h n (mainStep cntpct cpu) ticks' part' := by
  obtain ⟨htext, hheart, hlater, hle, hat⟩ := htold
  unfold AtPc at hat
  rw [mainStep]
  cases hpc : cpu.pc with
  | sample =>
    rw [hpc] at hat
    obtain ⟨rfl, hlast⟩ := hat
    by_cases hnew : cpu.gHeartbeat ≠ cpu.lastReported
    · -- a tick that is not that of the last line is later than all of them
      have hlt : ∀ t ∈ ticks, t.1 < n := by
        cases ticks with
        | nil => nofun
        | cons t₀ ticks =>
          have hne : t₀.1 ≠ n := fun heq => hnew (hheart.trans (heq ▸ hlast.symm))
          have hhead : t₀.1 < n := lt_of_le_of_ne (hle t₀ List.mem_cons_self) hne
          intro t ht
          rcases List.mem_cons.mp ht with rfl | ht
          · exact hhead
          · exact ((List.pairwise_cons.mp hlater).1 t ht).trans hhead
      simp only [if_pos hnew]
      exact ⟨ticks, [], htext, hheart, hlater, hle, rfl, n, le_refl n, hheart, hlt⟩
    · simp only [if_neg hnew]
      refine ⟨ticks, [], htext, hheart, hlater, hle, ?_⟩
      rw [AtPc, hpc]
      exact ⟨rfl, hlast⟩
  | number rest =>
    rw [hpc] at hat
    obtain ⟨hnumber, k, hk, hhb, hlt⟩ := hat
    cases rest with
    | cons c rest =>
      refine ⟨ticks, part ++ [c], ?_, hheart, hlater, hle, ?_, k, hk, hhb, hlt⟩
      · exact (mainText_put_main cpu [c]).trans (by rw [htext, List.append_assoc])
      · rw [List.append_assoc]
        exact hnumber
    | nil =>
      refine ⟨ticks, part, htext, hheart, hlater, hle, ?_, k, hk, hhb, hlt⟩
      rw [List.append_nil] at hnumber
      rw [hnumber]
      rfl
  | counter v rest =>
    rw [hpc] at hat
    obtain ⟨hcounter, k, hk, hhb, hlt⟩ := hat
    cases rest with
    | cons c rest =>
      refine ⟨ticks, part ++ [c], ?_, hheart, hlater, hle, ?_, k, hk, hhb, hlt⟩
      · exact (mainText_put_main cpu [c]).trans (by rw [htext, List.append_assoc])
      · rw [List.append_assoc]
        exact hcounter
    | nil =>
      rw [List.append_nil] at hcounter
      refine ⟨(k, v) :: ticks, [], ?_, hheart, List.pairwise_cons.mpr ⟨hlt, hlater⟩, ?_, rfl, hhb⟩
      · rw [linesOf_cons, List.flatMap_append, List.flatMap_singleton, List.append_nil, ← hhb, ← hcounter]
        exact htext
      · intro t ht
        rcases List.mem_cons.mp ht with rfl | ht
        · exact hk
        · exact hle t ht

theorem told_run (htold : Told h n cpu ticks part) (es : List Event) :
    ∃ ticks' part', Told h (n + timers es) (run step cpu es) ticks' part' := by
  induction es generalizing n cpu ticks part with
  | nil => exact ⟨ticks, part, htold⟩
  | cons e es ih =>
    cases e with
    | main cntpct =>
      obtain ⟨ticks', part', hmain⟩ := htold.main cntpct
      have hcount : timers (.main cntpct :: es) = timers es := List.countP_cons_of_neg Bool.false_ne_true
      rw [hcount]
      exact ih hmain
    | irq iar =>
      have hcount : timers (.irq iar :: es) = timers [.irq iar] + timers es := by
        rw [timers, ← List.singleton_append, List.countP_append]
        rfl
      rw [hcount, ← Nat.add_assoc]
      exact ih (htold.irq iar)

theorem AtPc.part_prefix (hat : AtPc h n cpu ticks part) : ∃ r, part <+: report r := by
  unfold AtPc at hat
  cases hpc : cpu.pc with
  | sample =>
    rw [hpc] at hat
    exact ⟨(0, 0), hat.1 ▸ List.nil_prefix⟩
  | number rest =>
    rw [hpc] at hat
    have hnumber : part <+: numberText cpu.hb := ⟨rest, hat.1⟩
    exact ⟨(cpu.hb, 0), hnumber.trans (List.prefix_append _ _)⟩
  | counter v rest =>
    rw [hpc] at hat
    exact ⟨(cpu.hb, v), rest, hat.1⟩

/-- Whatever interrupts come between whatever characters: what the loop has written is whole lines, which
    read back as the counter's values at later and later ticks, and then a part of a line. -/
theorem heartbeats (period h : BitVec 64) (es : List Event) : ∃ (ticks : List (ℕ × BitVec 64)) (lines part : Text),
    (run step (enter period h) es).mainText = lines ++ part ∧
    reports.parse lines = some (ticks.map fun t => (h + BitVec.ofNat 64 t.1, t.2)) ∧
    ticks.Pairwise (fun t t' => t.1 < t'.1) ∧ (∀ t ∈ ticks, t.1 ≤ timers es) ∧ ∃ r, part <+: report r := by
  obtain ⟨ticks, part, htext, -, hlater, hle, hat⟩ := told_run (told_enter period h) es
  rw [Nat.zero_add] at hle
  refine ⟨ticks.reverse, _, part, htext, parse_encode reports _ fun _ _ => trivial, ?_, fun t ht => ?_, hat.part_prefix⟩
  · exact List.pairwise_reverse.mpr hlater
  · exact hle t (List.mem_reverse.mp ht)

/-! ### The loop keeps up -/

/-- How many steps the loop is from having nothing to report. -/
def left (cpu : Cpu) : ℕ :=
  match cpu.pc with
  | .sample => if cpu.gHeartbeat = cpu.lastReported then 0 else 56
  | .number rest => rest.length + 22 + if cpu.gHeartbeat = cpu.hb then 0 else 56
  | .counter _ rest => rest.length + 1 + if cpu.gHeartbeat = cpu.hb then 0 else 56

theorem length_numberText (hb : BitVec 64) : (numberText hb).length ≤ 33 := by
  obtain ⟨ds, hds, -, -, hlen, -⟩ := exists_uartPutdec hb
  have hlead : (uartPuts "[hb] ".toList).length = 5 := rfl
  have hmid : (uartPuts " cntpct=".toList).length = 8 := rfl
  rw [numberText, hds, List.length_append, List.length_append, List.length_map, hlead, hmid]
  omega

theorem length_counterText (cntpct : BitVec 64) : (counterText cntpct).length = 20 := by
  rw [counterText, uartPuthex_eq, List.length_append, List.length_append, List.length_map, length_fixed]
  rfl

theorem left_mainStep (cntpct : BitVec 64) (cpu : Cpu) : left (mainStep cntpct cpu) ≤ left cpu - 1 := by
  rw [mainStep]
  cases hpc : cpu.pc with
  | sample =>
    by_cases hnew : cpu.gHeartbeat ≠ cpu.lastReported
    · have hlen := length_numberText cpu.gHeartbeat
      simp only [if_pos hnew, left, hpc, if_true, if_neg hnew]
      omega
    · simp only [if_neg hnew, left, hpc, if_pos (not_not.mp hnew)]
      exact Nat.le_refl 0
  | number rest =>
    cases rest with
    | cons c rest =>
      simp only [left, hpc, List.length_cons, Cpu.put]
      omega
    | nil =>
      have hlen := length_counterText cntpct
      simp only [left, hpc, hlen, List.length_nil]
      omega
  | counter v rest =>
    cases rest with
    | cons c rest =>
      simp only [left, hpc, List.length_cons, Cpu.put]
      omega
    | nil =>
      simp only [left, hpc, List.length_nil]
      omega

theorem left_run (cs : List (BitVec 64)) (cpu : Cpu) :
    left (run step cpu (cs.map .main)) ≤ left cpu - cs.length := by
  induction cs generalizing cpu with
  | nil => exact Nat.le_refl _
  | cons c cs ih =>
    have hstep := left_mainStep c cpu
    have hrest := ih (mainStep c cpu)
    rw [List.length_cons]
    exact hrest.trans (by omega)

theorem Told.left_le (htold : Told h n cpu ticks part) : left cpu ≤ 111 := by
  have hat := htold.atPc
  unfold AtPc at hat
  have hwait : (if cpu.gHeartbeat = cpu.hb then 0 else 56) ≤ 56 := by
    split_ifs <;> omega
  rw [left]
  cases hpc : cpu.pc with
  | sample =>
    simp only
    split_ifs <;> omega
  | number rest =>
    rw [hpc] at hat
    have hlen := length_numberText cpu.hb
    rw [← hat.1, List.length_append] at hlen
    simp only
    omega
  | counter v rest =>
    rw [hpc] at hat
    have hlen := length_numberText (cpu.hb, v).1
    have htext := congrArg List.length hat.1
    rw [List.length_append, report, List.length_append, length_counterText] at htext
    simp only
    omega

theorem gHeartbeat_mainStep (cntpct : BitVec 64) (cpu : Cpu) : (mainStep cntpct cpu).gHeartbeat = cpu.gHeartbeat := by
  unfold mainStep
  split
  · split_ifs <;> rfl
  · rfl
  · rfl
  · rfl
  · rfl

theorem gHeartbeat_run (cs : List (BitVec 64)) (cpu : Cpu) :
    (run step cpu (cs.map .main)).gHeartbeat = cpu.gHeartbeat := by
  induction cs generalizing cpu with
  | nil => rfl
  | cons c cs ih => exact (ih (mainStep c cpu)).trans (gHeartbeat_mainStep c cpu)

/-- With nothing left to do, the last line is that of the counter. -/
theorem Told.reads_of_left (htold : Told h n cpu ticks part) (hleft : left cpu = 0) :
    ∃ rs, reports.parse cpu.mainText = some rs ∧ (rs.getLast?.map Prod.fst).getD 0 = cpu.gHeartbeat := by
  obtain ⟨htext, -, -, -, hat⟩ := htold
  unfold AtPc at hat
  rw [left] at hleft
  cases hpc : cpu.pc with
  | sample =>
    rw [hpc] at hat
    simp only [hpc] at hleft
    split_ifs at hleft with hsame
    obtain ⟨rfl, hlast⟩ := hat
    rw [List.append_nil] at htext
    refine ⟨linesOf h ticks, htext ▸ parse_encode reports _ fun _ _ => trivial, ?_⟩
    rw [hsame, hlast, linesOf, List.getLast?_map, List.getLast?_reverse, Option.map_map]
    rfl
  | number rest => simp [hpc] at hleft
  | counter v rest => simp [hpc] at hleft

/-- Wherever the interrupts have left the loop, a line and a half without any bring it up to the counter: the
    whole of what it has written reads back, and the last line, if the counter ever moved, is the counter's. -/
theorem catches_up (period h : BitVec 64) (es : List Event) {cs : List (BitVec 64)} (hcs : 111 ≤ cs.length) :
    let cpu := run step (enter period h) es
    let cpu' := run step cpu (cs.map .main)
    ∃ rs, reports.parse cpu'.mainText = some rs ∧ (rs.getLast?.map Prod.fst).getD 0 = cpu.gHeartbeat := by
  intro cpu cpu'
  obtain ⟨ticks, part, htold⟩ := told_run (told_enter period h) es
  obtain ⟨ticks', part', htold'⟩ := told_run htold (cs.map .main)
  have hleft : left cpu' = 0 := by
    have hrun : left cpu' ≤ left cpu - cs.length := left_run cs cpu
    have hle : left cpu ≤ 111 := htold.left_le
    omega
  obtain ⟨rs, hparse, hlast⟩ := htold'.reads_of_left hleft
  exact ⟨rs, hparse, hlast.trans (gHeartbeat_run cs cpu)⟩

/-- An interrupt in the middle of a line. -/
theorem catches_up_interrupted :
    let cpu := run step (enter 1300000 0) [.irq 30, .main 5, .main 5, .irq 30, .main 5]
    let cpu' := run step cpu ((List.replicate 111 7).map .main)
    ∃ rs, reports.parse cpu'.mainText = some rs ∧ (rs.getLast?.map Prod.fst).getD 0 = cpu.gHeartbeat :=
  catches_up 1300000 0 _ (List.length_replicate ..).ge

end GeminiLinux.Baremetal
