import GeminiLinux.Lib.Memory

/-! The payload's exception vectors, and the handler of its interrupts: every register goes into a frame under
    the stack pointer, a C function runs on what is below that, and every register comes back.

        sp        ┌────────────────┐
                  │ (8 unused)     │
        sp - 16   │ x30            │
                  │ x29 … x1       │
        sp - 256  │ x0             │  ◀── sp of c_irq_handler
                  └────────────────┘                                                          -/

namespace GeminiLinux.Baremetal
open Memory

/-- What an instruction of the handler sees: the general registers, the stack pointer and memory. -/
structure Core where
  x : Fin 31 → BitVec 64
  sp : BitVec 64
  mem : Mem

inductive Instr where
  | subSp (imm : ℕ)
  | addSp (imm : ℕ)
  | str (r : Fin 31) (off : ℕ)
  | stp (r s : Fin 31) (off : ℕ)
  | ldr (r : Fin 31) (off : ℕ)
  | ldp (r s : Fin 31) (off : ℕ)
deriving DecidableEq

def Core.str (c : Core) (r : Fin 31) (off : ℕ) : Core :=
  { c with mem := store c.mem (c.sp + BitVec.ofNat 64 off) (c.x r) }

def Core.ldr (c : Core) (r : Fin 31) (off : ℕ) : Core :=
  { c with x := Function.update c.x r (load c.mem (c.sp + BitVec.ofNat 64 off)) }

def exec (c : Core) : Instr → Core
  | .subSp imm => { c with sp := c.sp - BitVec.ofNat 64 imm }
  | .addSp imm => { c with sp := c.sp + BitVec.ofNat 64 imm }
  | .str r off => c.str r off
  | .stp r s off => (c.str r off).str s (off + 8)
  | .ldr r off => c.ldr r off
  | .ldp r s off => (c.ldr r off).ldr s (off + 8)

def execs (c : Core) (is : List Instr) : Core := is.foldl exec c

def saveRegs : List Instr :=
  [.subSp 256,
    .stp 0 1 0,
    .stp 2 3 16,
    .stp 4 5 32,
    .stp 6 7 48,
    .stp 8 9 64,
    .stp 10 11 80,
    .stp 12 13 96,
    .stp 14 15 112,
    .stp 16 17 128,
    .stp 18 19 144,
    .stp 20 21 160,
    .stp 22 23 176,
    .stp 24 25 192,
    .stp 26 27 208,
    .stp 28 29 224,
    .str 30 240]

def restoreRegs : List Instr :=
  [.ldp 0 1 0,
    .ldp 2 3 16,
    .ldp 4 5 32,
    .ldp 6 7 48,
    .ldp 8 9 64,
    .ldp 10 11 80,
    .ldp 12 13 96,
    .ldp 14 15 112,
    .ldp 16 17 128,
    .ldp 18 19 144,
    .ldp 20 21 160,
    .ldp 22 23 176,
    .ldp 24 25 192,
    .ldp 26 27 208,
    .ldp 28 29 224,
    .ldr 30 240,
    .addSp 256]

/-- `bl`, with the address behind it. -/
def link (ret : BitVec 64) (c : Core) : Core := { c with x := Function.update c.x 30 ret }

/-- Where `c_irq_handler` begins. -/
def calleeEntry (ret : BitVec 64) (c : Core) : Core := link ret (execs c saveRegs)

def irqHandler (ret : BitVec 64) (cIrqHandler : Core → Core) (c : Core) : Core :=
  execs (cIrqHandler (calleeEntry ret c)) restoreRegs

theorem execs_cons (c : Core) (i : Instr) (is : List Instr) : execs c (i :: is) = execs (exec c i) is := rfl

theorem execs_append (c : Core) (is js : List Instr) : execs c (is ++ js) = execs (execs c is) js :=
  List.foldl_append

/-! ### The frame -/

/-- The stores of the first `n` registers. -/
def saves (n : ℕ) : List Instr := (List.range n).map fun i => .str (Fin.ofNat 31 i) (8 * i)

def loads (n : ℕ) : List Instr := (List.range n).map fun i => .ldr (Fin.ofNat 31 i) (8 * i)

theorem execs_saves_succ (c : Core) (n : ℕ) :
    execs c (saves (n + 1)) = (execs c (saves n)).str (Fin.ofNat 31 n) (8 * n) := by
  rw [saves, List.range_succ, List.map_append, execs_append]
  rfl

theorem execs_loads_succ (c : Core) (n : ℕ) :
    execs c (loads (n + 1)) = (execs c (loads n)).ldr (Fin.ofNat 31 n) (8 * n) := by
  rw [loads, List.range_succ, List.map_append, execs_append]
  rfl

/-- A pair as its two halves. -/
def halves : Instr → List Instr
  | .stp r s off => [.str r off, .str s (off + 8)]
  | .ldp r s off => [.ldr r off, .ldr s (off + 8)]
  | i => [i]

theorem execs_halves (c : Core) (is : List Instr) : execs c (is.flatMap halves) = execs c is := by
  induction is generalizing c with
  | nil => rfl
  | cons i is ih =>
    have hone : execs c (halves i) = exec c i := by cases i <;> rfl
    rw [List.flatMap_cons, execs_append, hone, ih, execs_cons]

theorem execs_saveRegs (c : Core) : execs c saveRegs = execs { c with sp := c.sp - 256 } (saves 31) := by
  have hsaves : saveRegs.flatMap halves = .subSp 256 :: saves 31 := by decide
  have hsub : exec c (.subSp 256) = { c with sp := c.sp - 256 } := rfl
  rw [← execs_halves, hsaves, execs_cons, hsub]

theorem execs_restoreRegs (c : Core) :
    execs c restoreRegs = { execs c (loads 31) with sp := (execs c (loads 31)).sp + 256 } := by
  have hloads : restoreRegs.flatMap halves = loads 31 ++ [.addSp 256] := by decide
  rw [← execs_halves, hloads, execs_append]
  generalize execs c (loads 31) = c'
  rfl

/-- `c` with its first `n` registers in the frame. -/
structure Saved (n : ℕ) (c c' : Core) : Prop where
  x : c'.x = c.x
  sp : c'.sp = c.sp
  frame : ∀ i < n, load c'.mem (word c.sp i) = c.x (Fin.ofNat 31 i)
  outside : ∀ b, 248 ≤ (b - c.sp).toNat → c'.mem b = c.mem b

theorem saved (c : Core) {n : ℕ} (hn : n ≤ 31) : Saved n c (execs c (saves n)) := by
  induction n with
  | zero => exact ⟨rfl, rfl, nofun, fun b _ => rfl⟩
  | succ n ih =>
    obtain ⟨hx, hsp, hframe, houtside⟩ := ih (Nat.le_of_succ_le hn)
    rw [execs_saves_succ]
    have hmem : ((execs c (saves n)).str (Fin.ofNat 31 n) (8 * n)).mem =
        store (execs c (saves n)).mem (word c.sp n) (c.x (Fin.ofNat 31 n)) := by
      rw [Core.str, hx, hsp, word]
    refine ⟨hx, hsp, fun i hi => ?_, fun b hb => ?_⟩
    · rw [hmem]
      rcases Nat.lt_succ_iff_lt_or_eq.mp hi with hlt | rfl
      · rw [load_store_of_ne _ _ _ (by omega) (by omega) hlt.ne']
        exact hframe i hlt
      · exact load_store _ _ _
    · rw [hmem, store_outside _ _ _ (Nat.lt_of_succ_le hn) (by decide) hb]
      exact houtside b hb

/-- The first `n` registers are what the frame says. -/
theorem loaded (c : Core) {n : ℕ} (hn : n ≤ 31) : (execs c (loads n)).sp = c.sp ∧ (execs c (loads n)).mem = c.mem ∧
    ∀ i < n, (execs c (loads n)).x (Fin.ofNat 31 i) = load c.mem (word c.sp i) := by
  induction n with
  | zero => exact ⟨rfl, rfl, nofun⟩
  | succ n ih =>
    obtain ⟨hsp, hmem, hx⟩ := ih (Nat.le_of_succ_le hn)
    rw [execs_loads_succ]
    refine ⟨hsp, hmem, fun i hi => ?_⟩
    rw [Core.ldr, hsp, hmem]
    rcases Nat.lt_succ_iff_lt_or_eq.mp hi with hlt | rfl
    · have hne : Fin.ofNat 31 i ≠ Fin.ofNat 31 n := by
        rw [Ne, Fin.ext_iff]
        simp only [Fin.ofNat]
        omega
      exact (Function.update_of_ne hne _ _).trans (hx i hlt)
    · exact Function.update_self _ _ _

/-- What is restored from a frame that was kept, in `t`, is what was saved. -/
theorem restored {c c' t : Core} (h : Saved 31 c c') (hsp : t.sp = c.sp)
    (hframe : ∀ k < 248, byte t.mem c.sp k = byte c'.mem c.sp k) :
    (execs t restoreRegs).x = c.x ∧ (execs t restoreRegs).sp = c.sp + 256 ∧ (execs t restoreRegs).mem = t.mem := by
  obtain ⟨hsp', hmem', hx'⟩ := loaded t (le_refl 31)
  rw [execs_restoreRegs]
  refine ⟨funext fun r => ?_, congrArg (· + 256) (hsp'.trans hsp), hmem'⟩
  have hr : Fin.ofNat 31 r.val = r := Fin.ofNat_val_eq_self r
  have hload : load t.mem (word c.sp r) = load c'.mem (word c.sp r) := by
    refine load_congr fun k hk => ?_
    rw [byte_word, byte_word]
    exact hframe _ (by omega)
  have hback := hx' r.val r.isLt
  have hstored := h.frame r.val r.isLt
  rw [hr, hsp, hload] at hback
  rw [hr] at hstored
  exact hback.trans hstored

theorem saved_saveRegs (c : Core) : Saved 31 { c with sp := c.sp - 256 } (execs c saveRegs) := by
  rw [execs_saveRegs]
  exact saved _ (le_refl 31)

/-- An interrupt is not seen by what it interrupts: with a C function that gives the stack pointer back and
    leaves the frame above it alone, every register is as it was, the link register that the call itself
    overwrites among them, and so is all memory outside the frame that the function does not write. -/
theorem irqHandler_transparent (c : Core) (ret : BitVec 64) {cIrqHandler : Core → Core}
    (hsp : (cIrqHandler (calleeEntry ret c)).sp = (calleeEntry ret c).sp)
    (hframe : ∀ k < 248, byte (cIrqHandler (calleeEntry ret c)).mem (calleeEntry ret c).sp k =
      byte (calleeEntry ret c).mem (calleeEntry ret c).sp k) :
    (irqHandler ret cIrqHandler c).x = c.x ∧ (irqHandler ret cIrqHandler c).sp = c.sp ∧
      ∀ b, 248 ≤ (b - (c.sp - 256)).toNat → (cIrqHandler (calleeEntry ret c)).mem b = (calleeEntry ret c).mem b →
        (irqHandler ret cIrqHandler c).mem b = c.mem b := by
  have hsaved := saved_saveRegs c
  rw [irqHandler]
  rw [calleeEntry] at hsp hframe ⊢
  generalize execs c saveRegs = s at hsaved hsp hframe ⊢
  have hentry : (link ret s).sp = c.sp - 256 := hsaved.sp
  rw [hentry] at hsp hframe
  obtain ⟨hx, hback, hmem⟩ := restored hsaved hsp hframe
  refine ⟨hx, hback.trans (BitVec.sub_add_cancel _ _), fun b hb hkeep => ?_⟩
  rw [hmem, hkeep]
  exact hsaved.outside b hb

/-- A function that uses every register and pushes a word. -/
def busy (c : Core) : Core := { c with x := fun _ => 0, mem := store c.mem (c.sp - 16) 1 }

theorem busy_sp (c : Core) : (busy c).sp = c.sp := rfl

theorem busy_frame (c : Core) : ∀ k < 248, byte (busy c).mem c.sp k = byte c.mem c.sp k := by
  intro k hk
  have hdist : ¬ (c.sp + BitVec.ofNat 64 k - (c.sp - 16)).toNat < 8 := by bv_omega
  show store c.mem (c.sp - 16) 1 (c.sp + BitVec.ofNat 64 k) = _
  rw [store, if_neg hdist, byte]

theorem irqHandler_transparent_busy :
    let c : Core := ⟨fun r => BitVec.ofNat 64 r.val, 0x40100000, fun _ => 0⟩
    let ret : BitVec 64 := 0x40080a00
    (irqHandler ret busy c).x = c.x ∧ (irqHandler ret busy c).sp = c.sp ∧
      ∀ b, 248 ≤ (b - (c.sp - 256)).toNat → (busy (calleeEntry ret c)).mem b = (calleeEntry ret c).mem b →
        (irqHandler ret busy c).mem b = c.mem b :=
  irqHandler_transparent _ _ (busy_sp _) (busy_frame _)

end GeminiLinux.Baremetal
