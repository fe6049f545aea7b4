import GeminiLinux.Consys.Power

/-! The EMI remap word of CONSYS, from its writer to its reader. The driver pokes the base of the reserved
    memory into the register and zeroes the control window behind it; `consys-golden-harvest.sh` takes the
    base out of the register again and reads the front of that window.

        31        13   12    11                  0
        |   kept   | enable |  base >> 20         |

    The poke is an OR, so a base that was there before stays in the word. -/

namespace GeminiLinux.Consys
open Prog

def consysEmiCoredumpOff : ℕ := 512 * 1024
def consysEmiCoredumpSz : ℕ := 343 * 1024

/-! ### The writer -/

/-- The device and the memory it has reserved. -/
structure Soc where
  dev : Device
  mem : ℕ → UInt8

abbrev SocM := EStateM Errno Soc

/-- `memset_io(win, 0, n)` of a window mapped at `a`. -/
def memsetIo (a n : ℕ) : SocM Unit :=
  modify fun s => { s with mem := fun x => if a ≤ x ∧ x < a + n then 0 else s.mem x }

/-- `consys_emi_setup`, the zeroing included. -/
def consysEmiSetupZeroed : SocM Unit := do
  zoom Soc.dev (fun d s => { s with dev := d }) consysEmiSetup
  let s ← get
  memsetIo (s.dev.emiBase + consysEmiCoredumpOff) consysEmiCoredumpSz

/-! ### The reader -/

/-- `base=$(( (EMIMAP & 0xFFF) << 20 ))`. -/
def decodedBase (emimap : BitVec 32) : ℕ := (emimap.toNat &&& 0xfff) <<< 20

/-- The addresses the harvest reads a word at: `while [ $o -lt 80 ]` in steps of 4, unless the base is 0. -/
def ctrlReads (emimap : BitVec 32) : List ℕ :=
  if decodedBase emimap > 0 then
    (List.range (80 / 4)).map fun i => decodedBase emimap + 0x80000 + 4 * i
  else []

/-! ### The word -/

/-- The field of the base in the word. -/
def baseField (base : ℕ) : ℕ := base >>> 20

/-- The base is reserved in whole MiB below 4 GiB. -/
structure Reservable (base : ℕ) : Prop where
  aligned : base % 2 ^ 20 = 0
  below : base < 2 ^ 32

section Word

variable {base : ℕ} (h : Reservable base)
include h

theorem baseField_lt : baseField base < 2 ^ 12 := by
  have := h.below
  rw [baseField, Nat.shiftRight_eq_div_pow]
  omega

theorem baseField_shiftLeft : baseField base <<< 20 = base := by
  have := h.aligned
  rw [baseField, Nat.shiftRight_eq_div_pow, Nat.shiftLeft_eq]
  omega

theorem map_word : (base &&& 0xfff00000) >>> 20 = baseField base := by
  have hmask : 0xfff00000 >>> 20 = 2 ^ 12 - 1 := rfl
  rw [Nat.shiftRight_and_distrib, hmask, Nat.and_two_pow_sub_one_eq_mod]
  exact Nat.mod_eq_of_lt (baseField_lt h)

end Word

/-- `map` of `consys_emi_setup`. -/
def mapWord (base : ℕ) : BitVec 32 := BitVec.ofNat 32 ((base &&& 0xfff00000) >>> 20) ||| consysEmiRemapEn

/-- A field of twelve bits is read back if it is what the word has there. -/
theorem field_shiftLeft_iff {base : ℕ} (h : Reservable base) (word : ℕ) :
    (word &&& 0xfff) <<< 20 = base ↔ word % 2 ^ 12 = baseField base := by
  have hmask : 0xfff = 2 ^ 12 - 1 := rfl
  have hback := baseField_shiftLeft h
  rw [Nat.shiftLeft_eq] at hback
  rw [hmask, Nat.and_two_pow_sub_one_eq_mod, Nat.shiftLeft_eq]
  constructor
  · intro heq
    have hmul : word % 2 ^ 12 * 2 ^ 20 = baseField base * 2 ^ 20 := by rw [heq, hback]
    exact Nat.eq_of_mul_eq_mul_right (Nat.two_pow_pos 20) hmul
  · intro heq
    rw [heq, hback]

/-- What the poke leaves in the register. -/
def remapped (old : BitVec 32) (base : ℕ) : BitVec 32 := old ||| mapWord base ||| 0

theorem getLsbD_remapped {base : ℕ} (h : Reservable base) (old : BitVec 32) (i : ℕ) :
    (remapped old base).getLsbD i =
      (old.getLsbD i || (decide (i < 32) && (baseField base).testBit i) || decide (i = 12)) := by
  have hbit : consysEmiRemapEn = BitVec.twoPow 32 12 := rfl
  have hen : consysEmiRemapEn.getLsbD i = decide (i = 12) := by
    rw [hbit, BitVec.getLsbD_twoPow]
    simp [eq_comm]
  have hor : ∀ x : BitVec 32, x ||| 0 = x := fun _ => BitVec.or_zero
  rw [remapped, hor, mapWord, map_word h, BitVec.getLsbD_or, BitVec.getLsbD_or, BitVec.getLsbD_ofNat, hen,
    Bool.or_assoc]

/-- The field ends below the enable bit. -/
theorem baseField_testBit {base i : ℕ} (h : Reservable base) (hi : 12 ≤ i) :
    (baseField base).testBit i = false :=
  Nat.testBit_lt_two_pow ((baseField_lt h).trans_le (Nat.pow_le_pow_right (by decide) hi))

/-- Every bit of the field that was set before is set in the base. -/
def FieldWithin (old : BitVec 32) (base : ℕ) : Prop :=
  ∀ i < 12, old.getLsbD i = true → (baseField base).testBit i = true

instance (old : BitVec 32) (base : ℕ) : Decidable (FieldWithin old base) := by
  unfold FieldWithin; infer_instance

theorem decodedBase_remapped_iff {old : BitVec 32} {base : ℕ} (h : Reservable base) :
    decodedBase (remapped old base) = base ↔ FieldWithin old base := by
  refine (field_shiftLeft_iff h (remapped old base).toNat).trans ?_
  constructor
  · intro heq i hi hold
    rw [← heq, Nat.testBit_mod_two_pow, BitVec.testBit_toNat, getLsbD_remapped h, hold]
    simp [hi]
  · intro hwithin
    refine Nat.eq_of_testBit_eq fun i => ?_
    rw [Nat.testBit_mod_two_pow, BitVec.testBit_toNat, getLsbD_remapped h]
    by_cases hi : i < 12
    · have hne : i ≠ 12 := by omega
      have hlt : i < 32 := by omega
      have hbit := hwithin i hi
      cases hold : old.getLsbD i with
      | true => simp [hi, hbit hold]
      | false => simp [hi, hne, hlt]
    · simp [hi, baseField_testBit h (Nat.le_of_not_lt hi)]

/-! ### The window -/

theorem zeroedWindow_end (base : ℕ) :
    base + consysEmiCoredumpOff + consysEmiCoredumpSz = base + 855 * 1024 := by
  have hsum : consysEmiCoredumpOff + consysEmiCoredumpSz = 855 * 1024 := rfl
  rw [Nat.add_assoc, hsum]

theorem ctrlReads_of_decoded {emimap : BitVec 32} {base : ℕ} (hdecoded : decodedBase emimap = base) :
    ctrlReads emimap =
      if base = 0 then [] else (List.range 20).map fun i => base + 512 * 1024 + 4 * i := by
  have hfront : 0x80000 = 512 * 1024 := rfl
  have hcount : 80 / 4 = 20 := rfl
  rw [ctrlReads, hdecoded, hfront, hcount]
  by_cases hzero : base = 0
  · rw [if_pos hzero, if_neg (by omega)]
  · rw [if_neg hzero, if_pos (by omega)]

/-! ### Runs -/

/-- The registers and the base. -/
def Device.emi (d : Device) : (ℕ → BitVec 32) × ℕ := (d.regs, d.emiBase)

theorem step_emi : Within (Keeps Device.emi) step := .bind (fun _ => rfl) fun r => .ofExcept r

theorem failing_emi (err : Errno) : Within (Keeps Device.emi) (failing err) := by
  refine .bind (.attempt step_emi) fun r => ?_
  rcases r with e | _
  · exact .throw _
  · exact .pure _

theorem orErr_emi {α : Type} {p : DeviceM α} (hp : Within (Keeps Device.emi) p) (fmt : String)
    (args : Errno → List ℤ) : Within (Keeps Device.emi) (orErr p fmt args) :=
  .onError hp fun _ => .modify fun _ => rfl

/-- A setup that returns has poked the word and mapped the window. -/
theorem consysEmiSetup_ends (d₀ : Device) : Ends (·.emi = d₀.emi) consysEmiSetup
    (fun _ d => d.emi = (Function.update d₀.regs consysEmiMappingPa
      (remapped (d₀.regs consysEmiMappingPa) d₀.emiBase), d₀.emiBase))
    fun _ _ => True := by
  have hkeep : ∀ {p : DeviceM Unit}, Within (Keeps Device.emi) p → ∀ c,
      Ends (·.emi = c) p (fun _ d => d.emi = c) fun _ _ => True :=
    fun hp c => (Ends.of_keeps hp c).failing fun _ _ _ => trivial
  refine .bind (hkeep (orErr_emi (failing_emi _) _ _) _) fun _ =>
    .bind (hkeep (orErr_emi (failing_emi _) _ _) _) fun _ => .read fun d hd => ?_
  obtain ⟨hregs, hbase⟩ := Prod.ext_iff.mp hd
  refine .bind ?_ fun _ => hkeep (orErr_emi (failing_emi _) _ _) _
  refine .bind ((hkeep (orErr_emi (failing_emi _) _ _) d₀.emi).starting hd) fun _ => .modify fun d' hd' => ?_
  obtain ⟨hregs', hbase'⟩ := Prod.ext_iff.mp hd'
  have hregs₁ : d'.regs = d₀.regs := hregs'
  have hbase₁ : d.emiBase = d₀.emiBase := hbase
  refine Prod.ext ?_ hbase'
  change Function.update d'.regs _ _ = _
  rw [hregs₁, hbase₁]
  rfl

/-- The word agrees with the base for a reader, and the window behind it is zeroed. -/
structure Agrees (s s' : Soc) : Prop where
  base : decodedBase (s'.dev.regs consysEmiMappingPa) = s.dev.emiBase
  enabled : (s'.dev.regs consysEmiMappingPa).getLsbD 12 = true
  upper : ∀ i, 13 ≤ i → (s'.dev.regs consysEmiMappingPa).getLsbD i =
    (s.dev.regs consysEmiMappingPa).getLsbD i
  zeroed : ∀ a, s'.mem a =
    if s.dev.emiBase + 512 * 1024 ≤ a ∧ a < s.dev.emiBase + 855 * 1024 then 0 else s.mem a
  window : ctrlReads (s'.dev.regs consysEmiMappingPa) =
    if s.dev.emiBase = 0 then [] else (List.range 20).map fun i => s.dev.emiBase + 512 * 1024 + 4 * i

/-- What a setup that returns leaves. -/
theorem emiSetup_ends (s : Soc) : Ends (· = s) consysEmiSetupZeroed
    (fun _ s' => s'.dev.emi = (Function.update s.dev.regs consysEmiMappingPa
        (remapped (s.dev.regs consysEmiMappingPa) s.dev.emiBase), s.dev.emiBase) ∧
      ∀ a, s'.mem a = if s.dev.emiBase + consysEmiCoredumpOff ≤ a ∧
        a < s.dev.emiBase + consysEmiCoredumpOff + consysEmiCoredumpSz then 0 else s.mem a)
    fun _ _ => True := by
  refine .bind (I := fun _ s' => s'.dev.emi = (Function.update s.dev.regs consysEmiMappingPa
      (remapped (s.dev.regs consysEmiMappingPa) s.dev.emiBase), s.dev.emiBase) ∧ s'.mem = s.mem)
    (.zoom (consysEmiSetup_ends s.dev) ?_ ?_ ?_) fun _ => .read fun s' hs' => .modify fun s'' heq => ?_
  · exact fun s' hs' => congrArg _ (congrArg Soc.dev hs')
  · rintro s' - d rfl hd
    exact ⟨hd, rfl⟩
  · exact fun _ _ _ _ _ => trivial
  · subst heq
    refine ⟨hs'.1, fun a => ?_⟩
    have hbase : s''.dev.emiBase = s.dev.emiBase := congrArg Prod.snd hs'.1
    rw [hbase, hs'.2]

/-- The register after a setup that returns. -/
theorem emimap_after {s : Soc} (hok : outcome consysEmiSetupZeroed s = .ok ()) :
    (finalState consysEmiSetupZeroed s).dev.regs consysEmiMappingPa =
      remapped (s.dev.regs consysEmiMappingPa) s.dev.emiBase := by
  obtain ⟨hemi, -⟩ := (emiSetup_ends s).final_ok rfl hok
  have hall : (finalState consysEmiSetupZeroed s).dev.regs = Function.update s.dev.regs consysEmiMappingPa
    (remapped (s.dev.regs consysEmiMappingPa) s.dev.emiBase) := congrArg Prod.fst hemi
  rw [hall, Function.update_self]

/-- From a base in whole MiB below 4 GiB, what a setup that returns has written agrees with what the
    harvest takes out of it exactly if no stale bit of the field lies outside the base. -/
theorem emi_agrees_iff {s : Soc} (h : Reservable s.dev.emiBase)
    (hok : outcome consysEmiSetupZeroed s = .ok ()) :
    Agrees s (finalState consysEmiSetupZeroed s) ↔
      FieldWithin (s.dev.regs consysEmiMappingPa) s.dev.emiBase := by
  obtain ⟨-, hmem⟩ := (emiSetup_ends s).final_ok rfl hok
  have hregs := emimap_after hok
  rw [← decodedBase_remapped_iff h]
  refine ⟨fun hagrees => hregs ▸ hagrees.base, fun hdecoded => ⟨?_, ?_, ?_, ?_, ?_⟩⟩
  · rw [hregs, hdecoded]
  · rw [hregs, getLsbD_remapped h]
    simp
  · intro i hi
    have hne : i ≠ 12 := by omega
    rw [hregs, getLsbD_remapped h, baseField_testBit h (by omega)]
    simp [hne]
  · intro a
    rw [hmem, zeroedWindow_end]
    rfl
  · rw [hregs]
    exact ctrlReads_of_decoded hdecoded

/-- A device whose register holds what the boot loader left there. -/
def booted (emimap : BitVec 32) (base : ℕ) : Soc where
  dev := { poweredOff with regs := fun _ => emimap, emiBase := base }
  mem := fun _ => 0xff

theorem emi_agrees_iff_fresh :
    Agrees (booted 0 0xbfe00000) (finalState consysEmiSetupZeroed (booted 0 0xbfe00000)) ↔
    FieldWithin ((booted 0 0xbfe00000).dev.regs consysEmiMappingPa) (booted 0 0xbfe00000).dev.emiBase :=
  emi_agrees_iff ⟨rfl, by decide⟩ rfl

/-- A base of the boot loader's with a bit the reserved one does not have. -/
theorem stale_base_kept : outcome consysEmiSetupZeroed (booted 0x1401 0xbfe00000) = .ok () ∧
    ¬ Agrees (booted 0x1401 0xbfe00000) (finalState consysEmiSetupZeroed (booted 0x1401 0xbfe00000)) := by
  have hreserved : Reservable (booted 0x1401 0xbfe00000).dev.emiBase := ⟨rfl, by decide⟩
  refine ⟨rfl, fun hagrees => ?_⟩
  have hbase := hagrees.base
  rw [emimap_after rfl, decodedBase_remapped_iff hreserved] at hbase
  exact absurd hbase (by decide)

end GeminiLinux.Consys
