import GeminiLinux.Touch.VendorReport
import GeminiLinux.Lib.Runs

/-! The keys of the vendor's touch driver. A record names those that go down and those that go up; the driver
    looks at the bits one after another, but with all the higher ones still behind the one it looks at.

        keyup    1 0 1 0 0        keydata & (key << i): what the chip has told to be down, from bit i on
                     ▲ i          the first key that goes up is sent if any of them is down, and all are
                                  forgotten: the next one finds nothing left -/

namespace GeminiLinux.Solomon
open Runs

/-! ### The two loops -/

/-- With its low bits zero a number is left as it is. -/
theorem shiftRight_shiftLeft {u : BitVec 32} {n : ℕ} (h : ∀ i < n, u.getLsbD i = false) : u >>> n <<< n = u := by
  apply BitVec.eq_of_getLsbD_eq
  intro i hi
  rw [BitVec.getLsbD_shiftLeft, BitVec.getLsbD_ushiftRight]
  by_cases hin : i < n
  · rw [h i hin, decide_eq_true hin, Bool.not_true, Bool.and_false, Bool.false_and]
  · rw [decide_eq_true hi, decide_eq_false hin, Nat.add_sub_cancel' (Nat.le_of_not_lt hin)]
    simp

/-- What is left of a number is in it. -/
theorem and_shifted_of_and {kd u : BitVec 32} (n : ℕ) (h : kd &&& u = 0) : kd &&& u >>> n <<< n = 0 := by
  apply BitVec.eq_of_getLsbD_eq
  intro i hi
  have hbit := congrArg (BitVec.getLsbD · i) h
  simp only [BitVec.getLsbD_and] at hbit
  rw [BitVec.getLsbD_and, BitVec.getLsbD_shiftLeft, BitVec.getLsbD_ushiftRight]
  by_cases hin : i < n
  · rw [decide_eq_true hin]
    simp
  · rw [decide_eq_true hi, decide_eq_false hin, Nat.add_sub_cancel' (Nat.le_of_not_lt hin)]
    simpa using hbit

theorem or_shifted (kd u : BitVec 32) (n : ℕ) : kd ||| u ||| u >>> n <<< n = kd ||| u := by
  apply BitVec.eq_of_getLsbD_eq
  intro i hi
  rw [BitVec.getLsbD_or, BitVec.getLsbD_or, BitVec.getLsbD_shiftLeft, BitVec.getLsbD_ushiftRight]
  by_cases hin : i < n
  · rw [decide_eq_true hin]
    simp
  · rw [decide_eq_true hi, decide_eq_false hin, Nat.add_sub_cancel' (Nat.le_of_not_lt hin)]
    cases u.getLsbD i <;> simp

/-- The keys of a mask. -/
def keysOf (u : BitVec 32) : List ℕ := (List.range maxDeviceKeymapSize).filter u.getLsbD

/-- Its lowest key. -/
def lowest (n : ℕ) (u : BitVec 32) : Option ℕ := (List.range n).find? u.getLsbD

theorem lowest_succ (n : ℕ) (u : BitVec 32) :
    lowest (n + 1) u = (lowest n u).or (if u.getLsbD n then some n else none) := by
  rw [lowest, List.range_succ, List.find?_append, lowest]
  congr 1
  cases hbit : u.getLsbD n <;> simp [hbit]

theorem lowest_eq_none {n : ℕ} {u : BitVec 32} (h : lowest n u = none) : ∀ i < n, u.getLsbD i = false := by
  intro i hi
  have hall := List.find?_eq_none.mp h i (List.mem_range.mpr hi)
  exact Bool.eq_false_iff.mpr hall

/-- The keys that go down are all sent, and all remembered. -/
theorem foldl_downBit (d : BitVec 32) (r : Reporter) (n : ℕ) :
    (List.range n).foldl (downBit d) r =
      { r.emit (((List.range n).filter d.getLsbD).flatMap fun i => solomonSendKey (keyAt i) true) with
        keydata := if lowest n d = none then r.keydata else r.keydata ||| d } := by
  induction n with
  | zero =>
    show r = { r.emit [] with keydata := r.keydata }
    rw [Reporter.emit, List.append_nil]
  | succ n ih =>
    rw [List.range_succ, List.foldl_append, ih, List.foldl_cons, List.foldl_nil, downBit, lowest_succ,
      List.filter_append, List.flatMap_append]
    by_cases hbit : d.getLsbD n = true
    · rw [if_pos hbit, if_pos hbit, List.filter_cons_of_pos hbit, List.filter_nil, List.flatMap_singleton]
      cases hlow : lowest n d with
      | none =>
        simp only [Reporter.emit, List.append_assoc, if_true, Option.none_or, reduceCtorEq, if_false,
          shiftRight_shiftLeft (lowest_eq_none hlow)]
      | some m =>
        simp only [Reporter.emit, List.append_assoc, Option.some_or, reduceCtorEq, if_false, or_shifted]
    · rw [if_neg hbit, if_neg hbit, List.filter_cons_of_neg hbit, List.filter_nil, List.flatMap_nil, List.append_nil,
        Option.or_none]

/-- Of the keys that go up one is sent, the lowest, if any of them was down; and all are forgotten. -/
theorem foldl_upBit (u : BitVec 32) (r : Reporter) (n : ℕ) :
    (List.range n).foldl (upBit u) r =
      match lowest n u with
      | none => r
      | some m =>
        if r.keydata &&& u = 0 then r
        else { r.emit (solomonSendKey (keyAt m) false) with keydata := r.keydata &&& ~~~u } := by
  induction n with
  | zero => rfl
  | succ n ih =>
    rw [List.range_succ, List.foldl_append, ih, List.foldl_cons, List.foldl_nil, lowest_succ, upBit]
    cases hlow : lowest n u with
    | none =>
      simp only [Option.none_or]
      by_cases hbit : u.getLsbD n = true
      · simp only [if_pos hbit, shiftRight_shiftLeft (lowest_eq_none hlow)]
      · simp only [if_neg hbit]
    | some m =>
      simp only [Option.some_or]
      by_cases hnone : r.keydata &&& u = 0
      · simp only [if_pos hnone, and_shifted_of_and n hnone, if_true, ite_self]
      · have hgone : r.keydata &&& ~~~u &&& u = 0 := by
          rw [BitVec.and_assoc, BitVec.and_comm (~~~u), BitVec.and_not_self]
          exact BitVec.and_zero
        simp only [if_neg hnone, and_shifted_of_and n hgone, if_true, ite_self]

/-! ### Runs -/

/-- A record of keys: those that go down, and those that go up. -/
abbrev KeyRecord := BitVec 16 × BitVec 16

/-- The driver, and the keys that are down as the chip has told. -/
structure Keyboard where
  reporter : Reporter
  told : BitVec 32

def Keyboard.step (k : Keyboard) (rec : KeyRecord) : Keyboard where
  reporter := ssd20xxSendKey rec.1 rec.2 k.reporter
  told := (k.told ||| rec.1.setWidth 32) &&& ~~~rec.2.setWidth 32

/-- Of the keys that go up, those that are down. -/
def Keyboard.goingUp (k : Keyboard) (rec : KeyRecord) : List ℕ :=
  (keysOf (rec.2.setWidth 32)).filter (k.told ||| rec.1.setWidth 32).getLsbD

/-- All keys of the record are sent: down those that go down, and up those that are down and go up. -/
def SendsAll (k : Keyboard) (rec : KeyRecord) : Prop :=
  (ssd20xxSendKey rec.1 rec.2 k.reporter).out = k.reporter.out ++
    (keysOf (rec.1.setWidth 32)).flatMap (fun i => solomonSendKey (keyAt i) true) ++
    (k.goingUp rec).flatMap fun i => solomonSendKey (keyAt i) false

/-- At most one key goes up that is down, and with the code of the lowest in the record. -/
def OneGoesUp (k : Keyboard) (rec : KeyRecord) : Prop :=
  k.goingUp rec = [] ∨ ∃ i j, k.goingUp rec = [i] ∧ lowest maxDeviceKeymapSize (rec.2.setWidth 32) = some j ∧
    keyAt i = keyAt j

/-- Sixteen bits have their lowest one among the keys. -/
theorem eq_zero_of_lowest {d : BitVec 16} (h : lowest maxDeviceKeymapSize (d.setWidth 32) = none) :
    d.setWidth 32 = (0 : BitVec 32) := by
  apply BitVec.eq_of_getLsbD_eq
  intro i _
  have hzero : (0 : BitVec 32).getLsbD i = false := BitVec.getLsbD_zero
  rw [hzero]
  by_cases hi : i < 16
  · exact lowest_eq_none h i hi
  · rw [BitVec.getLsbD_setWidth, BitVec.getLsbD_of_ge d i (Nat.le_of_not_lt hi), Bool.and_false]

theorem and_eq_zero_iff {k : Keyboard} {rec : KeyRecord} :
    (k.told ||| rec.1.setWidth 32) &&& rec.2.setWidth 32 = 0 ↔ k.goingUp rec = [] := by
  rw [Keyboard.goingUp, keysOf, List.filter_filter, List.filter_eq_nil_iff]
  constructor
  · intro hand i _ hboth
    have hbit := congrArg (BitVec.getLsbD · i) hand
    simp only [BitVec.getLsbD_and] at hbit
    rw [Bool.and_eq_true] at hboth
    rw [hboth.1, hboth.2] at hbit
    simp at hbit
  · intro hnone
    apply BitVec.eq_of_getLsbD_eq
    intro i _
    have hzero : (0 : BitVec 32).getLsbD i = false := BitVec.getLsbD_zero
    rw [hzero, BitVec.getLsbD_and]
    by_cases hi : i < 16
    · exact Bool.eq_false_iff.mpr (hnone i (List.mem_range.mpr hi))
    · have hge : (rec.2.setWidth 32).getLsbD i = false := by
        rw [BitVec.getLsbD_setWidth, BitVec.getLsbD_of_ge rec.2 i (Nat.le_of_not_lt hi), Bool.and_false]
      rw [hge, Bool.and_false]

/-- The driver remembers the keys that are down. -/
def Remembers (k : Keyboard) : Prop := k.reporter.keydata = k.told

variable {k : Keyboard} {rec : KeyRecord}

/-- What is sent of a record and what is remembered. -/
theorem sendKey_eq (h : Remembers k) : ssd20xxSendKey rec.1 rec.2 k.reporter =
    { (k.reporter.emit ((keysOf (rec.1.setWidth 32)).flatMap fun i => solomonSendKey (keyAt i) true)).emit
        (if k.goingUp rec = [] then []
          else ((lowest maxDeviceKeymapSize (rec.2.setWidth 32)).map fun m => solomonSendKey (keyAt m) false).getD []) with
      keydata := (k.told ||| rec.1.setWidth 32) &&& ~~~rec.2.setWidth 32 } := by
  have hdown : (if lowest maxDeviceKeymapSize (rec.1.setWidth 32) = none then k.reporter.keydata
      else k.reporter.keydata ||| rec.1.setWidth 32) = k.told ||| rec.1.setWidth 32 := by
    rw [h]
    split_ifs with hlow
    · rw [eq_zero_of_lowest hlow]
      exact BitVec.or_zero.symm
    · rfl
  rw [ssd20xxSendKey, foldl_downBit, hdown, foldl_upBit]
  cases hlow : lowest maxDeviceKeymapSize (rec.2.setWidth 32) with
  | none =>
    have hzero := eq_zero_of_lowest hlow
    have hkeep : (k.told ||| rec.1.setWidth 32) &&& ~~~rec.2.setWidth 32 = k.told ||| rec.1.setWidth 32 := by
      rw [hzero]
      exact BitVec.and_allOnes
    rw [hkeep]
    simp only [Option.map_none, Option.getD_none, ite_self, Reporter.emit, List.append_nil, keysOf]
  | some m =>
    simp only
    by_cases hnone : k.goingUp rec = []
    · have hand := and_eq_zero_iff.mpr hnone
      have hkeep : (k.told ||| rec.1.setWidth 32) &&& ~~~rec.2.setWidth 32 = k.told ||| rec.1.setWidth 32 := by
        apply BitVec.eq_of_getLsbD_eq
        intro i hi
        have hbit := congrArg (BitVec.getLsbD · i) hand
        simp only [BitVec.getLsbD_and] at hbit
        rw [BitVec.getLsbD_and, BitVec.getLsbD_not, decide_eq_true hi]
        cases hb : (rec.2.setWidth 32).getLsbD i <;> simp_all
      rw [if_pos hand, hkeep, if_pos hnone]
      simp only [Reporter.emit, List.append_nil, keysOf]
    · have hand := mt and_eq_zero_iff.mp hnone
      rw [if_neg hand, if_neg hnone]
      rfl

theorem remembers_step (h : Remembers k) : Remembers (k.step rec) := by
  rw [Remembers, Keyboard.step, sendKey_eq h]

/-- All is sent exactly if no key has to be sent that is not the one that the driver sends. -/
theorem sendsAll_iff (h : Remembers k) : SendsAll k rec ↔ OneGoesUp k rec := by
  rw [SendsAll, OneGoesUp, sendKey_eq h]
  simp only [Reporter.emit, List.append_right_inj]
  cases hup : k.goingUp rec with
  | nil => simp
  | cons i rest =>
    rw [if_neg (List.cons_ne_nil i rest)]
    cases hlow : lowest maxDeviceKeymapSize (rec.2.setWidth 32) with
    | none =>
      have hzero := eq_zero_of_lowest hlow
      have hand : (k.told ||| rec.1.setWidth 32) &&& rec.2.setWidth 32 = 0 := by
        rw [hzero]
        exact BitVec.and_zero
      rw [and_eq_zero_iff.mp hand] at hup
      cases hup
    | some m =>
      constructor
      · intro hsent
        refine .inr ⟨i, m, ?_, rfl, ?_⟩
        · cases rest with
          | nil => rfl
          | cons j rest => simp [solomonSendKey] at hsent
        · simp [solomonSendKey] at hsent
          exact hsent.1.symm
      · rintro (hnil | ⟨i', j, hone, hj, hcode⟩)
        · cases hnil
        · cases hj
          rw [hone, List.flatMap_singleton, hcode]
          rfl

/-- Over every run of key records: each of them is sent in full exactly if no two keys go up in one of them that
    are down, and none does together with a lower one that is not. The others stay down for the receiver. -/
theorem keys_sent_iff (lpmEnds : Stream' Bool) (recs : List KeyRecord) :
    Steps Keyboard.step SendsAll ⟨Reporter.start lpmEnds, 0⟩ recs ↔
      Steps Keyboard.step OneGoesUp ⟨Reporter.start lpmEnds, 0⟩ recs := by
  have hkeep (P : Keyboard → KeyRecord → Prop) (k : Keyboard) (rec : KeyRecord) (h : Remembers k) (_ : P k rec) :
      Remembers (k.step rec) := remembers_step h
  constructor
  · exact steps_of_steps (hkeep SendsAll) (fun k rec h => (sendsAll_iff h).mp) rfl
  · exact steps_of_steps (hkeep OneGoesUp) (fun k rec h => (sendsAll_iff h).mpr) rfl

end GeminiLinux.Solomon
