import GeminiLinux.Consys.Power
import GeminiLinux.Lib.Runs

/-! What a bind of the CONSYS driver takes and what is given back: the enable counts of the two rails, the
    usage count and the disable depth of runtime PM, and the enable count of the btif clock.

        bind:    vcn18 +1   vcn28 +1   depth -1   usage +1   btif +1 (or the gate fails before)
        failed:  each step back in reverse order
        unbind:  nothing, for the driver has no remove -/

namespace GeminiLinux.Consys
open Prog Runs

/-! ### The counters -/

/-- The counters that a bind changes. -/
@[ext] structure Held where
  vcn18 : ℕ
  vcn28 : ℕ
  usage : ℕ
  disableDepth : ℕ
  btifClk : ℕ
  deriving DecidableEq

def Device.held (d : Device) : Held where
  vcn18 := d.enables .vcn18
  vcn28 := d.enables .vcn28
  usage := d.usage
  disableDepth := d.disableDepth
  btifClk := d.btifClk

/-- The counters, and whether a driver is bound. -/
def Device.standing (d : Device) : Held × Bool := (d.held, d.bound)

/-- What a bind that succeeds leaves taken. -/
structure Taken (before after : Held) : Prop where
  vcn18 : after.vcn18 = before.vcn18 + 1
  vcn28 : after.vcn28 = before.vcn28 + 1
  usage : after.usage = before.usage + 1
  disableDepth : after.disableDepth + 1 = before.disableDepth
  btifClk : after.btifClk = before.btifClk ∨ after.btifClk = before.btifClk + 1

/-! ### Steps that take nothing -/

section Keeps

variable {α : Type} {p : DeviceM α}

theorem modify_keeps {f : Device → Device} (h : ∀ d, (f d).standing = d.standing) :
    Within (Keeps Device.standing) (modify f : DeviceM PUnit) := .modify h

theorem step_keeps : Within (Keeps Device.standing) step := .bind (fun _ => rfl) fun r => .ofExcept r

theorem failing_keeps (err : Errno) : Within (Keeps Device.standing) (failing err) := by
  refine .bind (.attempt step_keeps) fun r => ?_
  rcases r with e | _
  · exact .throw _
  · exact .pure _

theorem orErr_keeps (hp : Within (Keeps Device.standing) p) (fmt : String) (args : Errno → List ℤ) :
    Within (Keeps Device.standing) (orErr p fmt args) := .onError hp fun _ => modify_keeps fun _ => rfl

theorem devErrProbe_keeps (e : Errno) (fmt : String) :
    Within (Keeps Device.standing) (devErrProbe e fmt) := by
  rw [devErrProbe]
  split_ifs
  · exact .pure _
  · exact modify_keeps fun _ => rfl

theorem consysPoke_keeps (pa : ℕ) (setBits key : BitVec 32) (overwrite : Bool) (value : BitVec 32)
    (what : String) : Within (Keeps Device.standing) (consysPoke pa setBits key overwrite value what) :=
  .bind (orErr_keeps (failing_keeps _) _ _) fun _ => modify_keeps fun _ => rfl

theorem consysPokeClear_keeps (pa : ℕ) (clrBits key : BitVec 32) (what : String) :
    Within (Keeps Device.standing) (consysPokeClear pa clrBits key what) :=
  .bind (orErr_keeps (failing_keeps _) _ _) fun _ => modify_keeps fun _ => rfl

theorem consysEmiSetup_keeps : Within (Keeps Device.standing) consysEmiSetup :=
  .bind (orErr_keeps (failing_keeps _) _ _) fun _ => .bind (orErr_keeps (failing_keeps _) _ _) fun _ =>
    .bind .get fun _ => .bind (consysPoke_keeps _ _ _ _ _ _) fun _ => orErr_keeps (failing_keeps _) _ _

theorem domainOn_keeps : Within (Keeps Device.standing) domainOn := modify_keeps fun _ => rfl

theorem domainLetOff_keeps : Within (Keeps Device.standing) domainLetOff := by
  refine .bind (fun _ => rfl) fun off => ?_
  split_ifs
  · exact modify_keeps fun _ => rfl
  · exact .pure _

theorem devPmDomainAttach_keeps : Within (Keeps Device.standing) devPmDomainAttach :=
  .bind (fun _ => rfl) fun r => .bind (.ofExcept r) fun _ => domainOn_keeps

theorem pollChipId_keeps (n : ℕ) (id : BitVec 32) : Within (Keeps Device.standing) (pollChipId n id) := by
  induction n generalizing id with
  | zero => exact .pure _
  | succ n ih =>
    refine .bind (fun _ => rfl) fun id => ?_
    split_ifs
    · exact .pure _
    · exact ih id

theorem checkChipId_keeps : Within (Keeps Device.standing) checkChipId := by
  refine .bind (orErr_keeps (failing_keeps _) _ _) fun _ => .bind (pollChipId_keeps _ _) fun id => ?_
  split_ifs
  · exact .bind (modify_keeps fun _ => rfl) fun _ => .throw _
  · exact modify_keeps fun _ => rfl

end Keeps

/-! ### Steps that take and give back -/

/-- The counters and whether a driver is bound. -/
def Stands (held : Held) (bound : Bool) (d : Device) : Prop := d.standing = (held, bound)

section Stands

variable {held : Held} {bound : Bool} {α : Type} {p : DeviceM α}

theorem stands_iff {d : Device} : Stands held bound d ↔ d.held = held ∧ d.bound = bound := Prod.ext_iff

theorem stands_of_keeps (h : Within (Keeps Device.standing) p) :
    Ends (Stands held bound) p (fun _ => Stands held bound) fun _ => Stands held bound :=
  .of_keeps h (held, bound)

theorem orErr_stands {Q : α → Device → Prop} {held' : Held}
    (h : Ends (Stands held bound) p Q fun _ => Stands held' bound) (fmt : String) (args : Errno → List ℤ) :
    Ends (Stands held bound) (orErr p fmt args) Q fun _ => Stands held' bound :=
  .onError h fun _ => .modify fun _ h => h

theorem orErrProbe_stands {Q : α → Device → Prop}
    (h : Ends (Stands held bound) p Q fun _ => Stands held bound) (fmt : String) :
    Ends (Stands held bound) (orErrProbe p fmt) Q fun _ => Stands held bound :=
  .onError h fun e => stands_of_keeps (devErrProbe_keeps e fmt)

/-- Under a label the step above it is given back. -/
theorem unwinding_stands {Q : α → Device → Prop} {undo : DeviceM Unit} {held' held'' : Held}
    (h : Ends (Stands held bound) p Q fun _ => Stands held' bound)
    (hundo : Ends (Stands held' bound) undo (fun _ => Stands held'' bound) fun _ _ => False) :
    Ends (Stands held bound) (unwinding p undo) Q fun _ => Stands held'' bound :=
  .onError h fun _ => hundo.noError

theorem regulatorEnable_vcn18_stands : Ends (Stands held bound) (regulatorEnable .vcn18)
    (fun _ => Stands { held with vcn18 := held.vcn18 + 1 } bound) fun _ => Stands held bound := by
  refine .bind (stands_of_keeps step_keeps) fun _ => .modify fun d h => ?_
  obtain ⟨rfl, rfl⟩ := stands_iff.mp h
  simp [Stands, Device.standing, Device.held]

theorem regulatorEnable_vcn28_stands : Ends (Stands held bound) (regulatorEnable .vcn28)
    (fun _ => Stands { held with vcn28 := held.vcn28 + 1 } bound) fun _ => Stands held bound := by
  refine .bind (stands_of_keeps step_keeps) fun _ => .modify fun d h => ?_
  obtain ⟨rfl, rfl⟩ := stands_iff.mp h
  simp [Stands, Device.standing, Device.held]

theorem regulatorDisable_vcn18_stands : Ends (Stands { held with vcn18 := held.vcn18 + 1 } bound)
    (regulatorDisable .vcn18) (fun _ => Stands held bound) fun _ _ => False := by
  refine .modify fun d h => ?_
  obtain ⟨hheld, rfl⟩ := stands_iff.mp h
  simp_all [Stands, Device.standing, Device.held, Held.ext_iff]

theorem regulatorDisable_vcn28_stands : Ends (Stands { held with vcn28 := held.vcn28 + 1 } bound)
    (regulatorDisable .vcn28) (fun _ => Stands held bound) fun _ _ => False := by
  refine .modify fun d h => ?_
  obtain ⟨hheld, rfl⟩ := stands_iff.mp h
  simp_all [Stands, Device.standing, Device.held, Held.ext_iff]

theorem pmRuntimeEnable_stands : Ends (Stands held bound) pmRuntimeEnable
    (fun _ => Stands { held with disableDepth := held.disableDepth - 1 } bound) fun _ _ => False := by
  refine .modify fun d h => ?_
  obtain ⟨rfl, rfl⟩ := stands_iff.mp h
  simp [Stands, Device.standing, Device.held]

/-- Runtime PM that has been enabled is disabled again; an enable of what was enabled is not undone so. -/
theorem pmRuntimeDisable_stands (hdepth : 0 < held.disableDepth) :
    Ends (Stands { held with disableDepth := held.disableDepth - 1 } bound) pmRuntimeDisable
      (fun _ => Stands held bound) fun _ _ => False := by
  refine .modify fun d h => ?_
  obtain ⟨hheld, rfl⟩ := stands_iff.mp h
  simp_all [Stands, Device.standing, Device.held, Held.ext_iff]
  omega

theorem pmRuntimeResumeAndGet_stands : Ends (Stands held bound) pmRuntimeResumeAndGet
    (fun _ => Stands { held with usage := held.usage + 1 } bound) fun _ => Stands held bound := by
  refine .read fun d h => .cases (fun _ => .throw fun _ heq => heq ▸ h) fun _ =>
    .cases (fun _ => ?_) fun _ => ?_
  · refine .modify fun d' heq => ?_
    subst heq
    obtain ⟨rfl, rfl⟩ := stands_iff.mp h
    simp [Stands, Device.standing, Device.held]
  · refine .bind ((stands_of_keeps step_keeps).starting h)
      fun _ => .bind (stands_of_keeps domainOn_keeps) fun _ => .modify fun d' h' => ?_
    obtain ⟨rfl, rfl⟩ := stands_iff.mp h'
    simp [Stands, Device.standing, Device.held]

theorem pmRuntimePutSync_stands : Ends (Stands { held with usage := held.usage + 1 } bound) pmRuntimePutSync
    (fun _ => Stands held bound) fun _ => Stands held bound := by
  refine .bind (I := fun _ => Stands held bound) (.modify fun d h => ?_) fun _ => .read fun d h => ?_
  · obtain ⟨hheld, rfl⟩ := stands_iff.mp h
    simp_all [Stands, Device.standing, Device.held, Held.ext_iff]
  · have hletOff : Within (Keeps Device.standing)
        (do modify fun d : Device => { d with active := false }; domainLetOff) :=
      .bind (modify_keeps fun _ => rfl) fun _ => domainLetOff_keeps
    refine .cases (fun _ => ?_) fun _ => .pure fun _ heq => heq ▸ h
    exact (stands_of_keeps hletOff).starting h

/-- The counters with the domain powered and in use. -/
def Held.powered (held : Held) : Held :=
  { held with disableDepth := held.disableDepth - 1, usage := held.usage + 1 }

theorem powerConn_stands (hdepth : 0 < held.disableDepth) : Ends (Stands held bound) powerConn
    (fun _ => Stands held.powered bound) fun _ => Stands held bound := by
  refine .bind (pmRuntimeEnable_stands.noError) fun _ => ?_
  refine unwinding_stands ?_ (pmRuntimeDisable_stands hdepth)
  refine .bind (orErr_stands pmRuntimeResumeAndGet_stands _ _) fun _ => ?_
  refine .onError (stands_of_keeps checkChipId_keeps) fun _ => ?_
  exact pmRuntimePutSync_stands

theorem powerUp_stands (hdepth : 0 < held.disableDepth) : Ends (Stands held bound) powerUp
    (fun _ => Stands held.powered bound) fun _ => Stands held bound :=
  .bind (stands_of_keeps (consysPoke_keeps _ _ _ _ _ _)) fun _ =>
    .bind (stands_of_keeps (consysPoke_keeps _ _ _ _ _ _)) fun _ =>
    .bind (stands_of_keeps (consysPoke_keeps _ _ _ _ _ _)) fun _ => powerConn_stands hdepth

theorem probeRails_stands (hdepth : 0 < held.disableDepth) :
    Ends (Stands { held with vcn18 := held.vcn18 + 1 } bound) probeRails
      (fun _ => Stands { held.powered with vcn18 := held.vcn18 + 1, vcn28 := held.vcn28 + 1 } bound)
      fun _ => Stands held bound := by
  refine orErr_stands (unwinding_stands ?_ regulatorDisable_vcn18_stands) _ _
  refine .bind (orErr_stands regulatorEnable_vcn28_stands _ _) fun _ => ?_
  exact unwinding_stands (powerUp_stands hdepth) regulatorDisable_vcn28_stands

/-- The gate enables the btif clock or fails before, and disables it on no path. -/
theorem consysGateG2b_stands : Ends (Stands held bound) (attempt consysGateG2b)
    (fun _ d => ∃ clk, (clk = held.btifClk ∨ clk = held.btifClk + 1) ∧
      Stands { held with btifClk := clk } bound d)
    fun _ _ => False := by
  have hnot : ∀ d, Stands held bound d →
      ∃ clk, (clk = held.btifClk ∨ clk = held.btifClk + 1) ∧ Stands { held with btifClk := clk } bound d :=
    fun d h => ⟨held.btifClk, .inl rfl, h⟩
  have hclk : ∀ d, Stands { held with btifClk := held.btifClk + 1 } bound d →
      ∃ clk, (clk = held.btifClk ∨ clk = held.btifClk + 1) ∧ Stands { held with btifClk := clk } bound d :=
    fun d h => ⟨held.btifClk + 1, .inr rfl, h⟩
  refine .attempt ?_
  refine .bind ((stands_of_keeps consysEmiSetup_keeps).failing fun _ d h => hnot d h) fun _ => ?_
  refine .bind ((stands_of_keeps (orErr_keeps step_keeps _ _)).failing fun _ d h => hnot d h) fun _ => ?_
  refine .bind ((stands_of_keeps (orErr_keeps step_keeps _ _)).failing fun _ d h => hnot d h) fun _ => ?_
  refine .bind (I := fun _ => Stands { held with btifClk := held.btifClk + 1 } bound)
    (.modify fun d h => ?_) fun _ => ?_
  · obtain ⟨rfl, rfl⟩ := stands_iff.mp h
    simp [Stands, Device.standing, Device.held]
  · exact (stands_of_keeps (.bind (orErr_keeps (failing_keeps _) _ _) fun _ =>
      consysPokeClear_keeps _ _ _ _)).post (fun _ d h => hclk d h) fun _ d h => hclk d h

theorem probe_stands (hdepth : 0 < held.disableDepth) : Ends (Stands held bound) mtkConsysSpikeProbe
    (fun _ d => Taken held d.held ∧ d.bound = bound) fun _ => Stands held bound := by
  refine .bind (orErrProbe_stands (stands_of_keeps step_keeps) _) fun _ => ?_
  refine .bind (orErrProbe_stands (stands_of_keeps step_keeps) _) fun _ => ?_
  refine .bind (orErrProbe_stands regulatorEnable_vcn18_stands _) fun _ => ?_
  refine .bind (probeRails_stands hdepth) fun _ => ?_
  refine .bind (consysGateG2b_stands.noError) fun _ => ?_
  refine .pure fun d h => ?_
  obtain ⟨clk, hclk, hstands⟩ := h
  obtain ⟨hheld, hbound⟩ := stands_iff.mp hstands
  refine ⟨?_, hbound⟩
  rw [hheld]
  exact ⟨rfl, rfl, rfl, Nat.sub_add_cancel hdepth, hclk⟩

theorem platformProbe_stands (hdepth : 0 < held.disableDepth) : Ends (Stands held bound) platformProbe
    (fun _ d => Taken held d.held ∧ d.bound = true) fun _ => Stands held bound := by
  refine .bind (stands_of_keeps devPmDomainAttach_keeps) fun _ => ?_
  refine .bind (.onError (probe_stands hdepth) fun _ => stands_of_keeps domainLetOff_keeps) fun _ => ?_
  exact .modify fun d h => ⟨h.1, rfl⟩

end Stands

/-! ### Runs -/

/-- A device and its counters before the last bind. -/
abbrev Bound := Device × Held

def actStep (s : Bound) (a : Action) : Bound :=
  (finalState (act a) s.1, if a = .bind ∧ s.1.bound = false then s.1.held else s.2)

/-- While no driver is bound the counters are as they were before the last bind. -/
def Balanced (s : Bound) : Prop := s.1.bound = false → s.1.held = s.2

/-- The device is not unbound. -/
def NotUnbound (s : Bound) (a : Action) : Prop := a = .unbind → s.1.bound = false

/-- Runtime PM is disabled as long as no driver is bound; one that is has taken its share. -/
structure Steady (s : Bound) : Prop where
  depth : s.1.bound = false → 0 < s.1.held.disableDepth
  balanced : Balanced s
  taken : s.1.bound = true → Taken s.2 s.1.held

theorem act_unbind_bound {d : Device} (h : d.bound = true) :
    (finalState (act .unbind) d).held = d.held ∧ (finalState (act .unbind) d).bound = false := by
  rw [act, finalState_bind_ok _ (outcome_get d), finalState_get, if_pos h,
    finalState_bind_ok _ (devPmDomainDetach_ok d), finalState_modify]
  exact ⟨congrArg Prod.fst (domainLetOff_keeps d), rfl⟩

theorem act_powerOff_keeps : Within (Keeps Device.standing) (act .powerOff) := by
  refine .bind .get fun d => ?_
  split_ifs
  · exact .pure _
  · exact modify_keeps fun _ => rfl

/-- An action that changes neither the counters nor whether a driver is bound. -/
theorem Steady.keeps {s : Bound} (h : Steady s) {d : Device} (hd : Keeps Device.standing s.1 d) :
    Steady (d, s.2) := by
  obtain ⟨hheld, hbound⟩ := Prod.ext_iff.mp hd
  change d.held = s.1.held at hheld
  change d.bound = s.1.bound at hbound
  refine ⟨?_, ?_, ?_⟩
  · intro hunbound
    rw [hheld]
    exact h.depth (hbound ▸ hunbound)
  · intro hunbound
    exact hheld.trans (h.balanced (hbound ▸ hunbound))
  · intro hisBound
    rw [hheld]
    exact h.taken (hbound ▸ hisBound)

/-- A bind takes its share or gives back all that it has taken. -/
theorem Steady.bind {s : Bound} (h : Steady s) (hunbound : s.1.bound = false) :
    Steady (finalState (act .bind) s.1, s.1.held) := by
  rw [finalState_act_bind hunbound]
  have hends : Ends (Stands s.1.held false) platformProbe (fun _ d => Steady (d, s.1.held))
      fun _ d => Steady (d, s.1.held) := by
    refine (platformProbe_stands (h.depth hunbound)).post (fun _ d hd => ?_) fun _ d hd => ?_
    · refine ⟨?_, ?_, fun _ => hd.1⟩
      · intro hnot
        rw [hd.2] at hnot
        cases hnot
      · intro hnot
        rw [hd.2] at hnot
        cases hnot
    · obtain ⟨hheld, hbound⟩ := stands_iff.mp hd
      refine ⟨?_, fun _ => hheld, ?_⟩
      · intro _
        rw [hheld]
        exact h.depth hunbound
      · intro hisBound
        rw [hbound] at hisBound
        cases hisBound
  exact hends.final (stands_iff.mpr ⟨rfl, hunbound⟩)

theorem Steady.step {s : Bound} (h : Steady s) {a : Action} (ha : NotUnbound s a) :
    Steady (actStep s a) := by
  cases a with
  | bind =>
    cases hbound : s.1.bound with
    | true =>
      rw [actStep, if_neg (by simp [hbound])]
      refine h.keeps ?_
      rw [act, finalState_bind_ok _ (outcome_get s.1), finalState_get, if_pos hbound]
      rfl
    | false =>
      rw [actStep, if_pos ⟨rfl, hbound⟩]
      exact h.bind hbound
  | unbind =>
    rw [actStep, if_neg (by simp)]
    refine h.keeps ?_
    rw [act, finalState_bind_ok _ (outcome_get s.1), finalState_get, if_neg (by simp [ha rfl])]
    rfl
  | powerOff =>
    rw [actStep, if_neg (by simp)]
    exact h.keeps (act_powerOff_keeps s.1)

/-- The unbind gives nothing back of what the bind has taken. -/
theorem Steady.unbound {s : Bound} (h : Steady s) {a : Action} (ha : ¬ NotUnbound s a) :
    ¬ Balanced (actStep s a) := by
  simp only [NotUnbound, not_forall, Bool.not_eq_false] at ha
  obtain ⟨rfl, hbound⟩ := ha
  obtain ⟨hheld, hunbound⟩ := act_unbind_bound hbound
  rw [actStep, if_neg (by simp)]
  intro hbalanced
  have hsame : s.1.held = s.2 := hheld.symm.trans (hbalanced hunbound)
  have htaken := (h.taken hbound).vcn18
  rw [hsame] at htaken
  exact absurd htaken (by omega)

theorem steady_unbound {d : Device} (hunbound : d.bound = false) (hdepth : 0 < d.disableDepth) :
    Steady (d, d.held) :=
  ⟨fun _ => hdepth, fun _ => rfl, fun hbound => absurd (hunbound.symm.trans hbound) Bool.false_ne_true⟩

end GeminiLinux.Consys
