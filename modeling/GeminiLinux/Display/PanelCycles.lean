import GeminiLinux.Display.Panel

/-! The panel under the DRM core. An on/off cycle calls prepare, enable, disable and unprepare, whatever
    each of them returns.

        drm_panel_prepare ─▶ drm_panel_enable ─▶ drm_panel_disable ─▶ drm_panel_unprepare

    The core has two flags of its own. A prepare that fails leaves `prepared` clear, and unprepare is then
    skipped; enable and disable look only at `enabled`. -/

namespace GeminiLinux.PanelSsd2092
open Prog Runs

/-- `struct drm_panel`, with the driver's panel in it. -/
structure DrmPanel where
  panel : Panel
  prepared : Bool
  enabled : Bool

abbrev DrmM := EStateM Errno DrmPanel

/-- A callback of the driver. -/
def callback (p : PanelM Unit) : DrmM Unit := zoom DrmPanel.panel (fun panel d => { d with panel }) p

def drmPanelPrepare (outcomes : Stream' (Except Errno Unit)) : DrmM Unit := do
  if (← get).prepared then pure ()
  else do
    callback (Call.prepare outcomes).prog
    modify fun d => { d with prepared := true }

def drmPanelEnable : DrmM Unit := do
  if (← get).enabled then pure ()
  else do
    callback ssd2092Enable
    modify fun d => { d with enabled := true }

def drmPanelDisable : DrmM Unit := do
  if !(← get).enabled then pure ()
  else do
    callback ssd2092Disable
    modify fun d => { d with enabled := false }

def drmPanelUnprepare : DrmM Unit := do
  if !(← get).prepared then pure ()
  else do
    callback ssd2092Unprepare
    modify fun d => { d with prepared := false }

def Call.drm : Call → DrmM Unit
  | .prepare outcomes => drmPanelPrepare outcomes
  | .enable => drmPanelEnable
  | .disable => drmPanelDisable
  | .unprepare => drmPanelUnprepare

/-- The bridge ignores what a call returns. -/
def drmStep (d : DrmPanel) (c : Call) : DrmPanel := finalState c.drm d

/-- One on/off cycle. -/
def cycle (outcomes : Stream' (Except Errno Unit)) : List Call :=
  [.prepare outcomes, .enable, .disable, .unprepare]

structure DrmPanel.Probed (d : DrmPanel) : Prop where
  panel : PanelSsd2092.Probed d.panel
  prepared : d.prepared = false
  enabled : d.enabled = false

def Act.needsPower : Act → Bool
  | .backlightEnable => true
  | .setDisplayOff => true
  | .enterSleepMode => true
  | _ => false

def Priv.Ready (s : Priv) : Prop := s.prepared = true ∧ s.Powered

/-- The backlight has been enabled, and display-off and sleep-in have been sent, only to a prepared panel,
    and the backlight is on only over one. -/
structure Lawful (d : DrmPanel) : Prop where
  acts : ∀ e ∈ d.panel.acts, e.act.needsPower = true → e.priv.Ready
  lit : d.panel.priv.backlight = some true → d.panel.priv.Ready

/-- The call of a cycle that needs the panel to have power: the enable, or the disable where there is no
    backlight. -/
def firstNeed (backlight : Option Bool) : ℕ := if backlight.isSome then 1 else 2

/-- In each cycle that gets to its call of number `need`, all steps of the prepare succeed. -/
def PreparesSucceed (need : ℕ) (cycles : List (Stream' (Except Errno Unit))) (length : ℕ) : Prop :=
  ∀ i outcomes, cycles[i]? = some outcomes → 4 * i + need < length →
    firstError prepareSteps outcomes = .ok ()

/-! ### Callbacks -/

/-- The driver's panel is `P`, with the core's flags. -/
structure Flags (P : Panel → Prop) (prepared enabled : Bool) (d : DrmPanel) : Prop where
  panel : P d.panel
  prepared : d.prepared = prepared
  enabled : d.enabled = enabled

section Callbacks

variable {P P' : Panel → Prop} {E : Errno → Panel → Prop} {p : PanelM Unit} {prepared enabled : Bool}
  {d : DrmPanel}

theorem callback_ends (h : Ends P p (fun _ => P') E) : Ends (Flags P prepared enabled) (callback p)
    (fun _ => Flags P' prepared enabled) fun e => Flags (E e) prepared enabled :=
  .zoom h (fun _ hd => hd.panel) (fun _ _ _ hd hp => ⟨hp, hd.prepared, hd.enabled⟩)
    fun _ _ _ hd hp => ⟨hp, hd.prepared, hd.enabled⟩

/-- A callback that does not fail. -/
theorem callback_returns (h : Ends P p (fun _ => P') fun _ _ => False) :
    Ends (Flags P prepared enabled) (callback p) (fun _ => Flags P' prepared enabled) fun _ _ => False :=
  (callback_ends h).failing fun _ _ hd => hd.panel

/-- The core's own flag does not touch the driver's panel. -/
theorem panel_callback_bind (p : PanelM Unit) (f : DrmPanel → DrmPanel) (d : DrmPanel)
    (hf : ∀ d, (f d).panel = d.panel) :
    (finalState (callback p >>= fun _ => modify f) d).panel = finalState p d.panel := by
  have hcallback : (finalState (callback p) d).panel = finalState p d.panel := by
    rw [callback, finalState_zoom]
  rw [finalState_bind]
  rcases outcome (callback p) d with e | _
  · exact hcallback
  · exact (hf _).trans hcallback

theorem drmPanelPrepare_ends {outcomes : Stream' (Except Errno Unit)}
    (h : Ends P (Call.prepare outcomes).prog (fun _ => P') E) : Ends (Flags P false enabled)
      (drmPanelPrepare outcomes)
      (fun _ => Flags P' true enabled) fun e => Flags (E e) false enabled := by
  refine .read fun d hd => ?_
  rw [if_neg (by simp [hd.prepared])]
  exact .bind ((callback_ends h).starting hd) fun _ => .modify fun _ hd => { hd with prepared := rfl }

theorem Flags.enable (h : Ends P ssd2092Enable (fun _ => P') fun _ _ => False)
    (hd : Flags P prepared false d) : Flags P' prepared true (drmStep d .enable) := by
  have hends : Ends (Flags P prepared false) drmPanelEnable (fun _ => Flags P' prepared true)
    fun _ _ => False := by
    refine .read fun d hd => ?_
    rw [if_neg (by simp [hd.enabled])]
    exact .bind ((callback_returns h).starting hd) fun _ => .modify fun _ hd => { hd with enabled := rfl }
  exact hends.noError.final hd

theorem Flags.disable (h : Ends P ssd2092Disable (fun _ => P') fun _ _ => False)
    (hd : Flags P prepared true d) : Flags P' prepared false (drmStep d .disable) := by
  have hends : Ends (Flags P prepared true) drmPanelDisable (fun _ => Flags P' prepared false)
    fun _ _ => False := by
    refine .read fun d hd => ?_
    rw [if_neg (by simp [hd.enabled])]
    exact .bind ((callback_returns h).starting hd) fun _ => .modify fun _ hd => { hd with enabled := rfl }
  exact hends.noError.final hd

theorem Flags.unprepare (h : Ends P ssd2092Unprepare (fun _ => P') fun _ _ => False)
    (hd : Flags P true enabled d) : Flags P' false enabled (drmStep d .unprepare) := by
  have hends : Ends (Flags P true enabled) drmPanelUnprepare (fun _ => Flags P' false enabled)
    fun _ _ => False := by
    refine .read fun d hd => ?_
    rw [if_neg (by simp [hd.prepared])]
    exact .bind ((callback_returns h).starting hd) fun _ => .modify fun _ hd => { hd with prepared := rfl }
  exact hends.noError.final hd

end Callbacks

/-! ### One cycle -/

/-- What needs power is done to a panel that is ready. -/
def ReadyFor (e : Entry) : Prop := e.act.needsPower = true → e.priv.Ready

theorem allows_readyFor : Allows ReadyFor where
  init a s ha _ := by
    cases a <;> simp_all [Act.isInit, ReadyFor, Act.needsPower]
  msleep _ _ := nofun

/-- The panel is `s`, and everything has been done to a panel that was ready. -/
def Held (s : Priv) (p : Panel) : Prop := ∃ outcomes, At ReadyFor s outcomes p

theorem of_true_ready (backlight : Option Bool) (enabled : Bool) : (Priv.of true backlight enabled).Ready :=
  ⟨rfl, Nat.one_pos, Nat.one_pos, rfl⟩

theorem Does.held {s s' : Priv} {p : PanelM Unit} (h : Does ReadyFor s s' p) :
    Ends (Held s) p (fun _ => Held s') fun _ _ => False :=
  .of_exists fun outcomes => (h outcomes).returning fun _ _ h => ⟨_, h⟩

section Cycle

variable {d : DrmPanel} {prepared enabled : Bool} {backlight : Option Bool} {s : Priv}
  {cycles : List (Stream' (Except Errno Unit))}

theorem Flags.lawful (h : Flags (Held s) prepared enabled d) (hs : s.backlight = some true → s.Ready) :
    Lawful d := by
  obtain ⟨outcomes, hp⟩ := h.panel
  refine ⟨hp.acts, ?_⟩
  intro hlit
  rw [hp.priv] at hlit ⊢
  exact hs hlit

theorem prepare_succeeds {outcomes : Stream' (Except Errno Unit)}
    (hok : firstError prepareSteps outcomes = .ok ())
    (h : Flags (Held (.of false backlight enabled)) false false d) :
    Flags (Held (.of true backlight enabled)) true false (drmStep d (.prepare outcomes)) := by
  have hprog : Ends (Held (.of false backlight enabled)) (Call.prepare outcomes).prog
      (fun _ => Held (.of true backlight enabled)) fun _ _ => False := by
    refine .of_exists fun outcomes' => (prepare_ends allows_readyFor outcomes outcomes').post ?_ ?_
    · rintro _ p ⟨_, rest, hp⟩
      exact ⟨rest, hp⟩
    · rintro e p ⟨herror, _⟩
      simp [hok] at herror
  refine Ends.final (R := Flags (Held (.of true backlight enabled)) true false) ?_ h
  exact (drmPanelPrepare_ends hprog).failing fun _ _ h => h.panel.elim

theorem prepare_fails {outcomes : Stream' (Except Errno Unit)}
    (herror : firstError prepareSteps outcomes ≠ .ok ())
    (h : Flags (Held (.of false backlight enabled)) false false d) :
    Flags (Held (.of false backlight enabled)) false false (drmStep d (.prepare outcomes)) := by
  have hprog : Ends (Held (.of false backlight enabled)) (Call.prepare outcomes).prog
      (fun _ _ => False) fun _ => Held (.of false backlight enabled) := by
    refine .of_exists fun outcomes' => (prepare_ends allows_readyFor outcomes outcomes').post ?_ ?_
    · rintro _ p ⟨hok, _⟩
      simp [herror] at hok
    · rintro e p ⟨_, rest, hp⟩
      exact ⟨rest, hp⟩
  refine Ends.final (R := Flags (Held (.of false backlight enabled)) false false) ?_ h
  exact (drmPanelPrepare_ends hprog).returning fun _ _ h => h.panel.elim

theorem enable_ready (h : Flags (Held (.of true backlight false)) prepared false d) :
    Flags (Held (.of true (backlight.map fun _ => true) true)) prepared true (drmStep d .enable) :=
  h.enable (enable_off fun _ _ => of_true_ready _ _).held

theorem disable_ready (h : Flags (Held (.of true backlight true)) prepared true d) :
    Flags (Held (.of true (backlight.map fun _ => false) false)) prepared false (drmStep d .disable) :=
  h.disable (disable_on allows_readyFor nofun (fun _ _ => of_true_ready _ _) fun _ _ =>
    of_true_ready _ _).held

theorem unprepare_ready (h : Flags (Held (.of true backlight enabled)) true false d) :
    Flags (Held (.of false backlight enabled)) false false (drmStep d .unprepare) :=
  h.unprepare (unprepare_on allows_readyFor).held

/-- Without a backlight an enable does nothing to the panel. -/
theorem enable_dark (h : Flags (Held (.of false none false)) prepared false d) :
    Flags (Held (.of false none true)) prepared true (drmStep d .enable) := by
  have hprog : Does ReadyFor (.of false none false) (.of false none true) ssd2092Enable := enable_off nofun
  exact h.enable hprog.held

/-- With one it lights a panel that has no power. -/
theorem enable_lights {lit : Bool} (h : Flags (Held (.of false (some lit) false)) prepared false d) :
    ¬ Lawful (drmStep d .enable) := by
  obtain ⟨outcomes, hp⟩ := h.panel
  have hpanel : (drmStep d .enable).panel = finalState ssd2092Enable d.panel := by
    show (finalState drmPanelEnable d).panel = _
    rw [drmPanelEnable, finalState_bind_ok _ (outcome_get d), finalState_get, if_neg (by simp [h.enabled])]
    exact panel_callback_bind _ _ _ fun _ => rfl
  have hpriv : (drmStep d .enable).panel.priv = .of false (some true) true := by
    rw [hpanel]
    simp [ssd2092Enable, setBacklight, act, change, finalState, bind_apply, hp.priv, Priv.of]
  intro hlawful
  have hready := hlawful.lit (by rw [hpriv]; rfl)
  rw [hpriv] at hready
  exact absurd hready.1 Bool.false_ne_true

/-- Then a disable writes to a panel that has no power. -/
theorem disable_writes (h : Flags (Held (.of false none true)) prepared true d) :
    ¬ Lawful (drmStep d .disable) := by
  obtain ⟨outcomes, hp⟩ := h.panel
  have hpanel : (drmStep d .disable).panel = finalState ssd2092Disable d.panel := by
    show (finalState drmPanelDisable d).panel = _
    rw [drmPanelDisable, finalState_bind_ok _ (outcome_get d), finalState_get, if_neg (by simp [h.enabled])]
    exact panel_callback_bind _ _ _ fun _ => rfl
  have hsent : ⟨.setDisplayOff, .of false none true⟩ ∈ (drmStep d .disable).panel.acts := by
    rw [hpanel]
    simp [ssd2092Disable, setBacklight, act, msleep, change, finalState, bind_apply, hp.priv, Priv.of]
  intro hlawful
  exact absurd (hlawful.acts _ hsent rfl).1 Bool.false_ne_true

/-! ### Every run of cycles -/

theorem cycle_cases {outcomes : Stream' (Except Errno Unit)} {calls rest : List Call}
    (h : calls <+: cycle outcomes ++ rest) : calls = [] ∨ calls = [.prepare outcomes] ∨
      calls = [.prepare outcomes, .enable] ∨ calls = [.prepare outcomes, .enable, .disable] ∨
      ∃ calls', calls' <+: rest ∧
        calls = .prepare outcomes :: .enable :: .disable :: .unprepare :: calls' := by
  rcases List.prefix_cons_iff.mp h with rfl | ⟨_, rfl, henable⟩
  · simp
  rcases List.prefix_cons_iff.mp henable with rfl | ⟨_, rfl, hdisable⟩
  · simp
  rcases List.prefix_cons_iff.mp hdisable with rfl | ⟨_, rfl, hunprepare⟩
  · simp
  rcases List.prefix_cons_iff.mp hunprepare with rfl | ⟨calls', rfl, hrest⟩
  · simp
  · simpa using hrest

theorem preparesSucceed_cons {need n : ℕ} {outcomes : Stream' (Except Errno Unit)}
    {cycles : List (Stream' (Except Errno Unit))} : PreparesSucceed need (outcomes :: cycles) n ↔
      (need < n → firstError prepareSteps outcomes = .ok ()) ∧ PreparesSucceed need cycles (n - 4) := by
  constructor
  · intro h
    refine ⟨fun hn => h 0 outcomes rfl (by omega), fun i outcomes' hi hn =>
      h (i + 1) outcomes' hi (by omega)⟩
  · rintro ⟨hfirst, hrest⟩ i outcomes' hi hn
    cases i with
    | zero =>
      cases hi
      exact hfirst (by omega)
    | succ i => exact hrest i outcomes' hi (by omega)

theorem preparesSucceed_none {need : ℕ} : PreparesSucceed need cycles 0 :=
  fun _ _ _ h => absurd h (Nat.not_lt_zero _)

/-- A cycle whose prepare succeeds is lawful, and leaves the rest to the cycles after it. -/
theorem cycle_succeeds {outcomes : Stream' (Except Errno Unit)} {calls rest : List Call}
    (hlit : backlight ≠ some true) (h : Flags (Held (.of false backlight false)) false false d)
    (hok : firstError prepareSteps outcomes = .ok ()) (hcalls : calls <+: cycle outcomes ++ rest)
    (hrest : ∀ calls' d', calls' <+: rest → Flags (Held (.of false backlight false)) false false d' →
      (Always drmStep Lawful d' calls' ↔ PreparesSucceed (firstNeed backlight) cycles calls'.length)) :
    Always drmStep Lawful d calls ↔ PreparesSucceed (firstNeed backlight) cycles (calls.length - 4) := by
  have hprepared := prepare_succeeds hok h
  have henabled := enable_ready hprepared
  have hdisabled := disable_ready henabled
  have hoff := unprepare_ready hdisabled
  have hback : (backlight.map fun _ => true).map (fun _ => false) = backlight := by
    rcases backlight with _ | _ | _
    · rfl
    · rfl
    · exact absurd rfl hlit
  rw [hback] at hoff
  have hlawful : Lawful d := h.lawful fun hb => absurd hb hlit
  have hlawful₁ := hprepared.lawful fun _ => of_true_ready _ _
  have hlawful₂ := henabled.lawful fun _ => of_true_ready _ _
  have hlawful₃ := hdisabled.lawful fun _ => of_true_ready _ _
  rcases cycle_cases hcalls with rfl | rfl | rfl | rfl | ⟨calls', hcalls', rfl⟩
  · simp [Always, hlawful, preparesSucceed_none]
  · simp [Always, hlawful, hlawful₁, preparesSucceed_none]
  · simp [Always, hlawful, hlawful₁, hlawful₂, preparesSucceed_none]
  · simp [Always, hlawful, hlawful₁, hlawful₂, hlawful₃, preparesSucceed_none]
  · simpa [Always, hlawful, hlawful₁, hlawful₂, hlawful₃] using hrest calls' _ hcalls' hoff

/-- A cycle whose prepare fails is lawful up to the call that needs power. -/
theorem cycle_fails {outcomes : Stream' (Except Errno Unit)} {calls rest : List Call}
    (hlit : backlight ≠ some true) (h : Flags (Held (.of false backlight false)) false false d)
    (herror : firstError prepareSteps outcomes ≠ .ok ()) (hcalls : calls <+: cycle outcomes ++ rest) :
    Always drmStep Lawful d calls ↔ calls.length ≤ firstNeed backlight := by
  have hfailed := prepare_fails herror h
  have hlawful : Lawful d := h.lawful fun hb => absurd hb hlit
  have hlawful₁ := hfailed.lawful fun hb => absurd hb hlit
  -- without a backlight the enable passes unnoticed, and the disable is the first to reach the panel
  cases backlight with
  | none =>
    have hdark := enable_dark hfailed
    have hlawful₂ := hdark.lawful nofun
    have hwrites := disable_writes hdark
    rcases cycle_cases hcalls with rfl | rfl | rfl | rfl | ⟨calls', -, rfl⟩
    · simp [Always, hlawful]
    · simp [Always, firstNeed, hlawful, hlawful₁]
    · simp [Always, firstNeed, hlawful, hlawful₁, hlawful₂]
    · simp [Always, firstNeed, hwrites]
    · simp [Always, firstNeed, hwrites]
  | some lit =>
    have hlights := enable_lights hfailed
    have hlast : ∀ calls', ¬ Always drmStep Lawful
      (drmStep (drmStep d (.prepare outcomes)) .enable) calls' :=
      fun _ halways => hlights halways.head
    rcases cycle_cases hcalls with rfl | rfl | rfl | rfl | ⟨calls', -, rfl⟩
    · simp [Always, hlawful]
    · simp [Always, firstNeed, hlawful, hlawful₁]
    · simp [Always, firstNeed, hlights]
    · simp [Always, firstNeed, hlights]
    · simp [Always, firstNeed, hlights]

/-- The cycles one after another. -/
theorem cycles_lawful_iff {cycles : List (Stream' (Except Errno Unit))} {calls : List Call}
    (hlit : backlight ≠ some true) (h : Flags (Held (.of false backlight false)) false false d)
    (hcalls : calls <+: cycles.flatMap cycle) :
    Always drmStep Lawful d calls ↔ PreparesSucceed (firstNeed backlight) cycles calls.length := by
  induction cycles generalizing d calls with
  | nil =>
    have hnil : calls = [] := List.prefix_nil.mp hcalls
    subst hnil
    exact ⟨fun _ => preparesSucceed_none, fun _ => h.lawful fun hb => absurd hb hlit⟩
  | cons outcomes cycles ih =>
    rw [List.flatMap_cons] at hcalls
    rw [preparesSucceed_cons]
    by_cases hok : firstError prepareSteps outcomes = .ok ()
    · rw [cycle_succeeds hlit h hok hcalls fun calls' d' hcalls' h' => ih h' hcalls']
      exact ⟨fun hrest => ⟨fun _ => hok, hrest⟩, fun hall => hall.2⟩
    -- nothing comes after a failed cycle that has stayed lawful
    · rw [cycle_fails hlit h hok hcalls]
      constructor
      · intro hshort
        have hfew : firstNeed backlight ≤ 2 := by unfold firstNeed; split_ifs <;> omega
        have hnone : calls.length - 4 = 0 := by omega
        rw [hnone]
        exact ⟨fun hlong => absurd hshort (not_le.mpr hlong), preparesSucceed_none⟩
      · rintro ⟨hfirst, -⟩
        by_contra hlong
        exact hok (hfirst (not_le.mp hlong))

end Cycle

theorem DrmPanel.Probed.flags {d : DrmPanel} (h : d.Probed) :
    Flags (Held (.of false d.panel.priv.backlight false)) false false d := by
  refine ⟨⟨d.panel.outcomes, ?_, rfl, by simp [h.panel.seen], by simp [h.panel.acts]⟩,
    h.prepared, h.enabled⟩
  exact Priv.ext h.panel.avdd h.panel.avee h.panel.resetGpio rfl h.panel.prepared h.panel.enabled

/-- However far a run of on/off cycles gets, the panel is lit and written to only with power, exactly if
    every prepare succeeds whose cycle gets to its enable (to its disable, where there is no backlight). -/
theorem lawful_iff {d : DrmPanel} (h : d.Probed) {cycles : List (Stream' (Except Errno Unit))}
    {calls : List Call}
    (hcalls : calls <+: cycles.flatMap cycle) :
    Always drmStep Lawful d calls ↔
      PreparesSucceed (firstNeed d.panel.priv.backlight) cycles calls.length :=
  cycles_lawful_iff h.panel.backlight h.flags hcalls

def registered : DrmPanel where
  panel := probed
  prepared := false
  enabled := false

/-- The second prepare fails, and nothing comes after it. -/
theorem lawful_iff_unfinished :
    Always drmStep Lawful registered
        [.prepare (Stream'.const (.ok ())), .enable, .disable, .unprepare, .prepare (failAt 100)] ↔
      PreparesSucceed (firstNeed registered.panel.priv.backlight) [Stream'.const (.ok ()), failAt 100] 5 :=
  lawful_iff ⟨probed_probed, rfl, rfl⟩ ⟨[.enable, .disable, .unprepare], rfl⟩

/-- A write of the table fails, and the enable of the same cycle lights the backlight. -/
theorem enable_lights_unpowered : registered.Probed ∧
    ¬ Always drmStep Lawful registered (cycle (failAt 100)) := by
  refine ⟨⟨probed_probed, rfl, rfl⟩, ?_⟩
  intro h
  have hacts : ⟨.backlightEnable, .of false (some false) false⟩ ∈
      (drmStep (drmStep registered (.prepare (failAt 100))) .enable).panel.acts := by decide +kernel
  have hready := h.2.2.head.acts _ hacts rfl
  exact absurd hready.1 Bool.false_ne_true

end GeminiLinux.PanelSsd2092
