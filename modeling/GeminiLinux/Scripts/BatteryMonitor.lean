import GeminiLinux.Lib.Runs

/-! The main loop of `battery-monitor.sh`. In each poll the charger's node is looked at, found again if it is
    gone, and read twice; a read that fails counts as 0.

        node ──▶ online ──▶ voltage_now ──▶ 1?  ──▶ sleep
                                            low ──▶ logger ──▶ shutdown, exit
                                            else ──▶ sleep

    So a read of `online` that fails is an offline charger, and under `set -e` a `logger` that fails ends the
    script in front of the shutdown. -/

namespace GeminiLinux.BatteryMonitor
open Runs

/-! ### The script -/

structure Config where
  thresholdMv : ℤ
  dryRun : Bool

/-- What the script has sent out. -/
inductive Sent where
  | disappeared
  | logged (mv : ℤ)
  | low (mv : ℤ)
  | notCalling
  | shutdown
  deriving DecidableEq

structure Monitor where
  psPath : String
  /-- The exit status of a script that has ended. -/
  status : Option ℕ
  sent : List Sent

/-- What a poll meets: each access of it sees its own state of the node. A value is the kernel's `int`. -/
structure Poll where
  /-- `[ -d "$PS_PATH" ]` at the top of the loop. -/
  isDir : String → Bool
  /-- What the pattern of `find_charger_psy` expands to, and `[ -d "$ps" ]` on it. -/
  glob : List String
  isDirFound : String → Bool
  online : String → Option ℤ
  voltageNow : String → Option ℤ
  /-- The exit statuses of the two commands. -/
  logger : ℕ
  shutdown : ℕ

def findChargerPsy (p : Poll) : Option String := p.glob.find? p.isDirFound

/-- The node that a poll reads, if it has one. -/
def node (m : Monitor) (p : Poll) : Option String :=
  if p.isDir m.psPath then some m.psPath else findChargerPsy p

/-- The request: `shutdown`, or under `--dry-run` the line in its place. -/
def Config.request (cfg : Config) : Sent := if cfg.dryRun then .notCalling else .shutdown

/-- `[ "$VOLTAGE_MV" -gt 0 ] && [ "$VOLTAGE_MV" -lt "$THRESHOLD_MV" ]`. -/
def isLow (cfg : Config) (voltageMv : ℤ) : Prop := voltageMv > 0 ∧ voltageMv < cfg.thresholdMv

instance (cfg : Config) (voltageMv : ℤ) : Decidable (isLow cfg voltageMv) := by
  unfold isLow; infer_instance

/-- One pass of the loop. -/
def poll (cfg : Config) (m : Monitor) (p : Poll) : Monitor :=
  if m.status.isSome then m
  else match node m p with
  | none => { m with psPath := "", sent := m.sent ++ [.disappeared] }
  | some path =>
    let online := (p.online path).getD 0
    let voltageUv := (p.voltageNow path).getD 0
    let voltageMv := voltageUv.tdiv 1000
    if online = 1 then { m with psPath := path }
    else if isLow cfg voltageMv then
      if p.logger = 0 then
        { psPath := path, status := some (if cfg.dryRun then 0 else p.shutdown)
          sent := m.sent ++ [.logged voltageMv, .low voltageMv, cfg.request] }
      else { psPath := path, status := some p.logger, sent := m.sent }
    else { m with psPath := path }

/-- The script at the start of its loop. -/
def watching (path : String) : Monitor := ⟨path, none, []⟩

/-! ### What it is for -/

section

variable (cfg : Config)

/-- The voltage of a reading, in whole millivolts, is positive and below the threshold. -/
def Low (v : ℤ) : Prop := 0 < v / 1000 ∧ v / 1000 < cfg.thresholdMv

/-- The poll sends out the request. -/
def Requested (m : Monitor) (p : Poll) : Prop := cfg.request ∈ (poll cfg m p).sent.drop m.sent.length

/-- The script runs, has read the charger as offline, and has read a low voltage. -/
def MustShutDown (m : Monitor) (p : Poll) : Prop :=
  m.status = none ∧ ∃ path v o, node m p = some path ∧ p.voltageNow path = some v ∧ Low cfg v ∧
    p.online path = some o ∧ o ≠ 1

/-- Shutdown is requested in a poll exactly if it must be, and the loop goes on as long as it must not. -/
structure ShutsDownExactly (m : Monitor) (ps : List Poll) : Prop where
  exact : Steps (poll cfg) (fun m p => Requested cfg m p ↔ MustShutDown cfg m p) m ps
  goesOn : ∀ ps' : List Poll, ps' <+: ps → Steps (poll cfg) (fun m p => ¬ MustShutDown cfg m p) m ps' →
    (run (poll cfg) m ps').status = none

/-- Where a low voltage is read, `online` is read too, and unless it is 1 `logger` succeeds. -/
def Sound (m : Monitor) (p : Poll) : Prop :=
  m.status = none → ∀ path v, node m p = some path → p.voltageNow path = some v → Low cfg v →
    ∃ o, p.online path = some o ∧ (o ≠ 1 → p.logger = 0)

/-! ### One poll -/

/-- The poll takes the branch of the shutdown. -/
def Falls (m : Monitor) (p : Poll) : Prop :=
  ∃ path v, node m p = some path ∧ p.voltageNow path = some v ∧ Low cfg v ∧ p.online path ≠ some 1

variable {cfg}

theorem isLow_tdiv_iff (v : ℤ) : isLow cfg (v.tdiv 1000) ↔ Low cfg v := by
  rcases Int.lt_or_le v 0 with hneg | hnonneg
  · have hflip : 0 ≤ (-v).tdiv 1000 := Int.tdiv_nonneg (by omega) (by decide)
    have htrunc : v.tdiv 1000 ≤ 0 := by
      rw [Int.neg_tdiv] at hflip
      omega
    refine iff_of_false (fun h => ?_) fun h => ?_
    · exact absurd h.1 (not_lt.mpr htrunc)
    · have := h.1
      omega
  · rw [isLow, Low, Int.tdiv_eq_ediv_of_nonneg hnonneg, gt_iff_lt]

theorem isLow_read_iff (r : Option ℤ) :
    isLow cfg ((r.getD 0).tdiv 1000) ↔ ∃ v, r = some v ∧ Low cfg v := by
  rw [isLow_tdiv_iff]
  cases r with
  | none => exact iff_of_false (fun h => absurd h.1 (by decide)) fun ⟨v, hv, _⟩ => by cases hv
  | some v => exact ⟨fun h => ⟨v, rfl, h⟩, fun ⟨v', hv', h⟩ => by cases hv'; exact h⟩

theorem read_eq_one_iff (r : Option ℤ) : r.getD 0 = 1 ↔ r = some 1 := by
  cases r with
  | none => exact iff_of_false (by decide) (by simp)
  | some v => rw [Option.getD_some, Option.some.injEq]

theorem request_ne_disappeared : cfg.request ≠ .disappeared := by
  unfold Config.request
  split_ifs <;> exact fun h => by cases h

theorem poll_of_ended {m : Monitor} (hm : m.status.isSome) (p : Poll) : poll cfg m p = m := if_pos hm

theorem not_requested_of_ended {m : Monitor} (hm : m.status.isSome) (p : Poll) : ¬ Requested cfg m p := by
  rw [Requested, poll_of_ended hm, List.drop_length]
  exact List.not_mem_nil

/-- What a poll of a running script does. -/
theorem poll_cases {m : Monitor} (hm : m.status = none) (p : Poll) :
    (¬ Falls cfg m p ∧ (poll cfg m p).status = none ∧ ¬ Requested cfg m p) ∨
    (Falls cfg m p ∧ p.logger ≠ 0 ∧ (poll cfg m p).status.isSome ∧ ¬ Requested cfg m p) ∨
    (Falls cfg m p ∧ p.logger = 0 ∧ (poll cfg m p).status.isSome ∧ Requested cfg m p) := by
  have hrunning : ¬ m.status.isSome := by rw [hm]; exact Bool.false_ne_true
  rw [Requested, poll, if_neg hrunning]
  cases hnode : node m p with
  | none =>
    refine .inl ⟨?_, hm, ?_⟩
    · rintro ⟨path, v, hpath, -⟩
      rw [hnode] at hpath
      cases hpath
    · rw [List.drop_left, List.mem_singleton]
      exact request_ne_disappeared
  | some path =>
    have hfalls : Falls cfg m p ↔ (∃ v, p.voltageNow path = some v ∧ Low cfg v) ∧
        ¬ p.online path = some 1 := by
      constructor
      · rintro ⟨path', v, hpath, hv, hlow, honline⟩
        rw [hnode] at hpath
        cases hpath
        exact ⟨⟨v, hv, hlow⟩, honline⟩
      · rintro ⟨⟨v, hv, hlow⟩, honline⟩
        exact ⟨path, v, hnode, hv, hlow, honline⟩
    rw [← isLow_read_iff, ← read_eq_one_iff] at hfalls
    rw [hfalls]
    by_cases honline : (p.online path).getD 0 = 1
    · refine .inl ⟨fun h => h.2 honline, ?_⟩
      simp only [if_pos honline, hm, List.drop_length, List.not_mem_nil, not_false_eq_true, and_self]
    · by_cases hlow : isLow cfg (((p.voltageNow path).getD 0).tdiv 1000)
      · by_cases hlogger : p.logger = 0
        · refine .inr (.inr ⟨⟨hlow, honline⟩, hlogger, ?_⟩)
          simp [if_neg honline, if_pos hlow, hlogger]
        · refine .inr (.inl ⟨⟨hlow, honline⟩, hlogger, ?_⟩)
          simp [if_neg honline, if_pos hlow, hlogger]
      · refine .inl ⟨fun h => hlow h.1, ?_⟩
        simp [if_neg hlow, hm]

theorem must_iff {m : Monitor} (hm : m.status = none) (p : Poll) : MustShutDown cfg m p ↔
    Falls cfg m p ∧ ∀ path, node m p = some path → (p.online path).isSome := by
  constructor
  · rintro ⟨-, path, v, o, hpath, hv, hlow, ho, hne⟩
    refine ⟨⟨path, v, hpath, hv, hlow, ?_⟩, ?_⟩
    · rw [ho]
      exact fun h => hne (Option.some.inj h)
    · intro path' hpath'
      rw [hpath] at hpath'
      cases hpath'
      rw [ho]
      rfl
  · rintro ⟨⟨path, v, hpath, hv, hlow, hne⟩, hread⟩
    obtain ⟨o, ho⟩ := Option.isSome_iff_exists.mp (hread path hpath)
    exact ⟨hm, path, v, o, hpath, hv, hlow, ho, fun h => hne (h ▸ ho)⟩

theorem ended_of_must {m : Monitor} {p : Poll} (h : MustShutDown cfg m p) : (poll cfg m p).status.isSome := by
  have hfalls := ((must_iff h.1 p).mp h).1
  rcases poll_cases h.1 p with ⟨hno, -⟩ | ⟨-, -, hended, -⟩ | ⟨-, -, hended, -⟩
  · exact absurd hfalls hno
  · exact hended
  · exact hended

theorem sound_iff {m : Monitor} (hm : m.status = none) (p : Poll) : Sound cfg m p ↔
    (Falls cfg m p → p.logger = 0 ∧ MustShutDown cfg m p) := by
  constructor
  · rintro h ⟨path, v, hpath, hv, hlow, hne⟩
    obtain ⟨o, ho, hlogger⟩ := h hm path v hpath hv hlow
    have hoff : o ≠ 1 := fun hone => hne (hone ▸ ho)
    exact ⟨hlogger hoff, hm, path, v, o, hpath, hv, hlow, ho, hoff⟩
  · intro h _ path v hpath hv hlow
    by_cases hone : p.online path = some 1
    · exact ⟨1, hone, fun hne => absurd rfl hne⟩
    · obtain ⟨hlogger, hmust⟩ := h ⟨path, v, hpath, hv, hlow, hone⟩
      obtain ⟨o, ho⟩ := Option.isSome_iff_exists.mp (((must_iff hm p).mp hmust).2 path hpath)
      exact ⟨o, ho, fun _ => hlogger⟩

/-- A poll of a running script is right exactly if it is sound: the request is made exactly if it must be,
    and the script goes on unless it must not. -/
theorem right_iff_sound {m : Monitor} (hm : m.status = none) (p : Poll) :
    ((Requested cfg m p ↔ MustShutDown cfg m p) ∧
      (¬ MustShutDown cfg m p → (poll cfg m p).status = none)) ↔ Sound cfg m p := by
  have hmust : MustShutDown cfg m p → Falls cfg m p := fun h => ((must_iff hm p).mp h).1
  rw [sound_iff hm]
  rcases poll_cases hm p with
    ⟨hno, hon, hnot⟩ | ⟨hfalls, hlogger, hended, hnot⟩ | ⟨hfalls, hlogger, hended, hreq⟩
  · exact iff_of_true ⟨iff_of_false hnot fun h => hno (hmust h), fun _ => hon⟩ fun h => absurd h hno
  · refine iff_of_false ?_ fun h => hlogger (h hfalls).1
    rintro ⟨hiff, hgoes⟩
    have hnomust : ¬ MustShutDown cfg m p := fun h => hnot (hiff.mpr h)
    rw [hgoes hnomust] at hended
    cases hended
  · constructor
    · rintro ⟨hiff, -⟩ -
      exact ⟨hlogger, hiff.mp hreq⟩
    · intro h
      have hyes := (h hfalls).2
      exact ⟨iff_of_true hreq hyes, fun hno => absurd hyes hno⟩

/-! ### Runs -/

theorem steps_of_ended {Good : Monitor → Poll → Prop} (hGood : ∀ m p, m.status.isSome → Good m p) {m : Monitor}
    (hm : m.status.isSome) (ps : List Poll) : Steps (poll cfg) Good m ps := by
  have hended : ∀ (m : Monitor) (p : Poll), m.status.isSome → (poll cfg m p).status.isSome := by
    intro m p h
    rwa [poll_of_ended h]
  exact steps_of_inv hended hGood hm ps

/-- A running script shuts down exactly in a run if and only if every poll of the run is sound. -/
theorem shutsDownExactly_of_running {m : Monitor} (hm : m.status = none) (ps : List Poll) :
    ShutsDownExactly cfg m ps ↔ Steps (poll cfg) (Sound cfg) m ps := by
  induction ps generalizing m with
  | nil =>
    refine iff_of_true ⟨trivial, fun ps' hps' _ => ?_⟩ trivial
    rw [List.prefix_nil.mp hps']
    exact hm
  | cons p ps ih =>
    constructor
    · rintro ⟨hexact, hgoes⟩
      have hright : Sound cfg m p := (right_iff_sound hm p).mp
        ⟨hexact.1, fun hno => hgoes [p] ⟨ps, rfl⟩ ⟨hno, trivial⟩⟩
      refine ⟨hright, ?_⟩
      rcases hstatus : (poll cfg m p).status with _ | status
      · refine (ih hstatus).mp ⟨hexact.2, fun ps' hps' hno => ?_⟩
        have hnomust : ¬ MustShutDown cfg m p := fun hmust => by
          have hended := ended_of_must hmust
          rw [hstatus] at hended
          cases hended
        exact hgoes (p :: ps') ((List.prefix_cons_inj p).mpr hps') ⟨hnomust, hno⟩
      · exact steps_of_ended (fun m p h hm => by rw [hm] at h; cases h) (hstatus ▸ rfl) ps
    · rintro ⟨hsound, hrest⟩
      obtain ⟨hiff, hon⟩ := (right_iff_sound hm p).mpr hsound
      refine ⟨⟨hiff, ?_⟩, ?_⟩
      · rcases hstatus : (poll cfg m p).status with _ | status
        · exact ((ih hstatus).mpr hrest).exact
        · exact steps_of_ended (fun m p h => iff_of_false (not_requested_of_ended h p)
            fun hmust => by rw [hmust.1] at h; cases h) (hstatus ▸ rfl) ps
      · intro ps' hps' hno
        cases ps' with
        | nil => exact hm
        | cons q ps' =>
          obtain ⟨rfl, hrest'⟩ := List.cons_prefix_cons.mp hps'
          exact ((ih (hon hno.1)).mpr hrest).goesOn ps' hrest' hno.2

end

/-- From the start of the loop, shutdown is requested exactly when it must be, and the loop goes on until
    then, exactly if every poll of the run is sound. -/
theorem shuts_down_exactly_iff (cfg : Config) (path : String) (ps : List Poll) :
    ShutsDownExactly cfg (watching path) ps ↔ Steps (poll cfg) (Sound cfg) (watching path) ps :=
  shutsDownExactly_of_running rfl ps

/-- A poll of a low battery, with what its other two accesses give. -/
def lowPoll (online : Option ℤ) (logger : ℕ) : Poll where
  isDir := fun _ => true
  glob := []
  isDirFound := fun _ => true
  online := fun _ => online
  voltageNow := fun _ => some 3300000
  logger := logger
  shutdown := 0

theorem not_sound_lowPoll {online : Option ℤ} {logger : ℕ}
    (h : ∀ o, online = some o → o ≠ 1 ∧ logger ≠ 0) (path : String) :
    ¬ Sound ⟨3400, false⟩ (watching path) (lowPoll online logger) := by
  intro hsound
  obtain ⟨o, ho, hlogger⟩ := hsound rfl path 3300000 rfl rfl (by unfold Low; decide)
  exact (h o ho).2 (hlogger (h o ho).1)

/-- A charger that cannot be read is shut down on; one that is off is not, if `logger` fails. -/
theorem low_battery_misjudged :
    ¬ ShutsDownExactly ⟨3400, false⟩ (watching "bq25890-charger-0") [lowPoll none 0] ∧
    ¬ ShutsDownExactly ⟨3400, false⟩ (watching "bq25890-charger-0") [lowPoll (some 0) 1] := by
  refine ⟨fun h => ?_, fun h => ?_⟩
  · exact not_sound_lowPoll (by simp) _ ((shutsDownExactly_of_running rfl _).mp h).1
  · exact not_sound_lowPoll (by simp) _ ((shutsDownExactly_of_running rfl _).mp h).1

end GeminiLinux.BatteryMonitor
