import GeminiLinux.Touch.VendorReport

/-! The contacts that the vendor's touch driver shows. A packet with axis records ends a frame, and the frame
    has the fingers that are down. A length of zero releases what is still down, but only if the packet before
    it had such a finger:

        1 finger down ──▶ keys alone ──▶ length 0
            shown          shown,          still shown
                           last_valid_cnt := 0                                                  -/

namespace GeminiLinux.Solomon

/-! ### Events and frames -/

/-- What of the screen is about contacts. -/
def Screen.view (s : Screen) : Option ℤ × Option (List ℤ) × List ℤ := (s.contact, s.frame, s.shown)

theorem run_append (s : Screen) (evs evs' : List InputEv) : s.run (evs ++ evs') = (s.run evs).run evs' :=
  List.foldl_append

theorem view_down (s : Screen) (id : ℕ) (x y w : ℤ) :
    (s.run (solomonTouchDownUp id x y w true)).view = (none, some (s.frame.getD [] ++ [(id : ℤ)]), s.shown) := rfl

theorem view_up {s : Screen} (h : s.contact = none) (id : ℕ) (x y w : ℤ) :
    (s.run (solomonTouchDownUp id x y w false)).view = (none, some (s.frame.getD []), s.shown) := by
  show (none, some (s.frame.getD [] ++ s.contact.toList), s.shown) = _
  rw [h, Option.toList_none, List.append_nil]

theorem view_synReport (s : Screen) : (s.run [.synReport]).view = (s.contact, none, s.frame.getD s.shown) := rfl

/-- Fingers that go up together: a frame without contacts, if there are any. -/
theorem view_ups {s : Screen} (h : s.contact = none) {ups : List ℕ} (hups : ups ≠ []) :
    (s.run (ups.flatMap fun i => solomonTouchDownUp i 0 0 0 false)).view = (none, some (s.frame.getD []), s.shown) := by
  induction ups generalizing s with
  | nil => exact absurd rfl hups
  | cons i ups ih =>
    have hone := view_up h i 0 0 0
    rw [List.flatMap_cons, run_append]
    generalize s.run (solomonTouchDownUp i 0 0 0 false) = s' at hone
    simp only [Screen.view, Prod.mk.injEq] at hone
    obtain ⟨hcontact, hframe, hshown⟩ := hone
    cases ups with
    | nil =>
      show s'.view = _
      rw [Screen.view, hcontact, hframe, hshown]
    | cons j ups => rw [ih hcontact (List.cons_ne_nil j ups), hframe, hshown, Option.getD_some]

/-- Nothing happens to the contacts but that a frame may end. -/
def Settles (s s' : Screen) : Prop := s'.view = s.view ∨ s'.view = (s.contact, none, s.frame.getD s.shown)

theorem Settles.trans {s s' s'' : Screen} (h : Settles s s') (h' : Settles s' s'') : Settles s s'' := by
  simp only [Settles, Screen.view, Prod.mk.injEq] at h h' ⊢
  rcases h with ⟨hc, hf, hs⟩ | ⟨hc, hf, hs⟩ <;> rcases h' with ⟨hc', hf', hs'⟩ | ⟨hc', hf', hs'⟩ <;>
    simp_all

theorem settles_key (s : Screen) (key : Key) (level : Bool) : Settles s (s.run (solomonSendKey key level)) := .inr rfl

/-- A gesture that has the driver release everything. -/
def SsdData.isPalm (p : SsdData) : Prop :=
  p.id = passDataIdGesture ∧ pair p.b2 p.b1 &&& gestureStatusKnockOn = 0 ∧
    pair p.b2 p.b1 &&& gestureStatusGesturesKnockCode = 0 ∧ pair p.b2 p.b1 &&& gestureStatusPalmReject ≠ 0

/-- An axis record of a finger that is down. -/
def SsdData.isWeighted (p : SsdData) : Prop := p.isAxis = true ∧ p.weight ≠ 0

variable {r : Reporter} {p : SsdData}

theorem sendRecord_axis (h : p.isAxis = true) : sendRecord r p = ssd20xxSendAxis p r := by
  simp only [SsdData.isAxis, Bool.and_eq_true, decide_eq_true_eq] at h
  rw [sendRecord, if_neg h.1.1, if_neg h.1.2, if_pos h.2]

/-- What a record does that is neither an axis nor a palm. -/
structure Other (r r' : Reporter) : Prop where
  lastValidCnt : r'.lastValidCnt = r.lastValidCnt
  mUpEvent : r'.mUpEvent = r.mUpEvent
  screen : Settles r.screen r'.screen

theorem Other.refl (r : Reporter) : Other r r := ⟨rfl, rfl, .inl rfl⟩

theorem Other.trans {r r' r'' : Reporter} (h : Other r r') (h' : Other r' r'') : Other r r'' :=
  ⟨h'.lastValidCnt.trans h.lastValidCnt, h'.mUpEvent.trans h.mUpEvent, h.screen.trans h'.screen⟩

theorem other_foldl {α : Type} {f : Reporter → α → Reporter} (hf : ∀ r a, Other r (f r a)) (as : List α) (r : Reporter) :
    Other r (as.foldl f r) := by
  induction as generalizing r with
  | nil => exact Other.refl r
  | cons a as ih => exact (hf r a).trans (ih _)

theorem other_downBit (d : BitVec 32) (r : Reporter) (i : ℕ) : Other r (downBit d r i) := by
  rw [downBit]
  split_ifs
  · refine ⟨rfl, rfl, ?_⟩
    show Settles r.screen (r.emit _).screen
    rw [screen_emit]
    exact settles_key _ _ _
  · exact Other.refl r

theorem other_upBit (u : BitVec 32) (r : Reporter) (i : ℕ) : Other r (upBit u r i) := by
  rw [upBit]
  split_ifs
  · exact Other.refl r
  · refine ⟨rfl, rfl, ?_⟩
    show Settles r.screen (r.emit _).screen
    rw [screen_emit]
    exact settles_key _ _ _
  · exact Other.refl r

theorem sendRecord_other (haxis : p.isAxis = false) (hpalm : ¬ p.isPalm) : Other r (sendRecord r p) := by
  rw [sendRecord]
  split_ifs with hgesture hkey hle
  · rw [ssd20xxGesture]
    split_ifs with hknock hwake hreject
    · refine ⟨rfl, rfl, ?_⟩
      rw [screen_emit, run_append]
      exact (settles_key _ _ _).trans (settles_key _ _ _)
    · exact ⟨rfl, rfl, .inl rfl⟩
    · rw [not_or, not_not, not_not] at hknock
      exact absurd ⟨hgesture, hknock.1, hknock.2, hreject⟩ hpalm
    · exact Other.refl r
  · exact (other_foldl (other_downBit _) _ r).trans (other_foldl (other_upBit _) _ _)
  · simp only [SsdData.isAxis, Bool.and_eq_false_iff, decide_eq_false_iff_not, not_not] at haxis
    rcases haxis with (h | h) | h
    · exact absurd h hgesture
    · exact absurd h hkey
    · exact absurd hle h
  · exact Other.refl r

/-! ### A packet's records -/

/-- What the records so far have left, since the count was set to zero and no frame had begun. -/
structure Half (shown : List ℤ) (done : List SsdData) (r : Reporter) : Prop where
  contact : r.screen.contact = none
  count : r.lastValidCnt = 0 ↔ ∀ p ∈ done, ¬ p.isWeighted
  up : ∀ p ∈ done, p.isWeighted → r.mUpEvent p.id.toNat = true
  noAxis : (∀ p ∈ done, p.isAxis = false) → r.screen.frame = none ∧ r.screen.shown = shown
  noFinger : (∃ p ∈ done, p.isAxis = true) → (∀ p ∈ done, ¬ p.isWeighted) → r.screen.frame.getD r.screen.shown = []

theorem half_nil (hcontact : r.screen.contact = none) (hframe : r.screen.frame = none) :
    Half r.screen.shown [] { r with lastValidCnt := 0 } where
  contact := hcontact
  count := ⟨fun _ => nofun, fun _ => rfl⟩
  up := nofun
  noAxis _ := ⟨hframe, rfl⟩
  noFinger := nofun

/-- A record that is no axis leaves it so. -/
theorem Half.other {shown : List ℤ} {done : List SsdData} {r' : Reporter} (h : Half shown done r) (ho : Other r r')
    (haxis : p.isAxis = false) : Half shown (done ++ [p]) r' := by
  have hnot : ¬ p.isWeighted := fun hw => Bool.false_ne_true (haxis.symm.trans hw.1)
  have hweights : (∀ q ∈ done ++ [p], ¬ q.isWeighted) ↔ ∀ q ∈ done, ¬ q.isWeighted := by
    rw [List.forall_mem_append, List.forall_mem_singleton, and_iff_left hnot]
  obtain ⟨hcontact, hcount, hup, hnoAxis, hnoFinger⟩ := h
  obtain ⟨hcnt, hev, hscreen⟩ := ho
  simp only [Settles, Screen.view, Prod.mk.injEq] at hscreen
  refine ⟨?_, ?_, ?_, ?_, ?_⟩
  · rcases hscreen with ⟨hc, -, -⟩ | ⟨hc, -, -⟩ <;> rw [hc, hcontact]
  · rw [hcnt, hcount, hweights]
  · intro q hq hw
    rw [hev]
    rcases List.mem_append.mp hq with hq | hq
    · exact hup q hq hw
    · rw [List.mem_singleton.mp hq] at hw
      exact absurd hw hnot
  · intro hall
    obtain ⟨hf, hs⟩ := hnoAxis fun q hq => hall q (List.mem_append_left _ hq)
    rcases hscreen with ⟨-, hf', hs'⟩ | ⟨-, hf', hs'⟩
    · exact ⟨hf'.trans hf, hs'.trans hs⟩
    · rw [hf, Option.getD_none] at hs'
      exact ⟨hf', hs'.trans hs⟩
  · rintro ⟨q, hq, hqaxis⟩ hnone
    have hmem : q ∈ done := by
      rcases List.mem_append.mp hq with hq | hq
      · exact hq
      · rw [List.mem_singleton.mp hq, haxis] at hqaxis
        cases hqaxis
    have hempty := hnoFinger ⟨q, hmem, hqaxis⟩ (hweights.mp hnone)
    rcases hscreen with ⟨-, hf', hs'⟩ | ⟨-, hf', hs'⟩
    · rw [hf', hs', hempty]
    · rw [hf', hs', Option.getD_none, hempty]

/-- An axis record of a finger that the packet has not named yet. -/
theorem Half.axis {shown : List ℤ} {done : List SsdData} (h : Half shown done r) (haxis : p.isAxis = true)
    (hnew : ∀ q ∈ done, q.isAxis = true → q.id ≠ p.id) : Half shown (done ++ [p]) (ssd20xxSendAxis p r) := by
  obtain ⟨hcontact, hcount, hup, hnoAxis, hnoFinger⟩ := h
  have hother (b : Bool) : ∀ q ∈ done, q.isWeighted → Function.update r.mUpEvent p.id.toNat b q.id.toNat = true := by
    intro q hq hw
    have hne : q.id.toNat ≠ p.id.toNat := fun heq => hnew q hq hw.1 (UInt8.toNat_inj.mp heq)
    rw [Function.update_of_ne hne]
    exact hup q hq hw
  rw [ssd20xxSendAxis]
  by_cases hweight : p.weight ≠ 0
  · have hw : p.isWeighted := ⟨haxis, hweight⟩
    have hview := view_down r.screen p.id.toNat p.x p.y p.weight.toNat
    rw [← screen_emit] at hview
    simp only [Screen.view, Prod.mk.injEq] at hview
    simp only [if_pos hweight]
    refine ⟨hview.1, ?_, ?_, ?_, ?_⟩
    · refine ⟨fun hzero => absurd hzero (Nat.succ_ne_zero _), fun hall => ?_⟩
      exact absurd hw (hall p (List.mem_append_right _ List.mem_cons_self))
    · intro q hq hqw
      rcases List.mem_append.mp hq with hq | hq
      · exact hother true q hq hqw
      · rw [List.mem_singleton.mp hq]
        exact Function.update_self _ _ _
    · intro hall
      rw [hall p (List.mem_append_right _ List.mem_cons_self)] at haxis
      cases haxis
    · intro _ hall
      exact absurd hw (hall p (List.mem_append_right _ List.mem_cons_self))
  · have hw : ¬ p.isWeighted := fun hw => hweight hw.2
    have hview := view_up hcontact p.id.toNat p.x p.y p.weight.toNat
    rw [← screen_emit] at hview
    simp only [Screen.view, Prod.mk.injEq] at hview
    simp only [if_neg hweight]
    refine ⟨hview.1, ?_, ?_, ?_, ?_⟩
    · rw [List.forall_mem_append, List.forall_mem_singleton, and_iff_left hw]
      exact hcount
    · intro q hq hqw
      rcases List.mem_append.mp hq with hq | hq
      · exact hother false q hq hqw
      · rw [List.mem_singleton.mp hq] at hqw
        exact absurd hqw hw
    · intro hall
      rw [hall p (List.mem_append_right _ List.mem_cons_self)] at haxis
      cases haxis
    · intro _ hall
      show (r.emit _).screen.frame.getD (r.emit _).screen.shown = []
      rw [hview.2.1, Option.getD_some]
      cases hframe : r.screen.frame with
      | none => rfl
      | some f =>
        have hnone : ∀ q ∈ done, ¬ q.isWeighted := fun q hq => hall q (List.mem_append_left _ hq)
        by_cases hany : ∃ q ∈ done, q.isAxis = true
        · have hempty := hnoFinger hany hnone
          rw [hframe] at hempty
          exact hempty
        · have hno := hnoAxis fun q hq => Bool.eq_false_iff.mpr fun hq' => hany ⟨q, hq, hq'⟩
          rw [hframe] at hno
          cases hno.1

/-- The records of a packet: no palm among them, and no finger twice. -/
structure PlainPacket (points : List SsdData) : Prop where
  palm : ∀ p ∈ points, ¬ p.isPalm
  distinct : points.Pairwise fun p q => p.isAxis = true → q.isAxis = true → p.id ≠ q.id

theorem half_foldl {shown : List ℤ} (h : Half shown [] r) {points : List SsdData} (hplain : PlainPacket points) :
    Half shown points (points.foldl sendRecord r) := by
  induction points using List.reverseRecOn with
  | nil => exact h
  | append_singleton points p ih =>
    obtain ⟨hpalm, hdistinct⟩ := hplain
    rw [List.pairwise_append] at hdistinct
    have hhalf := ih ⟨fun q hq => hpalm q (List.mem_append_left _ hq), hdistinct.1⟩
    rw [List.foldl_append, List.foldl_cons, List.foldl_nil]
    cases haxis : p.isAxis with
    | false => exact hhalf.other (sendRecord_other haxis (hpalm p (List.mem_append_right _ List.mem_cons_self))) haxis
    | true =>
      rw [sendRecord_axis haxis]
      exact hhalf.axis haxis fun q hq hq' => hdistinct.2.2 q hq p List.mem_cons_self hq' haxis

/-! ### A release -/

/-- Between two packets. -/
def Between (r : Reporter) : Prop := r.screen.contact = none ∧ r.screen.frame = none

/-- The end of a frame. -/
theorem release_view (hbetween : Between r) (hcnt : r.lastValidCnt ≠ 0) {i : ℕ} (hi : i < solomonMaxPoint)
    (hup : r.mUpEvent i = true) : (solomonReportRelease r).screen.shown = [] := by
  have hups : (List.range solomonMaxPoint).filter r.mUpEvent ≠ [] :=
    List.ne_nil_of_mem (List.mem_filter.mpr ⟨List.mem_range.mpr hi, hup⟩)
  have hview := view_ups hbetween.1 hups
  rw [solomonReportRelease, if_neg hcnt]
  show (r.emit _).screen.shown = []
  rw [screen_emit, run_append]
  generalize r.screen.run _ = s at hview ⊢
  simp only [Screen.view, Prod.mk.injEq] at hview
  show s.frame.getD s.shown = []
  rw [hview.2.1, hbetween.2, Option.getD_some, Option.getD_none]

theorem release_of_between (hbetween : Between r) {points : List SsdData} (hpoints : points ≠ []) (hplain : PlainPacket points)
    (hids : ∀ p ∈ points, p.isAxis = true → p.id.toNat < solomonMaxPoint) :
    (solomonReport [] (solomonReport points r)).screen.shown = [] ↔
      (∃ p ∈ points, p.isAxis = true) ∨ r.screen.shown = [] := by
  have hhalf := half_foldl (half_nil hbetween.1 hbetween.2) hplain
  generalize hr' : points.foldl sendRecord { r with lastValidCnt := 0 } = r' at hhalf
  have hfirst : solomonReport points r = if points.any SsdData.isAxis then r'.emit [.synReport] else r' := by
    rw [solomonReport, if_neg hpoints, hr']
  have hzero : solomonReport [] (solomonReport points r) = solomonReportRelease (solomonReport points r) := if_pos rfl
  rw [hzero, hfirst]
  by_cases hany : ∃ p ∈ points, p.isAxis = true
  · have hanyb : points.any SsdData.isAxis = true := List.any_eq_true.mpr hany
    rw [if_pos hanyb]
    refine iff_of_true ?_ (.inl hany)
    have hend := view_synReport r'.screen
    rw [← screen_emit] at hend
    simp only [Screen.view, Prod.mk.injEq] at hend
    by_cases hnone : ∀ p ∈ points, ¬ p.isWeighted
    · have hcnt : (r'.emit [.synReport]).lastValidCnt = 0 := hhalf.count.mpr hnone
      rw [solomonReportRelease, if_pos hcnt, hend.2.2]
      exact hhalf.noFinger hany hnone
    · obtain ⟨p, hp, hw⟩ : ∃ p ∈ points, p.isWeighted := by
        by_contra hno
        exact hnone fun p hp hw => hno ⟨p, hp, hw⟩
      have hcnt : (r'.emit [.synReport]).lastValidCnt ≠ 0 := fun hzero => hnone (hhalf.count.mp hzero)
      exact release_view ⟨hend.1.trans hhalf.contact, hend.2.1⟩ hcnt (hids p hp hw.1) (hhalf.up p hp hw)
  · have hall : ∀ p ∈ points, p.isAxis = false := fun p hp => Bool.eq_false_iff.mpr fun h => hany ⟨p, hp, h⟩
    have hanyb : ¬ points.any SsdData.isAxis = true := fun h => hany (List.any_eq_true.mp h)
    have hcnt : r'.lastValidCnt = 0 :=
      hhalf.count.mpr fun p hp hw => Bool.false_ne_true ((hall p hp).symm.trans hw.1)
    rw [if_neg hanyb, solomonReportRelease, if_pos hcnt, (hhalf.noAxis hall).2, or_iff_right hany]

/-! ### Any packets -/

theorem between_release (hcontact : r.screen.contact = none) : (solomonReportRelease r).screen.contact = none ∧
    (r.screen.frame = none → (solomonReportRelease r).screen.frame = none) := by
  rw [solomonReportRelease]
  split_ifs
  · exact ⟨hcontact, id⟩
  · show (r.emit _).screen.contact = none ∧ (_ → (r.emit _).screen.frame = none)
    rw [screen_emit, run_append]
    refine ⟨?_, fun _ => rfl⟩
    show (r.screen.run _).contact = none
    by_cases hups : (List.range solomonMaxPoint).filter r.mUpEvent = []
    · rw [hups]
      exact hcontact
    · have hview := view_ups hcontact hups
      simp only [Screen.view, Prod.mk.injEq] at hview
      exact hview.1

/-- Only an axis record begins a frame. -/
theorem between_sendRecord (hcontact : r.screen.contact = none) : (sendRecord r p).screen.contact = none ∧
    (p.isAxis = false → r.screen.frame = none → (sendRecord r p).screen.frame = none) := by
  cases haxis : p.isAxis with
  | true =>
    refine ⟨?_, nofun⟩
    rw [sendRecord_axis haxis, ssd20xxSendAxis]
    split_ifs
    · show (r.emit _).screen.contact = none
      rw [screen_emit]
      rfl
    · have hview := view_up hcontact p.id.toNat p.x p.y p.weight.toNat
      rw [← screen_emit] at hview
      simp only [Screen.view, Prod.mk.injEq] at hview
      exact hview.1
  | false =>
    by_cases hpalm : p.isPalm
    · have hsend : sendRecord r p = solomonReportRelease r := by
        have hknock : ¬ (pair p.b2 p.b1 &&& gestureStatusKnockOn ≠ 0 ∨
            pair p.b2 p.b1 &&& gestureStatusGesturesKnockCode ≠ 0) := by
          rw [not_or, not_not, not_not]
          exact ⟨hpalm.2.1, hpalm.2.2.1⟩
        rw [sendRecord, if_pos hpalm.1, ssd20xxGesture, if_neg hknock, if_pos hpalm.2.2.2]
      rw [hsend]
      exact ⟨(between_release hcontact).1, fun _ => (between_release hcontact).2⟩
    · have hscreen := (sendRecord_other haxis hpalm (r := r)).screen
      simp only [Settles, Screen.view, Prod.mk.injEq] at hscreen
      rcases hscreen with ⟨hc, hf, -⟩ | ⟨hc, hf, -⟩
      · exact ⟨hc.trans hcontact, fun _ hframe => hf.trans hframe⟩
      · exact ⟨hc.trans hcontact, fun _ _ => hf⟩

theorem between_foldl (points : List SsdData) (hcontact : r.screen.contact = none) :
    (points.foldl sendRecord r).screen.contact = none ∧ ((∀ p ∈ points, p.isAxis = false) → r.screen.frame = none →
      (points.foldl sendRecord r).screen.frame = none) := by
  induction points generalizing r with
  | nil => exact ⟨hcontact, fun _ hframe => hframe⟩
  | cons p points ih =>
    have hone := between_sendRecord (p := p) hcontact
    obtain ⟨hc, hf⟩ := ih hone.1
    refine ⟨hc, fun hall hframe => ?_⟩
    exact hf (fun q hq => hall q (List.mem_cons_of_mem p hq)) (hone.2 (hall p List.mem_cons_self) hframe)

theorem between_report (h : Between r) (points : List SsdData) : Between (solomonReport points r) := by
  by_cases hnil : points = []
  · rw [solomonReport, if_pos hnil]
    exact ⟨(between_release h.1).1, (between_release h.1).2 h.2⟩
  · have hstart : { r with lastValidCnt := 0 }.screen.contact = none := h.1
    obtain ⟨hc, hf⟩ := between_foldl points hstart
    by_cases hany : points.any SsdData.isAxis = true
    · rw [solomonReport, if_neg hnil, if_pos hany, Between, screen_emit]
      exact ⟨hc, rfl⟩
    · have hall : ∀ p ∈ points, p.isAxis = false := fun p hp =>
        Bool.eq_false_iff.mpr fun haxis => hany (List.any_eq_true.mpr ⟨p, hp, haxis⟩)
      rw [solomonReport, if_neg hnil, if_neg hany]
      exact ⟨hc, hf hall h.2⟩

/-- Behind any packets. -/
def reported (lpmEnds : Stream' Bool) (history : List (List SsdData)) : Reporter :=
  history.foldl (fun r points => solomonReport points r) (Reporter.start lpmEnds)

theorem between_reported (lpmEnds : Stream' Bool) (history : List (List SsdData)) : Between (reported lpmEnds history) := by
  induction history using List.reverseRecOn with
  | nil => exact ⟨rfl, rfl⟩
  | append_singleton history points ih =>
    rw [reported, List.foldl_append]
    exact between_report ih points

/-- Behind any packets, a packet and then a length of zero: no finger is shown then exactly if the packet had an
    axis record, or no finger was shown before it. With keys, other gestures and aux data alone `last_valid_cnt` is
    zero, and the release does nothing for fingers that are still down. -/
theorem release_iff (lpmEnds : Stream' Bool) (history : List (List SsdData)) {points : List SsdData}
    (hpoints : points ≠ []) (hplain : PlainPacket points)
    (hids : ∀ p ∈ points, p.isAxis = true → p.id.toNat < solomonMaxPoint) :
    (reported lpmEnds (history ++ [points, []])).screen.shown = [] ↔
      (∃ p ∈ points, p.isAxis = true) ∨ (reported lpmEnds history).screen.shown = [] := by
  have hrun : reported lpmEnds (history ++ [points, []]) =
      solomonReport [] (solomonReport points (reported lpmEnds history)) := List.foldl_append
  rw [hrun]
  exact release_of_between (between_reported lpmEnds history) hpoints hplain hids

/-- A finger, and a key while it is down. -/
theorem release_iff_key :
    (reported (Stream'.const true) ([[⟨3, 10, 20, 0, 5, 0⟩]] ++ [[⟨0xf5, 2, 0, 0, 0, 0⟩], []])).screen.shown = [] ↔
      (∃ p ∈ [(⟨0xf5, 2, 0, 0, 0, 0⟩ : SsdData)], p.isAxis = true) ∨
        (reported (Stream'.const true) [[⟨3, 10, 20, 0, 5, 0⟩]]).screen.shown = [] := by
  refine release_iff _ _ (List.cons_ne_nil _ _) ⟨fun p hp => ?_, List.pairwise_singleton _ _⟩ fun p hp haxis => ?_
  · rw [List.mem_singleton.mp hp]
    exact fun hpalm => absurd hpalm.1 (by decide)
  · rw [List.mem_singleton.mp hp] at haxis
    exact absurd haxis (by decide)

end GeminiLinux.Solomon
