import GeminiLinux.Touch.RunState
import GeminiLinux.Touch.AckedAway

/-! Where the reported positions lie. The ranges of the axes and the maxima that an inverted axis is
    mirrored at are set at the probe, from the devicetree or from the resolution the chip reports;
    the raw coordinates are 12 bits and are not compared with either.

        raw (x, y) ──inverted: max - v──▶ ──swapped──▶ ABS_MT_POSITION_X, ABS_MT_POSITION_Y

    A position is in the ranges exactly if the raw coordinates are no greater than the maxima, and no
    two raw positions are mapped to one. A re-initialisation changes neither. -/

namespace GeminiLinux.Ssd2092
open Prog InputMt

/-! ### The devicetree node -/

/-- What `touchscreen_parse_properties` reads of the node. -/
structure TouchNode where
  sizeX : Option UInt32
  sizeY : Option UInt32
  invertedX : Bool
  invertedY : Bool
  swappedXY : Bool

/-- The node of the Gemini. -/
def geminiNode : TouchNode where
  sizeX := some 1080
  sizeY := some 2160
  invertedX := true
  invertedY := false
  swappedXY := true

/-- The range of one axis, of `struct input_absinfo`. -/
structure AbsRange where
  minimum : ℤ
  maximum : ℤ

/-- The ranges of ABS_MT_POSITION_X and ABS_MT_POSITION_Y. -/
structure Axes where
  x : AbsRange
  y : AbsRange

/-- The maximum of an axis: the size in the node less one, or the one the driver has set. -/
def axisMax (size : Option UInt32) (driver : ℕ) : ℕ :=
  match size with
  | some size => (size - 1).toNat
  | none => driver

/-- What `touchscreen_parse_properties` makes of axes that go from 0 to `maxX` and to `maxY`. -/
structure Parses (node : TouchNode) (maxX maxY : ℕ) (prop : TouchProp) (axes : Axes) : Prop where
  props : prop = ⟨axisMax node.sizeX maxX, axisMax node.sizeY maxY, node.invertedX, node.invertedY,
    node.swappedXY⟩
  ranges : axes = if node.swappedXY then ⟨⟨0, asInt prop.maxY⟩, ⟨0, asInt prop.maxX⟩⟩
    else ⟨⟨0, asInt prop.maxX⟩, ⟨0, asInt prop.maxY⟩⟩

theorem axisMax_lt (size : Option UInt32) {driver : ℕ} (h : driver < 2 ^ 32) :
    axisMax size driver < 2 ^ 32 := by
  rcases size with _ | size
  · exact h
  · exact (size - 1).toNat_lt

/-! ### One axis -/

/-- What becomes of one raw coordinate. -/
def mirrored (inverted : Bool) (max v : ℕ) : ℕ :=
  if inverted then (max + 2 ^ 32 - v) % 2 ^ 32 else v

theorem applyProp_eq (prop : TouchProp) (x y : ℕ) : applyProp prop x y =
    if prop.swapXY then (mirrored prop.invertY prop.maxY y, mirrored prop.invertX prop.maxX x)
    else (mirrored prop.invertX prop.maxX x, mirrored prop.invertY prop.maxY y) := rfl

theorem asInt_of_lt {u : ℕ} (h : u < 2 ^ 31) : asInt u = u := if_pos h

theorem asInt_of_ge {u : ℕ} (h : 2 ^ 31 ≤ u) : asInt u = u - 2 ^ 32 := if_neg (by omega)

/-- A 12-bit coordinate is reported in the range of its axis exactly if it is no greater than the
    maximum: beyond it the mirrored one is negative. -/
theorem mirrored_in_range_iff (inverted : Bool) {max v : ℕ} (hmax : max < 2 ^ 32) (hv : v < 2 ^ 12) :
    0 ≤ asInt (mirrored inverted max v) ∧ asInt (mirrored inverted max v) ≤ asInt max ↔
      (v : ℤ) ≤ asInt max := by
  cases inverted with
  | false =>
    have hraw : asInt v = v := asInt_of_lt (by omega)
    simp only [mirrored, Bool.false_eq_true, if_false, hraw]
    omega
  | true =>
    simp only [mirrored, if_true]
    by_cases hle : v ≤ max
    · have hdiff : (max + 2 ^ 32 - v) % 2 ^ 32 = max - v := by omega
      rw [hdiff, asInt, asInt]
      split_ifs
      all_goals omega
    · have hdiff : (max + 2 ^ 32 - v) % 2 ^ 32 = max + 2 ^ 32 - v := Nat.mod_eq_of_lt (by omega)
      have hneg : asInt (max + 2 ^ 32 - v) = max - v := by
        rw [asInt_of_ge (by omega)]
        omega
      rw [hdiff, hneg, asInt_of_lt (u := max) (by omega)]
      omega

theorem asInt_injective {u u' : ℕ} (hu : u < 2 ^ 32) (hu' : u' < 2 ^ 32) (h : asInt u = asInt u') :
    u = u' := by
  rw [asInt, asInt] at h
  split_ifs at h
  all_goals omega

theorem mirrored_lt (inverted : Bool) {max v : ℕ} (hv : v < 2 ^ 12) :
    mirrored inverted max v < 2 ^ 32 := by
  cases inverted with
  | false =>
    simp only [mirrored, Bool.false_eq_true, if_false]
    omega
  | true =>
    simp only [mirrored, if_true]
    omega

theorem mirrored_injective (inverted : Bool) {max v v' : ℕ} (hmax : max < 2 ^ 32) (hv : v < 2 ^ 12)
    (hv' : v' < 2 ^ 12) (h : asInt (mirrored inverted max v) = asInt (mirrored inverted max v')) :
    v = v' := by
  have heq := asInt_injective (mirrored_lt inverted hv) (mirrored_lt inverted hv') h
  cases inverted with
  | false => simpa only [mirrored, Bool.false_eq_true, if_false] using heq
  | true =>
    simp only [mirrored, if_true] at heq
    omega

/-! ### A position -/

/-- The coordinates of a record are 12 bits each. -/
structure Raw (r : Record) : Prop where
  x : r.x < 2 ^ 12
  y : r.y < 2 ^ 12

theorem record_raw (rec : List UInt8) : Raw (record rec) := by
  have hbyte (b : UInt8) : b.toNat < 2 ^ 12 := by
    have hlt := b.toNat_lt
    omega
  have hhigh (n : ℕ) : (n &&& 0xf0) <<< 4 < 2 ^ 12 := by
    have hand : n &&& 0xf0 ≤ 0xf0 := Nat.and_le_right
    rw [Nat.shiftLeft_eq]
    omega
  have hlow (n : ℕ) : (n &&& 0x0f) <<< 8 < 2 ^ 12 := by
    have hand : n &&& 0x0f ≤ 0x0f := Nat.and_le_right
    rw [Nat.shiftLeft_eq]
    omega
  exact ⟨Nat.or_lt_two_pow (hhigh _) (hbyte _), Nat.or_lt_two_pow (hlow _) (hbyte _)⟩

/-- The values of ABS_MT_POSITION_X and ABS_MT_POSITION_Y for a record. -/
def emitted (prop : TouchProp) (r : Record) : ℤ × ℤ :=
  (asInt (applyProp prop r.x r.y).1, asInt (applyProp prop r.x r.y).2)

def AbsRange.Holds (range : AbsRange) (v : ℤ) : Prop := range.minimum ≤ v ∧ v ≤ range.maximum

def Axes.Holds (axes : Axes) (p : ℤ × ℤ) : Prop := axes.x.Holds p.1 ∧ axes.y.Holds p.2

/-- Positions are in the ranges exactly if the raw coordinates are no greater than `maxX` and
    `maxY`, and different ones are mapped to different ones. -/
structure Maps (prop : TouchProp) (axes : Axes) (maxX maxY : ℤ) : Prop where
  inRange_iff : ∀ r, Raw r → (axes.Holds (emitted prop r) ↔ (r.x : ℤ) ≤ maxX ∧ (r.y : ℤ) ≤ maxY)
  injective : ∀ r r', Raw r → Raw r' → emitted prop r = emitted prop r' → r.x = r'.x ∧ r.y = r'.y

theorem Parses.maps {node : TouchNode} {maxX maxY : ℕ} {prop : TouchProp} {axes : Axes}
    (h : Parses node maxX maxY prop axes) (hx : maxX < 2 ^ 32) (hy : maxY < 2 ^ 32) :
    Maps prop axes (asInt (axisMax node.sizeX maxX)) (asInt (axisMax node.sizeY maxY)) := by
  obtain ⟨rfl, rfl⟩ := h
  have hmaxX := axisMax_lt node.sizeX hx
  have hmaxY := axisMax_lt node.sizeY hy
  refine ⟨?_, ?_⟩
  · intro r hr
    have hrx := mirrored_in_range_iff node.invertedX hmaxX hr.x
    have hry := mirrored_in_range_iff node.invertedY hmaxY hr.y
    rw [← hrx, ← hry, emitted, applyProp_eq]
    by_cases hswap : node.swappedXY = true
    · simp only [hswap, if_true, Axes.Holds, AbsRange.Holds]
      exact and_comm
    · simp only [hswap, Bool.false_eq_true, if_false, Axes.Holds, AbsRange.Holds]
  · intro r r' hr hr' heq
    rw [emitted, emitted, applyProp_eq, applyProp_eq, Prod.mk.injEq] at heq
    by_cases hswap : node.swappedXY = true
    · simp only [hswap, if_true] at heq
      exact ⟨mirrored_injective _ hmaxX hr.x hr'.x heq.2, mirrored_injective _ hmaxY hr.y hr'.y heq.1⟩
    · simp only [hswap, Bool.false_eq_true, if_false] at heq
      exact ⟨mirrored_injective _ hmaxX hr.x hr'.x heq.1, mirrored_injective _ hmaxY hr.y hr'.y heq.2⟩

/-! ### What the polls hand over -/

/-- The positions of a packet. -/
def positions (evs : List InputEv) : List (ℤ × ℤ) :=
  evs.filterMap fun
    | .position x y => some (x, y)
    | _ => none

/-- The axis records with weight. -/
def down (rs : List Record) : List Record := rs.filter fun r => r.id ≤ idAxisLast ∧ r.w > 0

theorem positions_recordEvents (prop : TouchProp) (r : Record) :
    positions (recordEvents prop r) = (down [r]).map (emitted prop) := by
  by_cases hax : r.id > idAxisLast
  · have hnot : ¬ r.id ≤ idAxisLast := by omega
    simp [recordEvents, positions, down, hax, hnot]
  · have hle : r.id ≤ idAxisLast := by omega
    by_cases hw : r.w > 0
    · simp [recordEvents, positions, down, reportPos, emitted, hax, hle, hw]
    · simp [recordEvents, positions, down, hax, hw]

theorem positions_recordsEvents (prop : TouchProp) (rs : List Record) :
    positions (rs.flatMap (recordEvents prop) ++ [.syncFrame]) = (down rs).map (emitted prop) := by
  have hsync : positions [.syncFrame] = [] := rfl
  rw [positions, List.filterMap_append, ← positions, ← positions, hsync, List.append_nil]
  induction rs with
  | nil => rfl
  | cons r rs ih =>
    have hcons : down (r :: rs) = down [r] ++ down rs := List.filter_append [r] rs
    rw [List.flatMap_cons, hcons, List.map_append, ← positions_recordEvents, ← ih]
    exact List.filterMap_append

/-- The properties stay, and the packets handed over are such as `P` says. -/
structure Reports (P : List InputEv → Prop) (ts ts' : Ts) : Prop where
  prop : ts'.prop = ts.prop
  evs : ∃ evs, ts'.trace = ts.trace ++ evs ∧ ∀ p, Ev.packet p ∈ evs → P p

section Reports

variable {P : List InputEv → Prop}

instance : Std.Refl (Reports P) := ⟨fun _ => ⟨rfl, [], (List.append_nil _).symm, by simp⟩⟩

instance : IsTrans Ts (Reports P) where
  trans := by
    rintro ts ts' ts'' ⟨hprop, evs, htrace, hall⟩ ⟨hprop', evs', htrace', hall'⟩
    refine ⟨hprop'.trans hprop, evs ++ evs', ?_, ?_⟩
    · rw [htrace', htrace, List.append_assoc]
    · intro p hp
      rcases List.mem_append.mp hp with hp | hp
      · exact hall p hp
      · exact hall' p hp

theorem Emits.reports {Q : Ev → Prop} {ts ts' : Ts} (h : Emits Q ts ts') (hQ : ∀ p, ¬ Q (.packet p)) :
    Reports P ts ts' := by
  obtain ⟨evs, htrace, hall⟩ := h.evs
  exact ⟨h.prop, evs, htrace, fun p hp => absurd (hall _ hp) (hQ p)⟩

theorem not_packet_plain {run : Bool} (p : List InputEv) : ¬ PlainOrConfigured run (.packet p) := by
  rintro (h | ⟨args, h⟩)
  · exact h
  · cases h

theorem Steady.reports {ts ts' : Ts} (h : Steady PlainOrConfigured ts ts') : Reports P ts ts' :=
  h.emits.reports not_packet_plain

theorem reinit_reports : Within (Reports P) reinit := fun ts =>
  (reinit_emits ts).reports fun p h => by
    rcases h with h | ⟨run, h⟩
    · exact h
    · exact not_packet_plain p h

theorem plain_reports {α : Type} {p : TsM α} (h : Within (Steady Plain) p) : Within (Reports P) p := fun ts =>
  ((h ts).mono fun _ _ => .inl).reports

theorem devLog_reports {fmt : String} (args : List ℤ) (h : fmt ≠ tmcConfigFmt) :
    Within (Reports P) (devLog fmt args) := plain_reports (devLog_plain args h)

/-- A point read hands over what it has read, if the checksum is right. -/
theorem readPoints_reports {info : ℕ} {ts : Ts} (hP : ∀ pkt,
      outcome (readReg regPointData (pointLen info + 2)) ts = .ok pkt → packetOk (pointLen info) pkt = true →
        P (pointsPacket ts.prop pkt (pointLen info / pointSz))) :
    Reports P ts (finalState (readPoints info) ts) := by
  have hread : Reports P ts (finalState (readReg regPointData (pointLen info + 2)) ts) :=
    plain_reports (readReg_plain _ _) ts
  rw [readPoints, finalState_bind_ok _ (outcome_attempt _ ts), finalState_attempt]
  rcases hout : outcome (readReg regPointData (pointLen info + 2)) ts with e | pkt
  · exact IsTrans.trans _ _ _ hread (devLog_reports _ (by decide) _)
  · dsimp only
    split_ifs with hsum
    · refine IsTrans.trans _ _ _ hread ⟨rfl, [.packet _], rfl, fun p hp => ?_⟩
      obtain rfl := Ev.packet.inj (List.mem_singleton.mp hp)
      rw [hread.prop]
      exact hP pkt hout hsum
    · exact IsTrans.trans _ _ _ hread (devLog_reports _ (by decide) _)

/-- Only a word with points leads to a packet. -/
theorem pollWord_reports {w : ℕ} {ts : Ts} (hP : ∀ pkt,
      outcome (readReg regPointData (pointLen w + 2)) ts = .ok pkt → packetOk (pointLen w) pkt = true →
        P (pointsPacket ts.prop pkt (pointLen w / pointSz))) :
    Reports P ts (finalState (pollWord w) ts) := by
  have hnothing (b : Bool) : Within (Reports P) (pure b : TsM Bool) := .pure b
  rw [pollWord]
  split_ifs with hzero hboot haux hpoints
  · exact hnothing _ ts
  · exact Within.bind (devLog_reports _ (by decide)) (fun _ =>
      .bind (.attempt fun ts => (tmcConfig_steady ts).reports) fun _ => hnothing _) ts
  · exact Within.bind (.bind (.attempt (plain_reports (readReg_plain _ _))) fun _ =>
      .bind (devLog_reports _ (by decide)) fun _ => reinit_reports) (fun _ => hnothing _) ts
  · rw [finalState_bind]
    split
    · exact IsTrans.trans _ _ _ (readPoints_reports hP) (hnothing _ _)
    · exact readPoints_reports hP
  · exact hnothing _ ts

end Reports

/-- The records that the transfers of a poll deliver: all of the packet behind the word, if its checksum is
    right. -/
def RecordsRead (bus : Bus) (rs : List Record) : Prop :=
  ∃ w q pkt, WordRead bus w q ∧ Ok bus q ∧ Gives bus (q + 1) (pointLen w + 2) pkt ∧
    packetOk (pointLen w) pkt = true ∧ rs = records pkt (pointLen w / pointSz)

theorem RecordsRead.raw {bus : Bus} {rs : List Record} (h : RecordsRead bus rs) : ∀ r ∈ rs, Raw r := by
  obtain ⟨w, q, pkt, -, -, -, -, rfl⟩ := h
  intro r hr
  obtain ⟨i, -, rfl⟩ := List.mem_map.mp hr
  exact record_raw _

/-- A packet that a poll hands over. -/
def Handed (bus : Bus) (prop : TouchProp) (p : List InputEv) : Prop :=
  ∃ rs, RecordsRead bus rs ∧ p = rs.flatMap (recordEvents prop) ++ [.syncFrame]

theorem poll_reports (ts : Ts) : Reports (Handed ts.i2c ts.prop) ts (finalState poll ts) := by
  have hack : Within (Reports (Handed ts.i2c ts.prop)) intClear := fun ts =>
    (intClear_steady ts).emits.reports fun p h => by simp at h
  have hbody : Reports (Handed ts.i2c ts.prop) ts (finalState pollBody ts) := by
    have hsnl : Reports (Handed ts.i2c ts.prop) ts (finalState readSnl ts) := plain_reports readSnl_plain ts
    rw [pollBody, finalState_bind_ok _ (outcome_attempt _ ts), finalState_attempt]
    rcases word_or_lost ts.i2c with ⟨w, q, hword⟩ | ⟨q, hlost⟩
    · obtain ⟨hout, hbus⟩ := readSnl_word hword
      rw [hout]
      refine IsTrans.trans _ _ _ hsnl (pollWord_reports fun pkt hread hsum => ?_)
      obtain ⟨haddr, hgives⟩ := (readReg_ok_iff hbus _).mp hread
      rw [hsnl.prop]
      exact ⟨_, ⟨w, q, pkt, hword, haddr, hgives, hsum, rfl⟩, rfl⟩
    · obtain ⟨e, hout, -⟩ := readSnl_lost hlost
      rw [hout]
      exact IsTrans.trans _ _ _ hsnl (Within.bind (devLog_reports _ (by decide)) (fun _ => .pure true) _)
  rw [poll, finalState_bind]
  split
  · exact IsTrans.trans _ _ _ hbody (ack_within hack _ _)
  · exact hbody

/-! ### The probe -/

/-- The resolution is one that 12-bit coordinates can have. -/
def Plausible (ts : Ts) : Prop := ¬ outOfRange ts.maxX ts.maxY

theorem plausible_tmcGeometry (val : ℕ) : Establishes (fun _ => True) (tmcGeometry val) Plausible := by
  intro ts _ _ _
  have hget : outcome (get : TsM Ts) ts = .ok ts := rfl
  have hlog : outcome (devLog tmcConfigFmt [ts.maxX, ts.maxY, val]) (finalState (get : TsM Ts) ts) =
      .ok () := rfl
  have hdefault : ¬ outOfRange defaultXRes defaultYRes := by decide
  rw [tmcGeometry, finalState_bind_ok _ hget, finalState_bind_ok _ hlog]
  split_ifs with hrange
  · exact hdefault
  · exact hrange

theorem plausible_tmcConfig : Establishes (fun _ => True) tmcConfig Plausible :=
  .bind (I := fun _ => True) (fun _ _ _ _ => trivial) plausible_tmcGeometry

/-- What the probe sets the properties from. -/
def SetUp (env : ProbeEnv) (ts : Ts) : Prop :=
  Plausible ts ∧ ts.prop = env.parseProperties (ts.maxX - 1) (ts.maxY - 1)

theorem establishes_same {P : Ts → Prop} {f : Ts → Ts} (h : ∀ ts, P ts → P (f ts)) :
    Establishes P (modify f : TsM PUnit) P := fun ts hts _ _ => h ts hts

theorem probe_setUp (env : ProbeEnv) : Establishes (fun _ => True) (probe env) (SetUp env) := by
  have hany {α : Type} (p : TsM α) : Establishes (fun _ => True) p fun _ => True := fun _ _ _ _ => trivial
  have hinput : Establishes Plausible (if env.inputAlloc then pure () else throw Errno.ENOMEM : TsM Unit)
      Plausible := by
    split_ifs
    · exact fun ts hts _ _ => hts
    · exact .throw _
  rw [probe]
  cases hk : env.kzalloc with
  | false => exact .throw _
  | true =>
    refine .bind (hany _) fun _ => .bind (hany _) fun _ => .bind (hany _) fun _ =>
      .bind (hany _) fun _ => .bind (hany _) fun _ =>
      .bind (establishes_orFail _ plausible_tmcConfig) fun _ =>
      .bind (establishes_orFail _ hinput) fun _ =>
      .bind (I := SetUp env) (fun ts hts _ _ => ⟨hts, rfl⟩) fun _ =>
      .bind (establishes_orFail _ (establishes_given _)) fun _ =>
      .bind (establishes_same fun _ h => h) fun _ =>
      .bind (establishes_orFail _ (establishes_given _)) fun _ =>
      .bind (establishes_orFail _ (establishes_given _)) fun _ =>
      .bind (fun ts hts _ _ => hts) fun ts => establishes_same fun _ h => h

/-! ### The reports after a probe -/

/-- After a probe, whatever the polls meet, the positions that a poll hands over are those of the records
    with weight that it has read, in their order, under the map set up by the probe: each lies in the ranges
    set then exactly if the raw coordinates are no greater than their maxima, and no two raw positions are
    mapped to one. -/
theorem reports_in_range_iff {node : TouchNode} {env : ProbeEnv} {axes : ℕ → ℕ → Axes}
    (hparse : ∀ maxX maxY, Parses node maxX maxY (env.parseProperties maxX maxY) (axes maxX maxY))
    {ts₀ ts : Ts} (hprobe : outcome (probe env) ts₀ = .ok ()) (hts : finalState (probe env) ts₀ = ts) :
    Plausible ts ∧
    Maps ts.prop (axes (ts.maxX - 1) (ts.maxY - 1)) (asInt (axisMax node.sizeX (ts.maxX - 1)))
      (asInt (axisMax node.sizeY (ts.maxY - 1))) ∧
    ∀ k, ∃ evs, (after poll (k + 1) ts).trace = (after poll k ts).trace ++ evs ∧ ∀ p, Ev.packet p ∈ evs →
      ∃ rs, RecordsRead (after poll k ts).i2c rs ∧ (∀ r ∈ rs, Raw r) ∧
        positions p = (down rs).map (emitted ts.prop) := by
  obtain ⟨hres, hprop⟩ := hts ▸ probe_setUp env ts₀ trivial () hprobe
  have hbounds : ts.maxX - 1 < 2 ^ 32 ∧ ts.maxY - 1 < 2 ^ 32 := by
    rw [Plausible, outOfRange] at hres
    omega
  refine ⟨hres, ?_, ?_⟩
  · rw [hprop]
    exact (hparse _ _).maps hbounds.1 hbounds.2
  · intro k
    obtain ⟨-, evs, htrace, hall⟩ := poll_reports (after poll k ts)
    rw [after_succ]
    refine ⟨evs, htrace, ?_⟩
    intro p hp
    obtain ⟨rs, hread, rfl⟩ := hall p hp
    rw [after_prop]
    exact ⟨rs, hread, hread.raw, positions_recordsEvents _ _⟩

/-- The probe of the Gemini. -/
def geminiEnv : ProbeEnv :=
  { goodEnv with parseProperties := fun _ _ => ⟨1079, 2159, true, false, true⟩ }

def geminiAxes (_ _ : ℕ) : Axes := ⟨⟨0, 2159⟩, ⟨0, 1079⟩⟩

theorem geminiEnv_parses (maxX maxY : ℕ) :
    Parses geminiNode maxX maxY (geminiEnv.parseProperties maxX maxY) (geminiAxes maxX maxY) :=
  ⟨rfl, rfl⟩

/-- A record at (1100, 20): its x is beyond the size in the node. -/
def edgePkt : List UInt8 := [0, 0x4c, 20, 0x40, 5, 0, 165, 29]

def edge : Ts :=
  finalState (probe geminiEnv) (powerOn (bus (pointsReplies [6, 1, 7, 7] edgePkt)) (Stream'.const true))

theorem edge_probed : outcome (probe geminiEnv)
    (powerOn (bus (pointsReplies [6, 1, 7, 7] edgePkt)) (Stream'.const true)) = .ok () := by
  decide +kernel

theorem reports_in_range_iff_gemini : Plausible edge ∧
    Maps edge.prop (geminiAxes (edge.maxX - 1) (edge.maxY - 1))
      (asInt (axisMax geminiNode.sizeX (edge.maxX - 1)))
      (asInt (axisMax geminiNode.sizeY (edge.maxY - 1))) ∧
    ∀ k, ∃ evs, (after poll (k + 1) edge).trace = (after poll k edge).trace ++ evs ∧ ∀ p, Ev.packet p ∈ evs →
      ∃ rs, RecordsRead (after poll k edge).i2c rs ∧ (∀ r ∈ rs, Raw r) ∧
        positions p = (down rs).map (emitted edge.prop) :=
  reports_in_range_iff geminiEnv_parses edge_probed rfl

theorem edge_out_of_range :
    ¬ ∀ (node : TouchNode) (env : ProbeEnv) (axes : ℕ → ℕ → Axes) (ts₀ : Ts),
      (∀ maxX maxY, Parses node maxX maxY (env.parseProperties maxX maxY) (axes maxX maxY)) →
      ts₀.trace = [] → outcome (probe env) ts₀ = .ok () →
      ∀ n p, Ev.packet p ∈ (after poll n (finalState (probe env) ts₀)).trace → ∀ q ∈ positions p,
        (axes ((finalState (probe env) ts₀).maxX - 1) ((finalState (probe env) ts₀).maxY - 1)).Holds q := by
  intro h
  have hheld := h geminiNode geminiEnv geminiAxes
    (powerOn (bus (pointsReplies [6, 1, 7, 7] edgePkt)) (Stream'.const true)) geminiEnv_parses rfl
    edge_probed 1
    (pointsPacket ⟨1079, 2159, true, false, true⟩ edgePkt 1) (by decide +kernel) (20, -21)
    (by decide +kernel)
  exact absurd hheld.2.1 (by decide)

end GeminiLinux.Ssd2092
