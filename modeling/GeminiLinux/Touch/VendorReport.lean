import Mathlib

/-! What the vendor's touch driver makes of a packet's records: contacts in frames, without slots, and keys.

        axis record:  contact or none, SYN_MT_REPORT ──┐
        key record:   key, SYN_REPORT                  ├──▶ SYN_REPORT, if there was an axis record
        no records:   release what m_up_event holds, if last_valid_cnt > 0

    A frame shows the contacts between two SYN_REPORTs; one without a SYN_MT_REPORT says nothing of them. -/

namespace GeminiLinux.Solomon

def solomonMaxPoint : ℕ := 10

/-! ### Records and events -/

/-- `ssd_data`: six bytes, read in one of four ways. -/
structure SsdData where
  id : UInt8
  b1 : UInt8
  b2 : UInt8
  b3 : UInt8
  b4 : UInt8
  b5 : UInt8
  deriving DecidableEq

def passDataIdAxisLast : UInt8 := 0x0e
def passDataIdKey : UInt8 := 0xf5
def passDataIdGesture : UInt8 := 0xf6

inductive Key where
  | back | menu | homepage | btnTouch | btnToolFinger
  deriving DecidableEq

inductive Axis where
  | touchMajor | positionX | positionY | widthMajor | pressure | trackingId
  deriving DecidableEq

inductive InputEv where
  | key (code : Key) (down : Bool)
  | abs (axis : Axis) (value : ℤ)
  | synMtReport
  | synReport
  deriving DecidableEq

/-- `solomon_touch_down_up`, as it is compiled without `SUPPORT_MT_PROTOCOL_B`. -/
def solomonTouchDownUp (id : ℕ) (xpos ypos width : ℤ) (isdown : Bool) : List InputEv :=
  if isdown then
    [.abs .touchMajor 1, .abs .positionX ypos, .abs .positionY (1080 - xpos), .abs .widthMajor width,
      .abs .pressure width, .key .btnTouch true, .key .btnToolFinger true, .abs .trackingId id, .synMtReport]
  else [.key .btnTouch false, .key .btnToolFinger false, .synMtReport]

def solomonSendKey (key : Key) (level : Bool) : List InputEv := [.key key level, .synReport]

def mKeyMap : List Key :=
  [.back, .menu, .homepage, .homepage, .back, .back, .back, .back,
    .back, .back, .back, .back, .back, .back, .back, .back]

def maxDeviceKeymapSize : ℕ := 16

def keyAt (i : ℕ) : Key := mKeyMap.getD i .back

/-! ### The driver -/

/-- `last_valid_cnt`, `m_up_event` and `keydata`; whether the chip lets itself be woken, each time that a
    gesture asks for it; and all that went to the input core. -/
structure Reporter where
  lastValidCnt : ℕ
  mUpEvent : ℕ → Bool
  keydata : BitVec 32
  lpmEnds : Stream' Bool
  out : List InputEv

def Reporter.emit (r : Reporter) (evs : List InputEv) : Reporter := { r with out := r.out ++ evs }

def solomonReportRelease (r : Reporter) : Reporter :=
  if r.lastValidCnt = 0 then r
  else
    let ups := (List.range solomonMaxPoint).filter r.mUpEvent
    { r.emit (ups.flatMap (fun i => solomonTouchDownUp i 0 0 0 false) ++ [.synReport]) with
      mUpEvent := fun i => if i < solomonMaxPoint then false else r.mUpEvent i
      lastValidCnt := 0 }

/-- A bit of `keydown`, with `key` shifted to it. -/
def downBit (keydown : BitVec 32) (r : Reporter) (i : ℕ) : Reporter :=
  if keydown.getLsbD i then
    { r.emit (solomonSendKey (keyAt i) true) with keydata := r.keydata ||| keydown >>> i <<< i }
  else r

/-- A bit of `keyup`. -/
def upBit (keyup : BitVec 32) (r : Reporter) (i : ℕ) : Reporter :=
  if keyup.getLsbD i then
    if r.keydata &&& keyup >>> i <<< i = 0 then r
    else { r.emit (solomonSendKey (keyAt i) false) with keydata := r.keydata &&& ~~~(keyup >>> i <<< i) }
  else r

def ssd20xxSendKey (keydown keyup : BitVec 16) (r : Reporter) : Reporter :=
  let r := (List.range maxDeviceKeymapSize).foldl (downBit (keydown.setWidth 32)) r
  (List.range maxDeviceKeymapSize).foldl (upBit (keyup.setWidth 32)) r

def gestureStatusKnockOn : BitVec 16 := 0x0400
def gestureStatusGesturesKnockCode : BitVec 16 := 0x08ff
def gestureStatusPalmReject : BitVec 16 := 0x0200

def ssd20xxGesture (gesture : BitVec 16) (r : Reporter) : Reporter :=
  if gesture &&& gestureStatusKnockOn ≠ 0 ∨ gesture &&& gestureStatusGesturesKnockCode ≠ 0 then
    let woken := { r with lpmEnds := r.lpmEnds.tail }
    if r.lpmEnds.head then woken.emit (solomonSendKey .back true ++ solomonSendKey .back false) else woken
  else if gesture &&& gestureStatusPalmReject ≠ 0 then solomonReportRelease r
  else r

def SsdData.x (p : SsdData) : ℤ := ((p.b3 &&& 0xf0).toNat <<< 4 ||| p.b1.toNat : ℕ)

def SsdData.y (p : SsdData) : ℤ := ((p.b3 &&& 0x0f).toNat <<< 8 ||| p.b2.toNat : ℕ)

def SsdData.weight (p : SsdData) : UInt8 := p.b4

def ssd20xxSendAxis (p : SsdData) (r : Reporter) : Reporter :=
  let id := p.id.toNat
  if p.weight ≠ 0 then
    { r.emit (solomonTouchDownUp id p.x p.y p.weight.toNat true) with
      lastValidCnt := r.lastValidCnt + 1
      mUpEvent := Function.update r.mUpEvent id true }
  else
    { r.emit (solomonTouchDownUp id p.x p.y p.weight.toNat false) with
      mUpEvent := Function.update r.mUpEvent id false }

/-- Two bytes of a record as a number. -/
def pair (hi lo : UInt8) : BitVec 16 := BitVec.ofNat 16 (hi.toNat <<< 8 ||| lo.toNat)

def SsdData.isAxis (p : SsdData) : Bool :=
  p.id ≠ passDataIdGesture && p.id ≠ passDataIdKey && decide (p.id ≤ passDataIdAxisLast)

def sendRecord (r : Reporter) (p : SsdData) : Reporter :=
  if p.id = passDataIdGesture then ssd20xxGesture (pair p.b2 p.b1) r
  else if p.id = passDataIdKey then ssd20xxSendKey (pair p.b2 p.b1) (pair p.b4 p.b3) r
  else if p.id ≤ passDataIdAxisLast then ssd20xxSendAxis p r
  else r

/-- `solomon_report`, of the records that a packet's length gives. The pointer emulation behind them does
    nothing on a device without slots. -/
def solomonReport (points : List SsdData) (r : Reporter) : Reporter :=
  if points = [] then solomonReportRelease r
  else
    let r := points.foldl sendRecord { r with lastValidCnt := 0 }
    if points.any SsdData.isAxis then r.emit [.synReport] else r

/-- Behind the probe. -/
def Reporter.start (lpmEnds : Stream' Bool) : Reporter := ⟨0, fun _ => false, 0, lpmEnds, []⟩

/-! ### What is seen of it -/

/-- Who receives the events: the contact and the frame that are being put together, what was shown last, and
    the keys. -/
structure Screen where
  contact : Option ℤ
  frame : Option (List ℤ)
  shown : List ℤ
  keys : Key → Bool

def Screen.step (s : Screen) : InputEv → Screen
  | .key code down => { s with keys := Function.update s.keys code down }
  | .abs .trackingId id => { s with contact := some id }
  | .abs _ _ => s
  | .synMtReport => { s with frame := some (s.frame.getD [] ++ s.contact.toList), contact := none }
  | .synReport => { s with shown := s.frame.getD s.shown, frame := none }

def Screen.run (s : Screen) (evs : List InputEv) : Screen := evs.foldl Screen.step s

def Screen.init : Screen := ⟨none, none, [], fun _ => false⟩

def Reporter.screen (r : Reporter) : Screen := Screen.init.run r.out

theorem screen_emit (r : Reporter) (evs : List InputEv) : (r.emit evs).screen = r.screen.run evs := List.foldl_append

end GeminiLinux.Solomon
