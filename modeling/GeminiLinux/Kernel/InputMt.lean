import Mathlib

/-! The multitouch slots of the input core, as `input_mt_init_slots` sets them up with
    INPUT_MT_DROP_UNUSED: a driver selects a slot, reports its state and its axes, and ends the frame
    with `input_mt_sync_frame`, which releases every slot in use that the frame has not touched. It selects
    each of them for that, and the last one stays selected.

    Also the devicetree properties that `touchscreen_report_pos` applies to a position. -/

namespace GeminiLinux.InputMt

/-- One slot: whether its tracking id is set, and the last values of its axes. -/
structure Slot where
  active : Bool
  x : ℤ
  y : ℤ
  pressure : ℤ
  deriving DecidableEq

/-- The slots of a device and the one selected by ABS_MT_SLOT. -/
structure Mt (n : ℕ) where
  slot : Fin n
  slots : Fin n → Slot

/-- What a driver tells the input core in the course of a frame. -/
inductive InputEv where
  | mtSlot (id : ℕ)
  | slotState (active : Bool)
  | position (x y : ℤ)
  | pressure (w : ℤ)
  | syncFrame
  deriving DecidableEq

variable {n : ℕ}

/-- Change the selected slot. -/
def Mt.update (m : Mt n) (f : Slot → Slot) : Mt n :=
  { m with slots := Function.update m.slots m.slot (f (m.slots m.slot)) }

/-- A frame under way: the slots, and those it has touched so far. -/
structure Frame (n : ℕ) where
  mt : Mt n
  touched : Fin n → Bool

/-- The slots that `input_mt_drop_unused` releases, in its order. -/
def Frame.unused (f : Frame n) : List (Fin n) :=
  (List.finRange n).filter fun i => (f.mt.slots i).active && !f.touched i

/-- A slot id that is out of range leaves the selection as it is. -/
def Frame.step (f : Frame n) : InputEv → Frame n
  | .mtSlot id => if h : id < n then { f with mt := { f.mt with slot := ⟨id, h⟩ } } else f
  | .slotState active =>
    { mt := f.mt.update ({ · with active }), touched := Function.update f.touched f.mt.slot true }
  | .position x y => { f with mt := f.mt.update ({ · with x, y }) }
  | .pressure w => { f with mt := f.mt.update ({ · with pressure := w }) }
  | .syncFrame =>
    { mt := {
        slot := f.unused.getLast?.getD f.mt.slot
        slots := fun i => { f.mt.slots i with active := (f.mt.slots i).active && f.touched i } }
      touched := fun _ => false }

def Frame.run (f : Frame n) (evs : List InputEv) : Frame n := evs.foldl Frame.step f

/-- What a packet makes of the slots, the frame before it having been ended. -/
def Mt.run (m : Mt n) (evs : List InputEv) : Mt n := (Frame.run ⟨m, fun _ => false⟩ evs).mt

/-- The slots in use. -/
def Mt.active (m : Mt n) : Finset (Fin n) := Finset.univ.filter fun i => (m.slots i).active

/-- `input_mt_init_slots`. -/
def Mt.init (n : ℕ) [NeZero n] : Mt n := ⟨0, fun _ => ⟨false, 0, 0, 0⟩⟩

@[simp] theorem mem_active {m : Mt n} {i : Fin n} : i ∈ m.active ↔ (m.slots i).active = true := by
  simp [Mt.active]

theorem Frame.run_append (f : Frame n) (evs evs' : List InputEv) :
    f.run (evs ++ evs') = (f.run evs).run evs' := List.foldl_append

/-- Selecting a slot and reporting its state sets that one, and touches it. -/
theorem Frame.run_slotState (f : Frame n) {id : ℕ} (hid : id < n) (active : Bool) (i : Fin n) :
    (((f.run [.mtSlot id, .slotState active]).mt.slots i).active =
        if id = i then active else (f.mt.slots i).active) ∧
      (f.run [.mtSlot id, .slotState active]).touched i = if id = i then true else f.touched i := by
  have hi : i = ⟨id, hid⟩ ↔ id = i := by rw [Fin.ext_iff, eq_comm]
  have hrun : f.run [.mtSlot id, .slotState active] =
      { mt := Mt.update ⟨⟨id, hid⟩, f.mt.slots⟩ ({ · with active })
        touched := Function.update f.touched ⟨id, hid⟩ true } := by
    simp [Frame.run, Frame.step, hid]
  rw [hrun]
  refine ⟨?_, ?_⟩
  · simp only [Mt.update, Function.update_apply, hi]
    split_ifs with h
    · rfl
    · rfl
  · simp only [Function.update_apply, hi]

/-- Axes change the state of no slot. -/
theorem Frame.run_axes (f : Frame n) (x y w : ℤ) (i : Fin n) :
    (((f.run [.position x y, .pressure w]).mt.slots i).active = (f.mt.slots i).active) ∧
      (f.run [.position x y, .pressure w]).touched = f.touched := by
  refine ⟨?_, rfl⟩
  by_cases hi : i = f.mt.slot
  · simp [Frame.run, Frame.step, Mt.update, hi]
  · simp [Frame.run, Frame.step, Mt.update, hi]

/-- The end of a frame leaves active what was active and touched. -/
theorem Frame.mem_active_syncFrame (f : Frame n) (i : Fin n) :
    i ∈ (f.run [.syncFrame]).mt.active ↔ (f.mt.slots i).active = true ∧ f.touched i = true := by
  rw [mem_active]
  simp [Frame.run, Frame.step]

/-! ### Positions -/

/-- `struct touchscreen_properties`. -/
structure TouchProp where
  maxX : ℕ
  maxY : ℕ
  invertX : Bool
  invertY : Bool
  swapXY : Bool
  deriving DecidableEq

/-- An `unsigned int` passed as the `int` value of an event. -/
def asInt (u : ℕ) : ℤ := if u < 2 ^ 31 then u else (u : ℤ) - 2 ^ 32

/-- `touchscreen_apply_prop_to_x_y`, in `unsigned int`. -/
def applyProp (prop : TouchProp) (x y : ℕ) : ℕ × ℕ :=
  let x := if prop.invertX then (prop.maxX + 2 ^ 32 - x) % 2 ^ 32 else x
  let y := if prop.invertY then (prop.maxY + 2 ^ 32 - y) % 2 ^ 32 else y
  if prop.swapXY then (y, x) else (x, y)

/-- `touchscreen_report_pos`. -/
def reportPos (prop : TouchProp) (x y : ℕ) : InputEv :=
  let p := applyProp prop x y
  .position (asInt p.1) (asInt p.2)

end GeminiLinux.InputMt
