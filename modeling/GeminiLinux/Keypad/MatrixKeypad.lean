import GeminiLinux.Kernel.DelayedWork
import GeminiLinux.Lib.Runs

/-! The matrix keypad in polling mode. Each scan schedules the next at its end, under the lock, unless the
    device has been stopped; `start` schedules the first one, and `stop` waits for the last.

        start:  stopped := false ─▶ schedule now
        scan:   read the matrix ─▶ [lock] not stopped? schedule in poll_interval_ms [unlock] ─▶ return
        stop:   [lock] stopped := true [unlock] ─▶ flush: queue, wait ─▶ disable_row_irqs

    Each arrow is a step that may come between any two steps of the others; starts and stops alternate, the
    ones of suspend and resume included. What the base driver does with the row IRQs where it does not poll
    is a parameter. -/

namespace GeminiLinux.MatrixKeypad
open Runs

/-! ### Row IRQs -/

inductive IrqOp where
  | request | free | enable | disable | enableWake | disableWake
  deriving DecidableEq

structure PlatformData where
  pollIntervalMs : ℕ

/-- The functions that do something to the row IRQs. -/
inductive Site where
  | enableRowIrqs | disableRowIrqs | enableWakeup | disableWakeup | initGpio | freeGpio
  deriving DecidableEq

/-- What each of them does when the keypad is not polled: the operations, with the IRQs they are on. -/
abbrev Unpolled := Site → List (IrqOp × ℕ)

/-- Where a start or a stop is. -/
inductive Call where
  | closed
  | starting
  | started
  | stopping
  | flushing (last : ℕ)
  deriving DecidableEq

structure Keypad where
  pdata : PlatformData
  stopped : Bool
  scanPending : Bool
  work : DelayedWork
  call : Call
  irqs : List (IrqOp × ℕ)

variable (base : Unpolled)

/-- `if (pdata->poll_interval_ms)`: nothing. -/
def atSite (site : Site) (k : Keypad) : Keypad :=
  if k.pdata.pollIntervalMs ≠ 0 then k else { k with irqs := k.irqs ++ base site }

def enableRowIrqs (k : Keypad) : Keypad := atSite base .enableRowIrqs k

def disableRowIrqs (k : Keypad) : Keypad := atSite base .disableRowIrqs k

def enableWakeup (k : Keypad) : Keypad := atSite base .enableWakeup k

def disableWakeup (k : Keypad) : Keypad := atSite base .disableWakeup k

def initGpio (k : Keypad) : Keypad := atSite base .initGpio k

def freeGpio (k : Keypad) : Keypad := atSite base .freeGpio k

/-! ### Scans, starts and stops -/

/-- The end of `matrix_keypad_scan`, under the lock. -/
def scanEnd (k : Keypad) : Keypad :=
  let k := { k with scanPending := false }
  if k.pdata.pollIntervalMs ≠ 0 then
    if k.stopped then k else { k with work := k.work.schedule k.pdata.pollIntervalMs }
  else enableRowIrqs base k

inductive Event where
  | startSet | startSchedule
  | stopSet | stopFlush | stopReturn
  | timer | begin | scanEnd | scanReturn
  | enableWakeup | disableWakeup | initGpio | freeGpio
  deriving DecidableEq

/-- An event that cannot happen does nothing. -/
def step (k : Keypad) : Event → Keypad
  | .startSet => if k.call = .closed then { k with stopped := false, call := .starting } else k
  | .startSchedule =>
    if k.call = .starting then { k with work := k.work.schedule 0, call := .started } else k
  | .stopSet => if k.call = .started then { k with stopped := true, call := .stopping } else k
  | .stopFlush =>
    if k.call = .stopping then { k with work := k.work.expire, call := .flushing k.work.expire.last } else k
  | .stopReturn => match k.call with
    | .flushing last => if last ≤ k.work.finished then disableRowIrqs base { k with call := .closed } else k
    | _ => k
  | .timer => { k with work := k.work.expire }
  | .begin => { k with work := k.work.begin }
  | .scanEnd =>
    if k.work.exec = .busy then { scanEnd base k with work := (scanEnd base k).work.leave } else k
  | .scanReturn => { k with work := k.work.finish }
  | .enableWakeup => enableWakeup base k
  | .disableWakeup => disableWakeup base k
  | .initGpio => initGpio base k
  | .freeGpio => freeGpio base k

/-- As the probe leaves it. -/
structure Fresh (k : Keypad) : Prop where
  polled : k.pdata.pollIntervalMs ≠ 0
  stopped : k.stopped = true
  work : k.work = .new
  call : k.call = .closed
  irqs : k.irqs = []

/-- Between a start and the next stop one scan is scheduled or at work; after a stop none is scheduled, none
    at work and none on its way out; and nothing has been done to a row IRQ. -/
structure OneScan (k : Keypad) : Prop where
  stopped : k.stopped = false ↔ k.call = .starting ∨ k.call = .started
  started : k.call = .started → k.work.pending + k.work.busy = 1
  closed : k.call = .closed → k.work.pending = 0 ∧ k.work.exec = .idle
  irqs : k.irqs = []

/-! ### The invariant -/

/-- What is scheduled and at work in each part of a start or a stop. -/
def Fits (call : Call) (stopped : Bool) (work : DelayedWork) : Prop :=
  match call with
  | .closed => stopped = true ∧ work.pending = 0 ∧ work.exec = .idle
  | .starting => stopped = false ∧ work.pending = 0 ∧ work.exec = .idle
  | .started => stopped = false ∧ work.pending + work.busy = 1
  | .stopping => stopped = true ∧ work.pending + work.busy ≤ 1
  | .flushing last => stopped = true ∧ work.armed = false ∧ work.last = last

structure Inv (k : Keypad) : Prop where
  polled : k.pdata.pollIntervalMs ≠ 0
  irqs : k.irqs = []
  fits : Fits k.call k.stopped k.work

variable {base} {k : Keypad}

theorem Fresh.inv (h : Fresh k) : Inv k := by
  refine ⟨h.polled, h.irqs, ?_⟩
  rw [h.call, h.work, h.stopped]
  exact ⟨rfl, rfl, rfl⟩

theorem Inv.oneScan (h : Inv k) : OneScan k := by
  have hfits := h.fits
  refine ⟨?_, ?_, ?_, h.irqs⟩
  · cases hcall : k.call <;> simp [Fits, hcall] at hfits <;> simp [hfits]
  · intro hcall
    rw [hcall] at hfits
    exact hfits.2
  · intro hcall
    rw [hcall] at hfits
    exact hfits.2

/-- No function does anything to the row IRQs of a polled keypad. -/
theorem atSite_polled (h : k.pdata.pollIntervalMs ≠ 0) (site : Site) : atSite base site k = k := by
  rw [atSite, if_pos h]

theorem scanEnd_polled (h : k.pdata.pollIntervalMs ≠ 0) : scanEnd base k = { k with
    scanPending := false
    work := if k.stopped then k.work else k.work.schedule k.pdata.pollIntervalMs } := by
  cases hstopped : k.stopped <;> simp [scanEnd, h, hstopped]

theorem Fits.expire {call : Call} {stopped : Bool} {work : DelayedWork} (h : Fits call stopped work) :
    Fits call stopped work.expire := by
  cases call with
  | closed | starting =>
    obtain ⟨hstopped, hpending, hexec⟩ := h
    exact ⟨hstopped, by rw [DelayedWork.pending_expire (by omega), hpending], by simp [hexec]⟩
  | started =>
    obtain ⟨hstopped, hscans⟩ := h
    exact ⟨hstopped, by rw [DelayedWork.pending_expire (by omega), DelayedWork.busy_expire, hscans]⟩
  | stopping =>
    obtain ⟨hstopped, hscans⟩ := h
    exact ⟨hstopped, by rw [DelayedWork.pending_expire (by omega), DelayedWork.busy_expire]; exact hscans⟩
  | flushing last =>
    obtain ⟨hstopped, harmed, hlast⟩ := h
    rw [DelayedWork.expire_eq_self harmed]
    exact ⟨hstopped, harmed, hlast⟩

theorem Fits.begin {call : Call} {stopped : Bool} {work : DelayedWork} (h : Fits call stopped work) :
    Fits call stopped work.begin := by
  cases call with
  | closed | starting =>
    obtain ⟨hstopped, hpending, hexec⟩ := h
    have hqueued : work.queued = false := by simp [DelayedWork.pending] at hpending; exact hpending.2
    have hsame : work.begin = work := by simp [DelayedWork.begin, hqueued]
    rw [hsame]
    exact ⟨hstopped, hpending, hexec⟩
  | started | stopping =>
    obtain ⟨hstopped, hscans⟩ := h
    exact ⟨hstopped, by rw [DelayedWork.scans_begin]; exact hscans⟩
  | flushing last =>
    obtain ⟨hstopped, harmed, hlast⟩ := h
    exact ⟨hstopped, by rw [DelayedWork.armed_begin, harmed], by rw [DelayedWork.last_begin, hlast]⟩

theorem Fits.finish {call : Call} {stopped : Bool} {work : DelayedWork} (h : Fits call stopped work) :
    Fits call stopped work.finish := by
  cases call with
  | closed | starting =>
    obtain ⟨hstopped, hpending, hexec⟩ := h
    have hsame : work.finish = work := by simp [DelayedWork.finish, hexec]
    rw [hsame]
    exact ⟨hstopped, hpending, hexec⟩
  | started | stopping =>
    obtain ⟨hstopped, hscans⟩ := h
    exact ⟨hstopped, by rw [DelayedWork.pending_finish, DelayedWork.busy_finish]; exact hscans⟩
  | flushing last =>
    obtain ⟨hstopped, harmed, hlast⟩ := h
    exact ⟨hstopped, by rw [DelayedWork.armed_finish, harmed], by rw [DelayedWork.last_finish, hlast]⟩

/-- A scan that is at work when it gets to its end schedules the next one exactly if nobody has stopped
    it. -/
theorem Fits.scanEnd {call : Call} {stopped : Bool} {work : DelayedWork} {interval : ℕ}
    (h : Fits call stopped work) (hbusy : work.exec = .busy) :
    Fits call stopped (if stopped then work else work.schedule interval).leave := by
  have hone : work.busy = 1 := by simp [DelayedWork.busy, hbusy]
  cases call with
  | closed | starting =>
    rw [h.2.2] at hbusy
    cases hbusy
  | started =>
    obtain ⟨rfl, hscans⟩ := h
    have hnone : work.pending = 0 := by omega
    refine ⟨rfl, ?_⟩
    rw [DelayedWork.pending_leave, DelayedWork.busy_leave]
    exact DelayedWork.pending_schedule interval hnone
  | stopping =>
    obtain ⟨rfl, hscans⟩ := h
    refine ⟨rfl, ?_⟩
    rw [DelayedWork.pending_leave, DelayedWork.busy_leave]
    show work.pending + 0 ≤ 1
    omega
  | flushing last =>
    obtain ⟨rfl, harmed, hlast⟩ := h
    exact ⟨rfl, by rw [DelayedWork.armed_leave]; exact harmed, by rw [DelayedWork.last_leave]; exact hlast⟩

theorem Inv.step (h : Inv k) (e : Event) : Inv (step base k e) := by
  have hsite : ∀ site, Inv (atSite base site k) := fun site => by rwa [atSite_polled h.polled]
  have hfits := h.fits
  cases e with
  | startSet =>
    rw [MatrixKeypad.step]
    split_ifs with hcall
    · rw [hcall] at hfits
      exact ⟨h.polled, h.irqs, rfl, hfits.2⟩
    · exact h
  | startSchedule =>
    rw [MatrixKeypad.step]
    split_ifs with hcall
    · rw [hcall] at hfits
      obtain ⟨hstopped, hpending, hexec⟩ := hfits
      refine ⟨h.polled, h.irqs, hstopped, ?_⟩
      rw [DelayedWork.pending_schedule 0 hpending, DelayedWork.busy_schedule, DelayedWork.busy, hexec]
      rfl
    · exact h
  | stopSet =>
    rw [MatrixKeypad.step]
    split_ifs with hcall
    · rw [hcall] at hfits
      exact ⟨h.polled, h.irqs, rfl, hfits.2.le⟩
    · exact h
  | stopFlush =>
    rw [MatrixKeypad.step]
    split_ifs with hcall
    · rw [hcall] at hfits
      exact ⟨h.polled, h.irqs, hfits.1, DelayedWork.armed_expire, rfl⟩
    · exact h
  | stopReturn =>
    rw [MatrixKeypad.step]
    split
    · rename_i last hcall
      rw [hcall] at hfits
      obtain ⟨hstopped, harmed, hlast⟩ := hfits
      split_ifs with hdone
      · obtain ⟨hqueued, hexec⟩ := DelayedWork.idle_of_last_le (hlast.trans_le hdone)
        rw [disableRowIrqs, atSite_polled (k := { k with call := .closed }) h.polled]
        exact ⟨h.polled, h.irqs, hstopped, by simp [DelayedWork.pending, harmed, hqueued], hexec⟩
      · exact h
    · exact h
  | timer => exact ⟨h.polled, h.irqs, hfits.expire⟩
  | begin => exact ⟨h.polled, h.irqs, hfits.begin⟩
  | scanEnd =>
    rw [MatrixKeypad.step]
    split_ifs with hbusy
    · rw [scanEnd_polled h.polled]
      exact ⟨h.polled, h.irqs, hfits.scanEnd hbusy⟩
    · exact h
  | scanReturn => exact ⟨h.polled, h.irqs, hfits.finish⟩
  | enableWakeup => exact hsite .enableWakeup
  | disableWakeup => exact hsite .disableWakeup
  | initGpio => exact hsite .initGpio
  | freeGpio => exact hsite .freeGpio

/-- For every interleaving of starts, stops and scans of a keypad that is polled. -/
theorem one_scan (base : Unpolled) {k : Keypad} (h : Fresh k) (es : List Event) :
    Always (step base) OneScan k es :=
  (always_of_inv (fun _ e h => h.step e) h.inv es).mono fun _ h => h.oneScan

def polledEvery20ms : Keypad where
  pdata := { pollIntervalMs := 20 }
  stopped := true
  scanPending := false
  work := .new
  call := .closed
  irqs := []

/-- A stop that comes while a scan is at work. -/
theorem one_scan_stopped : Always (step fun _ => [(.enable, 7)]) OneScan polledEvery20ms
    [.startSet, .startSchedule, .begin, .stopSet, .stopFlush, .scanEnd, .scanReturn, .stopReturn] :=
  one_scan (fun _ => [(.enable, 7)]) ⟨by decide, rfl, rfl, rfl, rfl⟩
    [.startSet, .startSchedule, .begin, .stopSet, .stopFlush, .scanEnd, .scanReturn, .stopReturn]

end GeminiLinux.MatrixKeypad
