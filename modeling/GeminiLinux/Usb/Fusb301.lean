import GeminiLinux.Kernel.DelayedWork
import GeminiLinux.Kernel.Errno
import GeminiLinux.Lib.Runs

/-! The CC controller of the left port. It is made a source when it is probed and handed back as the sink it
    was; in between a work item, for want of an interrupt, reads two registers every half second and logs
    what has changed.

        probe ─▶ MODES := source ─▶ schedule
        poll:  STATUS ─▶ TYPE ─▶ not as last time? log ─▶ schedule ─▶ return
                 └────────┴───── read failed ─────────────▲
        stop:  cancel_delayed_work_sync ─▶ MODES := sink

    Each arrow is a step that may come between any two steps of the others, and each transfer may fail. -/

namespace GeminiLinux.Usb
open Runs

def modeSrc : BitVec 8 := 0x01

def modeSnk : BitVec 8 := 0x04

def pollMs : ℕ := 500

/-- `STATUS` and `TYPE` as one look at them found them. -/
abbrev Sample := BitVec 8 × BitVec 8

/-- The registers of the chip that the driver accesses. -/
structure Chip where
  modes : BitVec 8
  status : BitVec 8
  type : BitVec 8

structure Fusb301 where
  pollWork : DelayedWork
  lastStatus : BitVec 8
  lastType : BitVec 8

/-- Where an execution of the work is: it may have the first register. -/
inductive Pc where
  | status
  | type (status : BitVec 8)
  | resched

inductive Phase where
  | unbound | bound | stopping
  deriving DecidableEq

/-- The chip, the driver's data, and since the last probe the looks that got both registers and the lines
    that were logged. -/
structure Sys where
  chip : Chip
  fusb : Fusb301
  pc : Pc
  phase : Phase
  samples : List Sample
  log : List Sample

/-- A transfer of a register. -/
abbrev Xfer := Except Errno Unit

/-- `fusb301_probe`, behind the allocations, with what its two transfers come to. -/
def probe (deviceId modes : Xfer) (s : Sys) : Except Errno Sys := do
  deviceId
  modes
  .ok { s with
    chip.modes := modeSrc, fusb := ⟨DelayedWork.new.schedule pollMs, 0xff, 0⟩, phase := .bound, samples := [], log := [] }

/-- A look that got both registers. -/
def see (x : Sample) (s : Sys) : Sys :=
  if x.1 ≠ s.fusb.lastStatus ∨ x.2 ≠ s.fusb.lastType then
    { s with fusb.lastStatus := x.1, fusb.lastType := x.2, samples := s.samples ++ [x], log := s.log ++ [x] }
  else { s with samples := s.samples ++ [x] }

/-- The next step of `fusb301_poll_work`. A work item that is being cancelled is not scheduled again. -/
def pollWork (xfer : Xfer) (s : Sys) : Sys :=
  match s.pc, xfer with
  | .status, .error _ => { s with pc := .resched }
  | .status, .ok _ => { s with pc := .type s.chip.status }
  | .type _, .error _ => { s with pc := .resched }
  | .type status, .ok _ => { see (status, s.chip.type) s with pc := .resched }
  | .resched, _ =>
    let work := if s.phase = .stopping then s.fusb.pollWork else s.fusb.pollWork.schedule pollMs
    { s with fusb.pollWork := work.leave }

inductive Event where
  | chip (status type : BitVec 8)
  | probe (deviceId modes : Xfer)
  | timer
  | begin
  | poll (xfer : Xfer)
  | workReturn
  | stop
  | stopReturn (modes : Xfer)

/-- An event that cannot happen does nothing. -/
def step (s : Sys) : Event → Sys
  | .chip status type => { s with chip.status := status, chip.type := type }
  | .probe deviceId modes => if s.phase = .unbound then (probe deviceId modes s).toOption.getD s else s
  | .timer => { s with fusb.pollWork := s.fusb.pollWork.expire }
  | .begin =>
    if s.fusb.pollWork.queued ∧ s.fusb.pollWork.exec = .idle then
      { s with fusb.pollWork := s.fusb.pollWork.begin, pc := .status }
    else s
  | .poll xfer => if s.fusb.pollWork.exec = .busy then pollWork xfer s else s
  | .workReturn => { s with fusb.pollWork := s.fusb.pollWork.finish }
  | .stop =>
    if s.phase = .bound then
      { s with fusb.pollWork := { s.fusb.pollWork with armed := false, queued := false }, phase := .stopping }
    else s
  | .stopReturn modes =>
    if s.phase = .stopping ∧ s.fusb.pollWork.exec = .idle then
      { s with phase := .unbound, chip.modes := if modes.toBool then modeSnk else s.chip.modes }
    else s

/-- Before the first probe. -/
def start (chip : Chip) : Sys := ⟨chip, ⟨.new, 0xff, 0⟩, .status, .unbound, [], []⟩

/-! ### What is logged -/

theorem destutter'_concat {α : Type} [DecidableEq α] (a x : α) (l : List α) :
    (l ++ [x]).destutter' (· ≠ ·) a =
      if l.getLastD a = x then l.destutter' (· ≠ ·) a else l.destutter' (· ≠ ·) a ++ [x] := by
  induction l generalizing a with
  | nil =>
    rw [List.nil_append, List.destutter'_singleton, List.destutter'_nil, List.getLastD_nil]
    by_cases heq : a = x
    · rw [if_neg (not_not.mpr heq), if_pos heq]
    · rw [if_pos heq, if_neg heq]
      rfl
  | cons b l ih =>
    rw [List.cons_append, List.destutter'_cons, List.destutter'_cons, List.getLastD_cons]
    by_cases hne : a ≠ b
    · rw [if_pos hne, if_pos hne, ih b, apply_ite (a :: ·)]
      rfl
    · rw [if_neg hne, if_neg hne, ih a, not_not.mp hne]

/-- What `last_status` and `last_type` are before the first look. -/
def unseen : Sample := (0xff, 0)

/-- Each line of the log is a look that found something else than the one before it. -/
structure Logged (s : Sys) : Prop where
  last : (s.fusb.lastStatus, s.fusb.lastType) = s.samples.getLastD unseen
  log : unseen :: s.log = s.samples.destutter' (· ≠ ·) unseen

theorem Logged.see {s : Sys} (h : Logged s) (x : Sample) : Logged (see x s) := by
  have hlast (y : Sample) : (s.samples ++ [y]).getLastD unseen = y := by
    rw [List.getLastD_eq_getLast?, List.getLast?_concat, Option.getD_some]
  have hsame : ¬ (x.1 ≠ s.fusb.lastStatus ∨ x.2 ≠ s.fusb.lastType) ↔ s.samples.getLastD unseen = x := by
    rw [← h.last, not_or, not_not, not_not, Prod.ext_iff, eq_comm, @eq_comm _ x.2]
  rw [Usb.see]
  split_ifs with hnew
  · have hne : s.samples.getLastD unseen ≠ x := fun heq => hsame.mpr heq hnew
    refine ⟨(hlast x).symm, ?_⟩
    show unseen :: (s.log ++ [x]) = (s.samples ++ [x]).destutter' (· ≠ ·) unseen
    rw [destutter'_concat, if_neg hne, ← h.log]
    rfl
  · have heq := hsame.mp hnew
    refine ⟨?_, ?_⟩
    · show (s.fusb.lastStatus, s.fusb.lastType) = (s.samples ++ [x]).getLastD unseen
      rw [hlast, h.last, heq]
    · show unseen :: s.log = (s.samples ++ [x]).destutter' (· ≠ ·) unseen
      rw [destutter'_concat, if_pos heq, h.log]

/-! ### One look at a time -/

/-- While the driver is bound, one execution is scheduled or at work and the chip is a source; behind a stop
    there is none. -/
structure Polled (s : Sys) : Prop where
  bound : s.phase = .bound → s.fusb.pollWork.pending + s.fusb.pollWork.busy = 1 ∧ s.chip.modes = modeSrc
  stopping : s.phase = .stopping → s.fusb.pollWork.pending = 0 ∧ s.chip.modes = modeSrc
  unbound : s.phase = .unbound → s.fusb.pollWork.pending = 0 ∧ s.fusb.pollWork.exec = .idle
  logged : Logged s

/-- The work item's part of it. -/
def Fits (phase : Phase) (work : DelayedWork) : Prop :=
  match phase with
  | .bound => work.pending + work.busy = 1
  | .stopping => work.pending = 0
  | .unbound => work.pending = 0 ∧ work.exec = .idle

structure Inv (s : Sys) : Prop where
  fits : Fits s.phase s.fusb.pollWork
  modes : s.phase ≠ .unbound → s.chip.modes = modeSrc
  logged : Logged s

variable {s : Sys}

theorem Inv.polled (h : Inv s) : Polled s := by
  have hfits := h.fits
  refine ⟨fun hp => ?_, fun hp => ?_, fun hp => ?_, h.logged⟩
  · rw [hp] at hfits
    exact ⟨hfits, h.modes (by rw [hp]; decide)⟩
  · rw [hp] at hfits
    exact ⟨hfits, h.modes (by rw [hp]; decide)⟩
  · rw [hp] at hfits
    exact hfits

theorem inv_start (chip : Chip) : Inv (start chip) := ⟨⟨rfl, rfl⟩, fun h => absurd rfl h, rfl, rfl⟩

theorem Fits.expire {phase : Phase} {work : DelayedWork} (h : Fits phase work) : Fits phase work.expire := by
  cases phase with
  | bound =>
    have hone : work.pending + work.busy = 1 := h
    show work.expire.pending + work.expire.busy = 1
    rw [DelayedWork.pending_expire (by omega), DelayedWork.busy_expire, hone]
  | stopping =>
    have hnone : work.pending = 0 := h
    exact (DelayedWork.pending_expire (by omega)).trans hnone
  | unbound => exact ⟨(DelayedWork.pending_expire (by rw [h.1]; decide)).trans h.1, by rw [DelayedWork.exec_expire, h.2]⟩

theorem Fits.begin {phase : Phase} {work : DelayedWork} (h : Fits phase work) (hqueued : work.queued = true) :
    Fits phase work.begin := by
  have hpending : work.pending ≠ 0 := by simp [DelayedWork.pending, hqueued]
  cases phase with
  | bound => exact DelayedWork.scans_begin.trans h
  | stopping => exact absurd h hpending
  | unbound => exact absurd h.1 hpending

theorem Fits.finish {phase : Phase} {work : DelayedWork} (h : Fits phase work) : Fits phase work.finish := by
  cases phase with
  | bound =>
    show work.finish.pending + work.finish.busy = 1
    rw [DelayedWork.pending_finish, DelayedWork.busy_finish]
    exact h
  | stopping => exact DelayedWork.pending_finish.trans h
  | unbound =>
    have hsame : work.finish = work := by simp [DelayedWork.finish, h.2]
    rw [hsame]
    exact h

/-- An execution schedules the next one at its end, unless it is being cancelled. -/
theorem Fits.resched {phase : Phase} {work : DelayedWork} (h : Fits phase work) (hbusy : work.exec = .busy) :
    Fits phase (if phase = .stopping then work else work.schedule pollMs).leave := by
  have hone : work.busy = 1 := by simp [DelayedWork.busy, hbusy]
  cases phase with
  | bound =>
    have hsum : work.pending + work.busy = 1 := h
    show (work.schedule pollMs).leave.pending + (work.schedule pollMs).leave.busy = 1
    rw [DelayedWork.pending_leave, DelayedWork.busy_leave]
    exact DelayedWork.pending_schedule pollMs (by omega)
  | stopping => exact DelayedWork.pending_leave.trans h
  | unbound =>
    rw [h.2] at hbusy
    cases hbusy

theorem inv_pollWork (h : Inv s) (hbusy : s.fusb.pollWork.exec = .busy) (xfer : Xfer) : Inv (pollWork xfer s) := by
  have hsee (x : Sample) : (see x s).phase = s.phase ∧ (see x s).fusb.pollWork = s.fusb.pollWork ∧
      (see x s).chip = s.chip := by
    rw [see]
    split_ifs <;> exact ⟨rfl, rfl, rfl⟩
  cases hpc : s.pc with
  | status =>
    cases xfer with
    | error _ =>
      simp only [pollWork, hpc]
      exact ⟨h.fits, h.modes, h.logged.last, h.logged.log⟩
    | ok _ =>
      simp only [pollWork, hpc]
      exact ⟨h.fits, h.modes, h.logged.last, h.logged.log⟩
  | type status =>
    cases xfer with
    | error _ =>
      simp only [pollWork, hpc]
      exact ⟨h.fits, h.modes, h.logged.last, h.logged.log⟩
    | ok _ =>
      obtain ⟨hphase, hwork, hchip⟩ := hsee (status, s.chip.type)
      have hlogged := h.logged.see (status, s.chip.type)
      simp only [pollWork, hpc]
      refine ⟨?_, ?_, hlogged.last, hlogged.log⟩
      · show Fits (see _ s).phase (see _ s).fusb.pollWork
        rw [hphase, hwork]
        exact h.fits
      · show (see _ s).phase ≠ _ → (see _ s).chip.modes = _
        rw [hphase, hchip]
        exact h.modes
  | resched =>
    simp only [pollWork, hpc]
    exact ⟨h.fits.resched hbusy, h.modes, h.logged.last, h.logged.log⟩

theorem inv_step (s : Sys) (e : Event) (h : Inv s) : Inv (step s e) := by
  cases e with
  | chip status type => exact ⟨h.fits, h.modes, h.logged.last, h.logged.log⟩
  | probe deviceId modes =>
    rw [step]
    split_ifs with hphase
    · cases deviceId with
      | error _ => exact h
      | ok _ =>
        cases modes with
        | error _ => exact h
        | ok _ => exact ⟨rfl, fun _ => rfl, rfl, rfl⟩
    · exact h
  | timer => exact ⟨h.fits.expire, h.modes, h.logged.last, h.logged.log⟩
  | begin =>
    rw [step]
    split_ifs with hbegin
    · exact ⟨h.fits.begin hbegin.1, h.modes, h.logged.last, h.logged.log⟩
    · exact h
  | poll xfer =>
    rw [step]
    split_ifs with hbusy
    · exact inv_pollWork h hbusy xfer
    · exact h
  | workReturn => exact ⟨h.fits.finish, h.modes, h.logged.last, h.logged.log⟩
  | stop =>
    rw [step]
    split_ifs with hphase
    · refine ⟨rfl, fun _ => h.modes ?_, h.logged.last, h.logged.log⟩
      rw [hphase]
      decide
    · exact h
  | stopReturn modes =>
    by_cases hidle : s.phase = .stopping ∧ s.fusb.pollWork.exec = .idle
    · have hfits := h.fits
      rw [hidle.1] at hfits
      rw [step, if_pos hidle]
      exact ⟨⟨hfits, hidle.2⟩, fun hphase => absurd rfl hphase, h.logged.last, h.logged.log⟩
    · rw [step, if_neg hidle]
      exact h

/-- Over every order of looks, changes, failed transfers, stops and probes. -/
theorem always_polled (chip : Chip) (es : List Event) : Always step Polled (start chip) es :=
  (always_of_inv inv_step (inv_start chip) es).mono fun _ h => h.polled

/-- The write of a stop gets through. -/
def HandsBack (_ : Sys) (e : Event) : Prop := ∀ err, e ≠ .stopReturn (.error err)

/-- A sink where no driver is bound. -/
def SinkUnbound (s : Sys) : Prop := s.phase = .unbound → s.chip.modes = modeSnk

theorem sinkUnbound_step (e : Event) (h : SinkUnbound s) (he : HandsBack s e) : SinkUnbound (step s e) := by
  have hphase (xfer : Xfer) : (pollWork xfer s).phase = s.phase ∧ (pollWork xfer s).chip = s.chip := by
    unfold pollWork see
    split
    · exact ⟨rfl, rfl⟩
    · exact ⟨rfl, rfl⟩
    · exact ⟨rfl, rfl⟩
    · split_ifs <;> exact ⟨rfl, rfl⟩
    · exact ⟨rfl, rfl⟩
  cases e with
  | chip status type => exact h
  | probe deviceId modes =>
    rw [step]
    split_ifs
    · cases deviceId with
      | error _ => exact h
      | ok _ =>
        cases modes with
        | error _ => exact h
        | ok _ => exact nofun
    · exact h
  | timer => exact h
  | begin =>
    rw [step]
    split_ifs <;> exact h
  | poll xfer =>
    rw [step]
    split_ifs
    · rw [SinkUnbound, (hphase xfer).1, (hphase xfer).2]
      exact h
    · exact h
  | workReturn => exact h
  | stop =>
    rw [step]
    split_ifs
    · exact nofun
    · exact h
  | stopReturn modes =>
    cases modes with
    | error err => exact absurd rfl (he err)
    | ok _ =>
      by_cases hidle : s.phase = .stopping ∧ s.fusb.pollWork.exec = .idle
      · rw [step, if_pos hidle]
        exact fun _ => rfl
      · rw [step, if_neg hidle]
        exact h

/-- Where the write of each stop gets through, the chip is a sink whenever no driver is bound, as the phone's
    own system expects it. -/
theorem handed_back {chip : Chip} (hsnk : chip.modes = modeSnk) {es : List Event}
    (hes : Steps step HandsBack (start chip) es) : Always step SinkUnbound (start chip) es :=
  always_of_steps (fun _ h => h) (fun _ e h he => sinkUnbound_step e h he) (fun _ => hsnk) hes

end GeminiLinux.Usb
