import Mathlib

/-! A delayed work item. Scheduled with a delay it waits for its timer, and then in the queue for a worker;
    scheduled again while it waits, it stays as it is. A worker that has taken it may find it scheduled
    once more, but no two workers run it at the same time.

        schedule ─▶ armed ─expire─▶ queued ─begin─▶ busy ─leave─▶ leaving ─finish─▶ idle
            └──────no delay───────────▲

    `flush_delayed_work` queues an item that waits for its timer, and then waits for all executions that
    have been queued so far. -/

namespace GeminiLinux

/-- Where an execution is: at its work, or with nothing left to do but to return. -/
inductive Exec where
  | idle | busy | leaving
  deriving DecidableEq

/-- The timer, the queue, the worker, and the executions that have returned. -/
structure DelayedWork where
  armed : Bool
  queued : Bool
  exec : Exec
  finished : ℕ
  deriving DecidableEq

namespace DelayedWork

def new : DelayedWork := { armed := false, queued := false, exec := .idle, finished := 0 }

def schedule (delay : ℕ) (w : DelayedWork) : DelayedWork :=
  if w.armed ∨ w.queued then w
  else if delay = 0 then { w with queued := true }
  else { w with armed := true }

/-- The timer goes off, or a flush takes the item out of it. -/
def expire (w : DelayedWork) : DelayedWork :=
  if w.armed then { w with armed := false, queued := true } else w

def begin (w : DelayedWork) : DelayedWork :=
  if w.queued ∧ w.exec = .idle then { w with queued := false, exec := .busy } else w

def leave (w : DelayedWork) : DelayedWork := if w.exec = .busy then { w with exec := .leaving } else w

def finish (w : DelayedWork) : DelayedWork :=
  if w.exec = .leaving then { w with exec := .idle, finished := w.finished + 1 } else w

/-- How often the item is scheduled. -/
def pending (w : DelayedWork) : ℕ := w.armed.toNat + w.queued.toNat

/-- How often it is at work. -/
def busy (w : DelayedWork) : ℕ := if w.exec = .busy then 1 else 0

/-- The executions that have been queued so far. -/
def last (w : DelayedWork) : ℕ := w.finished + w.queued.toNat + if w.exec = .idle then 0 else 1

variable {w : DelayedWork}

@[simp] theorem exec_schedule (delay : ℕ) : (w.schedule delay).exec = w.exec := by
  unfold schedule
  split_ifs <;> rfl

@[simp] theorem exec_expire : w.expire.exec = w.exec := by
  unfold expire
  split_ifs <;> rfl

@[simp] theorem armed_expire : w.expire.armed = false := by
  unfold expire
  split_ifs with h
  · rfl
  · simpa using h

theorem pending_schedule (delay : ℕ) (h : w.pending = 0) : (w.schedule delay).pending = 1 := by
  simp only [pending, Nat.add_eq_zero_iff, Bool.toNat_eq_zero] at h
  simp only [schedule, h.1, h.2]
  split_ifs with hdelay <;> simp_all [pending]

@[simp] theorem busy_schedule (delay : ℕ) : (w.schedule delay).busy = w.busy := by simp [busy]

@[simp] theorem busy_expire : w.expire.busy = w.busy := by simp [busy]

theorem pending_expire (h : w.pending ≤ 1) : w.expire.pending = w.pending := by
  cases hw : w.armed <;> cases hq : w.queued <;> simp_all [pending, expire]

/-- A worker that takes the item makes one at work of one scheduled. -/
theorem scans_begin : w.begin.pending + w.begin.busy = w.pending + w.busy := by
  unfold begin
  split_ifs with h
  · simp [pending, busy, h.1, h.2]
  · rfl

theorem pending_leave : w.leave.pending = w.pending := by
  unfold leave
  split_ifs <;> rfl

theorem pending_finish : w.finish.pending = w.pending := by
  unfold finish
  split_ifs <;> rfl

theorem busy_finish : w.finish.busy = w.busy := by
  unfold finish
  split_ifs with h
  · simp [busy, h]
  · rfl

theorem busy_leave : w.leave.busy = 0 := by
  unfold leave
  split_ifs with h
  · simp [busy]
  · simp [busy, h]

/-- Nothing that happens to an item that waits for no timer queues another execution. -/
theorem last_begin : w.begin.last = w.last := by
  unfold begin
  split_ifs with h
  · simp [last, h.1, h.2]
  · rfl

theorem last_leave : w.leave.last = w.last := by
  unfold leave
  split_ifs with h
  · simp [last, h]
  · rfl

theorem last_finish : w.finish.last = w.last := by
  unfold finish
  split_ifs with h
  · simp [last, h]
    omega
  · rfl

theorem expire_eq_self (h : w.armed = false) : w.expire = w := by simp [expire, h]

theorem armed_begin : w.begin.armed = w.armed := by
  unfold begin
  split_ifs <;> rfl

theorem armed_leave : w.leave.armed = w.armed := by
  unfold leave
  split_ifs <;> rfl

theorem armed_finish : w.finish.armed = w.armed := by
  unfold finish
  split_ifs <;> rfl

/-- When all executions queued have returned, the item is neither queued nor executed. -/
theorem idle_of_last_le (h : w.last ≤ w.finished) : w.queued = false ∧ w.exec = .idle := by
  unfold last at h
  split_ifs at h with hexec
  · refine ⟨?_, hexec⟩
    cases hq : w.queued with
    | false => rfl
    | true =>
      simp [hq] at h
  · omega

end DelayedWork

end GeminiLinux
