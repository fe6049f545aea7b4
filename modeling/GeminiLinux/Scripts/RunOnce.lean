import GeminiLinux.Lib.Runs

/-! The script staged for one boot. At every boot `run-once.service` starts `run-once-exec`, which runs
    /root/run-once.sh with its output going to a log and then renames it. The device may reboot at
    any point, the script itself may make it do so, and a script may be staged at any time.

        test ─▶ date ─▶ open log ─▶ header ─▶ start ─▶ running ─▶ footer ─▶ rename ─▶ end
                            │ fails                                            ▲
                            └──────────────────────────────────────────────────┘

    The block in braces is one command: if its log cannot be opened it is left out, and the rename is
    made all the same. What a call has done to the files is there after a reboot. -/

namespace GeminiLinux.RunOnce
open Runs

/-! ### The device -/

/-- What has been staged as /root/run-once.sh; each staging has its number. -/
structure Script where
  id : ℕ
  executable : Bool
  deriving DecidableEq

inductive Line where
  | text (s : String)
  /-- The script, as `cat` prints it. -/
  | content (script : Option Script)
  /-- What the script prints. -/
  | output (id : ℕ)
  deriving DecidableEq

structure Log where
  path : String
  lines : List Line
  deriving DecidableEq

/-- Where `run-once-exec` is, with the variables it has set: `ts` is TS, `status` is $?. -/
inductive Phase where
  | test
  | date
  | openLog (ts : String)
  | header (ts : String)
  | start (ts : String)
  | running (ts : String) (id : ℕ)
  | footer (ts status : String)
  | move (ts : String)
  | ended
  deriving DecidableEq

/-- What has happened: a script was started in a boot, or it was renamed, the log of the boot
    being `log` by then. -/
inductive Entry where
  | started (id boot : ℕ)
  | renamed (id boot : ℕ) (name : String) (log : Option Log)
  deriving DecidableEq

structure Sys where
  script : Option Script
  staged : ℕ
  boot : ℕ
  phase : Phase
  /-- The log this boot has opened. -/
  log : Option Log
  hist : List Entry

/-- The device before anything is staged, and before its first boot. -/
def Sys.off : Sys where
  script := none
  staged := 0
  boot := 0
  phase := .ended
  log := none
  hist := []

/-! ### run-once-exec -/

def scriptPath : String := "/root/run-once.sh"

def logPath (ts : String) : String := "/var/log/run-once/" ++ ts ++ ".log"

/-- What the call made next answers, and what it prints. -/
structure Reply where
  ok : Bool
  out : String

/-- The lines that go to the log, if the writes succeed. -/
def Sys.write (s : Sys) (ok : Bool) (lines : List Line) : Sys :=
  { s with log := s.log.map fun log =>
      { log with lines := log.lines ++ if ok then lines else [] } }

def headerLines (ts uname : String) (script : Option Script) : List Line :=
  [.text ("=== run-once " ++ ts ++ " ==="), .text uname, .text "--- script ---", .content script,
    .text "--- output ---"]

/-- The next command of `run-once-exec`. The script ends with a reply of its own: what it prints
    reaches the log or not, and `out` is its exit status. -/
def exec (s : Sys) (r : Reply) : Sys :=
  match s.phase with
  | .test => { s with phase := if s.script.any (·.executable) then .date else .ended }
  | .date => { s with phase := .openLog r.out }
  | .openLog ts =>
    if r.ok then { s with phase := .header ts, log := some ⟨logPath ts, []⟩ }
    else { s with phase := .move ts }
  | .header ts => { s.write r.ok (headerLines ts r.out s.script) with phase := .start ts }
  | .start ts =>
    match s.script with
    | some f =>
      if f.executable ∧ r.ok then
        { s with phase := .running ts f.id, hist := s.hist ++ [.started f.id s.boot] }
      else { s with phase := .footer ts "126" }
    | none => { s with phase := .footer ts "127" }
  | .running ts id => { s.write r.ok [.output id] with phase := .footer ts r.out }
  | .footer ts status =>
    { s.write r.ok [.text ("=== exit=" ++ status ++ " ===")] with phase := .move ts }
  | .move ts =>
    match s.script with
    | some f =>
      if r.ok then
        { s with
          script := none
          phase := .ended
          hist := s.hist ++ [.renamed f.id s.boot (scriptPath ++ ".done-" ++ ts) s.log] }
      else { s with phase := .ended }
    | none => { s with phase := .ended }
  | .ended => s

inductive Event where
  /-- A script is put in place, executable or not. -/
  | stage (executable : Bool)
  /-- The device reboots, wherever `run-once-exec` is, and the service starts it anew. -/
  | reboot
  | call (r : Reply)

def step (s : Sys) : Event → Sys
  | .stage x => { s with script := some ⟨s.staged, x⟩, staged := s.staged + 1 }
  | .reboot => { s with phase := .test, boot := s.boot + 1, log := none }
  | .call r => exec s r

/-! ### What is promised -/

/-- The output of a script is in a log. -/
def Captured (log : Option Log) (id : ℕ) : Prop := ∃ l, log = some l ∧ .output id ∈ l.lines

/-- A script was started in this boot and its output is in the log of this boot. -/
def Ran (s : Sys) (id : ℕ) : Prop := .started id s.boot ∈ s.hist ∧ Captured s.log id

/-- Every staged script is started in one boot at most, and renamed only in the boot it was started
    in, its output being in that boot's log. -/
structure RunsOnce (s : Sys) : Prop where
  once : ∀ id b b', .started id b ∈ s.hist → .started id b' ∈ s.hist → b = b'
  renamed : ∀ id b name log, .renamed id b name log ∈ s.hist → .started id b ∈ s.hist ∧ Captured log id

/-- The script has been found, and not been started. -/
def Phase.found : Phase → Bool
  | .date | .openLog _ | .header _ | .start _ => true
  | _ => false

/-- The script has been started, and not been renamed. -/
def Phase.begun : Phase → Bool
  | .running _ _ | .footer _ _ | .move _ => true
  | _ => false

/-- The log is opened, the script is started, its output is written, it is renamed. -/
def Phase.critical : Phase → Bool
  | .openLog _ | .start _ | .running _ _ | .move _ => true
  | _ => false

/-- The steps that do no harm: the calls that matter succeed, no reboot comes between the start of the
    script and its rename, and nothing is staged there, nor something that cannot be executed between
    the test for the script and its start. -/
def Good (s : Sys) : Event → Prop
  | .stage x => s.phase.begun = false ∧ (s.phase.found = true → x = true)
  | .reboot => s.phase.begun = false
  | .call r => s.phase.critical = true → r.ok = true

/-- Every call succeeds, and the device reboots only when `run-once-exec` has ended. -/
def Calm (s : Sys) : Event → Prop
  | .stage _ => False
  | .reboot => s.phase = .ended
  | .call r => r.ok = true

theorem Calm.good {s : Sys} : ∀ {e : Event}, Calm s e → Good s e
  | .reboot, h => by
      have hended : s.phase = .ended := h
      simp [Good, hended, Phase.begun]
  | .call _, h => fun _ => h

/-! ### The invariant -/

/-- The script that is in place has never been started. -/
def Fresh (s : Sys) : Prop := ∀ f, s.script = some f → ∀ b, .started f.id b ∉ s.hist

/-- A script that can be executed is in place. -/
def InPlace (s : Sys) : Prop := ∃ f, s.script = some f ∧ f.executable = true

/-- The log has been opened, and has no output yet. -/
def Blank (s : Sys) : Prop := ∃ l, s.log = some l ∧ ∀ id, .output id ∉ l.lines

/-- What holds where `run-once-exec` is. -/
def AtPhase (s : Sys) : Phase → Prop
  | .test | .ended => Fresh s
  | .date | .openLog _ => Fresh s ∧ InPlace s
  | .header _ | .start _ => Fresh s ∧ InPlace s ∧ Blank s
  | .running _ id => ∃ f, s.script = some f ∧ f.executable = true ∧ f.id = id ∧
      .started f.id s.boot ∈ s.hist ∧ Blank s
  | .footer _ _ | .move _ => ∃ f, s.script = some f ∧ f.executable = true ∧ Ran s f.id

structure Inv (s : Sys) : Prop where
  runsOnce : RunsOnce s
  numbered : ∀ id b, .started id b ∈ s.hist → id < s.staged
  placed : ∀ f, s.script = some f → f.id < s.staged
  phase : AtPhase s s.phase

theorem off_inv : Inv Sys.off := by
  refine ⟨⟨?_, ?_⟩, ?_, ?_, ?_⟩
  · intro id b b' h
    simp [Sys.off] at h
  · intro id b name log h
    simp [Sys.off] at h
  · intro id b h
    simp [Sys.off] at h
  · intro f h
    simp [Sys.off] at h
  · intro f h
    simp [Sys.off] at h

section History

variable {s s' : Sys}

theorem RunsOnce.of_hist (h : RunsOnce s) (hhist : s'.hist = s.hist) : RunsOnce s' := by
  obtain ⟨honce, hrenamed⟩ := h
  refine ⟨?_, ?_⟩
  · rw [hhist]
    exact honce
  · rw [hhist]
    exact hrenamed

/-- Starting a script that has never been started. -/
theorem RunsOnce.start {id boot : ℕ} (h : RunsOnce s) (hnew : ∀ b, .started id b ∉ s.hist)
    (hhist : s'.hist = s.hist ++ [.started id boot]) : RunsOnce s' := by
  have hmem {i b : ℕ} : .started i b ∈ s'.hist ↔ .started i b ∈ s.hist ∨ i = id ∧ b = boot := by
    rw [hhist, List.mem_append, List.mem_singleton, Entry.started.injEq]
  refine ⟨?_, ?_⟩
  · intro i b b' hb hb'
    rcases hmem.mp hb with hb | ⟨rfl, rfl⟩
    · rcases hmem.mp hb' with hb' | ⟨rfl, rfl⟩
      · exact h.once i b b' hb hb'
      · exact absurd hb (hnew b)
    · rcases hmem.mp hb' with hb' | ⟨-, rfl⟩
      · exact absurd hb' (hnew b')
      · rfl
  · intro i b name log hr
    rw [hhist, List.mem_append, List.mem_singleton] at hr
    rcases hr with hr | hr
    · exact ⟨hmem.mpr (.inl (h.renamed i b name log hr).1), (h.renamed i b name log hr).2⟩
    · cases hr

/-- Renaming a script that this boot has run. -/
theorem RunsOnce.rename {id : ℕ} {name : String} (h : RunsOnce s) (hran : Ran s id)
    (hhist : s'.hist = s.hist ++ [.renamed id s.boot name s.log]) : RunsOnce s' := by
  have hmem {i b : ℕ} : .started i b ∈ s'.hist ↔ .started i b ∈ s.hist := by
    rw [hhist, List.mem_append, List.mem_singleton]
    simp
  refine ⟨?_, ?_⟩
  · intro i b b' hb hb'
    exact h.once i b b' (hmem.mp hb) (hmem.mp hb')
  · intro i b name' log hr
    rw [hhist, List.mem_append, List.mem_singleton] at hr
    rcases hr with hr | hr
    · exact ⟨hmem.mpr (h.renamed i b name' log hr).1, (h.renamed i b name' log hr).2⟩
    · cases hr
      exact ⟨hmem.mpr hran.1, hran.2⟩

/-- Starting a script that another boot has started. -/
theorem not_runsOnce_start {id b boot : ℕ} (hb : .started id b ∈ s.hist) (hne : b ≠ boot)
    (hhist : s'.hist = s.hist ++ [.started id boot]) : ¬ RunsOnce s' := by
  intro h
  have hbefore : .started id b ∈ s'.hist := by
    rw [hhist]
    exact List.mem_append_left _ hb
  have hnow : .started id boot ∈ s'.hist := by
    rw [hhist]
    exact List.mem_append_right _ (List.mem_singleton_self _)
  exact hne (h.once id b boot hbefore hnow)

/-- Renaming a script that this boot has not run. -/
theorem not_runsOnce_rename {id : ℕ} {name : String} (hran : ¬ Ran s id)
    (hhist : s'.hist = s.hist ++ [.renamed id s.boot name s.log]) : ¬ RunsOnce s' := by
  intro h
  have hmem : .renamed id s.boot name s.log ∈ s'.hist := by
    rw [hhist]
    exact List.mem_append_right _ (List.mem_singleton_self _)
  obtain ⟨hstarted, hcaptured⟩ := h.renamed id s.boot name s.log hmem
  rw [hhist, List.mem_append, List.mem_singleton] at hstarted
  rcases hstarted with hstarted | hstarted
  · exact hran ⟨hstarted, hcaptured⟩
  · cases hstarted

end History

/-! ### Events that are not calls -/

theorem Inv.fresh_new {s : Sys} (h : Inv s) (b : ℕ) : .started s.staged b ∉ s.hist := fun hmem =>
  absurd (h.numbered _ _ hmem) (lt_irrefl _)

/-- A script that is staged is a new one. -/
theorem Inv.stage {s : Sys} (h : Inv s) {x : Bool} (hgood : Good s (.stage x)) :
    Inv (step s (.stage x)) := by
  obtain ⟨hbegun, hfound⟩ := hgood
  have hfresh : Fresh (step s (.stage x)) := by
    rintro f hf b
    cases hf
    exact h.fresh_new b
  have hplace (hx : x = true) : InPlace (step s (.stage x)) := ⟨_, rfl, hx⟩
  refine ⟨h.runsOnce.of_hist rfl, ?_, ?_, ?_⟩
  · intro id b hb
    exact Nat.lt_succ_of_lt (h.numbered id b hb)
  · intro f hf
    cases hf
    exact Nat.lt_succ_self _
  · have hat := h.phase
    have hsame : (step s (.stage x)).phase = s.phase := rfl
    rw [hsame]
    cases hphase : s.phase with
    | test => exact hfresh
    | date => exact ⟨hfresh, hplace (hfound (by rw [hphase]; rfl))⟩
    | openLog ts => exact ⟨hfresh, hplace (hfound (by rw [hphase]; rfl))⟩
    | header ts =>
      rw [hphase] at hat
      exact ⟨hfresh, hplace (hfound (by rw [hphase]; rfl)), hat.2.2⟩
    | start ts =>
      rw [hphase] at hat
      exact ⟨hfresh, hplace (hfound (by rw [hphase]; rfl)), hat.2.2⟩
    | running ts id => simp [hphase, Phase.begun] at hbegun
    | footer ts status => simp [hphase, Phase.begun] at hbegun
    | move ts => simp [hphase, Phase.begun] at hbegun
    | ended => exact hfresh

/-- Where nothing has been started that is not renamed, the script in place is fresh. -/
theorem Inv.fresh {s : Sys} (h : Inv s) (hbegun : s.phase.begun = false) : Fresh s := by
  have hat := h.phase
  cases hphase : s.phase with
  | running ts id => simp [hphase, Phase.begun] at hbegun
  | footer ts status => simp [hphase, Phase.begun] at hbegun
  | move ts => simp [hphase, Phase.begun] at hbegun
  | test | ended =>
    rw [hphase] at hat
    exact hat
  | date | openLog ts | header ts | start ts =>
    rw [hphase] at hat
    exact hat.1

theorem Inv.reboot {s : Sys} (h : Inv s) (hgood : Good s .reboot) : Inv (step s .reboot) :=
  ⟨h.runsOnce.of_hist rfl, h.numbered, h.placed, h.fresh hgood⟩

/-! ### Calls -/

/-- A call that leaves the script and the history alone keeps what does not depend on the phase. -/
theorem Inv.of_same {s s' : Sys} (h : Inv s) (hhist : s'.hist = s.hist) (hscript : s'.script = s.script)
    (hstaged : s'.staged = s.staged) (hphase : AtPhase s' s'.phase) : Inv s' := by
  refine ⟨h.runsOnce.of_hist hhist, ?_, ?_, hphase⟩
  · rw [hhist, hstaged]
    exact h.numbered
  · rw [hscript, hstaged]
    exact h.placed

theorem Blank.write {s : Sys} (h : Blank s) (ok : Bool) {lines : List Line}
    (hlines : ∀ id, .output id ∉ lines) : Blank (s.write ok lines) := by
  obtain ⟨l, hlog, hout⟩ := h
  refine ⟨_, congrArg (Option.map _) hlog, ?_⟩
  intro id hmem
  rcases List.mem_append.mp hmem with hmem | hmem
  · exact hout id hmem
  · split_ifs at hmem
    · exact hlines id hmem
    · exact absurd hmem List.not_mem_nil

theorem Captured.write {s : Sys} {id : ℕ} (h : Captured s.log id) (ok : Bool) (lines : List Line) :
    Captured (s.write ok lines).log id := by
  obtain ⟨l, hlog, hout⟩ := h
  exact ⟨_, congrArg (Option.map _) hlog, List.mem_append_left _ hout⟩

/-- What is in a log was there before or has been written. -/
theorem captured_of_write {s : Sys} {id : ℕ} {ok : Bool} {lines : List Line}
    (h : Captured (s.write ok lines).log id) : Captured s.log id ∨ ok = true ∧ .output id ∈ lines := by
  obtain ⟨l, hlog, hout⟩ := h
  obtain ⟨log, hlog', rfl⟩ := Option.map_eq_some_iff.mp hlog
  rcases List.mem_append.mp hout with hout | hout
  · exact .inl ⟨log, hlog', hout⟩
  · split_ifs at hout with hok
    · exact .inr ⟨hok, hout⟩
    · exact absurd hout List.not_mem_nil

theorem not_captured_blank {s : Sys} (h : Blank s) (id : ℕ) : ¬ Captured s.log id := by
  rintro ⟨l, hlog, hout⟩
  obtain ⟨l', hlog', hnot⟩ := h
  cases hlog.symm.trans hlog'
  exact hnot id hout

/-- What is written to a log that is open is in it. -/
theorem Blank.captured {s : Sys} (h : Blank s) (id : ℕ) : Captured (s.write true [.output id]).log id := by
  obtain ⟨l, hlog, -⟩ := h
  exact ⟨_, congrArg (Option.map _) hlog, List.mem_append_right _ (by simp)⟩

/-- The start of a script that is fresh. -/
theorem Inv.started {s : Sys} (h : Inv s) (ts : String) {f : Script} (hfresh : Fresh s) (hblank : Blank s)
    (hf : s.script = some f) (hx : f.executable = true) :
    Inv { s with phase := .running ts f.id, hist := s.hist ++ [.started f.id s.boot] } := by
  have hmem {i b : ℕ} : .started i b ∈ s.hist ++ [.started f.id s.boot] ↔
      .started i b ∈ s.hist ∨ i = f.id ∧ b = s.boot := by
    rw [List.mem_append, List.mem_singleton, Entry.started.injEq]
  refine ⟨h.runsOnce.start (hfresh f hf) rfl, ?_, h.placed, ?_⟩
  · intro id b hb
    rcases hmem.mp hb with hb | ⟨rfl, -⟩
    · exact h.numbered id b hb
    · exact h.placed f hf
  · exact ⟨f, hf, hx, rfl, hmem.mpr (.inr ⟨rfl, rfl⟩), hblank⟩

/-- The rename of a script that this boot has run. -/
theorem Inv.renamed {s : Sys} (h : Inv s) {f : Script} {name : String} (hran : Ran s f.id) :
    Inv { s with
      script := none
      phase := .ended
      hist := s.hist ++ [.renamed f.id s.boot name s.log] } := by
  refine ⟨h.runsOnce.rename hran rfl, ?_, ?_, ?_⟩
  · intro id b hb
    simp only [List.mem_append, List.mem_singleton, reduceCtorEq, or_false] at hb
    exact h.numbered id b hb
  · intro f hf
    cases hf
  · intro f hf
    cases hf

theorem Inv.call {s : Sys} (h : Inv s) {r : Reply} (hgood : Good s (.call r)) :
    Inv (step s (.call r)) := by
  have hat := h.phase
  have hstep : step s (.call r) = exec s r := rfl
  have hok : s.phase.critical = true → r.ok = true := hgood
  rw [hstep]
  cases hphase : s.phase with
  | test =>
    rw [hphase] at hat
    rw [exec, hphase]
    refine h.of_same rfl rfl rfl ?_
    cases hany : s.script.any (·.executable) with
    | false => exact hat
    | true =>
      obtain ⟨f, hf, hx⟩ := (Option.any_eq_true _ _).mp hany
      exact ⟨hat, f, hf, hx⟩
  | date =>
    rw [hphase] at hat
    rw [exec, hphase]
    exact h.of_same rfl rfl rfl hat
  | openLog ts =>
    rw [hphase] at hat hok
    simp only [exec, hphase, hok rfl, if_true]
    exact h.of_same rfl rfl rfl ⟨hat.1, hat.2, _, rfl, fun _ => List.not_mem_nil⟩
  | header ts =>
    rw [hphase] at hat
    obtain ⟨hfresh, hplace, hblank⟩ := hat
    rw [exec, hphase]
    exact h.of_same rfl rfl rfl ⟨hfresh, hplace, hblank.write _ (by simp [headerLines])⟩
  | start ts =>
    rw [hphase] at hat hok
    obtain ⟨hfresh, ⟨f, hf, hx⟩, hblank⟩ := hat
    have hstarted := h.started ts hfresh hblank hf hx
    rw [hf] at hstarted
    simp only [exec, hphase, hf, hx, hok rfl, and_self, if_true]
    exact hstarted
  | running ts id =>
    rw [hphase] at hat hok
    obtain ⟨f, hf, hx, rfl, hstarted, hblank⟩ := hat
    simp only [exec, hphase, hok rfl]
    exact h.of_same rfl rfl rfl ⟨f, hf, hx, hstarted, hblank.captured f.id⟩
  | footer ts status =>
    rw [hphase] at hat
    obtain ⟨f, hf, hx, hstarted, hcaptured⟩ := hat
    rw [exec, hphase]
    exact h.of_same rfl rfl rfl ⟨f, hf, hx, hstarted, hcaptured.write _ _⟩
  | move ts =>
    rw [hphase] at hat hok
    obtain ⟨f, hf, hx, hran⟩ := hat
    simp only [exec, hphase, hf, hok rfl, if_true]
    exact h.renamed hran
  | ended =>
    rw [exec, hphase]
    exact h

theorem Inv.good {s : Sys} (h : Inv s) : ∀ {e : Event}, Good s e → Inv (step s e)
  | .stage _, hgood => h.stage hgood
  | .reboot, hgood => h.reboot hgood
  | .call _, hgood => h.call hgood

/-! ### Steps that do harm -/

/-- A state from which calm steps break the promise: a script that an earlier boot has started is
    still there, or one will be renamed that this boot has not run. -/
def Doomed (s : Sys) : Prop := ∃ f, s.script = some f ∧
  match s.phase with
  | .test => f.executable = true ∧ ∃ b, .started f.id b ∈ s.hist ∧ b ≠ s.boot
  | .date | .openLog _ | .header _ | .start _ =>
    (f.executable = true ∧ ∃ b, .started f.id b ∈ s.hist ∧ b ≠ s.boot) ∨
      (f.executable = false ∧ .started f.id s.boot ∉ s.hist)
  | .running _ _ => .started f.id s.boot ∉ s.hist
  | .footer _ _ | .move _ => ¬ (.started f.id s.boot ∈ s.hist ∧ Captured s.log f.id)
  | .ended => f.executable = true ∧ ∃ b, .started f.id b ∈ s.hist ∧ b ≤ s.boot

/-- How many calm steps there still are to the harm. -/
def Phase.rank : Phase → ℕ
  | .ended => 9
  | .test => 8
  | .date => 7
  | .openLog _ => 6
  | .header _ => 5
  | .start _ => 4
  | .running _ _ => 3
  | .footer _ _ => 2
  | .move _ => 1

/-- A call that succeeds. -/
def fine : Reply := ⟨true, ""⟩

theorem Doomed.next {s : Sys} (h : Doomed s) : ∃ e, Calm s e ∧
    (¬ RunsOnce (step s e) ∨ Doomed (step s e) ∧ (step s e).phase.rank < s.phase.rank) := by
  obtain ⟨f, hf, hdoomed⟩ := h
  have hcall : Calm s (.call fine) := rfl
  cases hphase : s.phase with
  | ended =>
    rw [hphase] at hdoomed
    obtain ⟨hx, b, hb, hle⟩ := hdoomed
    have hrank : Phase.test.rank < Phase.ended.rank := by decide
    exact ⟨.reboot, hphase, .inr ⟨⟨f, hf, hx, b, hb, (Nat.lt_succ_of_le hle).ne⟩, hrank⟩⟩
  | test =>
    rw [hphase] at hdoomed
    have hfound : s.script.any (·.executable) = true := by simp [hf, hdoomed.1]
    refine ⟨.call fine, hcall, .inr ?_⟩
    simp only [step, exec, hphase, hfound, if_true]
    exact ⟨⟨f, hf, .inl hdoomed⟩, by decide⟩
  | date =>
    rw [hphase] at hdoomed
    refine ⟨.call fine, hcall, .inr ?_⟩
    simp only [step, exec, hphase]
    exact ⟨⟨f, hf, hdoomed⟩, by simp [Phase.rank]⟩
  | openLog ts =>
    rw [hphase] at hdoomed
    refine ⟨.call fine, hcall, .inr ?_⟩
    simp only [step, exec, hphase, fine, if_true]
    exact ⟨⟨f, hf, hdoomed⟩, by simp [Phase.rank]⟩
  | header ts =>
    rw [hphase] at hdoomed
    refine ⟨.call fine, hcall, .inr ?_⟩
    simp only [step, exec, hphase]
    exact ⟨⟨f, hf, hdoomed⟩, by simp [Phase.rank]⟩
  | start ts =>
    rw [hphase] at hdoomed
    refine ⟨.call fine, hcall, ?_⟩
    rcases hdoomed with ⟨hx, b, hb, hne⟩ | ⟨hx, hnot⟩
    · left
      simp only [step, exec, hphase, hf, hx, fine, and_self, if_true]
      exact not_runsOnce_start hb hne rfl
    · right
      simp only [step, exec, hphase, hf, hx, Bool.false_eq_true, false_and, if_false]
      exact ⟨⟨f, rfl, fun hran => hnot hran.1⟩, by simp [Phase.rank]⟩
  | running ts id =>
    rw [hphase] at hdoomed
    refine ⟨.call fine, hcall, .inr ?_⟩
    simp only [step, exec, hphase]
    exact ⟨⟨f, hf, fun hran => hdoomed hran.1⟩, by simp [Phase.rank]⟩
  | footer ts status =>
    rw [hphase] at hdoomed
    refine ⟨.call fine, hcall, .inr ?_⟩
    simp only [step, exec, hphase]
    refine ⟨⟨f, hf, fun hran => hdoomed ⟨hran.1, ?_⟩⟩, by simp [Phase.rank]⟩
    rcases captured_of_write hran.2 with hbefore | ⟨-, hmem⟩
    · exact hbefore
    · simp at hmem
  | move ts =>
    rw [hphase] at hdoomed
    refine ⟨.call fine, hcall, .inl ?_⟩
    simp only [step, exec, hphase, hf, fine, if_true]
    exact not_runsOnce_rename hdoomed rfl

/-- A script staged where it must not be is renamed without having been run. -/
theorem Inv.doomed_stage {s : Sys} (h : Inv s) {x : Bool} (hbad : ¬ Good s (.stage x)) :
    Doomed (step s (.stage x)) := by
  have hnew := h.fresh_new s.boot
  refine ⟨_, rfl, ?_⟩
  have hsame : (step s (.stage x)).phase = s.phase := rfl
  rw [hsame]
  cases hphase : s.phase with
  | test | ended => exact absurd ⟨by rw [hphase]; rfl, by simp [hphase, Phase.found]⟩ hbad
  | date | openLog ts | header ts | start ts =>
    refine .inr ⟨?_, hnew⟩
    by_contra hx
    exact hbad ⟨by rw [hphase]; rfl, fun _ => by simpa using hx⟩
  | running ts id => exact hnew
  | footer ts status | move ts => exact fun hran => hnew hran.1

/-- Between its start and its rename the script that this boot has started is in place. -/
theorem Inv.begun {s : Sys} (h : Inv s) (hbegun : s.phase.begun = true) :
    ∃ f, s.script = some f ∧ f.executable = true ∧ .started f.id s.boot ∈ s.hist := by
  have hat := h.phase
  cases hphase : s.phase with
  | test | ended | date | openLog ts | header ts | start ts =>
    rw [hphase] at hbegun
    cases hbegun
  | running ts id =>
    rw [hphase] at hat
    obtain ⟨f, hf, hx, -, hstarted, -⟩ := hat
    exact ⟨f, hf, hx, hstarted⟩
  | footer ts status | move ts =>
    rw [hphase] at hat
    obtain ⟨f, hf, hx, hstarted, -⟩ := hat
    exact ⟨f, hf, hx, hstarted⟩

/-- After a reboot in the middle, the script that was started is still in place. -/
theorem Inv.doomed_reboot {s : Sys} (h : Inv s) (hbad : ¬ Good s .reboot) : Doomed (step s .reboot) := by
  have hbegun : s.phase.begun = true := by
    rw [← Bool.not_eq_false]
    exact hbad
  obtain ⟨f, hf, hx, hstarted⟩ := h.begun hbegun
  exact ⟨f, hf, hx, s.boot, hstarted, (Nat.lt_succ_self _).ne⟩

/-- A call that matters and fails. -/
theorem Inv.doomed_call {s : Sys} (h : Inv s) {r : Reply} (hbad : ¬ Good s (.call r)) :
    Doomed (step s (.call r)) := by
  have hat := h.phase
  obtain ⟨hcritical, hfail⟩ := Classical.not_imp.mp hbad
  rw [Bool.not_eq_true] at hfail
  cases hphase : s.phase with
  | test | date | header ts | footer ts status | ended => simp [hphase, Phase.critical] at hcritical
  | openLog ts =>
    rw [hphase] at hat
    obtain ⟨hfresh, f, hf, -⟩ := hat
    simp only [step, exec, hphase, hfail, Bool.false_eq_true, if_false]
    exact ⟨f, hf, fun hran => hfresh f hf _ hran.1⟩
  | start ts =>
    rw [hphase] at hat
    obtain ⟨hfresh, ⟨f, hf, -⟩, -⟩ := hat
    simp only [step, exec, hphase, hf, hfail, Bool.false_eq_true, and_false, if_false]
    exact ⟨f, rfl, fun hran => hfresh f hf _ hran.1⟩
  | running ts id =>
    rw [hphase] at hat
    obtain ⟨f, hf, -, -, -, hblank⟩ := hat
    simp only [step, exec, hphase, hfail]
    refine ⟨f, hf, ?_⟩
    intro hran
    rcases captured_of_write hran.2 with hbefore | ⟨hok, -⟩
    · exact not_captured_blank hblank f.id hbefore
    · cases hok
  | move ts =>
    obtain ⟨f, hf, hx, hstarted⟩ := h.begun (by rw [hphase]; rfl)
    simp only [step, exec, hphase, hf, hfail, Bool.false_eq_true, if_false]
    exact ⟨f, rfl, hx, s.boot, hstarted, le_rfl⟩

/-- A step that is not good leads to a doomed state. -/
theorem Inv.doomed {s : Sys} (h : Inv s) : ∀ {e : Event}, ¬ Good s e → Doomed (step s e)
  | .stage _, hbad => h.doomed_stage hbad
  | .reboot, hbad => h.doomed_reboot hbad
  | .call _, hbad => h.doomed_call hbad

/-! ### Runs -/

/-- Every run whose steps are all good keeps the promise in every state, and a run keeps it so that it
    goes on to be kept whatever calm steps follow exactly if all its steps are good. -/
theorem runs_once_of_good (es : List Event) :
    (Steps step Good Sys.off es → Always step RunsOnce Sys.off es) ∧
      (Always step (Stays step Calm RunsOnce) Sys.off es ↔ Steps step Good Sys.off es) := by
  have hP (s : Sys) (h : Inv s) : RunsOnce s := h.runsOnce
  have hgood (s : Sys) (e : Event) (h : Inv s) (he : Good s e) : Inv (step s e) := h.good he
  have hcalm (s : Sys) (e : Event) (he : Calm s e) : Good s e := he.good
  have hlead (s : Sys) (hs : Doomed s) : ∃ e, Calm s e ∧
      (¬ RunsOnce (step s e) ∨ Doomed (step s e) ∧ (step s e).phase.rank < s.phase.rank) := hs.next
  have hbad (s : Sys) (e : Event) (h : Inv s) (he : ¬ Good s e) :
      ¬ Stays step Calm RunsOnce (step s e) :=
    not_stays (fun s => s.phase.rank) hlead (h.doomed he)
  exact ⟨always_of_steps hP hgood off_inv, always_stays_iff_steps hP hgood hcalm hbad off_inv es⟩

/-- A script that reboots the device. -/
def rebooting : List Event :=
  [.stage true, .reboot] ++ List.replicate 5 (.call fine) ++ [.reboot] ++ List.replicate 5 (.call fine)

theorem rebooting_runs_twice : ¬ ∀ es, Always step RunsOnce Sys.off es := by
  intro h
  have htwice := (h rebooting).last.once 0 1 2 (by decide) (by decide)
  exact absurd htwice (by decide)

end GeminiLinux.RunOnce
