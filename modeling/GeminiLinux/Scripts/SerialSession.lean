import GeminiLinux.Lib.Runs

/-! The scripted session on the serial console. The script looks for prompts in what it has received
    since it last cleared its buffer, and answers them; the device answers each line it is sent.
    What the device prints arrives in order, in pieces of any size at any time.

        opening ─▶ login ⇄ nudge        login:      ─▶ the user name
                     │                  Password:   ─▶ the password
                     ▼                  # or $      ─▶ the line that sets the prompt
                 handshake ─▶ command 0 ─▶ settle 0 ─▶ command 1 ─▶ ... ─▶ done

    A pattern is found wherever it stands in the last bytes received, so in the motd or in the echo of
    a line as well as in a prompt, and what arrives after the buffer was cleared is taken for part
    of the next answer. -/

namespace GeminiLinux.SerialSession
open Runs

/-- Bytes on the line, one character each. -/
abbrev Text := List Char

def user : Text := "root".toList
def password : Text := "toor".toList
def newPrompt : Text := "GPROMPT# ".toList
def setPrompt : Text := "PS1='GPROMPT# '".toList
def crlf : Text := ['\r', '\n']

/-! ### Patterns -/

inductive Pattern where
  | login
  | password
  | shell
  | gprompt
  deriving DecidableEq

def loginColon : Text := "login:".toList
def passwordColon : Text := "Password:".toList

/-- A pattern that ends in `$`: at the end, or before a newline at the end. -/
def EndsWith (lit text : Text) : Prop := lit <:+ text ∨ lit ++ ['\n'] <:+ text

instance (lit text : Text) : Decidable (EndsWith lit text) := instDecidableOr

def Pattern.Matches : Pattern → Text → Prop
  | .login, text => loginColon <:+: text
  | .password, text => passwordColon <:+: text
  | .shell, text => EndsWith "# ".toList text ∨ EndsWith "$ ".toList text
  | .gprompt, text => EndsWith newPrompt text

instance : ∀ (p : Pattern) (text : Text), Decidable (p.Matches text)
  | .login, text => inferInstanceAs (Decidable (loginColon <:+: text))
  | .password, text => inferInstanceAs (Decidable (passwordColon <:+: text))
  | .shell, text => inferInstanceAs (Decidable (EndsWith "# ".toList text ∨ EndsWith "$ ".toList text))
  | .gprompt, text => inferInstanceAs (Decidable (EndsWith newPrompt text))

/-- `buf[-2000:]`. -/
def tail (buf : Text) : Text := buf.drop (buf.length - 2000)

/-- The pattern that `wait_for` finds in the buffer: the first of the list that matches. -/
def hit (patterns : List Pattern) (buf : Text) : Option Pattern :=
  patterns.find? fun p => decide (p.Matches (tail buf))

/-- What the login loop waits for. -/
def prompts : List Pattern := [.login, .password, .shell]

/-! ### The device -/

/-- What the device has at its end of the line, with the prompt of the shell. -/
inductive Mode where
  | getty
  | password (name : Text)
  | shell (prompt : Text)
  deriving DecidableEq

/-- The texts of the device. What a command prints may depend on all lines sent before. -/
structure Device where
  issue : Text
  passwd : Text
  incorrect : Text
  motd : Text
  prompt : Text
  output : List Text → Text

def Device.loginPrompt (d : Device) : Text := d.issue ++ "login: ".toList

def passwordPrompt : Text := "Password: ".toList

/-- What the device does with a line, `lines` being the lines before it, and all that it prints then:
    the echo, except of a password, what the line makes it print, and the prompt. -/
def Device.respond (d : Device) (lines : List Text) : Mode → Text → Mode × Text
  | .getty, [] => (.getty, crlf ++ d.loginPrompt)
  | .getty, name => (.password name, name ++ crlf ++ passwordPrompt)
  | .password name, line =>
    if name = user ∧ line = d.passwd then (.shell d.prompt, crlf ++ d.motd ++ d.prompt)
    else (.getty, crlf ++ d.incorrect ++ d.loginPrompt)
  | .shell prompt, [] => (.shell prompt, crlf ++ prompt)
  | .shell prompt, line =>
    if line = setPrompt then (.shell newPrompt, line ++ crlf ++ newPrompt)
    else (.shell prompt, line ++ crlf ++ d.output (lines ++ [line]) ++ prompt)

/-! ### The session -/

/-- Where the script is: in the pump before the login loop, in a pump of `wait_for` in turn `i` of the
    loop, in the one after it has timed out, in those of the handshake and of command `k`, in the
    last one for command `k`, or at an end. -/
inductive Pc where
  | opening
  | login (i : ℕ)
  | nudge (i : ℕ)
  | handshake
  | command (k : ℕ)
  | settle (k : ℕ)
  | done
  | noShell
  deriving DecidableEq

/-- What the session is judged by: to what the credentials were sent, what was still on its way when
    the handshake succeeded, and what was printed for a command that the device answered so. -/
inductive Entry where
  | user (mode : Mode)
  | password (mode : Mode)
  | ready (mode : Mode) (inFlight : Text)
  | printed (k : ℕ) (text answer : Text)
  | noShell (text : Text)
  deriving DecidableEq

/-- The device, what it has printed and has not arrived, and the script. `answer` is what the device
    prints for the line sent last. -/
structure Sys where
  mode : Mode
  lines : List Text
  wire : Text
  answer : Text
  buf : Text
  pc : Pc
  hist : List Entry

section Script

variable (d : Device) (cmds : List Text)

/-- `sendline`. -/
def Sys.sendline (s : Sys) (line : Text) : Sys :=
  { s with
    mode := (d.respond s.lines s.mode line).1
    lines := s.lines ++ [line]
    wire := s.wire ++ (d.respond s.lines s.mode line).2
    answer := (d.respond s.lines s.mode line).2 }

/-- `buf = b""`. -/
def Sys.clear (s : Sys) : Sys := { s with buf := [] }

/-- `pump`, in the course of which `n` bytes arrive. -/
def Sys.pump (s : Sys) (n : ℕ) : Sys := { s with buf := s.buf ++ s.wire.take n, wire := s.wire.drop n }

def Sys.note (s : Sys) (entry : Entry) : Sys := { s with hist := s.hist ++ [entry] }

def handshake (s : Sys) : Sys := { s.clear.sendline d setPrompt with pc := .handshake }

/-- The next turn of the login loop, of six. -/
def nextTurn (i : ℕ) (s : Sys) : Sys :=
  if i + 1 < 6 then { s with pc := .login (i + 1) } else handshake d s

/-- A look at the buffer in turn `i` of the login loop. -/
def look (i : ℕ) (s : Sys) : Sys :=
  match hit prompts s.buf with
  | some .login => nextTurn d i ((s.clear.note (.user s.mode)).sendline d user)
  | some .password => nextTurn d i ((s.clear.note (.password s.mode)).sendline d password)
  | some _ => handshake d s
  | none => { s with pc := .login i }

def nextCommand (k : ℕ) (s : Sys) : Sys :=
  match cmds[k]? with
  | some c => { s.clear.sendline d c with pc := .command k }
  | none => { s with pc := .done }

/-- A pump: how many bytes arrive, and whether the timeout of `wait_for` has expired after it. -/
structure Event where
  arrived : ℕ
  expired : Bool

/-- A pump, and what the script does until the next one. -/
def step (s : Sys) (e : Event) : Sys :=
  let s := s.pump e.arrived
  match s.pc with
  | .opening => look d 0 s
  | .login i => if e.expired then { s.sendline d [] with pc := .nudge i } else look d i s
  | .nudge i => if i + 1 < 6 then look d (i + 1) s else handshake d s
  | .handshake =>
    if e.expired then { s.note (.noShell (s.buf.drop (s.buf.length - 1500))) with pc := .noShell }
    else if (hit [.gprompt] s.buf).isSome then nextCommand d cmds 0 (s.note (.ready s.mode s.wire))
    else s
  | .command k => if e.expired ∨ (hit [.gprompt] s.buf).isSome then { s with pc := .settle k } else s
  | .settle k => nextCommand d cmds (k + 1) (s.note (.printed k s.buf s.answer))
  | .done | .noShell => s

/-- The session with a device in `mode` that has printed `early` before: the first Enter is sent. -/
def start (mode : Mode) (early : Text) : Sys :=
  Sys.sendline d ⟨mode, [], early, [], [], .opening, []⟩ []

/-! ### What is promised -/

/-- The credentials go to their prompts, the handshake succeeds when the new prompt has arrived, and
    what is printed for a command is the device's answer to it. -/
def Entry.Right : Entry → Prop
  | .user mode => mode = .getty
  | .password mode => ∃ name, mode = .password name
  | .ready mode inFlight => mode = .shell newPrompt ∧ inFlight = []
  | .printed k text answer => text = answer ∧
      ∃ c out, cmds[k]? = some c ∧ answer = c ++ crlf ++ out ++ newPrompt
  | .noShell _ => True

def Right (s : Sys) : Prop := ∀ entry ∈ s.hist, entry.Right cmds

/-- No timeout expires while something is on its way. -/
def Timely (s : Sys) (e : Event) : Prop := e.expired = true → s.wire = []

/-- What has been received or will be, since the buffer was cleared, cannot be mistaken: there is no
    password prompt but that of a device that asks for one, where it comes last, and a login prompt
    only of a getty. -/
def Clean : Mode → Text → Prop
  | .getty, text => ¬ passwordColon <:+: text
  | .password _, text => ¬ loginColon <:+: text ∧
      ∃ before, ¬ passwordColon <:+: before ∧ text = before ++ '\n' :: passwordPrompt
  | .shell _, text => ¬ loginColon <:+: text ∧ ¬ passwordColon <:+: text

def Answers (s : Sys) (line : Text) : Prop :=
  Clean (d.respond s.lines s.mode line).1 (d.respond s.lines s.mode line).2

/-- What turn `i` of the login loop finds does not mislead the next turn: when it finds `login:`, no
    other login prompt is on its way, and when it finds `Password:`, what the device prints in answer
    to the password is clean. -/
def Found (i : ℕ) (s : Sys) : Prop := i + 1 < 6 →
  (hit prompts s.buf = some .login → ¬ loginColon <:+: s.wire) ∧
    (hit prompts s.buf = some .password → Answers d s password)

/-- The steps that do no harm: in the login loop nothing is mistaken, and what the device prints in
    answer to an Enter is clean; a pump of the handshake ends behind the new prompt only where the
    device has ended, and the last pump for a command ends behind all that the device has printed. -/
def Good (s : Sys) (e : Event) : Prop :=
  let r := s.pump e.arrived
  match s.pc with
  | .opening => Found d 0 r
  | .login i => if e.expired then i + 1 < 6 → Answers d r [] else Found d i r
  | .nudge i => i + 1 < 6 → Found d (i + 1) r
  | .handshake => e.expired = false → EndsWith newPrompt (s.buf ++ s.wire.take e.arrived) →
      s.wire.length ≤ e.arrived
  | .settle _ => s.wire.length ≤ e.arrived
  | .command _ | .done | .noShell => True

end Script

/-! ### Texts -/

theorem prefix_of_sep {p a b : Text} {c : Char} (hc : c ∉ p) (h : p <+: a ++ c :: b) : p <+: a := by
  rcases List.prefix_or_prefix_of_prefix h (List.prefix_append a (c :: b)) with h' | ⟨t, rfl⟩
  · exact h'
  · rw [List.prefix_append_right_inj] at h
    rcases List.prefix_cons_iff.mp h with rfl | ⟨t, rfl, -⟩
    · simp
    · simp at hc

/-- A text that does not contain `c` does not reach across it. -/
theorem infix_of_sep {p b : Text} {c : Char} (hc : c ∉ p) : ∀ {a : Text}, p <:+: a ++ c :: b →
    p <:+: a ∨ p <:+: b := by
  intro a
  induction a with
  | nil =>
    intro h
    rcases List.infix_cons_iff.mp h with h | h
    · exact .inl (prefix_of_sep (a := []) hc h).isInfix
    · exact .inr h
  | cons x a ih =>
    intro h
    rcases List.infix_cons_iff.mp h with h | h
    · exact .inl (prefix_of_sep (a := x :: a) hc h).isInfix
    · rcases ih h with h | h
      · exact .inl (List.infix_cons h)
      · exact .inr h

/-- A text that ends in `c` does not end in a part without `c`. -/
theorem infix_of_last {q a b : Text} {c : Char} (hc : c ∉ b) (h : q ++ [c] <:+: a ++ b) :
    q ++ [c] <:+: a := by
  induction b using List.reverseRecOn with
  | nil => rwa [List.append_nil] at h
  | append_singleton b x ih =>
    rw [List.mem_append, List.mem_singleton, not_or] at hc
    rw [← List.append_assoc, List.infix_concat_iff] at h
    rcases h with ⟨t, h⟩ | h
    · have hlast := congrArg List.getLast? h
      simp at hlast
      exact absurd hlast hc.2
    · exact ih hc.1 h

theorem infix_of_tail {lit buf : Text} (h : lit <:+: tail buf) : lit <:+: buf :=
  h.trans (List.drop_suffix _ buf).isInfix

/-- The last bytes are among those looked at. -/
theorem suffix_tail {lit buf : Text} (hlen : lit.length ≤ 2000) (h : lit <:+ buf) : lit <:+ tail buf := by
  refine List.suffix_of_suffix_length_le h (List.drop_suffix _ buf) ?_
  have hle := h.length_le
  rw [tail, List.length_drop]
  omega

/-- What ends with `login: ` or `Password: ` does not end with the new prompt. -/
theorem not_endsWith_colon (before : Text) : ¬ EndsWith newPrompt (before ++ [':', ' ']) := by
  have hnew : newPrompt = "GPROMPT".toList ++ ['#', ' '] := by decide
  rw [hnew]
  generalize "GPROMPT".toList = word
  rintro (⟨t, h⟩ | ⟨t, h⟩)
  · have hrev := congrArg (fun l => l.reverse.take 2) h
    simp at hrev
  · have hrev := congrArg (fun l => l.reverse.take 2) h
    simp at hrev

theorem hit_matches {patterns : List Pattern} {buf : Text} {p : Pattern} (h : hit patterns buf = some p) :
    p.Matches (tail buf) := by
  rw [hit] at h
  simpa using List.find?_some h

/-- A buffer in which a password prompt has arrived is not passed over. -/
theorem hit_of_passwordPrompt (before : Text) : hit prompts (before ++ passwordPrompt) ≠ none := by
  intro h
  have hmem : Pattern.password ∈ prompts := by decide
  have hnot := List.find?_eq_none.mp h .password hmem
  have hsuffix : passwordPrompt <:+ tail (before ++ passwordPrompt) :=
    suffix_tail (by decide) (List.suffix_append ..)
  have hcolon : passwordColon <:+: passwordPrompt := by decide
  exact hnot (decide_eq_true (hcolon.trans hsuffix.isInfix))

/-! ### The invariant -/

section Invariant

variable {d : Device} {cmds : List Text} {s : Sys}

/-- What holds where the script is. -/
def AtPc (cmds : List Text) (s : Sys) : Pc → Prop
  | .opening => Clean s.mode (s.buf ++ s.wire)
  | .nudge i => i + 1 < 6 → Clean s.mode (s.buf ++ s.wire)
  | .login _ => Clean s.mode (s.buf ++ s.wire) ∧ hit prompts s.buf = none
  | .handshake => s.mode = .shell newPrompt ∨ ¬ EndsWith newPrompt (s.buf ++ s.wire)
  | .command k | .settle k => s.mode = .shell newPrompt ∧ s.buf ++ s.wire = s.answer ∧
      ∃ c out, cmds[k]? = some c ∧ s.answer = c ++ crlf ++ out ++ newPrompt
  | .done | .noShell => True

structure Inv (cmds : List Text) (s : Sys) : Prop where
  right : Right cmds s
  pc : AtPc cmds s s.pc

theorem Right.note {s' : Sys} {entry : Entry} (h : Right cmds s) (hentry : entry.Right cmds)
    (hhist : s'.hist = s.hist ++ [entry]) : Right cmds s' := by
  intro entry' hmem
  rw [hhist, List.mem_append, List.mem_singleton] at hmem
  rcases hmem with hmem | rfl
  · exact h entry' hmem
  · exact hentry

@[simp] theorem pump_said (s : Sys) (n : ℕ) : (s.pump n).buf ++ (s.pump n).wire = s.buf ++ s.wire := by
  simp [Sys.pump, List.append_assoc]

theorem respond_getty (d : Device) (lines : List Text) {name : Text} (h : name ≠ []) :
    d.respond lines .getty name = (.password name, name ++ crlf ++ passwordPrompt) := by
  cases name with
  | nil => exact absurd rfl h
  | cons c name => rfl

/-- Whatever is given for a password, the answer begins with the end of the line. -/
theorem respond_password (d : Device) (lines : List Text) (name line : Text) :
    ∃ mode rest, d.respond lines (.password name) line = (mode, '\r' :: rest) ∧
      ∀ name, mode ≠ .password name := by
  rw [Device.respond]
  split_ifs
  · exact ⟨.shell d.prompt, '\n' :: (d.motd ++ d.prompt), by simp [crlf], by simp⟩
  · exact ⟨.getty, '\n' :: (d.incorrect ++ d.loginPrompt), by simp [crlf], by simp⟩

/-! ### The login loop -/

theorem handshake_inv (hright : Right cmds s) (hpasswd : d.passwd ≠ setPrompt) :
    Inv cmds (handshake d s) := by
  have hprompt : passwordPrompt = "Password".toList ++ [':', ' '] := by decide
  have hlogin : "login: ".toList = "login".toList ++ [':', ' '] := by decide
  refine ⟨hright, ?_⟩
  have hsaid : (handshake d s).buf ++ (handshake d s).wire =
      s.wire ++ (d.respond s.lines s.mode setPrompt).2 := rfl
  have hmode' : (handshake d s).mode = (d.respond s.lines s.mode setPrompt).1 := rfl
  change (handshake d s).mode = .shell newPrompt ∨
    ¬ EndsWith newPrompt ((handshake d s).buf ++ (handshake d s).wire)
  rw [hsaid, hmode']
  cases hmode : s.mode with
  | getty =>
    right
    rw [respond_getty d s.lines (by decide), hprompt, ← List.append_assoc, ← List.append_assoc]
    exact not_endsWith_colon _
  | password name =>
    right
    have hanswer : (d.respond s.lines (.password name) setPrompt).2 =
        crlf ++ d.incorrect ++ d.loginPrompt := by
      rw [Device.respond, if_neg fun h => hpasswd h.2.symm]
    rw [hanswer, Device.loginPrompt, hlogin, ← List.append_assoc, ← List.append_assoc, ← List.append_assoc]
    exact not_endsWith_colon _
  | shell prompt => exact .inl rfl

theorem nextTurn_inv {i : ℕ} (hright : Right cmds s) (hpasswd : d.passwd ≠ setPrompt) (hbuf : s.buf = [])
    (hclean : i + 1 < 6 → Clean s.mode s.wire) : Inv cmds (nextTurn d i s) := by
  have hnone : hit prompts [] = none := by decide
  rw [nextTurn]
  split_ifs with hturn
  · refine ⟨hright, ?_, ?_⟩
    · rw [hbuf]
      exact hclean hturn
    · rw [hbuf]
      exact hnone
  · exact handshake_inv hright hpasswd

theorem not_infix_cr {p wire rest : Text} (hcr : '\r' ∉ p) (hwire : ¬ p <:+: wire)
    (hrest : ¬ p <:+: '\r' :: rest) : ¬ p <:+: wire ++ '\r' :: rest := by
  intro h
  rcases infix_of_sep hcr h with h | h
  · exact hwire h
  · exact hrest (List.infix_cons h)

/-- A clean answer keeps what has been said clean. -/
theorem Clean.append {mode : Mode} {wire rest : Text} (hname : ∀ name, mode ≠ .password name)
    (hlogin : mode = .getty ∨ ¬ loginColon <:+: wire) (hpassword : ¬ passwordColon <:+: wire)
    (h : Clean mode ('\r' :: rest)) : Clean mode (wire ++ '\r' :: rest) := by
  have hcr : '\r' ∉ passwordColon := by decide
  have hcr' : '\r' ∉ loginColon := by decide
  cases mode with
  | getty => exact not_infix_cr hcr hpassword h
  | password name => exact absurd rfl (hname name)
  | shell prompt =>
    rcases hlogin with hlogin | hlogin
    · cases hlogin
    · exact ⟨not_infix_cr hcr' hlogin h.1, not_infix_cr hcr hpassword h.2⟩

/-- After the user name, and what was still on its way, the device asks for the password. -/
theorem clean_user {name wire : Text} (hname : ':' ∉ name) (hwire : ¬ loginColon <:+: wire)
    (hpassword : ¬ passwordColon <:+: wire) :
    Clean (.password name) (wire ++ (name ++ crlf ++ passwordPrompt)) := by
  have hlogin : loginColon = "login".toList ++ [':'] := by decide
  have hword : passwordColon = "Password".toList ++ [':'] := by decide
  have hcr : '\r' ∉ loginColon := by decide
  have hprompt : ¬ loginColon <:+: '\n' :: passwordPrompt := by decide
  have hsplit : wire ++ (name ++ crlf ++ passwordPrompt) = (wire ++ name) ++ '\r' :: '\n' :: passwordPrompt := by
    simp [crlf]
  refine ⟨?_, wire ++ (name ++ ['\r']), ?_, by simp [crlf]⟩
  · intro h
    rw [hsplit] at h
    rcases infix_of_sep hcr h with h | h
    · rw [hlogin] at h hwire
      exact hwire (infix_of_last hname h)
    · exact hprompt h
  · intro h
    rw [hword] at h hpassword
    exact hpassword (infix_of_last (by simpa using hname) h)

/-- When a password prompt has arrived, at most the blank after it is on its way. -/
theorem short_of_passwordColon {name buf wire : Text} (h : Clean (.password name) (buf ++ wire))
    (hbuf : passwordColon <:+: buf) : wire.length ≤ 1 := by
  obtain ⟨-, before, hbefore, hsplit⟩ := h
  by_contra hlong
  have hnl : '\n' ∉ passwordColon := by decide
  have hword : ¬ passwordColon <:+: "Password".toList := by decide
  have hprompt : before ++ '\n' :: passwordPrompt = (before ++ '\n' :: "Password".toList) ++ [':', ' '] := by
    have hdecide : passwordPrompt = "Password".toList ++ [':', ' '] := by decide
    rw [hdecide]
    simp
  have hlen := congrArg List.length (hsplit.trans hprompt)
  have hpre : buf <+: before ++ '\n' :: "Password".toList := by
    refine List.prefix_of_prefix_length_le (List.prefix_append buf wire)
      ((hsplit.trans hprompt) ▸ List.prefix_append _ _) ?_
    simp only [List.length_append, List.length_cons, List.length_nil] at hlen ⊢
    omega
  rcases infix_of_sep hnl (hbuf.trans hpre.isInfix) with h | h
  · exact hbefore h
  · exact hword h

/-- A login prompt in clean text is that of a getty. -/
theorem Clean.getty {mode : Mode} {text : Text} (h : Clean mode text) (hlogin : loginColon <:+: text) :
    mode = .getty := by
  cases mode with
  | getty => rfl
  | password name => exact absurd hlogin h.1
  | shell prompt => exact absurd hlogin h.1

/-- A password prompt in clean text is that of a device that asks for one. -/
theorem Clean.password {mode : Mode} {text : Text} (h : Clean mode text)
    (hpassword : passwordColon <:+: text) : ∃ name, mode = .password name := by
  cases mode with
  | getty => exact absurd hpassword h
  | password name => exact ⟨name, rfl⟩
  | shell prompt => exact absurd hpassword h.2

/-- What is found has been said. -/
theorem infix_said {p : Text} (h : p <:+: tail s.buf) : p <:+: s.buf ++ s.wire :=
  (infix_of_tail h).trans (List.prefix_append _ _).isInfix

theorem not_infix_wire {p : Text} (h : ¬ p <:+: s.buf ++ s.wire) : ¬ p <:+: s.wire := fun hwire =>
  h (hwire.trans (List.suffix_append _ _).isInfix)

/-- The user name goes to a getty, and the password prompt comes after what was on its way. -/
theorem sendUser_inv {i : ℕ} (hright : Right cmds s) (hpasswd : d.passwd ≠ setPrompt)
    (hclean : Clean s.mode (s.buf ++ s.wire)) (hmatch : loginColon <:+: tail s.buf)
    (hwire : i + 1 < 6 → ¬ loginColon <:+: s.wire) :
    Inv cmds (nextTurn d i ((s.clear.note (.user s.mode)).sendline d user)) := by
  have hgetty := hclean.getty (infix_said hmatch)
  rw [hgetty] at hclean
  have hsent : d.respond s.lines s.mode user = (.password user, user ++ crlf ++ passwordPrompt) := by
    rw [hgetty]
    exact respond_getty d s.lines (by decide)
  have hentry : (Entry.user s.mode).Right cmds := hgetty
  refine nextTurn_inv (hright.note hentry rfl) hpasswd rfl fun hturn => ?_
  change Clean (d.respond s.lines s.mode user).1 (s.wire ++ (d.respond s.lines s.mode user).2)
  rw [hsent]
  exact clean_user (by decide) (hwire hturn) (not_infix_wire hclean)

/-- The password goes to a device that asks for it, which has nothing else on its way. -/
theorem sendPassword_inv {i : ℕ} (hright : Right cmds s) (hpasswd : d.passwd ≠ setPrompt)
    (hclean : Clean s.mode (s.buf ++ s.wire)) (hmatch : passwordColon <:+: tail s.buf)
    (hanswer : i + 1 < 6 → Answers d s password) :
    Inv cmds (nextTurn d i ((s.clear.note (.password s.mode)).sendline d password)) := by
  obtain ⟨name, hname⟩ := hclean.password (infix_said hmatch)
  rw [hname] at hclean
  have hshort : ¬ passwordColon <:+: s.wire := by
    intro h
    have hlen : passwordColon.length ≤ 1 :=
      h.length_le.trans (short_of_passwordColon hclean (infix_of_tail hmatch))
    exact absurd hlen (by decide)
  obtain ⟨mode', rest, hsent, hnot⟩ := respond_password d s.lines name password
  have hentry : (Entry.password s.mode).Right cmds := ⟨name, hname⟩
  refine nextTurn_inv (hright.note hentry rfl) hpasswd rfl fun hturn => ?_
  have hgood := hanswer hturn
  rw [Answers, hname, hsent] at hgood
  change Clean (d.respond s.lines s.mode password).1 (s.wire ++ (d.respond s.lines s.mode password).2)
  rw [hname, hsent]
  exact hgood.append hnot (.inr (not_infix_wire hclean.1)) hshort

theorem look_inv {i : ℕ} (hright : Right cmds s) (hpasswd : d.passwd ≠ setPrompt)
    (hclean : Clean s.mode (s.buf ++ s.wire)) (hfound : Found d i s) : Inv cmds (look d i s) := by
  unfold look
  cases hhit : hit prompts s.buf with
  | none => exact ⟨hright, hclean, hhit⟩
  | some found =>
    have hmatch := hit_matches hhit
    cases found with
    | login => exact sendUser_inv hright hpasswd hclean hmatch fun hturn => (hfound hturn).1 hhit
    | password => exact sendPassword_inv hright hpasswd hclean hmatch fun hturn => (hfound hturn).2 hhit
    | shell => exact handshake_inv hright hpasswd
    | gprompt => exact handshake_inv hright hpasswd

/-! ### The steps -/

/-- An Enter in the login loop, when all has arrived and nothing was found. -/
theorem nudge_inv {i : ℕ} (h : Inv cmds s) (hpc : s.pc = .login i) (hwire : s.wire = [])
    (hanswer : i + 1 < 6 → Answers d s []) : Inv cmds { s.sendline d [] with pc := .nudge i } := by
  have hat := h.pc
  rw [hpc] at hat
  obtain ⟨hclean, hnone⟩ := hat
  refine ⟨h.right, ?_⟩
  intro hturn
  change Clean (d.respond s.lines s.mode []).1 (s.buf ++ (s.wire ++ (d.respond s.lines s.mode []).2))
  have hanswer := hanswer hturn
  rw [Answers] at hanswer
  rw [hwire, List.append_nil] at hclean
  rw [hwire, List.nil_append]
  cases hmode : s.mode with
  | getty =>
    rw [hmode] at hclean hanswer
    exact hanswer.append (by simp [Device.respond]) (.inl rfl) hclean
  | password name =>
    rw [hmode] at hclean
    obtain ⟨-, before, -, hbuf⟩ := hclean
    rw [hbuf, List.append_cons] at hnone
    exact absurd hnone (hit_of_passwordPrompt _)
  | shell prompt =>
    rw [hmode] at hclean hanswer
    exact hanswer.append (by simp [Device.respond]) (.inr hclean.1) hclean.2

theorem respond_shell (d : Device) (lines : List Text) (c : Text) :
    ∃ out, d.respond lines (.shell newPrompt) c = (.shell newPrompt, c ++ crlf ++ out ++ newPrompt) := by
  cases c with
  | nil => exact ⟨[], by simp [Device.respond]⟩
  | cons x c =>
    rw [Device.respond]
    split_ifs
    · exact ⟨[], by simp⟩
    · exact ⟨_, rfl⟩
    · simp

/-- A command is sent when nothing is on its way. -/
theorem nextCommand_inv {k : ℕ} (hright : Right cmds s) (hmode : s.mode = .shell newPrompt)
    (hwire : s.wire = []) : Inv cmds (nextCommand d cmds k s) := by
  rw [nextCommand]
  cases hc : cmds[k]? with
  | none => exact ⟨hright, trivial⟩
  | some c =>
    obtain ⟨out, hout⟩ := respond_shell d s.lines c
    refine ⟨hright, ?_, ?_, c, out, hc, ?_⟩
    · change (d.respond s.lines s.mode c).1 = _
      rw [hmode, hout]
    · change [] ++ (s.wire ++ (d.respond s.lines s.mode c).2) = (d.respond s.lines s.mode c).2
      rw [hwire]
      rfl
    · change (d.respond s.lines s.mode c).2 = _
      rw [hmode, hout]

theorem pump_dry (h : s.wire = []) (n : ℕ) : s.pump n = s := by
  cases s
  simp only at h
  simp [Sys.pump, h]

/-- Where the handshake succeeds the last bytes are the new prompt's. -/
theorem endsWith_of_hit {buf : Text} (hfound : (hit [.gprompt] buf).isSome = true) : EndsWith newPrompt buf := by
  obtain ⟨found, hhit⟩ := Option.isSome_iff_exists.mp hfound
  have hgprompt : found = .gprompt := by simpa using List.mem_of_find?_eq_some hhit
  rw [hgprompt] at hhit
  have hmatch : EndsWith newPrompt (tail buf) := hit_matches hhit
  rcases hmatch with hmatch | hmatch
  · exact .inl (hmatch.trans (List.drop_suffix _ _))
  · exact .inr (hmatch.trans (List.drop_suffix _ _))

/-- When the handshake is done and nothing is on its way, the device has shown the new prompt. -/
theorem gprompt_shown (hat : s.mode = .shell newPrompt ∨ ¬ EndsWith newPrompt (s.buf ++ s.wire))
    (hfound : (hit [.gprompt] s.buf).isSome = true) (hwire : s.wire = []) : s.mode = .shell newPrompt := by
  rcases hat with hat | hat
  · exact hat
  · rw [hwire, List.append_nil] at hat
    exact absurd (endsWith_of_hit hfound) hat

/-- A pump that ends behind all that is on its way leaves nothing there. -/
theorem pump_wire {n : ℕ} (h : s.wire.length ≤ n) : (s.pump n).wire = [] := List.drop_eq_nil_of_le h

/-- What arrives in a pump changes nothing but what the login loop finds. -/
theorem AtPc.pump {pc : Pc} (h : AtPc cmds s pc) (hpc : ∀ i, pc ≠ .login i) (n : ℕ) :
    AtPc cmds (s.pump n) pc := by
  cases pc with
  | login i => exact absurd rfl (hpc i)
  | opening | nudge i | handshake | command k | settle k =>
    rw [AtPc, pump_said]
    exact h
  | done | noShell => trivial

theorem Inv.pump (h : Inv cmds s) (hpc : ∀ i, s.pc ≠ .login i) (n : ℕ) : Inv cmds (s.pump n) :=
  ⟨h.right, h.pc.pump hpc n⟩

/-- A pump of the handshake has been made. -/
theorem shake_inv (h : Inv cmds s) (hpc : s.pc = .handshake) {expired : Bool}
    (hgood : expired = false → (hit [.gprompt] s.buf).isSome → s.wire = []) :
    Inv cmds (if expired then { s.note (.noShell (s.buf.drop (s.buf.length - 1500))) with pc := .noShell }
      else if (hit [.gprompt] s.buf).isSome then nextCommand d cmds 0 (s.note (.ready s.mode s.wire))
      else s) := by
  have hat := h.pc
  rw [hpc] at hat
  split_ifs with hexp hfound
  · have hentry (text : Text) : (Entry.noShell text).Right cmds := trivial
    exact ⟨h.right.note (hentry _) rfl, trivial⟩
  · have hwire := hgood (by simpa using hexp) hfound
    have hmode := gprompt_shown hat hfound hwire
    have hentry : (Entry.ready s.mode s.wire).Right cmds := ⟨hmode, hwire⟩
    exact nextCommand_inv (h.right.note hentry rfl) hmode hwire
  · exact h

/-- All of the answer has arrived when the text of a command is printed. -/
theorem printed_inv {k : ℕ} (h : Inv cmds s) (hpc : s.pc = .settle k) (hwire : s.wire = []) :
    Inv cmds (nextCommand d cmds (k + 1) (s.note (.printed k s.buf s.answer))) := by
  have hat := h.pc
  rw [hpc] at hat
  obtain ⟨hmode, hanswer, hshape⟩ := hat
  rw [hwire, List.append_nil] at hanswer
  have hentry : (Entry.printed k s.buf s.answer).Right cmds := ⟨hanswer, hshape⟩
  exact nextCommand_inv (h.right.note hentry rfl) hmode hwire

/-- A pump in the login loop that nothing was found before. -/
theorem login_inv {i : ℕ} {e : Event} (h : Inv cmds s) (hpc : s.pc = .login i)
    (hpasswd : d.passwd ≠ setPrompt) (htimely : Timely s e)
    (hgood : if e.expired then i + 1 < 6 → Answers d (s.pump e.arrived) []
      else Found d i (s.pump e.arrived)) :
    Inv cmds (if e.expired then { (s.pump e.arrived).sendline d [] with pc := .nudge i }
      else look d i (s.pump e.arrived)) := by
  by_cases hexp : e.expired = true
  · have hwire := htimely hexp
    rw [if_pos hexp, pump_dry hwire] at hgood ⊢
    exact nudge_inv h hpc hwire hgood
  · rw [if_neg hexp] at hgood ⊢
    have hat := h.pc
    rw [hpc] at hat
    have hclean : Clean (s.pump e.arrived).mode
        ((s.pump e.arrived).buf ++ (s.pump e.arrived).wire) := by
      rw [pump_said]
      exact hat.1
    exact look_inv h.right hpasswd hclean hgood

theorem Inv.step {e : Event} (h : Inv cmds s) (hpasswd : d.passwd ≠ setPrompt) (htimely : Timely s e)
    (hgood : Good d s e) : Inv cmds (step d cmds s e) := by
  have hpc' : (s.pump e.arrived).pc = s.pc := rfl
  cases hpc : s.pc with
  | login i =>
    simp only [Good, hpc] at hgood
    simp only [SerialSession.step, hpc', hpc]
    exact login_inv h hpc hpasswd htimely hgood
  | opening =>
    have hr : Inv cmds (s.pump e.arrived) := h.pump (by simp [hpc]) _
    have hat := hr.pc
    rw [hpc', hpc] at hat
    simp only [Good, hpc] at hgood
    simp only [SerialSession.step, hpc', hpc]
    exact look_inv hr.right hpasswd hat hgood
  | nudge i =>
    have hr : Inv cmds (s.pump e.arrived) := h.pump (by simp [hpc]) _
    have hat := hr.pc
    rw [hpc', hpc] at hat
    simp only [Good, hpc] at hgood
    simp only [SerialSession.step, hpc', hpc]
    split_ifs with hturn
    · exact look_inv hr.right hpasswd (hat hturn) (hgood hturn)
    · exact handshake_inv hr.right hpasswd
  | handshake =>
    have hr : Inv cmds (s.pump e.arrived) := h.pump (by simp [hpc]) _
    simp only [Good, hpc] at hgood
    simp only [SerialSession.step, hpc', hpc]
    exact shake_inv hr (hpc'.trans hpc) fun hexp hfound => pump_wire (hgood hexp (endsWith_of_hit hfound))
  | command k =>
    have hr : Inv cmds (s.pump e.arrived) := h.pump (by simp [hpc]) _
    have hat := hr.pc
    rw [hpc', hpc] at hat
    simp only [SerialSession.step, hpc', hpc]
    split_ifs
    · exact ⟨hr.right, hat⟩
    · exact hr
  | settle k =>
    have hr : Inv cmds (s.pump e.arrived) := h.pump (by simp [hpc]) _
    simp only [Good, hpc] at hgood
    simp only [SerialSession.step, hpc', hpc]
    exact printed_inv hr (hpc'.trans hpc) (pump_wire hgood)
  | done | noShell =>
    simp only [SerialSession.step, hpc', hpc]
    exact h.pump (by simp [hpc]) _

end Invariant

/-! ### Sessions -/

/-- In a session with a device whose first answer is clean, all of whose steps are good and none of
    whose timeouts expires too early, the credentials go to their prompts, the handshake succeeds
    when the new prompt has arrived, and each text printed is the device's answer to its command. -/
theorem session_right_of_good (d : Device) (hpasswd : d.passwd ≠ setPrompt) (cmds : List Text)
    (mode : Mode) (early : Text) (hstart : Clean (start d mode early).mode (start d mode early).wire)
    (es : List Event)
    (hes : Steps (step d cmds) (fun s e => Timely s e ∧ Good d s e) (start d mode early) es) :
    Always (step d cmds) (Right cmds) (start d mode early) es := by
  have hright (s : Sys) (h : Inv cmds s) : Right cmds s := h.right
  have hgood (s : Sys) (e : Event) (h : Inv cmds s) (he : Timely s e ∧ Good d s e) :
      Inv cmds (step d cmds s e) := h.step hpasswd he.1 he.2
  have hinit : Inv cmds (start d mode early) := ⟨fun _ hmem => absurd hmem List.not_mem_nil, hstart⟩
  exact always_of_steps hright hgood hinit hes

/-- A device with the texts of the console, the motd being that of a second login. -/
def gemini : Device where
  issue := "gemini ".toList
  passwd := "toor".toList
  incorrect := "Login incorrect\r\n".toList
  motd := "Last login: Tue\r\n".toList
  prompt := "root@gemini:~# ".toList
  output := fun _ => []

/-- Everything arrives in the next pump. -/
def swift : Event := ⟨100, false⟩

theorem swift_timely (s : Sys) : Timely s swift := fun h => Bool.noConfusion h

/-- The same with a motd that cannot be mistaken. -/
def quiet : Device := { gemini with motd := "Welcome\r\n".toList }

/-- From the getty through both credentials to the first command. -/
theorem session_right_of_good_login : Always (step quiet ["ls".toList]) (Right ["ls".toList])
    (start quiet .getty []) (List.replicate 6 swift) := by
  have hstart : Clean (start quiet .getty []).mode (start quiet .getty []).wire :=
    show ¬ passwordColon <:+: (start quiet .getty []).wire by decide +kernel
  refine session_right_of_good quiet (by decide) _ _ _ hstart _ ?_
  refine ⟨⟨swift_timely _, ?user⟩, ⟨swift_timely _, ?password⟩, ⟨swift_timely _, ?shell⟩, ⟨swift_timely _, ?shaken⟩,
    ⟨swift_timely _, trivial⟩, ⟨swift_timely _, ?printed⟩, trivial⟩
  case user => exact fun _ => ⟨fun _ => by decide +kernel, fun h => absurd h (by decide +kernel)⟩
  case password =>
    exact fun _ => ⟨fun h => absurd h (by decide +kernel), fun _ => ⟨by decide +kernel, by decide +kernel⟩⟩
  case shell => exact fun _ => ⟨fun h => absurd h (by decide +kernel), fun h => absurd h (by decide +kernel)⟩
  case shaken => exact fun _ _ => show List.length _ ≤ 100 by decide +kernel
  case printed => exact show List.length _ ≤ 100 by decide +kernel

/-- The motd is answered with the user name. -/
theorem last_login_answered : ¬ ∀ (d : Device) (cmds : List Text) (mode : Mode) (early : Text)
    (es : List Event), Steps (step d cmds) Timely (start d mode early) es →
    Always (step d cmds) (Right cmds) (start d mode early) es := by
  intro h
  have hes : Steps (step gemini []) Timely (start gemini .getty []) (List.replicate 3 swift) :=
    ⟨swift_timely _, swift_timely _, swift_timely _, trivial⟩
  have hentry := (h gemini [] .getty [] _ hes).last (.user (.shell gemini.prompt)) (by decide +kernel)
  have hmode : Mode.shell gemini.prompt = .getty := hentry
  cases hmode

end GeminiLinux.SerialSession
