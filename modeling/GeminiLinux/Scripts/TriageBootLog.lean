import GeminiLinux.Lib.LossyUtf8
import GeminiLinux.Lib.Search
import GeminiLinux.Lib.Utf8

/-! `triage-boot-log.py`: what is reported of a serial boot log. The log is cut into lines, each pattern is
    searched in each line, and the sections headed "last boot cycle" consider the lines from `start` on.

        Preloader Start        <- opens a cycle, and [REBOOTS] counts these
        ...
        Linux version 6.6      <- `start`: the last line of these
        ...
        Preloader Start        <- a cycle that dies before its kernel has no banner
        ...

    The two markers stand on different lines, so the sections either lack the front of the last cycle or
    are about the cycle before it. -/

namespace GeminiLinux.TriageBootLog
open LossyUtf8 Search Utf8

abbrev Line := List Char

/-! ### Patterns -/

/-- The patterns of the three tables: a text, two texts with `.*` between them, one of two patterns, and
    a text with `^` in front. -/
inductive Pattern where
  | lit (text : String)
  | gap (text text' : String)
  | alt (p q : Pattern)
  | atStart (text : String)

/-- `pat.search(line)` on the bytes of a line. A line has no newline, so `.` is any byte, and `^` is the
    start of the line with `re.M` or without. -/
def Pattern.search : Pattern → List UInt8 → Bool
  | .lit text, line => (find (encode text) line).isSome
  | .gap text text', line =>
    match find (encode text) line with
    | none => false
    | some i => (find (encode text') (line.drop (i + (encode text).length))).isSome
  | .alt p q, line => p.search line || q.search line
  | .atStart text, line => (encode text).isPrefixOf line

/-- `line.encode("utf-8")`. -/
def encodeLine (line : Line) : List UInt8 := line.flatMap String.utf8EncodeChar

def Pattern.matches (pat : Pattern) (line : Line) : Bool := pat.search (encodeLine line)

def preloaderStart : Pattern := .lit "Preloader Start"
def linuxVersion : Pattern := .lit "Linux version"
def bugFailure : Pattern := .atStart "BUG: failure at"

/-- `PANIC_PATTERNS`. -/
def panicPatterns : List (Pattern × String) :=
  [(.lit "Kernel panic", "Kernel panic"),
    (.lit "Internal error:", "Internal error"),
    (.lit "Unable to handle", "Unable to handle (fault)"),
    (bugFailure, "BUG: failure"),
    (.lit "Oops", "Oops")]

/-- `MILESTONES`. -/
def milestones : List (Pattern × String) :=
  [(preloaderStart, "Preloader Start"),
    (linuxVersion, "Kernel banner"),
    (.lit "init: init first stage started", "Android init: first stage"),
    (.alt (.gap "Welcome to" "Kali") (.gap "Welcome to" "Debian"), "Userspace welcome banner"),
    (.lit "systemd[1]: Startup finished", "systemd startup finished"),
    (.lit "login:", "getty login prompt")]

def violations : List (Pattern × String) :=
  [(.lit "DEVAPC", "DEVAPC"), (.lit "MPU violation", "EMI MPU violation")]

/-! ### Lines -/

def decodeLines (raw : List UInt8) : List Line := (decodeReplace raw).splitOn '\n'

def findAll (lines : List Line) (pat : Pattern) : List ℕ := lines.findIdxs pat.matches

def isHarvestKey (c : Char) : Bool := decide ('A' ≤ c ∧ c ≤ 'Z') || c == '-'

/-- `HARVEST-([A-Z-]+)` at the start, and its group. -/
def harvestHere (text : List Char) : Option (List Char) :=
  let key := (text.drop "HARVEST-".toList.length).takeWhile isHarvestKey
  if "HARVEST-".toList <+: text ∧ key ≠ [] then some key else none

/-- `re.search(r"HARVEST-([A-Z-]+)", line)`. -/
def harvestKey (line : Line) : Option (List Char) := line.tails.findSome? harvestHere

/-- The dict `harvest_types`, with 0 for a key it does not have. -/
def harvestTypes (lines : List Line) : List Char → ℕ :=
  lines.foldl (fun types line =>
    match harvestKey line with
    | none => types
    | some key => Function.update types key (types key + 1)) fun _ => 0

/-! ### The report -/

/-- What is printed, but for the lines quoted and their times. -/
@[ext]
structure Report where
  /-- The lines of `[REBOOTS]`, where there are several cycles. -/
  reboots : List ℕ
  banners : List ℕ
  /-- The first line of the sections on the last boot cycle. -/
  start : ℕ
  /-- The line a milestone is reached at. -/
  milestones : List (String × Option ℕ)
  /-- How often a class occurs, and the first line of it. -/
  panics : List (String × Option (ℕ × ℕ))
  violations : List (String × Option (ℕ × ℕ))
  harvest : List Char → ℕ

/-- `len(hits)` and `hits[0]+1`, if there are any. -/
def tally (hits : List ℕ) : Option (ℕ × ℕ) := hits.head?.map fun first => (hits.length, first + 1)

/-- `main`, on the bytes of the log. -/
def triage (raw : List UInt8) : Report :=
  let lines := decodeLines raw
  let preloaderHits := findAll lines preloaderStart
  let bannerHits := findAll lines linuxVersion
  let start := bannerHits.getLast?.getD 0
  let hits := fun pat => (findAll lines pat).filter (start ≤ ·)
  { reboots := if preloaderHits.length > 1 then preloaderHits.map (· + 1) else []
    banners := bannerHits.map (· + 1)
    start := start
    milestones := milestones.map fun m => (m.2, (hits m.1).head?.map (· + 1))
    panics := panicPatterns.map fun p => (p.2, tally (hits p.1))
    violations := violations.map fun v => (v.2, tally (hits v.1))
    harvest := harvestTypes (lines.drop start) }

/-- A log that is text has the lines of the text. -/
theorem decodeLines_encode (log : String) : decodeLines (encode log) = log.toList.splitOn '\n' := by
  rw [decodeLines, encode_eq_flatMap, decodeReplace_encode]

/-! ### Hits -/

/-- No hit is past the end. -/
theorem filter_findIdxs_of_length_le {lines : List Line} {start : ℕ} (h : lines.length ≤ start)
    (p : Line → Bool) : (lines.findIdxs p).filter (start ≤ ·) = [] := by
  rw [List.filter_eq_nil_iff]
  intro i hi
  have := List.lt_add_of_mem_findIdxs i hi
  simp only [decide_eq_true_eq]
  omega

/-- The hits from a line on are those of the lines from there on. -/
theorem filter_findIdxs (lines : List Line) (p : Line → Bool) (start : ℕ) :
    (lines.findIdxs p).filter (start ≤ ·) = (lines.drop start).findIdxs p start := by
  rcases Nat.lt_or_ge lines.length start with hpast | hle
  · rw [List.drop_eq_nil_of_le hpast.le, List.findIdxs_nil, filter_findIdxs_of_length_le hpast.le]
  · have hlen : (lines.take start).length = start := List.length_take_of_le hle
    have hsplit : lines.findIdxs p = (lines.take start).findIdxs p ++ (lines.drop start).findIdxs p start := by
      conv_lhs => rw [← List.take_append_drop start lines, List.findIdxs_append, Nat.zero_add, hlen]
    have hfront := filter_findIdxs_of_length_le hlen.le p
    have hrest : ((lines.drop start).findIdxs p start).filter (start ≤ ·) =
        (lines.drop start).findIdxs p start :=
      List.filter_eq_self.mpr fun i hi => decide_eq_true (List.ge_of_mem_findIdxs i hi)
    rw [hsplit, List.filter_append, hfront, hrest, List.nil_append]

theorem harvestTypes_eq (lines : List Line) (key : List Char) :
    harvestTypes lines key = lines.countP fun line => harvestKey line = some key := by
  have hfrom : ∀ types : List Char → ℕ, (lines.foldl (fun types line =>
      match harvestKey line with
      | none => types
      | some key => Function.update types key (types key + 1)) types) key =
        types key + lines.countP fun line => harvestKey line = some key := by
    induction lines with
    | nil => exact fun _ => rfl
    | cons line lines ih =>
      intro types
      rw [List.foldl_cons, ih, List.countP_cons]
      cases harvestKey line with
      | none => rfl
      | some key' =>
        by_cases hkey : key' = key
        · subst hkey
          simp only [Function.update_self, decide_true, if_true]
          omega
        · simp [Function.update_of_ne (Ne.symm hkey), hkey]
  exact (hfrom _).trans (Nat.zero_add _)

/-! ### The last line with a marker -/

/-- The last line with the pattern is the line `w`, or no line has it and `w` is the first. -/
def LastLine (lines : List Line) (pat : Pattern) (w : ℕ) : Prop :=
  (∃ line, lines[w]? = some line ∧ pat.matches line) ∧ (∀ line ∈ lines.drop (w + 1), ¬ pat.matches line) ∨
    w = 0 ∧ ∀ line ∈ lines, ¬ pat.matches line

theorem exists_lastLine (lines : List Line) (pat : Pattern) : ∃ w, LastLine lines pat w := by
  induction lines using List.reverseRecOn with
  | nil => exact ⟨0, .inr ⟨rfl, by simp⟩⟩
  | append_singleton lines line ih =>
    by_cases hline : pat.matches line
    · exact ⟨lines.length, .inl ⟨⟨line, by simp, hline⟩, by simp⟩⟩
    · obtain ⟨w, ⟨⟨line', hline', hmatch⟩, hlater⟩ | ⟨rfl, hnone⟩⟩ := ih
      · have hw : w < lines.length := (List.getElem?_eq_some_iff.mp hline').1
        refine ⟨w, .inl ⟨⟨line', ?_, hmatch⟩, ?_⟩⟩
        · rw [List.getElem?_append_left hw, hline']
        · rw [List.drop_append_of_le_length hw]
          intro x hx
          rcases List.mem_append.mp hx with hx | hx
          · exact hlater x hx
          · rwa [List.mem_singleton.mp hx]
      · refine ⟨0, .inr ⟨rfl, ?_⟩⟩
        intro x hx
        rcases List.mem_append.mp hx with hx | hx
        · exact hnone x hx
        · rwa [List.mem_singleton.mp hx]

theorem LastLine.eq_lastHit {lines : List Line} {pat : Pattern} {w : ℕ} (h : LastLine lines pat w) :
    (findAll lines pat).getLast?.getD 0 = w := by
  rcases h with ⟨⟨line, hline, hmatch⟩, hlater⟩ | ⟨rfl, hnone⟩
  · have hw : w < lines.length := (List.getElem?_eq_some_iff.mp hline).1
    have hlen : (lines.take w).length = w := List.length_take_of_le hw.le
    have hnolater : (lines.drop (w + 1)).findIdxs pat.matches (w + 1) = [] :=
      List.findIdxs_eq_nil_iff.mpr fun x hx => Bool.eq_false_iff.mpr (hlater x hx)
    have hhits : findAll lines pat = (lines.take w).findIdxs pat.matches ++ [w] := by
      conv_lhs => rw [findAll, ← List.take_append_drop w lines, List.findIdxs_append, Nat.zero_add, hlen,
        List.drop_eq_getElem?_toList_append, hline, Option.toList_some, List.singleton_append,
        List.findIdxs_cons, if_pos hmatch, hnolater]
    rw [hhits, List.getLast?_concat, Option.getD_some]
  · have hnil : findAll lines pat = [] :=
      List.findIdxs_eq_nil_iff.mpr fun x hx => Bool.eq_false_iff.mpr (hnone x hx)
    rw [hnil]
    rfl

/-- The first line of the sections is the last banner's. -/
theorem lastLine_start (raw : List UInt8) : LastLine (decodeLines raw) linuxVersion (triage raw).start := by
  obtain ⟨w, hw⟩ := exists_lastLine (decodeLines raw) linuxVersion
  have hstart : (triage raw).start = w := hw.eq_lastHit
  rwa [hstart]

/-! ### The last cycle -/

/-- The sections are about the lines from `w` on: a milestone is reached if one of them has it, and a class
    or a key is counted once for each of them that has it. -/
structure ReportsOn (r : Report) (lines : List Line) (w : ℕ) : Prop where
  considered : r.start = w
  reached : r.milestones.map (fun m => (m.1, m.2.isSome)) =
    milestones.map fun m => (m.2, (lines.drop w).any m.1.matches)
  panicCounts : r.panics.map (fun p => (p.1, p.2.elim 0 Prod.fst)) =
    panicPatterns.map fun p => (p.2, (lines.drop w).countP p.1.matches)
  violationCounts : r.violations.map (fun v => (v.1, v.2.elim 0 Prod.fst)) =
    violations.map fun v => (v.2, (lines.drop w).countP v.1.matches)
  harvestCounts : ∀ key, r.harvest key = (lines.drop w).countP fun line => harvestKey line = some key

theorem tally_count (hits : List ℕ) : (tally hits).elim 0 Prod.fst = hits.length := by
  cases hits with
  | nil => rfl
  | cons => rfl

theorem isSome_head_hits (lines : List Line) (pat : Pattern) (start : ℕ) :
    (((findAll lines pat).filter (start ≤ ·)).head?.map (· + 1)).isSome =
      (lines.drop start).any pat.matches := by
  have hnone : (lines.drop start).findIdxs pat.matches start = [] ↔
      (lines.drop start).any pat.matches = false := by
    rw [List.findIdxs_eq_nil_iff, List.any_eq_false]
    simp only [Bool.not_eq_true]
  rw [findAll, filter_findIdxs, Option.isSome_map]
  cases hhits : (lines.drop start).findIdxs pat.matches start with
  | nil => exact (hnone.mp hhits).symm
  | cons i hits =>
    rw [hhits] at hnone
    exact (Bool.eq_true_of_not_eq_false fun hfalse => List.cons_ne_nil _ _ (hnone.mpr hfalse)).symm

/-- The sections are about the lines from the last banner on. -/
theorem reportsOn_start (raw : List UInt8) : ReportsOn (triage raw) (decodeLines raw) (triage raw).start := by
  have hcount (pat : Pattern) : (tally ((findAll (decodeLines raw) pat).filter
      ((triage raw).start ≤ ·))).elim 0 Prod.fst =
        ((decodeLines raw).drop (triage raw).start).countP pat.matches := by
    rw [tally_count, findAll, filter_findIdxs, List.length_findIdxs]
  refine ⟨rfl, ?_, ?_, ?_, harvestTypes_eq _⟩
  · rw [triage, List.map_map]
    refine List.map_congr_left fun m _ => ?_
    exact congrArg (Prod.mk m.2) (isSome_head_hits ..)
  · rw [triage, List.map_map]
    refine List.map_congr_left fun p _ => ?_
    exact congrArg (Prod.mk p.2) (hcount p.1)
  · rw [triage, List.map_map]
    refine List.map_congr_left fun v _ => ?_
    exact congrArg (Prod.mk v.2) (hcount v.1)

/-- The sections are about the last cycle, from its `Preloader Start` on, exactly if that is the line of the
    last banner. -/
theorem last_cycle_iff (raw : List UInt8) :
    (∀ w, LastLine (decodeLines raw) preloaderStart w → ReportsOn (triage raw) (decodeLines raw) w) ↔
      ∃ w, LastLine (decodeLines raw) preloaderStart w ∧ LastLine (decodeLines raw) linuxVersion w := by
  constructor
  · intro h
    obtain ⟨w, hw⟩ := exists_lastLine (decodeLines raw) preloaderStart
    have hstart := (h w hw).considered
    exact ⟨w, hw, hstart ▸ lastLine_start raw⟩
  · rintro ⟨w, hpreloader, hbanner⟩ w' hw'
    have hstart : (triage raw).start = w := hbanner.eq_lastHit
    have hsame : w = w' := hpreloader.eq_lastHit.symm.trans hw'.eq_lastHit
    rw [← hsame, ← hstart]
    exact reportsOn_start raw

/-- A second cycle that dies before its kernel. -/
def diesEarly : List UInt8 := encode "Preloader Start\nLinux version 6.6\nPreloader Start\n"

theorem diesEarly_misattributed : ¬ ∀ w, LastLine (decodeLines diesEarly) preloaderStart w →
    ReportsOn (triage diesEarly) (decodeLines diesEarly) w := by
  intro h
  have hlast : LastLine (decodeLines diesEarly) preloaderStart 2 := by
    rw [diesEarly, decodeLines_encode]
    exact .inl ⟨⟨"Preloader Start".toList, by decide, by decide⟩, by decide⟩
  have hstart : (triage diesEarly).start = 1 := by decide
  have hconsidered := (h 2 hlast).considered
  omega

end GeminiLinux.TriageBootLog
