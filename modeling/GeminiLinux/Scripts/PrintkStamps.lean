import GeminiLinux.Scripts.TriageBootLog

/-! Two runs of `triage-boot-log.py`: on a log, and on the same log with the kernel's times in front of
    some of its lines.

        BUG: failure at mm/slab.c:1                     [    1.000000] BUG: failure at mm/slab.c:1
        ^BUG                                            ^[

    A pattern that is searched for anywhere in a line is found behind the time, since none begins with a
    character of one. The pattern with `^` is not. -/

namespace GeminiLinux.TriageBootLog
open LossyUtf8 Search Utf8

/-! ### Times -/

def isDecimal (b : UInt8) : Bool := decide (0x30 ≤ b.toNat ∧ b.toNat ≤ 0x39)

/-- `[ <sec>.<usec>] `, as `printk` puts it in front of a line. -/
structure Stamp where
  pad : ℕ
  sec : List UInt8
  usec : List UInt8
  sec_pos : sec ≠ []
  usec_pos : usec ≠ []
  decimal : ∀ b ∈ sec ++ usec, isDecimal b = true

def Stamp.bytes (t : Stamp) : List UInt8 :=
  0x5b :: (List.replicate t.pad 0x20 ++ (t.sec ++ 0x2e :: (t.usec ++ [0x5d, 0x20])))

/-- The bytes of a time are brackets, blanks, dots and digits. -/
def isStampByte (b : UInt8) : Bool := b == 0x5b || b == 0x20 || b == 0x2e || b == 0x5d || isDecimal b

theorem Stamp.isStampByte (t : Stamp) {b : UInt8} (hb : b ∈ t.bytes) : TriageBootLog.isStampByte b = true := by
  have hdecimal (hmem : b ∈ t.sec ++ t.usec) : TriageBootLog.isStampByte b = true := by
    rw [TriageBootLog.isStampByte, t.decimal b hmem, Bool.or_true]
  simp only [Stamp.bytes, List.mem_cons, List.mem_append, List.not_mem_nil, or_false] at hb
  rcases hb with rfl | hb | hb | rfl | hb | rfl | rfl
  · rfl
  · rw [List.eq_of_mem_replicate hb]
    rfl
  · exact hdecimal (List.mem_append_left _ hb)
  · rfl
  · exact hdecimal (List.mem_append_right _ hb)
  · rfl
  · rfl

theorem lt_of_isStampByte {b : UInt8} (hb : isStampByte b = true) : b.toNat < 0x80 ∧ b ≠ 0x0a := by
  simp only [isStampByte, isDecimal, Bool.or_eq_true, beq_iff_eq, decide_eq_true_eq] at hb
  rcases hb with (((rfl | rfl) | rfl) | rfl) | hb
  · decide
  · decide
  · decide
  · decide
  · refine ⟨by omega, ?_⟩
    rintro rfl
    exact absurd hb.1 (by decide)

/-- The time in front of a line, if there is one. -/
def front (stamp : Option Stamp) : List UInt8 := stamp.elim [] Stamp.bytes

theorem isStampByte_front {stamp : Option Stamp} {b : UInt8} (hb : b ∈ front stamp) : isStampByte b = true := by
  cases stamp with
  | none => cases hb
  | some t => exact t.isStampByte hb

theorem front_ascii (stamp : Option Stamp) : ∀ b ∈ front stamp, b.toNat < 0x80 :=
  fun _ hb => (lt_of_isStampByte (isStampByte_front hb)).1

/-- The log with times in front of its lines. -/
def stampLog (stamps : ℕ → Option Stamp) (raw : List UInt8) : List UInt8 :=
  [0x0a].intercalate ((raw.splitOn 0x0a).mapIdx fun i line => front (stamps i) ++ line)

/-- The time in front of a line, as text. -/
def frontText (stamp : Option Stamp) : Line := (front stamp).map fun b => Char.ofNat b.toNat

theorem decodeLines_stampLog (stamps : ℕ → Option Stamp) (raw : List UInt8) :
    decodeLines (stampLog stamps raw) =
      (decodeLines raw).mapIdx fun i line => frontText (stamps i) ++ line := by
  have hpieces : (stampLog stamps raw).splitOn 0x0a =
      (raw.splitOn 0x0a).mapIdx fun i line => front (stamps i) ++ line := by
    refine List.splitOn_intercalate 0x0a ?_ ?_
    · intro piece hpiece
      obtain ⟨i, hi, rfl⟩ := List.mem_mapIdx.mp hpiece
      intro hmem
      rcases List.mem_append.mp hmem with hmem | hmem
      · exact (lt_of_isStampByte (isStampByte_front hmem)).2 rfl
      · exact notMem_of_mem_splitOn (List.getElem_mem hi) hmem
    · exact fun hnil => List.splitOn_ne_nil _ _ (List.mapIdx_eq_nil_iff.mp hnil)
  rw [decodeLines, decodeLines, splitOn_decodeReplace, splitOn_decodeReplace, hpieces]
  refine List.ext_getElem? fun i => ?_
  rw [List.getElem?_map, List.getElem?_mapIdx, List.getElem?_mapIdx, List.getElem?_map, Option.map_map,
    Option.map_map]
  exact congrArg (Option.map · _) (funext fun line => decodeReplace_ascii_append (front_ascii _) line)

/-! ### Patterns and times -/

/-- No occurrence of the pattern begins in a time. -/
def Pattern.floats : Pattern → Bool
  | .lit text => (encode text).head?.any fun b => !isStampByte b
  | .gap text _ => (encode text).head?.any fun b => !isStampByte b
  | .alt p q => p.floats && q.floats
  | .atStart _ => false

theorem find_front {text : String} (h : (encode text).head?.any fun b => !isStampByte b) (stamp : Option Stamp)
    (line : List UInt8) :
    find (encode text) (front stamp ++ line) = (find (encode text) line).map ((front stamp).length + ·) := by
  cases hbytes : encode text with
  | nil =>
    rw [hbytes] at h
    cases h
  | cons b bytes =>
    rw [hbytes] at h
    refine find_append_of_notMem (fun hmem => ?_) line
    have hout : (!isStampByte b) = true := h
    rw [isStampByte_front hmem] at hout
    cases hout

theorem Pattern.search_front {pat : Pattern} (h : pat.floats = true) (stamp : Option Stamp)
    (line : List UInt8) : pat.search (front stamp ++ line) = pat.search line := by
  induction pat with
  | lit text => rw [Pattern.search, Pattern.search, find_front h, Option.isSome_map]
  | gap text text' =>
    rw [Pattern.search, Pattern.search, find_front h]
    cases find (encode text) line with
    | none => rfl
    | some i =>
      have hdrop : (front stamp ++ line).drop ((front stamp).length + i + (encode text).length) =
          line.drop (i + (encode text).length) := by
        rw [Nat.add_assoc, ← List.drop_drop, List.drop_left]
      rw [Option.map_some]
      exact congrArg (fun rest => (find (encode text') rest).isSome) hdrop
  | alt p q ihp ihq =>
    rw [Pattern.floats, Bool.and_eq_true] at h
    rw [Pattern.search, Pattern.search, ihp h.1, ihq h.2]
  | atStart text => cases h

theorem encodeLine_frontText (stamp : Option Stamp) (line : Line) :
    encodeLine (frontText stamp ++ line) = front stamp ++ encodeLine line := by
  rw [encodeLine, List.flatMap_append, frontText, utf8Encode_ascii (front_ascii stamp)]
  rfl

theorem Pattern.matches_frontText {pat : Pattern} (h : pat.floats = true) (stamp : Option Stamp) (line : Line) :
    pat.matches (frontText stamp ++ line) = pat.matches line := by
  rw [Pattern.matches, encodeLine_frontText, pat.search_front h]
  rfl

/-- Behind a time nothing is at the start. -/
theorem atStart_frontText {text : String} (h : (encode text).head?.any fun b => !isStampByte b) (stamp : Stamp)
    (line : Line) : (Pattern.atStart text).matches (frontText (some stamp) ++ line) = false := by
  rw [Pattern.matches, encodeLine_frontText, Pattern.search, ← Bool.not_eq_true, List.isPrefixOf_iff_prefix]
  cases hbytes : encode text with
  | nil =>
    rw [hbytes] at h
    cases h
  | cons b bytes =>
    rw [hbytes] at h
    intro hpre
    have hbracket : b = 0x5b := (List.cons_prefix_cons.mp hpre).1
    subst hbracket
    have hout : (!isStampByte 0x5b) = true := h
    exact absurd hout (by decide)

theorem harvestKey_cons {c : Char} (hc : c ≠ 'H') (line : Line) : harvestKey (c :: line) = harvestKey line := by
  have hhere : harvestHere (c :: line) = none :=
    if_neg fun h => hc (List.cons_prefix_cons.mp h.1).1.symm
  rw [harvestKey, List.tails_cons, List.findSome?_cons, hhere]
  rfl

theorem harvestKey_frontText (stamp : Option Stamp) (line : Line) :
    harvestKey (frontText stamp ++ line) = harvestKey line := by
  have hall : ∀ bytes : List UInt8, (∀ b ∈ bytes, isStampByte b = true) →
      harvestKey ((bytes.map fun b => Char.ofNat b.toNat) ++ line) = harvestKey line := by
    intro bytes hbytes
    induction bytes with
    | nil => rfl
    | cons b bytes ih =>
      have hb := hbytes b (List.mem_cons_self ..)
      have hletter : Char.ofNat b.toNat ≠ 'H' := by
        intro h
        have hbyte := utf8EncodeChar_ascii (lt_of_isStampByte hb).1
        rw [h] at hbyte
        cases hbyte
        exact absurd hb (by decide)
      rw [List.map_cons, List.cons_append, harvestKey_cons hletter,
        ih fun b' hb' => hbytes b' (List.mem_cons_of_mem _ hb')]
  exact hall _ fun _ hb => isStampByte_front hb

/-! ### Hits and times -/

/-- If a time takes hits away from some lines only, the hits are the others. -/
theorem findIdxs_mapIdx {p : Line → Bool} {f : ℕ → Line → Line} {keep : ℕ → Bool}
    (h : ∀ i line, p (f i line) = (p line && keep i)) (lines : List Line) :
    (lines.mapIdx f).findIdxs p = (lines.findIdxs p).filter keep := by
  have hfrom : ∀ (lines : List Line) (s : ℕ), (lines.mapIdx fun i => f (i + s)).findIdxs p s =
      (lines.findIdxs p s).filter keep := by
    intro lines
    induction lines with
    | nil => exact fun _ => rfl
    | cons line lines ih =>
      intro s
      have hrest : (lines.mapIdx fun i => f (i + 1 + s)).findIdxs p (s + 1) =
          (lines.findIdxs p (s + 1)).filter keep := by
        rw [← ih (s + 1)]
        simp only [Nat.add_assoc, Nat.add_comm 1 s]
      rw [List.mapIdx_cons, List.findIdxs_cons, List.findIdxs_cons, hrest, Nat.zero_add, h]
      cases p line with
      | false => rfl
      | true =>
        cases hkeep : keep s with
        | false => simp [hkeep]
        | true => simp [hkeep]
  exact hfrom lines 0

theorem tally_filter_iff (hits : List ℕ) (keep : ℕ → Bool) :
    tally (hits.filter keep) = tally hits ↔ ∀ i ∈ hits, keep i = true := by
  constructor
  · intro h
    cases hits with
    | nil => simp
    | cons i hits =>
      refine List.length_filter_eq_length_iff.mp ?_
      cases hfilter : (i :: hits).filter keep with
      | nil =>
        rw [hfilter] at h
        cases h
      | cons j kept =>
        rw [hfilter] at h
        exact (Prod.ext_iff.mp (Option.some.inj h)).1
  · intro h
    rw [List.filter_eq_self.mpr h]

section Runs

variable (stamps : ℕ → Option Stamp) (raw : List UInt8)

/-- A pattern that floats has the same hits. -/
theorem findAll_stampLog {pat : Pattern} (h : pat.floats = true) :
    findAll (decodeLines (stampLog stamps raw)) pat = findAll (decodeLines raw) pat := by
  have hkeep : ∀ (i : ℕ) (line : Line), pat.matches (frontText (stamps i) ++ line) =
      (pat.matches line && (fun _ => true) i) := by
    intro i line
    rw [pat.matches_frontText h, Bool.and_true]
  rw [decodeLines_stampLog, findAll, findAll, findIdxs_mapIdx hkeep]
  exact List.filter_eq_self.mpr fun _ _ => rfl

/-- A pattern with `^` loses the lines with a time. -/
theorem findAll_stampLog_atStart {text : String} (h : (encode text).head?.any fun b => !isStampByte b) :
    findAll (decodeLines (stampLog stamps raw)) (.atStart text) =
      (findAll (decodeLines raw) (.atStart text)).filter fun i => (stamps i).isNone := by
  rw [decodeLines_stampLog, findAll, findAll]
  refine findIdxs_mapIdx (fun i line => ?_) _
  cases stamps i with
  | none => rw [Option.isNone_none, Bool.and_true]; rfl
  | some t => rw [atStart_frontText h, Option.isNone_some, Bool.and_false]

theorem start_stampLog : (triage (stampLog stamps raw)).start = (triage raw).start := by
  have hfloats : linuxVersion.floats = true := by decide
  have hhits := findAll_stampLog stamps raw hfloats
  exact congrArg (fun hits : List ℕ => hits.getLast?.getD 0) hhits

theorem harvest_stampLog : (triage (stampLog stamps raw)).harvest = (triage raw).harvest := by
  have hcount (lines : List Line) (start : ℕ) (key : List Char) : harvestTypes (lines.drop start) key =
      ((lines.findIdxs fun line => harvestKey line = some key).filter (start ≤ ·)).length := by
    rw [harvestTypes_eq, filter_findIdxs, List.length_findIdxs]
  have hkeep : ∀ (key : List Char) (i : ℕ) (line : Line),
      decide (harvestKey (frontText (stamps i) ++ line) = some key) =
        (decide (harvestKey line = some key) && (fun _ => true) i) := by
    intro key i line
    rw [harvestKey_frontText, Bool.and_true]
  funext key
  change harvestTypes ((decodeLines (stampLog stamps raw)).drop (triage (stampLog stamps raw)).start) key =
    harvestTypes ((decodeLines raw).drop (triage raw).start) key
  rw [hcount, hcount, start_stampLog, decodeLines_stampLog, findIdxs_mapIdx (hkeep key),
    List.filter_eq_self.mpr fun _ _ => rfl]

/-- The hits in the last cycle. -/
def hits (pat : Pattern) : List ℕ := (findAll (decodeLines raw) pat).filter ((triage raw).start ≤ ·)

theorem hits_stampLog {pat : Pattern} (h : pat.floats = true) :
    hits (stampLog stamps raw) pat = hits raw pat := by
  rw [hits, hits, findAll_stampLog stamps raw h, start_stampLog]

theorem hits_stampLog_bugFailure : hits (stampLog stamps raw) bugFailure =
    (hits raw bugFailure).filter fun i => (stamps i).isNone := by
  rw [hits, hits, start_stampLog, bugFailure, findAll_stampLog_atStart stamps raw (by decide),
    List.filter_filter, List.filter_filter]
  simp only [Bool.and_comm]

theorem milestones_eq : (triage raw).milestones =
    milestones.map fun m => (m.2, (hits raw m.1).head?.map (· + 1)) := rfl

theorem panics_eq : (triage raw).panics = panicPatterns.map fun p => (p.2, tally (hits raw p.1)) := rfl

theorem violations_eq : (triage raw).violations = violations.map fun v => (v.2, tally (hits raw v.1)) := rfl

/-- All but the one class is reported the same. -/
theorem triage_stampLog_iff_tally : triage (stampLog stamps raw) = triage raw ↔
    tally ((hits raw bugFailure).filter fun i => (stamps i).isNone) = tally (hits raw bugFailure) := by
  rw [← hits_stampLog_bugFailure]
  constructor
  · intro h
    have hpanics := congrArg Report.panics h
    rw [panics_eq, panics_eq] at hpanics
    have hbug := List.map_inj_left.mp hpanics (bugFailure, "BUG: failure") (by simp [panicPatterns])
    exact (Prod.ext_iff.mp hbug).2
  · intro h
    have hmilestones : ∀ m ∈ milestones, m.1.floats = true := by decide
    have hviolations : ∀ v ∈ violations, v.1.floats = true := by decide
    have hpanics : ∀ p ∈ panicPatterns, p.1.floats = true ∨ p.1 = bugFailure := by
      simp only [panicPatterns, List.forall_mem_cons]
      exact ⟨.inl (by decide), .inl (by decide), .inl (by decide), .inr trivial, .inl (by decide), by simp⟩
    refine Report.ext ?_ ?_ (start_stampLog stamps raw) ?_ ?_ ?_ (harvest_stampLog stamps raw)
    · exact congrArg (fun hits : List ℕ => if hits.length > 1 then hits.map (· + 1) else [])
        (findAll_stampLog stamps raw (by decide))
    · exact congrArg (List.map (· + 1)) (findAll_stampLog stamps raw (by decide))
    · rw [milestones_eq, milestones_eq]
      refine List.map_congr_left fun m hm => congrArg (Prod.mk m.2) ?_
      exact congrArg (fun hits : List ℕ => hits.head?.map (· + 1)) (hits_stampLog stamps raw (hmilestones m hm))
    · rw [panics_eq, panics_eq]
      refine List.map_congr_left fun p hp => congrArg (Prod.mk p.2) ?_
      rcases hpanics p hp with hfloats | hbug
      · exact congrArg tally (hits_stampLog stamps raw hfloats)
      · rw [hbug]
        exact h
    · rw [violations_eq, violations_eq]
      refine List.map_congr_left fun v hv => congrArg (Prod.mk v.2) ?_
      exact congrArg tally (hits_stampLog stamps raw (hviolations v hv))

/-- The lines before the last cycle are those with a banner after them. -/
theorem lt_start_iff (i : ℕ) : i < (triage raw).start ↔
    ∃ j > i, ∃ line, (decodeLines raw)[j]? = some line ∧ linuxVersion.matches line := by
  constructor
  · intro hi
    rcases lastLine_start raw with ⟨⟨line, hline, hmatch⟩, -⟩ | ⟨hzero, -⟩
    · exact ⟨_, hi, line, hline, hmatch⟩
    · omega
  · rintro ⟨j, hj, line, hline, hmatch⟩
    rcases lastLine_start raw with ⟨-, hlater⟩ | ⟨-, hnone⟩
    · by_contra hge
      refine hlater line ?_ hmatch
      refine List.mem_of_getElem? (i := j - ((triage raw).start + 1)) ?_
      rw [List.getElem?_drop, ← hline]
      congr 1
      omega
    · exact absurd hmatch (hnone line (List.mem_of_getElem? hline))

/-- Times make no difference to the report exactly if every line that has one and begins with the bug's
    text has a banner after it. -/
theorem triage_stampLog_iff : triage (stampLog stamps raw) = triage raw ↔
    ∀ i line, (stamps i).isSome → (decodeLines raw)[i]? = some line → bugFailure.matches line →
      ∃ j > i, ∃ line', (decodeLines raw)[j]? = some line' ∧ linuxVersion.matches line' := by
  rw [triage_stampLog_iff_tally, tally_filter_iff]
  simp only [← lt_start_iff]
  constructor
  · intro h i line hstamp hline hmatch
    by_contra hge
    have hhit : i ∈ hits raw bugFailure := by
      obtain ⟨hi, rfl⟩ := List.getElem?_eq_some_iff.mp hline
      refine List.mem_filter.mpr ⟨List.mem_findIdxs_iff_exists_getElem_pos.mpr ⟨hi, hmatch⟩, ?_⟩
      exact decide_eq_true (Nat.le_of_not_lt hge)
    have hnone := h i hhit
    rw [Option.isNone_iff_eq_none] at hnone
    rw [hnone] at hstamp
    cases hstamp
  · intro h i hi
    obtain ⟨hmem, hge⟩ := List.mem_filter.mp hi
    obtain ⟨hlt, hmatch⟩ := List.mem_findIdxs_iff_exists_getElem_pos.mp hmem
    rw [← Bool.not_eq_false, Option.isNone_eq_false_iff]
    intro hstamp
    exact Nat.not_lt_of_le (of_decide_eq_true hge) (h i _ hstamp (List.getElem?_eq_getElem hlt) hmatch)

end Runs

/-- `[    1.5] `. -/
def earlyStamp : Stamp where
  pad := 4
  sec := [0x31]
  usec := [0x35]
  sec_pos := by simp
  usec_pos := by simp
  decimal := by simp [isDecimal]

/-- A time in front of the first line only. -/
def fatalStamps (i : ℕ) : Option Stamp := if i = 0 then some earlyStamp else none

theorem fatal_line_missed : triage (stampLog fatalStamps (encode "BUG: failure at mm/slab.c:1\n")) ≠
    triage (encode "BUG: failure at mm/slab.c:1\n") := by
  intro h
  have hpanics := congrArg Report.panics h
  revert hpanics
  decide

end GeminiLinux.TriageBootLog
