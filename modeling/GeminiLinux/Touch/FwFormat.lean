import GeminiLinux.Touch.FwFile

/-! The format that the parser of the firmware file is for, as a writer would put it down: each line a mark
    and a number in hex, each content behind the lines of its section, and one more line at the end for the
    parser not to look at. What is written so is read back as it was.

        version, all, sections ──fileText──▶ bytes ──parse_uchar2int_arr──▶ version, all, sections -/

namespace GeminiLinux.Solomon
open Prog Digits

/-! ### The writer -/

def digitChar (d : ℕ) : UInt8 := if d < 10 then UInt8.ofNat (0x30 + d) else UInt8.ofNat (0x57 + d)

/-- A number in `w` hex digits. -/
def hexText (w n : ℕ) : List UInt8 := (fixed 16 w n).map digitChar

/-- An `int` as the number that its digits give. -/
def unsigned (x : ℤ) : ℕ := (x % 2 ^ 32).toNat

def lineText (mark : UInt8) (text : List UInt8) : List UInt8 := mark :: text ++ [0x0a]

/-- The fields of a section behind its address. -/
def fieldsOf (sec : SolomonFw) : List ℕ :=
  [unsigned sec.byteCnt, unsigned sec.erasePageCnt, unsigned sec.version, sec.checksum, unsigned sec.reserved01,
    unsigned sec.reserved02, unsigned sec.reserved03]

def sectionText (sec : SolomonFw) : List UInt8 :=
  lineText 0x23 (hexText 8 (unsigned sec.address)) ++ (fieldsOf sec).flatMap (fun n => lineText 0x2a (hexText 8 n)) ++
    sec.content.getD []

/-- The words of the `$` lines in front of `all`: the version, and two that have no meaning. -/
def versionWords (v : SolomonVersion) : List ℕ :=
  [v.displayVersion, v.hiddenVersion, v.productID01, v.productID02, v.icName01, v.icName02, 0, 0]

def fileText (v : SolomonVersion) (all : ℕ) (secs : List SolomonFw) : List UInt8 :=
  (versionWords v).flatMap (fun n => lineText 0x24 (hexText 8 n)) ++ lineText 0x24 (hexText 4 all) ++
    secs.flatMap sectionText ++ [0x0a]

/-! ### Numbers -/

theorem hexDigit_digitChar {d : ℕ} (h : d < 16) : hexDigit (digitChar d) = some d := by
  have hall : ∀ d : Fin 16, hexDigit (digitChar d) = some (d : ℕ) := by decide
  exact hall ⟨d, h⟩

/-- A byte that `readLine` keeps and `strlen` counts. -/
def Plain (ch : UInt8) : Prop := ch ≠ 0x0a ∧ ch ≠ 0x0d ∧ ch ≠ 0x09 ∧ ch ≠ 0x20 ∧ ch ≠ 0x3b ∧ ch ≠ 0

instance (ch : UInt8) : Decidable (Plain ch) := by unfold Plain; infer_instance

theorem plain_digitChar {d : ℕ} (h : d < 16) : Plain (digitChar d) := by
  have hall : ∀ d : Fin 16, Plain (digitChar d) := by decide
  exact hall ⟨d, h⟩

@[simp] theorem length_hexText (w n : ℕ) : (hexText w n).length = w := by
  rw [hexText, List.length_map, length_fixed]

theorem plain_hexText (w n : ℕ) : ∀ ch ∈ hexText w n, Plain ch := by
  intro ch hch
  obtain ⟨d, hd, rfl⟩ := List.mem_map.mp hch
  exact plain_digitChar (lt_of_mem_fixed (by decide) hd)

/-- Reading digits adds the number they stand for. -/
theorem convFrom_digits {ds : List ℕ} (hds : ∀ d ∈ ds, d < 16) (hlen : ds.length ≤ 8) {iRet : ℕ} (hret : iRet < 2 ^ 32) :
    convFrom iRet (ds.map digitChar) = .ok ((iRet + place 16 ds) % 2 ^ 32) := by
  induction ds generalizing iRet with
  | nil => rw [List.map_nil, convFrom, place, Nat.add_zero, Nat.mod_eq_of_lt hret]
  | cons d ds ih =>
    have hpow : (2 : ℕ) ^ (4 * ds.length) = 16 ^ ds.length := by rw [pow_mul]; rfl
    rw [List.length_cons] at hlen
    rw [List.map_cons, convFrom, hexDigit_digitChar (hds d List.mem_cons_self)]
    dsimp only
    rw [List.length_map, if_neg (by omega), ih (fun d' hd' => hds d' (List.mem_cons_of_mem d hd')) (by omega)
      (Nat.mod_lt _ (by decide)), place, Nat.mod_add_mod, Nat.shiftLeft_eq, hpow, Nat.add_assoc]

/-- A number that fits its digits is read back. -/
theorem conv_hexText {w n : ℕ} (hw : w ≤ 8) (hn : n < 16 ^ w) : convHexStr2int (hexText w n) = .ok n := by
  have hbig : 16 ^ w ≤ 2 ^ 32 := (Nat.pow_le_pow_right (by decide) hw : 16 ^ w ≤ 16 ^ 8)
  rw [convHexStr2int, hexText, convFrom_digits (fun d hd => lt_of_mem_fixed (by decide) hd) (by rwa [length_fixed])
    (by decide), place_fixed, Nat.zero_add, Nat.mod_eq_of_lt hn, Nat.mod_eq_of_lt (by omega)]

theorem toInt_unsigned {x : ℤ} (hlow : -2 ^ 31 ≤ x) (hhigh : x < 2 ^ 31) : toInt (unsigned x) = x := by
  rw [toInt, unsigned]
  split_ifs <;> omega

theorem unsigned_lt (x : ℤ) : unsigned x < 16 ^ 8 := by
  rw [unsigned]
  omega

/-! ### Lines -/

theorem readLine_plain {buff text : List UInt8} (htext : ∀ ch ∈ text, Plain ch)
    (hlen : buff.length + text.length < lineSize) (rest : List UInt8) :
    readLine buff false (text ++ 0x0a :: rest) = (buff ++ text, rest) := by
  induction text generalizing buff with
  | nil =>
    rw [List.length_nil, Nat.add_zero] at hlen
    rw [List.nil_append, readLine, if_pos hlen, if_pos rfl, List.append_nil]
  | cons ch text ih =>
    obtain ⟨h1, h2, h3, h4, h5, -⟩ := htext ch List.mem_cons_self
    rw [List.length_cons] at hlen
    rw [List.cons_append, readLine, if_pos (by omega), if_neg h1, if_neg (by simp only [h2, h3, h4, or_self,
      not_false_eq_true]), if_neg h5, if_neg Bool.false_ne_true, ih (fun c hc => htext c (List.mem_cons_of_mem ch hc))
      (by rw [List.length_append, List.length_singleton]; omega), List.append_assoc, List.singleton_append]

theorem textOf_plain {text : List UInt8} (h : ∀ ch ∈ text, Plain ch) : textOf text = text := by
  refine List.takeWhile_eq_self_iff.mpr fun ch hch => ?_
  rw [bne_iff_ne]
  exact (h ch hch).2.2.2.2.2

section Steps

variable {behind : UInt8} {rest : List UInt8} {s s' : FwState}

/-- A written line is parsed as the line it is. -/
theorem parseLines_lineText (taken : ℕ) {mark : UInt8} {text : List UInt8} (hmark : Plain mark)
    (htext : ∀ ch ∈ text, Plain ch) (hlen : text.length < 100) (hrest : rest ≠ [])
    (hparse : parseLine behind (mark :: text) rest s = .ok taken s') :
    parseLines behind (lineText mark text ++ rest) s = parseLines behind (rest.drop taken) s' := by
  have hread : readLine [] false (lineText mark text ++ rest) = (mark :: text, rest) := by
    have hplain : ∀ ch ∈ mark :: text, Plain ch := by
      intro ch hch
      rcases List.mem_cons.mp hch with rfl | hch
      · exact hmark
      · exact htext ch hch
    have hcut : lineText mark text ++ rest = (mark :: text) ++ 0x0a :: rest := by
      rw [lineText, List.append_assoc, List.singleton_append]
    have hshort : ([] : List UInt8).length + (mark :: text).length < lineSize := by
      rw [List.length_nil, List.length_cons, lineSize]
      omega
    rw [hcut, readLine_plain hplain hshort, List.nil_append]
  rw [parseLines_line hread hrest, bind_apply, hparse]

theorem textOf_line (mark : UInt8) (hmark : Plain mark) (w n : ℕ) :
    textOf (mark :: hexText w n) = mark :: hexText w n := by
  refine textOf_plain fun ch hch => ?_
  rcases List.mem_cons.mp hch with rfl | hch
  · exact hmark
  · exact plain_hexText w n ch hch

theorem line_fits (mark : UInt8) {w : ℕ} (hw : w ≤ 8) (n : ℕ) : ¬ Unended (mark :: hexText w n) := by
  rintro ⟨hlen, -⟩
  rw [List.length_cons, length_hexText, lineSize] at hlen
  omega

theorem hexText_ne_nil (w n : ℕ) : hexText (w + 1) n ≠ [] := by
  refine List.ne_nil_of_length_pos ?_
  rw [length_hexText]
  exact Nat.succ_pos w

/-- One of the eight words in front of `all`. -/
theorem dollar_step {n : ℕ} (hn : n < 2 ^ 32) (hcnt : s.dollarCnt < 8) (hrest : rest ≠ []) :
    parseLines behind (lineText 0x24 (hexText 8 n) ++ rest) s = parseLines behind rest
      { s with dollarCnt := s.dollarCnt + 1, fwVersion := setVersion s.fwVersion (s.dollarCnt + 1) n } := by
  refine parseLines_lineText 0 (by decide) (plain_hexText 8 n) (by rw [length_hexText]; decide) hrest ?_
  have htext := textOf_line 0x24 (by decide) 8 n
  have hconv : convHexStr2int (hexText 8 n) = .ok n := conv_hexText le_rfl hn
  rw [parseLine, if_neg (line_fits _ (by decide) _), htext]
  by_cases hversion : s.dollarCnt + 1 ≤ 6
  · simp [dollarLine, bind_apply, htext, hconv, hversion]
  · have h8 : s.dollarCnt + 1 ≠ 9 := by omega
    have hkeep : setVersion s.fwVersion (s.dollarCnt + 1) n = s.fwVersion := by
      obtain h | h : s.dollarCnt = 6 ∨ s.dollarCnt = 7 := by omega
      · rw [h]; rfl
      · rw [h]; rfl
    simp [dollarLine, bind_apply, hversion, h8, hkeep]

/-- The line with `all`. -/
theorem all_step {n : ℕ} (hn : n < 2 ^ 16) (hcnt : s.dollarCnt = 8) (hrest : rest ≠ []) :
    parseLines behind (lineText 0x24 (hexText 4 n) ++ rest) s = parseLines behind rest
      { s with dollarCnt := 9, all := n } := by
  refine parseLines_lineText 0 (by decide) (plain_hexText 4 n) (by rw [length_hexText]; decide) hrest ?_
  have htext := textOf_line 0x24 (by decide) 4 n
  have hfour : ((List.range 4).map fun i => (hexText 4 n)[i]?.getD 0) = hexText 4 n := by
    refine List.ext_getElem (by simp) fun i h1 h2 => ?_
    rw [List.getElem_map, List.getElem_range, List.getElem?_eq_getElem h2, Option.getD_some]
  have hconv : convHexStr2int (hexText 4 n) = .ok n := conv_hexText (by decide) hn
  rw [parseLine, if_neg (line_fits _ (by decide) _), htext]
  simp [dollarLine, bind_apply, hcnt, hfour, hconv]

/-- The line that begins a section. -/
theorem address_step {x : ℤ} (hlow : -2 ^ 31 ≤ x) (hhigh : x < 2 ^ 31) (hlevel : s.level = .none) (hrest : rest ≠ []) :
    parseLines behind (lineText 0x23 (hexText 8 (unsigned x)) ++ rest) s = parseLines behind rest
      { s with level := .address, ptr := { emptySection with address := x } } := by
  refine parseLines_lineText 0 (by decide) (plain_hexText 8 _) (by rw [length_hexText]; decide) hrest ?_
  have htext := textOf_line 0x23 (by decide) 8 (unsigned x)
  have hconv : convHexStr2int (hexText 8 (unsigned x)) = .ok (unsigned x) := conv_hexText le_rfl (unsigned_lt x)
  rw [parseLine, if_neg (line_fits _ (by decide) _), htext]
  simp [addressLine, bind_apply, htext, hconv, hlevel, hexText_ne_nil, toInt_unsigned hlow hhigh]

/-- A line of a section is its field. -/
theorem field_step {n taken : ℕ} (hn : n < 2 ^ 32) (hlevel : s.level ≠ .none) (hrest : rest ≠ [])
    (hset : setField behind rest n s = .ok taken s') :
    parseLines behind (lineText 0x2a (hexText 8 n) ++ rest) s = parseLines behind (rest.drop taken) s' := by
  refine parseLines_lineText taken (by decide) (plain_hexText 8 n) (by rw [length_hexText]; decide) hrest ?_
  have htext := textOf_line 0x2a (by decide) 8 n
  have hconv : convHexStr2int (hexText 8 n) = .ok n := conv_hexText le_rfl hn
  rw [parseLine, if_neg (line_fits _ (by decide) _), htext]
  simp [fieldLine, bind_apply, htext, hconv, hlevel, hexText_ne_nil, hset]

/-! ### Sections -/

/-- An `int`. -/
def IsInt (x : ℤ) : Prop := -2 ^ 31 ≤ x ∧ x < 2 ^ 31

/-- A complete section whose numbers fit the fields of the struct. -/
structure Representable (behind : UInt8) (sec : SolomonFw) : Prop where
  complete : Complete behind sec
  address : IsInt sec.address
  byteCnt : IsInt sec.byteCnt
  erasePageCnt : IsInt sec.erasePageCnt
  version : IsInt sec.version
  checksum : sec.checksum < 2 ^ 32
  reserved01 : IsInt sec.reserved01
  reserved02 : IsInt sec.reserved02
  reserved03 : IsInt sec.reserved03

theorem setField_byteCnt {x : ℤ} (hx : IsInt x) (hpos : 1 ≤ x) (hlevel : s.level = .address) :
    setField behind rest (unsigned x) s = .ok 0 { s with level := .length, ptr := { s.ptr with byteCnt := x } } := by
  simp [setField, bind_apply, hlevel, toInt_unsigned hx.1 hx.2, not_lt.mpr hpos]
  rfl

theorem setField_content {x : ℤ} {content : List UInt8} (hx : IsInt x) (hlevel : s.level = .reserve02)
    (hlen : s.ptr.byteCnt.toNat = content.length)
    (hsum : fwChecksum { s.ptr with reserved03 := x, content := some content } content behind = true) :
    setField behind (content ++ rest) (unsigned x) s = .ok content.length { s with
      level := .none, finished := s.finished ++ [{ s.ptr with reserved03 := x, content := some content }] } := by
  have htake : takeContent s.ptr.byteCnt (content ++ rest) = .ok content := by
    rw [takeContent, hlen, if_pos (by rw [List.length_append]; omega), List.take_left]
  simp [setField, bind_apply, hlevel, toInt_unsigned hx.1 hx.2, htake, hsum]
  rfl

theorem section_step {sec : SolomonFw} (h : Representable behind sec) (hlevel : s.level = .none) :
    parseLines behind (sectionText sec ++ rest) s = parseLines behind rest
      { s with finished := s.finished ++ [sec], ptr := { sec with reserved03 := 0, content := none } } := by
  obtain ⟨⟨content, hcontent, hpos, hlen, hsum⟩, haddress, hbyteCnt, herase, hversion, hchecksum, h1, h2, h3⟩ := h
  have hmore (n : ℕ) (r : List UInt8) : lineText 0x2a (hexText 8 n) ++ r ≠ [] := List.cons_ne_nil _ _
  cases sec
  cases s
  cases hcontent
  cases hlevel
  rw [sectionText, fieldsOf, Option.getD_some]
  simp only [List.flatMap_cons, List.flatMap_nil, List.append_assoc, List.append_nil]
  refine (address_step haddress.1 haddress.2 rfl (hmore _ _)).trans ?_
  refine (field_step (unsigned_lt _) (by simp) (hmore _ _) (setField_byteCnt hbyteCnt hpos rfl)).trans ?_
  refine (field_step (unsigned_lt _) (by simp) (hmore _ _) rfl).trans ?_
  refine (field_step (unsigned_lt _) (by simp) (hmore _ _) rfl).trans ?_
  refine (field_step hchecksum (by simp) (hmore _ _) rfl).trans ?_
  refine (field_step (unsigned_lt _) (by simp) (hmore _ _) rfl).trans ?_
  refine (field_step (unsigned_lt _) (by simp) (hmore _ _) rfl).trans ?_
  rw [toInt_unsigned herase.1 herase.2, toInt_unsigned hversion.1 hversion.2, toInt_unsigned h1.1 h1.2,
    toInt_unsigned h2.1 h2.2]
  have hbehind : content ++ rest ≠ [] := by
    refine List.append_ne_nil_of_left_ne_nil (List.ne_nil_of_length_pos ?_) rest
    omega
  refine (field_step (unsigned_lt _) (by simp) hbehind (setField_content h3 rfl hlen hsum)).trans ?_
  rw [List.drop_left]
  rfl

/-! ### Files -/

/-- The state behind a `$` line with the word `n`. -/
def countWord (s : FwState) (n : ℕ) : FwState :=
  { s with dollarCnt := s.dollarCnt + 1, fwVersion := setVersion s.fwVersion (s.dollarCnt + 1) n }

theorem words_run {words : List ℕ} (hwords : ∀ n ∈ words, n < 2 ^ 32) (hcnt : s.dollarCnt + words.length ≤ 8)
    (hrest : rest ≠ []) :
    parseLines behind (words.flatMap (fun n => lineText 0x24 (hexText 8 n)) ++ rest) s =
      parseLines behind rest (words.foldl countWord s) := by
  induction words generalizing s with
  | nil => rfl
  | cons n words ih =>
    rw [List.length_cons] at hcnt
    rw [List.flatMap_cons, List.append_assoc, dollar_step (hwords n List.mem_cons_self) (by omega)
      (List.append_ne_nil_of_right_ne_nil _ hrest)]
    exact ih (fun m hm => hwords m (List.mem_cons_of_mem n hm)) (by show s.dollarCnt + 1 + words.length ≤ 8; omega)

/-- The sections and the line at the end. -/
theorem sections_run {secs : List SolomonFw} (h : ∀ sec ∈ secs, Representable behind sec) (hlevel : s.level = .none) :
    ∃ ptr, parseLines behind (secs.flatMap sectionText ++ [0x0a]) s =
      .ok () { s with finished := s.finished ++ secs, ptr := ptr } := by
  induction secs generalizing s with
  | nil =>
    refine ⟨s.ptr, ?_⟩
    have hend : readLine [] false (([] : List SolomonFw).flatMap sectionText ++ [0x0a]) = ([], []) := rfl
    rw [parseLines_end hend, List.append_nil]
    rfl
  | cons sec secs ih =>
    rw [List.flatMap_cons, List.append_assoc, section_step (h sec List.mem_cons_self) hlevel]
    obtain ⟨ptr, hptr⟩ := ih (s := { s with finished := s.finished ++ [sec], ptr := { sec with
      reserved03 := 0, content := none } }) (fun later hlater => h later (List.mem_cons_of_mem sec hlater)) hlevel
    refine ⟨ptr, hptr.trans ?_⟩
    rw [List.append_assoc, List.singleton_append]

end Steps

/-- The run over a written file. -/
theorem parseUchar2intArr_fileText {behind : UInt8} {v : SolomonVersion} {all : ℕ} {secs : List SolomonFw}
    (hv : ∀ n ∈ versionWords v, n < 2 ^ 32) (hall : all < 2 ^ 16) (hsecs : ∀ sec ∈ secs, Representable behind sec)
    (before : SolomonVersion) : ∃ ptr, parseUchar2intArr behind (fileText v all secs) before =
      (.ok secs, ⟨v, all, 9, secs, .none, ptr⟩) := by
  have hwords : (versionWords v).foldl countWord ⟨before, 0, 0, [], .none, emptySection⟩ =
      ⟨v, 0, 8, [], .none, emptySection⟩ := by
    cases v
    rfl
  obtain ⟨ptr, hptr⟩ := sections_run (s := ⟨v, all, 9, [], .none, emptySection⟩) hsecs rfl
  have hend : secs.flatMap sectionText ++ [0x0a] ≠ [] := List.append_ne_nil_of_right_ne_nil _ (List.cons_ne_nil _ _)
  refine ⟨ptr, ?_⟩
  rw [parseUchar2intArr, fileText, List.append_assoc, List.append_assoc, words_run hv le_rfl
    (List.append_ne_nil_of_right_ne_nil _ hend), hwords, all_step hall rfl hend, hptr, List.nil_append]
  rfl

/-- What is written in the format is read back: version, `all` and every section, whatever was in the
    header before. -/
theorem parse_fileText {behind : UInt8} {v : SolomonVersion} {all : ℕ} {secs : List SolomonFw}
    (hv : ∀ n ∈ versionWords v, n < 2 ^ 32) (hall : all < 2 ^ 16) (hsecs : ∀ sec ∈ secs, Representable behind sec)
    (before : SolomonVersion) :
    (parseUchar2intArr behind (fileText v all secs) before).1 = .ok secs ∧
      (parseUchar2intArr behind (fileText v all secs) before).2.fwVersion = v ∧
      (parseUchar2intArr behind (fileText v all secs) before).2.all = all := by
  obtain ⟨ptr, hparse⟩ := parseUchar2intArr_fileText hv hall hsecs before
  rw [hparse]
  exact ⟨rfl, rfl, rfl⟩

/-- A small section: twelve bytes of header and one word. -/
def wordSection : SolomonFw :=
  ⟨0x13000, 14, 1, 0x11, 0x02010201, -1, -1, -1, some (List.replicate 12 0 ++ [0x01, 0x02])⟩

theorem representable_wordSection : Representable 0 wordSection where
  complete := ⟨_, rfl, by decide, by decide, by decide⟩
  address := ⟨by decide, by decide⟩
  byteCnt := ⟨by decide, by decide⟩
  erasePageCnt := ⟨by decide, by decide⟩
  version := ⟨by decide, by decide⟩
  checksum := by decide
  reserved01 := ⟨by decide, by decide⟩
  reserved02 := ⟨by decide, by decide⟩
  reserved03 := ⟨by decide, by decide⟩

theorem parse_fileText_wordSection :
    (parseUchar2intArr 0 (fileText ⟨5, 13, 1, 2, 3, 4⟩ 1 [wordSection]) ⟨0, 0, 0, 0, 0, 0⟩).1 = .ok [wordSection] :=
  (parse_fileText (by decide) (by decide) (fun sec hsec => List.mem_singleton.mp hsec ▸ representable_wordSection)
    ⟨0, 0, 0, 0, 0, 0⟩).1

end GeminiLinux.Solomon
