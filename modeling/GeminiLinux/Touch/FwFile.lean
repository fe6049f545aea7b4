import GeminiLinux.Lib.Digits
import GeminiLinux.Lib.Prog
import GeminiLinux.Touch.Firmware

/-! The firmware file of the vendor's touch driver. Lines of text with blanks and comments taken out; a `$`
    line is one word of the version, a `#` line begins a section, and `*` lines give its fields one after
    another. Behind the last field stands the content as bytes, and then lines again.

        $display $hidden $product $product $ic $ic $ $ $all
        #address *bytes *erase *version *checksum *reserved *reserved *reserved <bytes>
        #address *bytes …

    The line that reaches the end of the file is not looked at, so a file that ends within a section is
    accepted, with that section as far as it came. -/

namespace GeminiLinux.Solomon
open Prog

/-- `buff`'s size. -/
def lineSize : ℕ := 128

/-- What a file is rejected with, and `undefined` for the files that the C has no meaning for: a line
    without an end, a number of more digits than a word has, a content that leaves the data. -/
inductive ParseErr where
  | notHex
  | headerDataInvalidLength
  | formatInvalid
  | dataCntFail
  | checksumFail
  | undefined
  deriving DecidableEq

/-- `enum VAL_LEVEL`. -/
inductive Level where
  | none | address | length | eraseSize | version | checksum | reserve01 | reserve02
  deriving DecidableEq

/-- What the parser has read: the version and `all`, which stay whatever follows, how many `$` lines there
    were, the sections in front of `ptr`'s, and `ptr`, which is the last one while `level` is not `none`. -/
structure FwState where
  fwVersion : SolomonVersion
  all : ℕ
  dollarCnt : ℕ
  finished : List SolomonFw
  level : Level
  ptr : SolomonFw

/-- The list from `head` on. -/
def FwState.sections (s : FwState) : List SolomonFw :=
  if s.level = .none then s.finished else s.finished ++ [s.ptr]

abbrev FwM := EStateM ParseErr FwState

/-! ### Numbers -/

def hexDigit (c : UInt8) : Option ℕ :=
  if 0x30 ≤ c ∧ c ≤ 0x39 then some (c.toNat - 0x30)
  else if 0x41 ≤ c ∧ c ≤ 0x46 then some (c.toNat - 0x37)
  else if 0x61 ≤ c ∧ c ≤ 0x66 then some (c.toNat - 0x57)
  else none

/-- `conv_hex_str2int` from a digit on; a shift by 32 or more has no meaning. -/
def convFrom (iRet : ℕ) : List UInt8 → Except ParseErr ℕ
  | [] => .ok iRet
  | c :: rest =>
    match hexDigit c with
    | none => .error .notHex
    | some temp =>
      if 8 ≤ rest.length then .error .undefined
      else convFrom ((iRet + temp <<< (4 * rest.length)) % 2 ^ 32) rest

def convHexStr2int (hex : List UInt8) : Except ParseErr ℕ := convFrom 0 hex

/-- An `unsigned int` in an `int`. -/
def toInt (n : ℕ) : ℤ := if n < 2 ^ 31 then n else n - 2 ^ 32

/-! ### Lines -/

/-- The inner loop: the bytes that stay of a line, and what is left of the data. -/
def readLine (buff : List UInt8) (bComment : Bool) : List UInt8 → List UInt8 × List UInt8
  | [] => (buff, [])
  | ch :: data =>
    if buff.length < lineSize then
      if ch = 0x0a then (buff, data)
      else if ch = 0x0d ∨ ch = 0x09 ∨ ch = 0x20 then readLine buff bComment data
      else if ch = 0x3b then readLine buff true data
      else if bComment then readLine buff bComment data
      else readLine (buff ++ [ch]) bComment data
    else (buff, ch :: data)

/-- The text of the line up to its first zero, `strlen` bytes. -/
def textOf (buff : List UInt8) : List UInt8 := buff.takeWhile (· != 0)

/-- A line that fills `buff` without a zero in it has no end for `strlen` to find. -/
def Unended (buff : List UInt8) : Prop := lineSize ≤ buff.length ∧ 0 ∉ buff

instance (buff : List UInt8) : Decidable (Unended buff) := by unfold Unended; infer_instance

/-- The version words by the number of their `$` line. -/
def setVersion (v : SolomonVersion) (dollarCnt iRet : ℕ) : SolomonVersion :=
  match dollarCnt with
  | 1 => { v with displayVersion := iRet }
  | 2 => { v with hiddenVersion := iRet }
  | 3 => { v with productID01 := iRet }
  | 4 => { v with productID02 := iRet }
  | 5 => { v with icName01 := iRet }
  | 6 => { v with icName02 := iRet }
  | _ => v

/-- A `$` line. The ninth one gives `all` in exactly four digits; no other has a meaning. -/
def dollarLine (buff : List UInt8) : FwM Unit := do
  modify fun s => { s with dollarCnt := s.dollarCnt + 1 }
  let s ← get
  if s.dollarCnt ≤ 6 then
    let iRet ← MonadExcept.ofExcept (convHexStr2int (textOf buff).tail)
    modify fun s => { s with fwVersion := setVersion s.fwVersion s.dollarCnt iRet }
  else if s.dollarCnt = 9 then
    let iRet ← MonadExcept.ofExcept (convHexStr2int ((List.range 4).map fun i => buff.getD (i + 1) 0))
    modify fun s => { s with all := iRet }
  else pure ()

/-- What a section is before its first line. -/
def emptySection : SolomonFw := ⟨0, 0, 0, 0, 0, 0, 0, 0, none⟩

/-- A `#` line. -/
def addressLine (buff : List UInt8) : FwM Unit := do
  if (textOf buff).tail = [] then throw .headerDataInvalidLength
  let s ← get
  if s.level ≠ .none then throw .formatInvalid
  let iRet ← MonadExcept.ofExcept (convHexStr2int (textOf buff).tail)
  modify fun s => { s with level := .address, ptr := { emptySection with address := toInt iRet } }

/-- Where the content of a section stands in the data; a copy that leaves them has no meaning. -/
def takeContent (byteCnt : ℤ) (data : List UInt8) : Except ParseErr (List UInt8) :=
  if byteCnt.toNat ≤ data.length then .ok (data.take byteCnt.toNat) else .error .undefined

/-- The field that `level` is waiting for; behind the last one the content is taken from the data, as many
    bytes as the result says. -/
def setField (behind : UInt8) (data : List UInt8) (iRet : ℕ) : FwM ℕ := do
  let s ← get
  match s.level with
  | .none => throw .formatInvalid
  | .address =>
    if toInt iRet < 1 then throw .dataCntFail
    modify fun s => { s with level := .length, ptr := { s.ptr with byteCnt := toInt iRet } }
    return 0
  | .length =>
    modify fun s => { s with level := .eraseSize, ptr := { s.ptr with erasePageCnt := toInt iRet } }
    return 0
  | .eraseSize =>
    modify fun s => { s with level := .version, ptr := { s.ptr with version := toInt iRet } }
    return 0
  | .version =>
    modify fun s => { s with level := .checksum, ptr := { s.ptr with checksum := iRet } }
    return 0
  | .checksum =>
    modify fun s => { s with level := .reserve01, ptr := { s.ptr with reserved01 := toInt iRet } }
    return 0
  | .reserve01 =>
    modify fun s => { s with level := .reserve02, ptr := { s.ptr with reserved02 := toInt iRet } }
    return 0
  | .reserve02 =>
    let content ← MonadExcept.ofExcept (takeContent s.ptr.byteCnt data)
    let sec := { s.ptr with reserved03 := toInt iRet, content := some content }
    if fwChecksum sec content behind then
      modify fun s => { s with level := .none, finished := s.finished ++ [sec] }
      return content.length
    else throw .checksumFail

/-- A `*` line, with the data behind it. -/
def fieldLine (behind : UInt8) (buff data : List UInt8) : FwM ℕ := do
  if (textOf buff).tail = [] then throw .headerDataInvalidLength
  let s ← get
  if s.level = .none then throw .formatInvalid
  let iRet ← MonadExcept.ofExcept (convHexStr2int (textOf buff).tail)
  setField behind data iRet

/-- One line, and how much of the data behind it was taken. -/
def parseLine (behind : UInt8) (buff data : List UInt8) : FwM ℕ :=
  if Unended buff then throw .undefined
  else
    match textOf buff with
    | [] => pure 0
    | ch :: _ =>
      if ch = 0x24 then do
        dollarLine buff
        return 0
      else if ch = 0x23 then do
        addressLine buff
        return 0
      else if ch = 0x2a then fieldLine behind buff data
      else throw .formatInvalid

/-- A line takes at least one byte of what there is. -/
theorem readLine_shorter (buff : List UInt8) (bComment : Bool) (data : List UInt8) (hbuff : buff.length < lineSize)
    (hdata : data ≠ []) : (readLine buff bComment data).2.length < data.length := by
  have hle (data buff : List UInt8) (bComment : Bool) : (readLine buff bComment data).2.length ≤ data.length := by
    induction data generalizing buff bComment with
    | nil => exact le_rfl
    | cons ch data ih =>
      rw [readLine]
      split_ifs <;> simp only [List.length_cons] <;> first | omega | exact (ih _ _).trans (Nat.le_succ _)
  cases data with
  | nil => exact absurd rfl hdata
  | cons ch data =>
    rw [readLine, if_pos hbuff, List.length_cons]
    split_ifs <;> first | exact Nat.lt_succ_self _ | exact Nat.lt_succ_of_le (hle _ _ _)

/-- `parse_uchar2int_arr`, from a line on. -/
def parseLines (behind : UInt8) (data : List UInt8) : FwM Unit :=
  match _ : readLine [] false data with
  | (_, []) => pure ()
  | (buff, ch :: rest) => do
    let taken ← parseLine behind buff (ch :: rest)
    parseLines behind ((ch :: rest).drop taken)
termination_by data.length
decreasing_by
  rename_i hline
  have hdata : data ≠ [] := by
    rintro rfl
    cases hline
  have hlt := readLine_shorter [] false data (by decide) hdata
  rw [hline] at hlt
  exact lt_of_le_of_lt (by simp) hlt

section Lines

variable {behind : UInt8} {data buff rest : List UInt8}

theorem parseLines_end (h : readLine [] false data = (buff, [])) : parseLines behind data = pure () := by
  rw [parseLines]
  split
  · rfl
  · rename_i heq
    cases h.symm.trans heq

theorem parseLines_line (h : readLine [] false data = (buff, rest)) (hrest : rest ≠ []) : parseLines behind data =
    parseLine behind buff rest >>= fun taken => parseLines behind (rest.drop taken) := by
  rw [parseLines]
  split
  · rename_i heq
    cases h.symm.trans heq
    exact absurd rfl hrest
  · rename_i heq
    cases h.symm.trans heq
    rfl

end Lines

/-- `parse_uchar2int_arr`: the sections, none of them behind an error, and the version as far as it was
    read either way. -/
def parseUchar2intArr (behind : UInt8) (data : List UInt8) (fwVersion : SolomonVersion) :
    Except ParseErr (List SolomonFw) × FwState :=
  match parseLines behind data ⟨fwVersion, 0, 0, [], .none, emptySection⟩ with
  | .ok _ s => (.ok s.sections, s)
  | .error e s => (.error e, s)

/-! ### What is accepted -/

section Accepted

variable {behind : UInt8}

/-- A section that has all of its content, with the checksum it says. -/
def Complete (behind : UInt8) (sec : SolomonFw) : Prop :=
  ∃ content, sec.content = some content ∧ 1 ≤ sec.byteCnt ∧ sec.byteCnt.toNat = content.length ∧
    fwChecksum sec content behind = true

/-- What holds between two lines. -/
structure WellRead (behind : UInt8) (s : FwState) : Prop where
  finished : ∀ sec ∈ s.finished, Complete behind sec
  content : s.level ≠ .none → s.ptr.content = none
  byteCnt : s.level ≠ .none → s.level ≠ .address → 1 ≤ s.ptr.byteCnt

/-- A program that leaves the sections alone. -/
theorem wellRead_modify {α : Type} {f : FwState → FwState} {Q : α → FwState → Prop} {p : FwM α}
    (hf : ∀ s, WellRead behind s → WellRead behind (f s)) (h : Ends (WellRead behind) p Q fun _ _ => True) :
    Ends (WellRead behind) (modify f >>= fun _ => p) Q fun _ _ => True :=
  .bind (.modify hf) fun _ => h

theorem dollarLine_wellRead (buff : List UInt8) :
    Ends (WellRead behind) (dollarLine buff) (fun _ => WellRead behind) fun _ _ => True := by
  have hsame (f : FwState → FwState) (h : ∀ s, (f s).finished = s.finished ∧ (f s).level = s.level ∧ (f s).ptr = s.ptr)
      (s : FwState) (hs : WellRead behind s) : WellRead behind (f s) := by
    obtain ⟨hfinished, hlevel, hptr⟩ := h s
    exact ⟨hfinished ▸ hs.finished, by rw [hlevel, hptr]; exact hs.content, by rw [hlevel, hptr]; exact hs.byteCnt⟩
  refine wellRead_modify (hsame _ fun _ => ⟨rfl, rfl, rfl⟩) (.read fun s hs => ?_)
  split_ifs
  · exact .bind (I := fun _ => WellRead behind) (.ofExcept (fun _ _ _ h => h ▸ hs) fun _ _ _ _ => trivial) fun iRet =>
      .modify (hsame _ fun _ => ⟨rfl, rfl, rfl⟩)
  · exact .bind (I := fun _ => WellRead behind) (.ofExcept (fun _ _ _ h => h ▸ hs) fun _ _ _ _ => trivial) fun iRet =>
      .modify (hsame _ fun _ => ⟨rfl, rfl, rfl⟩)
  · exact .pure fun _ h => h ▸ hs

theorem addressLine_wellRead (buff : List UInt8) :
    Ends (WellRead behind) (addressLine buff) (fun _ => WellRead behind) fun _ _ => True := by
  refine .cases (fun _ => .throw fun _ _ => trivial) fun _ => .read fun s hs => ?_
  refine .cases (fun _ => .throw fun _ _ => trivial) fun _ => ?_
  refine .bind (I := fun _ => WellRead behind) (.ofExcept (fun _ _ _ h => h ▸ hs) fun _ _ _ _ => trivial) fun iRet =>
    .modify fun s' hs' => ⟨hs'.finished, fun _ => rfl, fun _ h => absurd rfl h⟩

/-- A field that goes into `ptr`. -/
theorem field_wellRead {f : FwState → FwState} {s : FwState} (h : WellRead behind (f s)) :
    Ends (· = s) (do modify f; return 0 : FwM ℕ) (fun _ => WellRead behind) fun _ _ => True :=
  .bind (I := fun _ => WellRead behind) (.modify fun _ heq => heq ▸ h) fun _ => .pure fun _ hs => hs

/-- Behind the length of a section neither it nor the content changes before the last field. -/
theorem wellRead_next {s : FwState} (hs : WellRead behind s) (hnone : s.level ≠ .none) (haddress : s.level ≠ .address)
    {level : Level} {ptr : SolomonFw} (hcontent : ptr.content = s.ptr.content) (hcnt : ptr.byteCnt = s.ptr.byteCnt) :
    WellRead behind { s with level := level, ptr := ptr } :=
  ⟨hs.finished, fun _ => hcontent.trans (hs.content hnone), fun _ _ => hcnt ▸ hs.byteCnt hnone haddress⟩

theorem setField_wellRead (data : List UInt8) (iRet : ℕ) :
    Ends (WellRead behind) (setField behind data iRet) (fun _ => WellRead behind) fun _ _ => True := by
  refine .read fun s hs => ?_
  have hlater (hnone : s.level ≠ .none) (h : s.level ≠ .address) : 1 ≤ s.ptr.byteCnt := hs.byteCnt hnone h
  cases hlevel : s.level with
  | none => exact .throw fun _ _ => trivial
  | address =>
    refine .cases (fun _ => .throw fun _ _ => trivial) fun hpos => field_wellRead ⟨hs.finished, fun _ => ?_, fun _ _ => ?_⟩
    · exact hs.content (by simp [hlevel])
    · exact not_lt.mp hpos
  | length => exact field_wellRead (wellRead_next hs (by simp [hlevel]) (by simp [hlevel]) rfl rfl)
  | eraseSize => exact field_wellRead (wellRead_next hs (by simp [hlevel]) (by simp [hlevel]) rfl rfl)
  | version => exact field_wellRead (wellRead_next hs (by simp [hlevel]) (by simp [hlevel]) rfl rfl)
  | checksum => exact field_wellRead (wellRead_next hs (by simp [hlevel]) (by simp [hlevel]) rfl rfl)
  | reserve01 => exact field_wellRead (wellRead_next hs (by simp [hlevel]) (by simp [hlevel]) rfl rfl)
  | reserve02 =>
    have hpos := hlater (by simp [hlevel]) (by simp [hlevel])
    refine .bind (I := fun content s' => s' = s ∧ content.length = s.ptr.byteCnt.toNat) (.ofExcept ?_
      fun _ _ _ _ => trivial) fun content => ?_
    · rintro s' content hcontent rfl
      rw [takeContent] at hcontent
      split_ifs at hcontent with hlen
      cases hcontent
      exact ⟨rfl, List.length_take_of_le hlen⟩
    · refine .cases (fun hsum => ?_) fun _ => .throw fun _ _ => trivial
      refine .bind (I := fun _ => WellRead behind) (.modify ?_) fun _ => .pure fun _ hs' => hs'
      rintro s' ⟨rfl, hlen⟩
      refine ⟨fun sec hsec => ?_, fun h => absurd rfl h, fun h => absurd rfl h⟩
      rcases List.mem_append.mp hsec with hsec | hsec
      · exact hs.finished sec hsec
      · rw [List.mem_singleton] at hsec
        subst hsec
        exact ⟨content, rfl, hpos, hlen.symm, hsum⟩

theorem fieldLine_wellRead (buff data : List UInt8) :
    Ends (WellRead behind) (fieldLine behind buff data) (fun _ => WellRead behind) fun _ _ => True := by
  refine .cases (fun _ => .throw fun _ _ => trivial) fun _ => .read fun s hs => ?_
  refine .cases (fun _ => .throw fun _ _ => trivial) fun _ => ?_
  exact .bind (I := fun _ => WellRead behind) (.ofExcept (fun _ _ _ h => h ▸ hs) fun _ _ _ _ => trivial) fun iRet =>
    setField_wellRead data iRet

theorem parseLine_wellRead (buff data : List UInt8) :
    Ends (WellRead behind) (parseLine behind buff data) (fun _ => WellRead behind) fun _ _ => True := by
  refine .cases (fun _ => .throw fun _ _ => trivial) fun _ => ?_
  cases textOf buff with
  | nil => exact .pure fun _ hs => hs
  | cons ch text =>
    refine .cases (fun _ => .bind (dollarLine_wellRead buff) fun _ => .pure fun _ hs => hs) fun _ => ?_
    refine .cases (fun _ => .bind (addressLine_wellRead buff) fun _ => .pure fun _ hs => hs) fun _ => ?_
    exact .cases (fun _ => fieldLine_wellRead buff data) fun _ => .throw fun _ _ => trivial

theorem parseLines_wellRead (data : List UInt8) :
    Ends (WellRead behind) (parseLines behind data) (fun _ => WellRead behind) fun _ _ => True := by
  induction data using parseLines.induct with
  | case1 data buff h =>
    rw [parseLines_end h]
    exact .pure fun _ hs => hs
  | case2 data buff ch rest h ih =>
    rw [parseLines_line h (List.cons_ne_nil ch rest)]
    exact .bind (parseLine_wellRead buff _) fun taken => ih taken

/-- What the parser accepts is complete sections, each with the checksum it says, and at most one more at
    the end, which has no content. -/
theorem accepted_complete (data : List UInt8) (fwVersion : SolomonVersion) {secs : List SolomonFw}
    (h : (parseUchar2intArr behind data fwVersion).1 = .ok secs) :
    ∃ complete begun, secs = complete ++ begun ∧ begun.length ≤ 1 ∧ (∀ sec ∈ complete, Complete behind sec) ∧
      ∀ sec ∈ begun, sec.content = none := by
  have hinit : WellRead behind ⟨fwVersion, 0, 0, [], .none, emptySection⟩ :=
    ⟨fun _ h => absurd h List.not_mem_nil, fun h => absurd rfl h, fun h => absurd rfl h⟩
  have hread := parseLines_wellRead data _ hinit
  rw [parseUchar2intArr] at h
  cases hrun : parseLines behind data ⟨fwVersion, 0, 0, [], .none, emptySection⟩ with
  | error e s =>
    rw [hrun] at h
    cases h
  | ok _ s =>
    rw [hrun] at h hread
    cases h
    rw [FwState.sections]
    split_ifs with hlevel
    · exact ⟨s.finished, [], by rw [List.append_nil], by simp, hread.finished, fun _ h => absurd h List.not_mem_nil⟩
    · refine ⟨s.finished, [s.ptr], rfl, le_rfl, hread.finished, fun sec hsec => ?_⟩
      rw [List.mem_singleton] at hsec
      rw [hsec]
      exact hread.content hlevel

/-- The file `"#1\n\n"` ends within its only section. -/
theorem parse_begun : (parseUchar2intArr 0 [0x23, 0x31, 0x0a, 0x0a] ⟨0, 0, 0, 0, 0, 0⟩).1 =
    .ok [{ emptySection with address := 1 }] := by
  have hread : readLine [] false [0x23, 0x31, 0x0a, 0x0a] = ([0x23, 0x31], [0x0a]) := rfl
  have hend : readLine [] false [0x0a] = ([], []) := rfl
  have hline : parseLine 0 [0x23, 0x31] [0x0a] ⟨⟨0, 0, 0, 0, 0, 0⟩, 0, 0, [], .none, emptySection⟩ =
      .ok 0 ⟨⟨0, 0, 0, 0, 0, 0⟩, 0, 0, [], .address, { emptySection with address := 1 }⟩ := rfl
  rw [parseUchar2intArr, parseLines_line hread (List.cons_ne_nil _ _), bind_apply, hline]
  dsimp only
  rw [List.drop_zero, parseLines_end hend]
  rfl

theorem accepted_complete_begun : ∃ complete begun, [{ emptySection with address := 1 }] = complete ++ begun ∧
    begun.length ≤ 1 ∧ (∀ sec ∈ complete, Complete 0 sec) ∧ ∀ sec ∈ begun, sec.content = none :=
  accepted_complete [0x23, 0x31, 0x0a, 0x0a] ⟨0, 0, 0, 0, 0, 0⟩ parse_begun

end Accepted

end GeminiLinux.Solomon
