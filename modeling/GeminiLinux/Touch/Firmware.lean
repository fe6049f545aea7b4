import GeminiLinux.Lib.Runs

/-! The firmware image of the vendor's touch driver: sections with their checksum, and the version that
    decides whether the SEEPROM is written at all. The driver compares what it read from the SEEPROM with
    what the image says of itself. Some pairs are updated whatever the numbers are (`forced`); the other
    ones only if product and IC are the same and the version, display before hidden, goes up.

        installed ──forced──────────────────────────────▶ update
            └──same product and IC──▶ display, hidden up ─▶ update
            └──else ──────────────────────────────────────▶ leave it -/

namespace GeminiLinux.Solomon

def contentHeaderSize : ℤ := 12
def hiddenVersionFactory : ℕ := 0x7f0000f7

/-- `struct solomon_fw`. -/
structure SolomonFw where
  address : ℤ
  byteCnt : ℤ
  erasePageCnt : ℤ
  version : ℤ
  checksum : ℕ
  reserved01 : ℤ
  reserved02 : ℤ
  reserved03 : ℤ
  content : Option (List UInt8)
  deriving DecidableEq

/-- The address as the `u32` that the SEEPROM functions take. -/
def SolomonFw.addr (sec : SolomonFw) : ℕ := (sec.address % 2 ^ 32).toNat

/-! ### The checksum of a section -/

/-- The `len` 16-bit words of `content` from byte `off` on; behind the content lies `behind`. -/
def words (content : List UInt8) (behind : UInt8) (off len : ℕ) : List ℕ :=
  (List.range len).map fun i =>
    (content.getD (off + 2 * i) behind).toNat + 2 ^ 8 * (content.getD (off + 2 * i + 1) behind).toNat

def fwCalcChecksum (tmpContent : List ℕ) : ℕ :=
  let sum := tmpContent.foldl (fun sum w => (sum + w) % 2 ^ 16) 0
  let xor := tmpContent.foldl (· ^^^ ·) 0
  xor * 2 ^ 16 + sum

/-- The sections whose checksum covers their first twelve bytes too. -/
def wholeAddresses : List ℤ := [0x00000000, 0x000001c0, 0x00001000]

/-- `byte_cnt / 2 + (byte_cnt & 0x01)` in C: the quotient goes towards zero. -/
def wordCnt (byteCnt : ℤ) : ℤ := byteCnt.tdiv 2 + byteCnt % 2

/-- Where the checked words of a section begin and how many there are. -/
def checkedPart (sec : SolomonFw) : ℕ × ℕ :=
  if sec.address ∈ wholeAddresses then (0, (wordCnt sec.byteCnt).toNat)
  else (contentHeaderSize.toNat, (wordCnt (sec.byteCnt - contentHeaderSize)).toNat)

/-- `fw_checksum`, of a section whose content is there. -/
def fwChecksum (sec : SolomonFw) (content : List UInt8) (behind : UInt8) : Bool :=
  let (off, len) := checkedPart sec
  sec.checksum == fwCalcChecksum (words content behind off len)

/-! ### The version -/

structure SolomonVersion where
  displayVersion : ℕ
  hiddenVersion : ℕ
  productID01 : ℕ
  productID02 : ℕ
  icName01 : ℕ
  icName02 : ℕ
  deriving DecidableEq

/-- `solomon_firmware_version_check`; `true` where it returns -1, for an update. -/
def firmwareVersionCheck (dev header : SolomonVersion) : Bool :=
  if dev.displayVersion = 0xffffffff ∧ header.displayVersion ≠ 0xffffffff then true
  else if dev.hiddenVersion = hiddenVersionFactory ∧ header.hiddenVersion ≠ hiddenVersionFactory then true
  else if dev.hiddenVersion ≠ hiddenVersionFactory ∧ header.hiddenVersion = hiddenVersionFactory then true
  else if dev.displayVersion = 0x00 ∧ header.displayVersion ≠ 0x00 then true
  else if dev.productID01 ≠ header.productID01 ∨ dev.productID02 ≠ header.productID02 then false
  else if dev.icName01 ≠ header.icName01 ∨ dev.icName02 ≠ header.icName02 then false
  else if dev.displayVersion < header.displayVersion then true
  else if dev.displayVersion = header.displayVersion then
    if dev.hiddenVersion < header.hiddenVersion then true else false
  else false

/-- The pairs that are updated whatever product and numbers say. -/
def Forced (dev header : SolomonVersion) : Prop :=
  dev.displayVersion = 0xffffffff ∧ header.displayVersion ≠ 0xffffffff ∨
    ¬ (dev.hiddenVersion = hiddenVersionFactory ↔ header.hiddenVersion = hiddenVersionFactory) ∨
    dev.displayVersion = 0x00 ∧ header.displayVersion ≠ 0x00

/-- Two images for the same part. -/
def SamePart (v w : SolomonVersion) : Prop :=
  v.productID01 = w.productID01 ∧ v.productID02 = w.productID02 ∧ v.icName01 = w.icName01 ∧
    v.icName02 = w.icName02

/-- Display version before hidden version. -/
def SolomonVersion.rank (v : SolomonVersion) : ℕ ×ₗ ℕ := toLex (v.displayVersion, v.hiddenVersion)

theorem rank_lt_iff (v w : SolomonVersion) : v.rank < w.rank ↔
    v.displayVersion < w.displayVersion ∨
      v.displayVersion = w.displayVersion ∧ v.hiddenVersion < w.hiddenVersion := Prod.Lex.toLex_lt_toLex

/-- What the check decides. -/
theorem firmwareVersionCheck_iff (dev header : SolomonVersion) : firmwareVersionCheck dev header = true ↔
    Forced dev header ∨ SamePart dev header ∧ dev.rank < header.rank := by
  rw [firmwareVersionCheck, rank_lt_iff]
  by_cases hblank : dev.displayVersion = 0xffffffff ∧ header.displayVersion ≠ 0xffffffff
  · rw [if_pos hblank]
    exact iff_of_true rfl (.inl (.inl hblank))
  rw [if_neg hblank]
  by_cases hdev : dev.hiddenVersion = hiddenVersionFactory ∧ header.hiddenVersion ≠ hiddenVersionFactory
  · rw [if_pos hdev]
    exact iff_of_true rfl (.inl (.inr (.inl fun h => hdev.2 (h.mp hdev.1))))
  rw [if_neg hdev]
  by_cases hheader : dev.hiddenVersion ≠ hiddenVersionFactory ∧ header.hiddenVersion = hiddenVersionFactory
  · rw [if_pos hheader]
    exact iff_of_true rfl (.inl (.inr (.inl fun h => hheader.1 (h.mpr hheader.2))))
  rw [if_neg hheader]
  by_cases hzero : dev.displayVersion = 0x00 ∧ header.displayVersion ≠ 0x00
  · rw [if_pos hzero]
    exact iff_of_true rfl (.inl (.inr (.inr hzero)))
  rw [if_neg hzero]
  -- none of the forced cases is left: product, IC and the two numbers decide
  have hforced : ¬ Forced dev header := by
    rintro (h | h | h)
    · exact hblank h
    · exact h ⟨fun h1 => by_contra fun h2 => hdev ⟨h1, h2⟩, fun h2 => by_contra fun h1 => hheader ⟨h1, h2⟩⟩
    · exact hzero h
  rw [or_iff_right hforced]
  by_cases hproduct : dev.productID01 ≠ header.productID01 ∨ dev.productID02 ≠ header.productID02
  · rw [if_pos hproduct]
    refine iff_of_false Bool.false_ne_true fun h => ?_
    rcases hproduct with hne | hne
    · exact hne h.1.1
    · exact hne h.1.2.1
  rw [if_neg hproduct]
  by_cases hic : dev.icName01 ≠ header.icName01 ∨ dev.icName02 ≠ header.icName02
  · rw [if_pos hic]
    refine iff_of_false Bool.false_ne_true fun h => ?_
    rcases hic with hne | hne
    · exact hne h.1.2.2.1
    · exact hne h.1.2.2.2
  rw [if_neg hic]
  push Not at hproduct hic
  have hsame : SamePart dev header := ⟨hproduct.1, hproduct.2, hic.1, hic.2⟩
  rw [and_iff_right hsame]
  split_ifs with hdisplay heq hhidden
  · exact iff_of_true rfl (.inl hdisplay)
  · exact iff_of_true rfl (.inr ⟨heq, hhidden⟩)
  · exact iff_of_false id (by omega)
  · exact iff_of_false id (by omega)

/-- What is installed is never put in its own place. -/
theorem firmwareVersionCheck_self (v : SolomonVersion) : firmwareVersionCheck v v = false := by
  rw [← Bool.not_eq_true, firmwareVersionCheck_iff]
  rintro ((h | h | h) | h)
  · exact h.2 h.1
  · exact h Iff.rfl
  · exact h.2 h.1
  · exact lt_irrefl _ h.2

/-! ### Over many boots -/

open Runs

/-- A boot that finds the image of `header`, and whose update, if there is one, succeeds. -/
def bootWith (installed header : SolomonVersion) : SolomonVersion :=
  if firmwareVersionCheck installed header then header else installed

/-- A version that the check has no rule of its own for. -/
def Regular (v : SolomonVersion) : Prop :=
  v.displayVersion ≠ 0xffffffff ∧ v.displayVersion ≠ 0x00 ∧ v.hiddenVersion ≠ hiddenVersionFactory

instance (v : SolomonVersion) : Decidable (Regular v) := by unfold Regular; infer_instance

theorem not_forced_of_regular {dev header : SolomonVersion} (hdev : Regular dev) (hheader : Regular header) :
    ¬ Forced dev header := by
  rintro (h | h | h)
  · exact hdev.1 h.1
  · exact h (iff_of_false hdev.2.2 hheader.2.2)
  · exact hdev.2.1 h.1

theorem SamePart.refl (v : SolomonVersion) : SamePart v v := ⟨rfl, rfl, rfl, rfl⟩

theorem SamePart.symm {v w : SolomonVersion} (h : SamePart v w) : SamePart w v :=
  ⟨h.1.symm, h.2.1.symm, h.2.2.1.symm, h.2.2.2.symm⟩

theorem SamePart.trans {u v w : SolomonVersion} (h : SamePart u v) (h' : SamePart v w) : SamePart u w :=
  ⟨h.1.trans h'.1, h.2.1.trans h'.2.1, h.2.2.1.trans h'.2.2.1, h.2.2.2.trans h'.2.2.2⟩

/-- One boot: a regular version is replaced by a higher one of the same part, or stays. -/
theorem bootWith_up {installed header : SolomonVersion} (hinstalled : Regular installed)
    (hheader : Regular header) : bootWith installed header = installed ∨
      bootWith installed header = header ∧ SamePart installed header ∧ installed.rank < header.rank := by
  rw [bootWith]
  split_ifs with hcheck
  · rw [firmwareVersionCheck_iff, or_iff_right (not_forced_of_regular hinstalled hheader)] at hcheck
    exact .inr ⟨rfl, hcheck⟩
  · exact .inl rfl

/-- Among regular images there is no way back: over any boots the SEEPROM keeps its product and IC, and
    its version never goes down. -/
theorem never_downgraded (headers : List SolomonVersion) (hheaders : ∀ h ∈ headers, Regular h)
    {installed : SolomonVersion} (hinstalled : Regular installed) :
    SamePart installed (run bootWith installed headers) ∧
      installed.rank ≤ (run bootWith installed headers).rank := by
  induction headers generalizing installed with
  | nil => exact ⟨.refl installed, le_rfl⟩
  | cons header headers ih =>
    have hheader : Regular header := hheaders header List.mem_cons_self
    have hrest : ∀ h ∈ headers, Regular h := fun h hh => hheaders h (List.mem_cons_of_mem _ hh)
    rw [run_cons]
    rcases bootWith_up hinstalled hheader with hstay | ⟨hnew, hpart, hup⟩
    · rw [hstay]
      exact ih hrest hinstalled
    · rw [hnew]
      obtain ⟨hpart', hup'⟩ := ih hrest hheader
      exact ⟨hpart.trans hpart', hup.le.trans hup'⟩

/-- An update and an older image that is left alone. -/
theorem never_downgraded_twice : SamePart ⟨1, 1, 2, 3, 4, 5⟩
      (run bootWith ⟨1, 1, 2, 3, 4, 5⟩ [⟨2, 0, 2, 3, 4, 5⟩, ⟨1, 7, 2, 3, 4, 5⟩]) ∧
    (⟨1, 1, 2, 3, 4, 5⟩ : SolomonVersion).rank ≤
      (run bootWith ⟨1, 1, 2, 3, 4, 5⟩ [⟨2, 0, 2, 3, 4, 5⟩, ⟨1, 7, 2, 3, 4, 5⟩]).rank :=
  never_downgraded [⟨2, 0, 2, 3, 4, 5⟩, ⟨1, 7, 2, 3, 4, 5⟩] (by decide) (by decide)

/-- A blank display version is the highest number a `u32` has. -/
theorem rank_lt_of_blank {v w : SolomonVersion} (hv : v.displayVersion < 2 ^ 32)
    (hne : v.displayVersion ≠ 0xffffffff) (hw : w.displayVersion = 0xffffffff) : v.rank < w.rank := by
  rw [rank_lt_iff]
  omega

/-- A device with `b` takes the blank image `a` for an update if its own display version is zero or the
    part is the same. -/
theorem takes_blank_iff {a b : SolomonVersion} (hb : b.displayVersion < 2 ^ 32)
    (hfactory : a.hiddenVersion = hiddenVersionFactory ↔ b.hiddenVersion = hiddenVersionFactory)
    (hblank : a.displayVersion = 0xffffffff) (hne : b.displayVersion ≠ 0xffffffff) :
    firmwareVersionCheck b a = true ↔ b.displayVersion = 0x00 ∨ SamePart a b := by
  rw [firmwareVersionCheck_iff]
  constructor
  · rintro ((h | h | h) | h)
    · exact absurd h.1 hne
    · exact absurd hfactory.symm h
    · exact .inl h.1
    · exact .inr h.1.symm
  · rintro (h | h)
    · exact .inl (.inr (.inr ⟨h, by omega⟩))
    · exact .inr ⟨h.symm, rank_lt_of_blank hb hne hblank⟩

/-- When two images replace each other for ever: one of them is a factory image and the other is not, or
    one has the blank display version and the other is for the same part or has display version zero. -/
theorem replace_each_other_iff {a b : SolomonVersion} (ha : a.displayVersion < 2 ^ 32)
    (hb : b.displayVersion < 2 ^ 32) :
    firmwareVersionCheck a b = true ∧ firmwareVersionCheck b a = true ↔
      ¬ (a.hiddenVersion = hiddenVersionFactory ↔ b.hiddenVersion = hiddenVersionFactory) ∨
        (a.displayVersion = 0xffffffff ∧ b.displayVersion ≠ 0xffffffff ∧
          (b.displayVersion = 0x00 ∨ SamePart a b)) ∨
        (b.displayVersion = 0xffffffff ∧ a.displayVersion ≠ 0xffffffff ∧
          (a.displayVersion = 0x00 ∨ SamePart a b)) := by
  by_cases hfactory : a.hiddenVersion = hiddenVersionFactory ↔ b.hiddenVersion = hiddenVersionFactory
  · rw [or_iff_right (not_not.mpr hfactory)]
    have hforced (v w : SolomonVersion) (h : v.displayVersion = 0xffffffff) (h' : w.displayVersion ≠ 0xffffffff) :
        firmwareVersionCheck v w = true := (firmwareVersionCheck_iff v w).mpr (.inl (.inl ⟨h, h'⟩))
    by_cases hba : a.displayVersion = 0xffffffff <;> by_cases hbb : b.displayVersion = 0xffffffff
    · -- both blank: neither direction is forced, and they cannot both be higher
      simp only [hba, hbb, ne_eq, not_true_eq_false, false_and, and_false, or_self, iff_false]
      rintro ⟨hab, hba'⟩
      rw [firmwareVersionCheck_iff] at hab hba'
      rcases hab with (h | h | h) | h
      · exact h.2 hbb
      · exact h hfactory
      · omega
      · rcases hba' with (h' | h' | h') | h'
        · exact h'.2 hba
        · exact h' hfactory.symm
        · omega
        · exact lt_asymm h.2 h'.2
    · rw [and_iff_right (hforced a b hba hbb), takes_blank_iff hb hfactory hba hbb]
      simp only [hba, hbb, true_and, ne_eq, not_false_eq_true, false_and, or_false]
    · rw [and_iff_left (hforced b a hbb hba), takes_blank_iff ha hfactory.symm hbb hba]
      simp only [hba, hbb, true_and, ne_eq, not_false_eq_true, false_and, false_or]
      exact or_congr_right ⟨SamePart.symm, SamePart.symm⟩
    · -- none blank: a zero is only ever replaced, and the numbers go up one way only
      simp only [hba, hbb, false_and, or_self, iff_false]
      rintro ⟨hab, hba'⟩
      rw [firmwareVersionCheck_iff, rank_lt_iff] at hab hba'
      rcases hab with (h | h | h) | h
      · exact hba h.1
      · exact h hfactory
      · rcases hba' with (h' | h' | h') | h'
        · exact hbb h'.1
        · exact h' hfactory.symm
        · exact h.2 h'.1
        · omega
      · rcases hba' with (h' | h' | h') | h'
        · exact hbb h'.1
        · exact h' hfactory.symm
        · omega
        · omega
  · refine iff_of_true ⟨?_, ?_⟩ (.inl hfactory)
    · exact (firmwareVersionCheck_iff a b).mpr (.inl (.inr (.inl hfactory)))
    · exact (firmwareVersionCheck_iff b a).mpr (.inl (.inr (.inl fun h => hfactory h.symm)))

/-- A factory image and a later one of another part. -/
theorem replace_each_other_iff_factory :
    firmwareVersionCheck ⟨5, hiddenVersionFactory, 1, 1, 1, 1⟩ ⟨6, 0, 2, 2, 2, 2⟩ = true ∧
      firmwareVersionCheck ⟨6, 0, 2, 2, 2, 2⟩ ⟨5, hiddenVersionFactory, 1, 1, 1, 1⟩ = true :=
  (replace_each_other_iff (a := ⟨5, hiddenVersionFactory, 1, 1, 1, 1⟩) (b := ⟨6, 0, 2, 2, 2, 2⟩) (by decide)
    (by decide)).mpr (.inl (by decide))

end GeminiLinux.Solomon
