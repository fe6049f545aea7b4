import GeminiLinux.Touch.Firmware
import GeminiLinux.Touch.Seeprom

/-! The update of the SEEPROM. A section is erased, written and verified, each step up to three times; a
    section that fails sends the whole pass round again, but only behind a chip erase: where the sectors
    are erased one by one, `err` still holds the failure when the next pass looks at it.

        init ─▶ unprotect ─▶ [ erase chip ] ─▶ section ─▶ section ─▶ … ─▶ protect
                                   ▲              │ fails
                                   └── 3 passes ──┘

    A section that was verified stays as it is as long as no later one touches its cells: that is the
    layout's business, not the bus's. -/

namespace GeminiLinux.Solomon
open Prog Flash

def fwMaxRetryCount : ℕ := 3
def bootUpdateAll : ℕ := 1

def versionStartAddress : ℕ := 0x01C0
def versionDisplayAddr : ℕ := versionStartAddress + 0x44
def versionHiddenAddr : ℕ := versionStartAddress + 0x48
def productIdAddr1 : ℕ := versionStartAddress + 0x4C
def productIdAddr2 : ℕ := versionStartAddress + 0x50
def icnameAddr1 : ℕ := versionStartAddress + 0x54
def icnameAddr2 : ℕ := versionStartAddress + 0x58

/-! ### The update -/

section Code

variable (part : Part) (g : Sizes)

/-- The sizes before the driver has seen an ID. -/
def defaultSizes : Sizes := ⟨1024, 256, 4096⟩

/-- Whether a section's own sectors are erased. -/
def SolomonFw.erases (sec : SolomonFw) (all : ℕ) : Bool := all != bootUpdateAll && decide (0 < sec.erasePageCnt)

/-- The erase in front of a section. -/
def eraseSection (sec : SolomonFw) (all : ℕ) : DevM Unit :=
  if sec.erases all then
    retry (eraseNsector part g sec.addr sec.erasePageCnt.toNat) (fwMaxRetryCount - 1)
  else pure ()

/-- What an update has to write of a section. -/
def SolomonFw.live (sec : SolomonFw) : Option (List UInt8) := if 0 < sec.byteCnt then sec.content else none

/-- `ds16_seeprom_firmware_update_by_section`. -/
def firmwareUpdateBySection (all : ℕ) (sec : SolomonFw) : DevM Unit :=
  match sec.live with
  | none => pure ()
  | some content => do
    eraseSection part g sec all
    retry (writeNbyte part g sec.addr content sec.byteCnt.toNat) (fwMaxRetryCount - 1)
    retry (verify part g sec.addr content sec.byteCnt.toNat) (fwMaxRetryCount - 1)

/-- The erase in front of a pass; without one, `err` is what the pass before left. -/
def erasePass (all : ℕ) (err : Except Err Unit) : DevM (Except Err Unit) :=
  if all = bootUpdateAll then attempt (retry (eraseChip part) (fwMaxRetryCount - 1)) else pure err

/-- From `retry_all` on, with `retry1` passes left. -/
def retryAll (fwGroup : List SolomonFw) (all : ℕ) : ℕ → Except Err Unit → DevM Unit
  | 0, err => MonadExcept.ofExcept err
  | retry1 + 1, err => do
    match ← erasePass part all err with
    | .error e => throw e
    | .ok _ =>
      match ← attempt (fwGroup.forM (firmwareUpdateBySection part g all)) with
      | .ok _ => pure ()
      | .error e => retryAll fwGroup all retry1 (.error e)

/-- `ds16_seeprom_firmware_update`. -/
def firmwareUpdate (fwGroup : List SolomonFw) (all : ℕ) : DevM Unit :=
  retryAll part g fwGroup all fwMaxRetryCount (.ok ())

/-- `seeprom_firmware_update`; the protection is put back whatever came of the update, and nobody looks
    at what comes of that. -/
def seepromFirmwareUpdate (fwGroup : List SolomonFw) (all : ℕ) : DevM Unit := do
  let g ← seepromDownloadInitialize part
  disableProtect part
  let err ← attempt (firmwareUpdate part g fwGroup all)
  let _ ← attempt (enableProtect part)
  MonadExcept.ofExcept err

/-- `seeprom_firmware_pre_boot_up_check`: the same with `BOOT_UPDATE_ALL`. -/
def seepromFirmwarePreBootUpCheck (fwGroup : List SolomonFw) : DevM Unit :=
  seepromFirmwareUpdate part fwGroup bootUpdateAll

/-! ### The version on the chip -/

/-- An `int` that was read as four bytes. -/
def wordOf (bytes : List UInt8) : ℕ :=
  (bytes.getD 0 0).toNat + 2 ^ 8 * (bytes.getD 1 0).toNat + 2 ^ 16 * (bytes.getD 2 0).toNat +
    2 ^ 24 * (bytes.getD 3 0).toNat

/-- `ds16_seeprom_fw_ds_read_version`, with one try more than the update's steps have. -/
def readVersion (eflashAddr : ℕ) : DevM ℕ := do
  let version ← retry (readNbyte part g eflashAddr 4) fwMaxRetryCount
  return wordOf version

/-- `ds16_seeprom_fw_ds_read_version_all`. -/
def seepromGetVersionBoot : DevM SolomonVersion := do
  let productID01 ← readVersion part g productIdAddr1
  let productID02 ← readVersion part g productIdAddr2
  let icName01 ← readVersion part g icnameAddr1
  let icName02 ← readVersion part g icnameAddr2
  let displayVersion ← readVersion part g versionDisplayAddr
  let hiddenVersion ← readVersion part g versionHiddenAddr
  return { displayVersion, hiddenVersion, productID01, productID02, icName01, icName02 }

/-! ### The check at boot -/

/-- A packet for the controller itself. -/
def controlSend : DevM Unit := fun d =>
  match d.i2c.head.result with
  | .ok _ => .ok () { d with i2c := d.i2c.tail }
  | .error e => .error (.i2c e) { d with i2c := d.i2c.tail }

/-- `ts_write_data`, as `ds_eflash_write` calls it. -/
def dsEflashWrite : DevM Unit := retry controlSend 2

/-- `fw_solomon_init`: the writes of `0x0007` and `0x0048`. -/
def fwSolomonInit : DevM Unit := do
  onError dsEflashWrite fun _ => throw .systemFail
  onError dsEflashWrite fun _ => throw .systemFail

def bootStatusErrCpucfgAll : ℕ := 0x0100 ||| 0x0200 ||| 0x0400
def bootStatusErrSysCfgFail : ℕ := 0x0800

structure SolomonFwGroupHeader where
  fwVersion : SolomonVersion
  fwGroup : List SolomonFw

/-- What the device knows when the check begins: `boot_flag`, `checksum_flag`, `found_force_bin_file` and
    `fw_version`. -/
structure BootState where
  bootFlag : ℕ
  checksumFlag : ℕ
  foundForceBinFile : Bool
  fwVersion : SolomonVersion

/-- Whether the check goes to `update`. -/
def BootState.update (boot : BootState) (fwHeader : SolomonFwGroupHeader) : Bool :=
  decide (0 < boot.bootFlag &&& bootStatusErrCpucfgAll) || decide (0 < boot.bootFlag &&& bootStatusErrSysCfgFail) ||
    decide (0 < boot.checksumFlag) || boot.foundForceBinFile || firmwareVersionCheck boot.fwVersion fwHeader.fwVersion

/-- `solomon_firmware_pre_boot_up_check`: 1 behind every update, however it went. -/
def solomonFirmwarePreBootUpCheck (boot : BootState) (fwHeader : SolomonFwGroupHeader) : DevM ℤ :=
  if boot.update fwHeader then do
    let _ ← attempt do
      retry fwSolomonInit (fwMaxRetryCount - 1)
      seepromFirmwarePreBootUpCheck part fwHeader.fwGroup
    return 1
  else return -1

/-! ### The built-in image -/

/-- The tables of the header file, with the lengths it gives them. -/
structure HeaderContents where
  sysCfg : List UInt8
  fwCfg : List UInt8
  fw : List UInt8
  tmcReg : List UInt8
  fdm : List UInt8
  mpfdm : List UInt8
  length_sysCfg : sysCfg.length = 0xc0
  length_fwCfg : fwCfg.length = 0x80
  length_fw : fw.length = 0x10708
  length_tmcReg : tmcReg.length = 0x264
  length_fdm : fdm.length = 0x1568
  length_mpfdm : mpfdm.length = 0xfac

def sslSysCfg (c : HeaderContents) : SolomonFw :=
  ⟨0x00000000, 0x000000c0, 0x00000001, -1, 0xfea8de00, 0, 0, 0, some c.sysCfg⟩

def sslFwCfg (c : HeaderContents) : SolomonFw :=
  ⟨0x000001c0, 0x00000080, 0x00000000, -1, 0x0b4df359, 0, 0, 0, some c.fwCfg⟩

def sslFw (c : HeaderContents) : SolomonFw :=
  ⟨0x00001000, 0x00010708, 0x00000011, -1, 0xa71de7d9, 0, 0, 0, some c.fw⟩

def sslTmcReg (c : HeaderContents) : SolomonFw :=
  ⟨0x00013000, 0x00000264, 0x00000001, 0x00000011, 0xb53f608f, -1, -1, -1, some c.tmcReg⟩

def sslFdm (c : HeaderContents) : SolomonFw :=
  ⟨0x00016000, 0x00001568, 0x00000002, 0x00000000, 0x318d6f5d, -1, -1, -1, some c.fdm⟩

def sslMpfdm (c : HeaderContents) : SolomonFw :=
  ⟨0x00018000, 0x00000fac, 0x00000001, 0x00000000, 0x04bea636, -1, -1, -1, some c.mpfdm⟩

def sslDcsw : SolomonFw := ⟨0x00015000, 0, 0, 0, 0, 0, 0, 0, none⟩
def sslFpm : SolomonFw := ⟨0x000fffff, 0, 0, 0, 0, 0, 0, 0, none⟩
def sslMpfpm : SolomonFw := ⟨0x000fffff, 0, 0, 0, 0, 0, 0, 0, none⟩

/-- Four bytes of `SSL_FW_CFG`, the lowest one first. -/
def headerWord (c : HeaderContents) (i : ℕ) : ℕ :=
  (c.fwCfg.getD i 0).toNat ||| ((c.fwCfg.getD (i + 1) 0).toNat <<< 8) ||| ((c.fwCfg.getD (i + 2) 0).toNat <<< 16) |||
    ((c.fwCfg.getD (i + 3) 0).toNat <<< 24)

/-- `solomon_make_header_use_head`. -/
def solomonMakeHeaderUseHead (c : HeaderContents) : SolomonFwGroupHeader where
  fwVersion := {
    productID01 := headerWord c 76
    productID02 := headerWord c 80
    icName01 := headerWord c 84
    icName02 := headerWord c 88
    displayVersion := headerWord c 68
    hiddenVersion := headerWord c 72 }
  fwGroup := [sslSysCfg c, sslFwCfg c, sslFw c, sslTmcReg c, sslDcsw, sslFdm c, sslMpfpm, sslMpfdm c, sslFpm]

end Code

/-! ### Where the sections lie -/

section Layout

/-- The cells that a section's content is for. -/
def SolomonFw.range (sec : SolomonFw) : Set ℕ := Set.Ico sec.addr (sec.addr + (sec.live.getD []).length)

/-- The cells that the update of a section may change. -/
def SolomonFw.touched (sec : SolomonFw) (all : ℕ) : Set ℕ :=
  if sec.erases all then sec.range ∪ sectorsOf sec.addr sec.erasePageCnt.toNat else sec.range

/-- A section whose content has the length it says, reaches the end of the first page and lies within
    the addresses that a command can carry, its sectors too. -/
structure Sound (g : Sizes) (all : ℕ) (sec : SolomonFw) : Prop where
  length : ∀ content, sec.live = some content → sec.byteCnt.toNat = content.length
  first : ∀ content, sec.live = some content → firstSendLength g sec.addr ≤ content.length
  bound : ∀ content, sec.live = some content → sec.addr + content.length ≤ 2 ^ 24
  erased : ∀ content, sec.live = some content → sec.erases all → sec.addr + sectorSize * sec.erasePageCnt.toNat ≤ 2 ^ 24

/-- No section touches the content of one before it. -/
structure Layout (g : Sizes) (all : ℕ) (secs : List SolomonFw) : Prop where
  sound : ∀ sec ∈ secs, Sound g all sec
  apart : secs.Pairwise fun sec later => Disjoint sec.range (later.touched all)

/-- The chip has the section's content. -/
def SolomonFw.Installed (sec : SolomonFw) (m : ℕ → UInt8) : Prop :=
  ∀ content, sec.live = some content → stretch m sec.addr content.length = content

theorem range_of_live {sec : SolomonFw} {content : List UInt8} (h : sec.live = some content) :
    sec.range = Set.Ico sec.addr (sec.addr + content.length) := by
  rw [SolomonFw.range, h, Option.getD_some]

theorem range_subset_touched (sec : SolomonFw) (all : ℕ) : sec.range ⊆ sec.touched all := by
  rw [SolomonFw.touched]
  split_ifs
  · exact Set.subset_union_left
  · exact subset_rfl

/-- What is installed stays so while its cells do. -/
theorem Installed.congr {sec : SolomonFw} {m m' : ℕ → UInt8} (h : sec.Installed m) (heq : Set.EqOn m' m sec.range) :
    sec.Installed m' := by
  intro content hlive
  rw [range_of_live hlive] at heq
  rw [stretch_congr heq]
  exact h content hlive

/-- Where a section lies, how long its content is and how many sectors it erases. -/
def SolomonFw.footprint (sec : SolomonFw) : ℕ × ℕ × ℕ :=
  (sec.addr, (sec.live.getD []).length, sec.erasePageCnt.toNat)

/-- A footprint that the commands can reach and whose sectors are its own. -/
def Reachable (g : Sizes) (f : ℕ × ℕ × ℕ) : Prop :=
  (0 < f.2.1 → firstSendLength g f.1 ≤ f.2.1) ∧ f.1 + f.2.1 ≤ 2 ^ 24 ∧
    (0 < f.2.2 → sectorSize ∣ f.1 ∧ f.1 + sectorSize * f.2.2 ≤ 2 ^ 24)

instance (g : Sizes) (f : ℕ × ℕ × ℕ) : Decidable (Reachable g f) := by unfold Reachable; infer_instance

theorem erases_pos {sec : SolomonFw} {all : ℕ} (h : sec.erases all = true) : 0 < sec.erasePageCnt.toNat := by
  rw [SolomonFw.erases, Bool.and_eq_true, decide_eq_true_eq] at h
  omega

theorem live_pos {sec : SolomonFw} {content : List UInt8} (h : sec.live = some content) : 0 < sec.byteCnt := by
  rw [SolomonFw.live] at h
  split_ifs at h with hpos
  exact hpos

/-- Sections in order of their addresses, with a first one of every page that is long enough. -/
theorem layout_of_footprints {g : Sizes} {secs : List SolomonFw} (all : ℕ)
    (hlength : ∀ sec ∈ secs, ∀ content, sec.live = some content → sec.byteCnt.toNat = content.length)
    (hreach : ∀ f ∈ secs.map SolomonFw.footprint, Reachable g f)
    (horder : (secs.map SolomonFw.footprint).Pairwise fun f later => f.2.1 = 0 ∨ f.1 + f.2.1 ≤ later.1) :
    Layout g all secs := by
  have hreach' (sec : SolomonFw) (hsec : sec ∈ secs) : Reachable g sec.footprint :=
    hreach _ (List.mem_map_of_mem hsec)
  refine ⟨fun sec hsec => ⟨hlength sec hsec, ?_, ?_, ?_⟩, ?_⟩
  · intro content hlive
    have hfirst := (hreach' sec hsec).1
    have hpos := live_pos hlive
    have hlen := hlength sec hsec content hlive
    rw [SolomonFw.footprint, hlive] at hfirst
    exact hfirst (show 0 < content.length by omega)
  · intro content hlive
    have hbound := (hreach' sec hsec).2.1
    rw [SolomonFw.footprint, hlive] at hbound
    exact hbound
  · intro content hlive herases
    exact ((hreach' sec hsec).2.2 (erases_pos herases)).2
  · rw [List.pairwise_map] at horder
    refine horder.imp_of_mem fun {sec later} _ hlater h => ?_
    have hstart : later.touched all ⊆ Set.Ici later.addr := by
      rw [SolomonFw.touched]
      split_ifs with herases
      · refine Set.union_subset (fun x hx => hx.1) fun x hx => ?_
        have hsector : sectorSize ∣ later.addr := ((hreach' later hlater).2.2 (erases_pos herases)).1
        have hx' := hx.1
        rwa [Nat.div_mul_cancel hsector] at hx'
      · exact fun x hx => hx.1
    refine Set.disjoint_left.mpr fun x hx hx' => ?_
    have hlow := hstart hx'
    rw [Set.mem_Ici] at hlow
    rw [SolomonFw.range, Set.mem_Ico] at hx
    rcases h with h | h <;> dsimp only [SolomonFw.footprint] at h <;> omega

/-- The sections of the header file, as the update finds them. -/
theorem footprints_header (c : HeaderContents) :
    (solomonMakeHeaderUseHead c).fwGroup.map SolomonFw.footprint =
      [(0, 0xc0, 1), (0x1c0, 0x80, 0), (0x1000, 0x10708, 0x11), (0x13000, 0x264, 1), (0x15000, 0, 0),
        (0x16000, 0x1568, 2), (0xfffff, 0, 0), (0x18000, 0xfac, 1), (0xfffff, 0, 0)] := by
  simp [solomonMakeHeaderUseHead, SolomonFw.footprint, SolomonFw.live, SolomonFw.addr, sslSysCfg, sslFwCfg, sslFw,
    sslTmcReg, sslDcsw, sslFdm, sslMpfpm, sslMpfdm, sslFpm, c.length_sysCfg, c.length_fwCfg, c.length_fw,
    c.length_tmcReg, c.length_fdm, c.length_mpfdm]

/-- The built-in image is laid out well, for either size of a page. -/
theorem layout_header (c : HeaderContents) (all id : ℕ) :
    Layout (sizesOf id) all (solomonMakeHeaderUseHead c).fwGroup := by
  refine layout_of_footprints all ?_ ?_ ?_
  · intro sec hsec content hlive
    simp only [solomonMakeHeaderUseHead, List.mem_cons, List.not_mem_nil, or_false] at hsec
    rcases hsec with rfl | rfl | rfl | rfl | rfl | rfl | rfl | rfl | rfl <;> cases hlive
    · exact c.length_sysCfg.symm
    · exact c.length_fwCfg.symm
    · exact c.length_fw.symm
    · exact c.length_tmcReg.symm
    · exact c.length_fdm.symm
    · exact c.length_mpfdm.symm
  · rw [footprints_header, sizesOf]
    split_ifs <;> decide
  · rw [footprints_header]
    decide

end Layout

/-! ### Whatever the bus does -/

section Safety

variable {part : Part} {g : Sizes} {all : ℕ}

theorem within_eraseSection {sec : SolomonFw} {content : List UInt8} (hfits : Fits g part) (hsound : Sound g all sec)
    (hlive : sec.live = some content) : Within (Touches (sec.touched all)) (eraseSection part g sec all) := by
  rw [eraseSection]
  split_ifs with h
  · refine .retry (within_eraseNsector hfits.sector (hsound.erased content hlive h) ?_) _
    rw [SolomonFw.touched, if_pos h]
    exact Set.subset_union_right
  · exact .pure _

/-- A section's update stays in the section's cells. -/
theorem within_firmwareUpdateBySection {sec : SolomonFw} (hfits : Fits g part) (hsound : Sound g all sec) :
    Within (Touches (sec.touched all)) (firmwareUpdateBySection part g all sec) := by
  rw [firmwareUpdateBySection]
  split
  · exact .pure _
  · rename_i content hlive
    rw [hsound.length content hlive]
    have hrange : Set.Ico sec.addr (sec.addr + content.length) ⊆ sec.touched all :=
      range_of_live hlive ▸ range_subset_touched sec all
    refine .bind (within_eraseSection hfits hsound hlive) fun _ => .bind (.retry ?_ _) fun _ => .retry within_verify _
    exact within_writeNbyte hfits (hsound.first content hlive) (hsound.bound content hlive) hrange

/-- An update of a section that succeeds has installed it. -/
theorem firmwareUpdateBySection_installs {sec : SolomonFw} (hfits : Fits g part) (hsound : Sound g all sec) :
    Establishes (fun _ => True) (firmwareUpdateBySection part g all sec) (fun d => sec.Installed d.chip.mem) := by
  rw [firmwareUpdateBySection]
  split
  · rename_i hlive
    intro d _ _ _ content hcontent
    rw [hlive] at hcontent
    cases hcontent
  · rename_i content hlive
    rw [hsound.length content hlive]
    refine .bind (I := fun _ => True) (fun _ _ _ _ => trivial) fun _ => .bind (I := fun _ => True)
      (fun _ _ _ _ => trivial) fun _ => ?_
    intro d _ _ hok content' hlive'
    cases hlive.symm.trans hlive'
    have hverify : Ends _ (retry (verify part g sec.addr content content.length) (fwMaxRetryCount - 1)) _ _ :=
      (verify_ends d.chip.mem hfits.read_pos (hsound.bound content hlive)).retry (fun _ _ h => h) _
    obtain ⟨hheld, hmem⟩ := hverify.final_ok rfl hok
    rw [hmem]
    exact hheld

/-- A pass that succeeds has installed every section: what comes later leaves it alone. -/
theorem pass_installs {secs : List SolomonFw} (hfits : Fits g part) (hlayout : Layout g all secs) :
    Establishes (fun _ => True) (secs.forM (firmwareUpdateBySection part g all))
      (fun d => ∀ sec ∈ secs, sec.Installed d.chip.mem) := by
  obtain ⟨hsound, hapart⟩ := hlayout
  induction secs with
  | nil => exact fun d _ _ _ sec hsec => absurd hsec List.not_mem_nil
  | cons sec rest ih =>
    rw [List.pairwise_cons] at hapart
    have hsoundRest : ∀ later ∈ rest, Sound g all later := fun later h => hsound later (List.mem_cons_of_mem sec h)
    refine .bind (firmwareUpdateBySection_installs hfits (hsound sec List.mem_cons_self)) fun _ => ?_
    intro d hd a hok later hlater
    rcases List.mem_cons.mp hlater with rfl | hlater
    · -- the cells of the first section, over the rest of the pass
      have hframe : Within (Touches (Set.compl later.range)) (rest.forM (firmwareUpdateBySection part g all)) :=
        within_forM fun next hnext => (within_firmwareUpdateBySection hfits (hsoundRest next hnext)).mono
          fun _ _ h => h.mono (Set.subset_compl_iff_disjoint_left.mpr (hapart.1 next hnext))
      refine Installed.congr hd ?_
      have hkept := (hframe d).mem
      rwa [show (Set.compl later.range)ᶜ = later.range from compl_compl _] at hkept
    · exact ih hsoundRest hapart.2 d trivial a hok later hlater

/-- Behind every update that succeeds lies a pass that did. -/
theorem retryAll_installs {secs : List SolomonFw} (hfits : Fits g part) (hlayout : Layout g all secs) (n : ℕ)
    (err : Except Err Unit) (h : n = 0 → ∃ e, err = .error e) :
    Ends (fun _ => True) (retryAll part g secs all n err) (fun _ d => ∀ sec ∈ secs, sec.Installed d.chip.mem)
      fun _ _ => True := by
  induction n generalizing err with
  | zero =>
    obtain ⟨e, rfl⟩ := h rfl
    exact fun _ _ => trivial
  | succ n ih =>
    refine .bind (I := fun _ _ => True) (.fact _) fun err' => ?_
    rcases err' with e | _
    · exact .throw fun _ _ => trivial
    refine .bind (I := fun r d => r.casesOn (fun _ => True) fun _ => ∀ sec ∈ secs, sec.Installed d.chip.mem)
      (.attempt (pass_installs hfits hlayout).ends) fun r => ?_
    rcases r with e | _
    · exact ih (.error e) fun _ => ⟨e, rfl⟩
    · exact .pure fun _ hd => hd

theorem within_erasePass (err : Except Err Unit) : Within (Touches Set.univ) (erasePass part all err) := by
  rw [erasePass]
  split_ifs
  · exact .attempt (.retry within_eraseChip _)
  · exact .pure _

theorem within_retryAll {secs : List SolomonFw} (hfits : Fits g part) (hsound : ∀ sec ∈ secs, Sound g all sec)
    (n : ℕ) (err : Except Err Unit) : Within (Touches Set.univ) (retryAll part g secs all n err) := by
  induction n generalizing err with
  | zero => exact .ofExcept _
  | succ n ih =>
    refine .bind (within_erasePass err) fun err' => ?_
    rcases err' with e | _
    · exact .throw _
    refine .bind (.attempt (within_forM fun sec hsec => ?_)) fun r => ?_
    · exact (within_firmwareUpdateBySection hfits (hsound sec hsec)).mono fun _ _ h => h.mono (Set.subset_univ _)
    · rcases r with e | _
      · exact ih _
      · exact .pure _

/-- The sizes that the driver sets for a part fit it if its pages hold whole writes. -/
theorem fits_sizesOf (h : (sizesOf part.id).writeMaxLength ∣ part.page) : Fits (sizesOf part.id) part := by
  have hpos : 0 < (sizesOf part.id).readMaxLength ∧ 0 < (sizesOf part.id).writeMaxLength ∧
      20 + (sizesOf part.id).writeMaxLength ≤ bufSize ∧ (sizesOf part.id).alignSector = sectorSize := by
    rw [sizesOf]
    split_ifs <;> decide
  exact ⟨hpos.1, hpos.2.1, h, hpos.2.2.1, hpos.2.2.2⟩

theorem firmwareUpdate_installs {secs : List SolomonFw} (hfits : Fits g part) (hlayout : Layout g all secs) :
    Ends (fun _ => True) (firmwareUpdate part g secs all) (fun _ d => ∀ sec ∈ secs, sec.Installed d.chip.mem)
      fun _ _ => True :=
  retryAll_installs hfits hlayout _ _ fun h => absurd h (by decide)

theorem seepromFirmwareUpdate_ends {secs : List SolomonFw} (h : (sizesOf part.id).writeMaxLength ∣ part.page)
    (hlayout : Layout (sizesOf part.id) all secs) :
    Ends (fun _ => True) (seepromFirmwareUpdate part secs all)
      (fun _ d => ∀ sec ∈ secs, sec.Installed d.chip.mem) fun _ _ => True := by
  have hinit : Ends (fun _ => True) (seepromDownloadInitialize part) (fun g _ => g = sizesOf part.id)
      fun _ _ => True := fun d _ => (seepromDownloadInitialize_ends d.chip.mem).post (fun _ _ hd => hd.1)
        (fun _ _ _ => trivial) d rfl
  refine .bind hinit fun g => ?_
  by_cases hg : g = sizesOf part.id
  · subst hg
    have hupdate : Ends _ (firmwareUpdate part (sizesOf part.id) secs all) _ _ :=
      firmwareUpdate_installs (fits_sizesOf h) hlayout
    refine .bind (I := fun _ _ => True) (fun d _ => by cases disableProtect part d <;> trivial) fun _ =>
      .bind (I := fun r d => r = .ok () → ∀ sec ∈ secs, sec.Installed d.chip.mem)
        (.attempt (hupdate.post (fun _ _ hd _ => hd) fun _ _ _ h => nomatch h)) fun err => ?_
    refine .bind ((mem_ends (fun m => err = .ok () → ∀ sec ∈ secs, sec.Installed m)
      (.attempt (within_enableProtect ∅))).failing fun _ _ _ => trivial) fun _ => .ofExcept ?_ fun _ _ _ _ => trivial
    rintro d ⟨⟩ rfl hd
    exact hd rfl
  · exact fun _ hd => absurd hd hg

theorem within_seepromFirmwareUpdate {secs : List SolomonFw} (h : (sizesOf part.id).writeMaxLength ∣ part.page)
    (hsound : ∀ sec ∈ secs, Sound (sizesOf part.id) all sec) :
    Within (Touches Set.univ) (seepromFirmwareUpdate part secs all) := by
  have hsizes (d : Dev) (g : Sizes) (hg : outcome (seepromDownloadInitialize part) d = .ok g) : g = sizesOf part.id :=
    ((seepromDownloadInitialize_ends d.chip.mem).final_ok rfl hg).1
  refine .bind_of (within_seepromDownloadInitialize _) hsizes fun g hg => .bind (within_disableProtect _) fun _ => ?_
  subst hg
  exact .bind (.attempt (within_retryAll (fits_sizesOf h) hsound _ _)) fun _ =>
    .bind (.attempt (within_enableProtect _)) fun _ => .ofExcept _

end Safety

end GeminiLinux.Solomon
