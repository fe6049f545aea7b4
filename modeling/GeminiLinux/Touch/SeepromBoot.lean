import GeminiLinux.Touch.SeepromHealthy

/-! What boots can rely on. An update that says it succeeded has put every section on the chip. Among its
    sections is the one with the version, so the boots after it find their own version on the chip and
    leave the array alone, however many there are and whatever their transfers do. The version is only
    asked for last: a boot word with an error in it, a checksum that failed or a forced file sends the
    boot to the update whatever the array holds.

        update ──▶ boot ──▶ boot ──▶ boot
          │         │        │        │
          version ══╧════════╧════════╧══  the image's own: nothing to do -/

namespace GeminiLinux.Solomon
open Prog Flash Runs

section Installs

variable {part : Part} {all : ℕ}

variable (part) in
/-- An update leaves no buffer, and where it says that it succeeded the chip has every section, whichever
    calls failed, whichever commands that change the chip were missed and whatever the status reads found
    on the way. -/
theorem update_installs {secs : List SolomonFw} (h : (sizesOf part.id).writeMaxLength ∣ part.page)
    (hlayout : Layout (sizesOf part.id) all secs) (d : Dev) :
    (finalState (seepromFirmwareUpdate part secs all) d).overrun = d.overrun ∧
      (finalState (seepromFirmwareUpdate part secs all) d).overread = d.overread ∧
      (outcome (seepromFirmwareUpdate part secs all) d = .ok () →
        ∀ sec ∈ secs, sec.Installed (finalState (seepromFirmwareUpdate part secs all) d).chip.mem) := by
  have hframe := within_seepromFirmwareUpdate h hlayout.sound d
  exact ⟨hframe.overrun, hframe.overread, fun hok => (seepromFirmwareUpdate_ends h hlayout).final_ok trivial hok⟩

theorem update_installs_emptyTables :
    outcome (seepromFirmwareUpdate mx25u1001e (solomonMakeHeaderUseHead emptyTables).fwGroup bootUpdateAll)
        blankDev = .ok () ∧
      ∀ sec ∈ (solomonMakeHeaderUseHead emptyTables).fwGroup, sec.Installed
        (finalState (seepromFirmwareUpdate mx25u1001e (solomonMakeHeaderUseHead emptyTables).fwGroup bootUpdateAll)
          blankDev).chip.mem :=
  ⟨emptyTables_ok, (update_installs mx25u1001e (by decide) (layout_header emptyTables _ _) blankDev).2.2 emptyTables_ok⟩

end Installs

/-! ### The boot after an update -/

section NextBoot

variable {part : Part} {g : Sizes}

/-- The word that is read behind `FW_CFG`'s start is the one that the header has there. -/
theorem wordOf_stretch {c : HeaderContents} {m : ℕ → UInt8} (h : (sslFwCfg c).Installed m) {i : ℕ} (hi : i + 4 ≤ 0x80) :
    wordOf (stretch m (versionStartAddress + i) 4) = headerWord c i := by
  have hheld : stretch m 0x1c0 c.fwCfg.length = c.fwCfg := h c.fwCfg rfl
  have hbyte (k : ℕ) (hk : i + k < 0x80) : m (versionStartAddress + i + k) = c.fwCfg.getD (i + k) 0 := by
    have hsome : c.fwCfg[i + k]? = some (c.fwCfg.getD (i + k) 0) := by
      rw [List.getD_eq_getElem?_getD, List.getElem?_eq_getElem (by rw [c.length_fwCfg]; exact hk), Option.getD_some]
    rw [Nat.add_assoc]
    exact eq_of_stretch hheld hsome
  have h0 := UInt8.toNat_lt (c.fwCfg.getD i 0)
  have h1 := UInt8.toNat_lt (c.fwCfg.getD (i + 1) 0)
  have h2 := UInt8.toNat_lt (c.fwCfg.getD (i + 2) 0)
  rw [headerWord, or_shiftLeft _ h0, or_shiftLeft (k := 16) _ (by omega), or_shiftLeft _ (by omega), ← hbyte 1 (by omega),
    ← hbyte 2 (by omega), ← hbyte 3 (by omega), ← Nat.add_zero i, ← hbyte 0 (by omega)]
  rfl

/-- A version word is read from the chip or not at all. -/
theorem readVersion_ends (m : ℕ → UInt8) (hread : 0 < g.readMaxLength) {eflashAddr : ℕ}
    (hbound : eflashAddr + 4 ≤ 2 ^ 24) : Ends (·.chip.mem = m) (readVersion part g eflashAddr)
      (fun v d => v = wordOf (stretch m eflashAddr 4) ∧ d.chip.mem = m) fun _ d => d.chip.mem = m :=
  .bind ((readNbyte_ends m hread hbound).retry (fun _ _ h => h) _) fun _ => .pure fun _ hd =>
    ⟨congrArg wordOf hd.1, hd.2⟩

theorem seepromGetVersionBoot_ends {c : HeaderContents} {m : ℕ → UInt8} (hread : 0 < g.readMaxLength)
    (h : (sslFwCfg c).Installed m) : Ends (·.chip.mem = m) (seepromGetVersionBoot part g)
      (fun v d => v = (solomonMakeHeaderUseHead c).fwVersion ∧ d.chip.mem = m) fun _ d => d.chip.mem = m := by
  have hword (i : ℕ) (hi : i + 4 ≤ 0x80) : Ends (·.chip.mem = m) (readVersion part g (versionStartAddress + i))
      (fun v d => v = headerWord c i ∧ d.chip.mem = m) fun _ d => d.chip.mem = m := by
    rw [← wordOf_stretch h hi]
    exact readVersion_ends m hread (by rw [versionStartAddress]; omega)
  refine .bind (hword 0x4c (by omega)) fun v1 => .of_and fun h1 => .bind (hword 0x50 (by omega)) fun v2 =>
    .of_and fun h2 => .bind (hword 0x54 (by omega)) fun v3 => .of_and fun h3 => .bind (hword 0x58 (by omega)) fun v4 =>
    .of_and fun h4 => .bind (hword 0x44 (by omega)) fun v5 => .of_and fun h5 => .bind (hword 0x48 (by omega)) fun v6 =>
    .of_and fun h6 => .pure fun d hd => ⟨?_, hd⟩
  subst h1 h2 h3 h4 h5 h6
  rfl

/-- What a boot meets before the check: what comes back of `ds_read_boot_st` and of `ds_init_code`, the two
    flags that the device holds already, and the bus for the rest. -/
structure Boot where
  bootSt : Except Errno ℕ
  initCode : Except Errno Unit
  checksumFlag : ℕ
  foundForceBinFile : Bool
  i2c : Stream' Xfer

/-- Neither an error bit in the boot word nor a flag asks for an update. -/
structure Boot.Calm (boot : Boot) : Prop where
  bootSt : ∀ bootFlag, boot.bootSt = .ok bootFlag →
    bootFlag &&& bootStatusErrCpucfgAll = 0 ∧ bootFlag &&& bootStatusErrSysCfgFail = 0
  checksumFlag : boot.checksumFlag = 0
  foundForceBinFile : boot.foundForceBinFile = false

/-- `solomon_pre_init` up to the check with the built-in image: without the boot word, the init code or
    the version there is none. -/
def bootHead (part : Part) (c : HeaderContents) (boot : Boot) : DevM ℤ := do
  match boot.bootSt with
  | .error e => throw (.i2c e)
  | .ok bootFlag =>
    match boot.initCode with
    | .error e => throw (.i2c e)
    | .ok _ =>
      let fwVersion ← seepromGetVersionBoot part defaultSizes
      solomonFirmwarePreBootUpCheck part ⟨bootFlag, boot.checksumFlag, boot.foundForceBinFile, fwVersion⟩
        (solomonMakeHeaderUseHead c)

/-- The chip behind such a boot. -/
def chipAfterBoot (part : Part) (c : HeaderContents) (chip : Chip) (boot : Boot) : Chip :=
  (finalState (bootHead part c boot) ⟨chip, boot.i2c, fun _ => 0, false, false⟩).chip

/-- Where the device has the image's own version and nothing else asks for an update, there is none. -/
theorem check_own_version {boot : Boot} (hcalm : boot.Calm) {bootFlag : ℕ} (hflag : boot.bootSt = .ok bootFlag)
    (c : HeaderContents) : solomonFirmwarePreBootUpCheck part
      ⟨bootFlag, boot.checksumFlag, boot.foundForceBinFile, (solomonMakeHeaderUseHead c).fwVersion⟩
        (solomonMakeHeaderUseHead c) = pure (-1) := by
  obtain ⟨hcpu, hsys⟩ := hcalm.bootSt bootFlag hflag
  have hquiet : BootState.update ⟨bootFlag, boot.checksumFlag, boot.foundForceBinFile,
      (solomonMakeHeaderUseHead c).fwVersion⟩ (solomonMakeHeaderUseHead c) = false := by
    simp [BootState.update, hcpu, hsys, hcalm.checksumFlag, hcalm.foundForceBinFile, firmwareVersionCheck_self]
  rw [solomonFirmwarePreBootUpCheck, hquiet]
  rfl

/-- A calm boot that finds its own version, or no version at all, leaves the array alone. -/
theorem chipAfterBoot_mem {c : HeaderContents} {chip : Chip} (h : (sslFwCfg c).Installed chip.mem) {boot : Boot}
    (hcalm : boot.Calm) : (chipAfterBoot part c chip boot).mem = chip.mem := by
  have hboot : Ends (·.chip.mem = chip.mem) (bootHead part c boot) (fun _ d => d.chip.mem = chip.mem)
      fun _ d => d.chip.mem = chip.mem := by
    rw [bootHead]
    cases hflag : boot.bootSt with
    | error e => exact .throw fun _ hd => hd
    | ok bootFlag =>
      cases boot.initCode with
      | error e => exact .throw fun _ hd => hd
      | ok _ =>
        refine .bind (seepromGetVersionBoot_ends (by decide) h) fun v => .of_and ?_
        rintro rfl
        rw [check_own_version hcalm hflag]
        exact .pure fun _ hd => hd
  exact hboot.final rfl

/-- An update by the header is the last one: from a chip that one has succeeded on, no later calm boot with
    the same image erases or programs anything, whatever its calls do. -/
theorem settled (c : HeaderContents) (hpage : (sizesOf part.id).writeMaxLength ∣ part.page) {d : Dev}
    (hok : outcome (seepromFirmwarePreBootUpCheck part (solomonMakeHeaderUseHead c).fwGroup) d = .ok ())
    (boots : List Boot) (hcalm : ∀ boot ∈ boots, boot.Calm) :
    (run (chipAfterBoot part c)
      (finalState (seepromFirmwarePreBootUpCheck part (solomonMakeHeaderUseHead c).fwGroup) d).chip boots).mem =
        (finalState (seepromFirmwarePreBootUpCheck part (solomonMakeHeaderUseHead c).fwGroup) d).chip.mem := by
  have hinstalled : (sslFwCfg c).Installed
      (finalState (seepromFirmwarePreBootUpCheck part (solomonMakeHeaderUseHead c).fwGroup) d).chip.mem :=
    (seepromFirmwareUpdate_ends hpage (layout_header c bootUpdateAll _)).final_ok trivial hok _
      (List.mem_cons_of_mem _ List.mem_cons_self)
  generalize (finalState (seepromFirmwarePreBootUpCheck part (solomonMakeHeaderUseHead c).fwGroup) d).chip = chip
    at hinstalled ⊢
  induction boots generalizing chip with
  | nil => rfl
  | cons boot boots ih =>
    obtain ⟨hhead, hrest⟩ := List.forall_mem_cons.mp hcalm
    have hmem : (chipAfterBoot part c chip boot).mem = chip.mem := chipAfterBoot_mem hinstalled hhead
    rw [run_cons, ih hrest _ (by rw [hmem]; exact hinstalled), hmem]

/-- A boot with nothing wrong, and one whose version is lost on a bus that takes no call. -/
theorem settled_emptyTables : (run (chipAfterBoot mx25u1001e emptyTables)
    (finalState (seepromFirmwarePreBootUpCheck mx25u1001e (solomonMakeHeaderUseHead emptyTables).fwGroup)
      blankDev).chip [⟨.ok 0x8000, .ok (), 0, false, faultless⟩,
        ⟨.ok 0, .ok (), 0, false, Stream'.const ⟨.error .ETIMEDOUT, false, 0⟩⟩]).mem =
    (finalState (seepromFirmwarePreBootUpCheck mx25u1001e (solomonMakeHeaderUseHead emptyTables).fwGroup)
      blankDev).chip.mem :=
  settled emptyTables (by decide) emptyTables_ok _ (by
    intro boot hboot
    rw [List.mem_pair] at hboot
    rcases hboot with rfl | rfl
    · exact ⟨by rintro _ ⟨⟩; decide, rfl, rfl⟩
    · exact ⟨by rintro _ ⟨⟩; decide, rfl, rfl⟩)

end NextBoot

end GeminiLinux.Solomon
