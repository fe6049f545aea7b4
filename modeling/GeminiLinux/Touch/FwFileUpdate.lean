import GeminiLinux.Touch.FwFormat
import GeminiLinux.Touch.SeepromBoot

/-! The update from a file. The file is parsed into the driver's header, and the check at boot goes on with
    that header whatever the parser said: a file that is rejected leaves no section, but it leaves the
    version lines that were read, and with them the check may decide for an update of nothing.

        file ──parse──▶ version, sections ──check──▶ erase, sections
                  └────▶ version, none    ──check──▶ erase -/

namespace GeminiLinux.Solomon
open Prog Flash

/-- `solomon_make_header_use_bin`: what the header has behind it. -/
def solomonMakeHeaderUseBin (behind : UInt8) (data : List UInt8) (fwVersion : SolomonVersion) : SolomonFwGroupHeader :=
  match parseUchar2intArr behind data fwVersion with
  | (.ok secs, s) => ⟨s.fwVersion, secs⟩
  | (.error _, s) => ⟨s.fwVersion, []⟩

/-- `solomon_firmware_pre_boot_up_check_bin`. -/
def solomonFirmwarePreBootUpCheckBin (part : Part) (boot : BootState) (behind : UInt8) (data : List UInt8)
    (fwVersion : SolomonVersion) : DevM ℤ :=
  solomonFirmwarePreBootUpCheck part boot (solomonMakeHeaderUseBin behind data fwVersion)

section Check

variable {part : Part} {m : ℕ → UInt8} {protect : UInt8}

theorem controlSend_ready {P : Chip → Prop} : Ends (Ready P) controlSend (fun _ => Ready P) fun _ _ => False := by
  intro d ⟨hbus, hchip⟩
  have hresult : d.i2c.head.result = .ok () := hbus.result 0
  unfold controlSend
  rw [hresult]
  exact ⟨hbus.tail, hchip⟩

theorem fwSolomonInit_ready {P : Chip → Prop} : Ends (Ready P) fwSolomonInit (fun _ => Ready P) fun _ _ => False := by
  have hwrite : Ends (Ready P) (onError dsEflashWrite fun _ => throw .systemFail) (fun _ => Ready P) fun _ _ => False :=
    .onError (controlSend_ready.retry (fun _ _ h => h.elim) _) fun _ _ h => h.elim
  exact .bind hwrite fun _ => hwrite

/-- The check at boot over a bus that works: the sections on blank ground, or nothing. -/
theorem check_ready (boot : BootState) (fwHeader : SolomonFwGroupHeader)
    (hpage : (sizesOf part.id).writeMaxLength ∣ part.page)
    (hlayout : Layout (sizesOf part.id) bootUpdateAll fwHeader.fwGroup) :
    Ends (Ready (Holds m protect)) (solomonFirmwarePreBootUpCheck part boot fwHeader)
      (fun r d => r = (if boot.update fwHeader then 1 else -1) ∧ d.chip.mem =
        if boot.update fwHeader then fwHeader.fwGroup.foldl placed fun _ => norCell.blank else m)
      fun _ _ => False := by
  rw [solomonFirmwarePreBootUpCheck]
  refine .cases (fun h => ?_) fun h => .pure fun d hd => ?_
  · rw [if_pos h, if_pos h]
    have hupdate : Ends (Ready (Holds m protect)) (seepromFirmwareUpdate part fwHeader.fwGroup bootUpdateAll) _ _ :=
      seepromFirmwareUpdate_ready part hpage hlayout
    have hinit : Ends (Ready (Holds m protect)) (retry fwSolomonInit (fwMaxRetryCount - 1))
        (fun _ => Ready (Holds m protect)) fun _ _ => False := fwSolomonInit_ready.retry (fun _ _ h => h.elim) _
    refine .bind (I := fun _ => Ready (Holds (fwHeader.fwGroup.foldl placed fun _ => norCell.blank) 0x0c))
      (.attempt ((Ends.bind hinit fun _ => hupdate).post (fun _ _ hd => hd) fun _ _ h => h.elim)) fun _ =>
        .pure fun _ hd => ⟨rfl, hd.2.1⟩
  · rw [if_neg h, if_neg h]
    exact ⟨rfl, hd.2.1⟩

end Check

/-- A file that is rejected still takes part in the check: where the version lines in front of the error ask
    for an update, the chip is erased, and nothing is written. Nothing is said of the files that the C has
    no meaning for. -/
theorem rejected_file_erases (part : Part) (hpage : (sizesOf part.id).writeMaxLength ∣ part.page) (boot : BootState)
    {behind : UInt8} {data : List UInt8} {fwVersion : SolomonVersion} {e : ParseErr} (_ : e ≠ .undefined)
    (h : (parseUchar2intArr behind data fwVersion).1 = .error e) (d : Dev) (hbus : Healthy d.i2c) :
    (finalState (solomonFirmwarePreBootUpCheckBin part boot behind data fwVersion) d).chip.mem =
      if boot.update ⟨(parseUchar2intArr behind data fwVersion).2.fwVersion, []⟩ then fun _ => 0xff else d.chip.mem := by
  have hheader : solomonMakeHeaderUseBin behind data fwVersion =
      ⟨(parseUchar2intArr behind data fwVersion).2.fwVersion, []⟩ := by
    rw [solomonMakeHeaderUseBin]
    cases hparse : parseUchar2intArr behind data fwVersion with
    | mk r s =>
      rw [hparse] at h
      cases h
      rfl
  have hlayout : Layout (sizesOf part.id) bootUpdateAll [] :=
    ⟨fun _ h => absurd h List.not_mem_nil, List.Pairwise.nil⟩
  rw [solomonFirmwarePreBootUpCheckBin, hheader]
  obtain ⟨_, -, -, hmem⟩ := (check_ready boot
    ⟨(parseUchar2intArr behind data fwVersion).2.fwVersion, []⟩ hpage hlayout).returns ⟨hbus, rfl, rfl⟩
  exact hmem

/-- A version line and a line that begins with nothing the parser knows. -/
def malformedFile : List UInt8 := lineText 0x24 (hexText 8 9) ++ [0x21, 0x0a, 0x0a]

theorem parse_malformedFile : parseUchar2intArr 0 malformedFile ⟨0, 0, 0, 0, 0, 0⟩ =
    (.error .formatInvalid, ⟨⟨9, 0, 0, 0, 0, 0⟩, 0, 1, [], .none, emptySection⟩) := by
  have hread : readLine [] false [0x21, 0x0a, 0x0a] = ([0x21], [0x0a]) := rfl
  rw [parseUchar2intArr, malformedFile, dollar_step (by decide) (by decide) (List.cons_ne_nil _ _),
    parseLines_line hread (List.cons_ne_nil _ _)]
  rfl

/-- A chip with something on it. -/
def writtenDev : Dev := ⟨⟨fun _ => 0x5a, false, 0, []⟩, faultless, fun _ => 0, false, false⟩

theorem rejected_file_erases_malformedFile :
    (finalState (solomonFirmwarePreBootUpCheckBin mx25v1006e ⟨0, 0, false, ⟨1, 0, 0, 0, 0, 0⟩⟩ 0 malformedFile
      ⟨0, 0, 0, 0, 0, 0⟩) writtenDev).chip.mem = fun _ => 0xff := by
  have h := rejected_file_erases mx25v1006e (by decide) ⟨0, 0, false, ⟨1, 0, 0, 0, 0, 0⟩⟩
    (show ParseErr.formatInvalid ≠ .undefined by decide) (congrArg Prod.fst parse_malformedFile) writtenDev
    healthy_faultless
  rw [parse_malformedFile] at h
  exact h

/-- From a file to the chip: a well laid out image that is written in the format, parsed and checked ends up
    on the chip as it is, or not at all. -/
theorem file_to_flash (part : Part) (hpage : (sizesOf part.id).writeMaxLength ∣ part.page) (boot : BootState)
    {behind : UInt8} {v before : SolomonVersion} {all : ℕ} {secs : List SolomonFw}
    (hv : ∀ n ∈ versionWords v, n < 2 ^ 32) (hall : all < 2 ^ 16) (hsecs : ∀ sec ∈ secs, Representable behind sec)
    (hlayout : Layout (sizesOf part.id) bootUpdateAll secs) (d : Dev) (hbus : Healthy d.i2c) :
    (finalState (solomonFirmwarePreBootUpCheckBin part boot behind (fileText v all secs) before) d).chip.mem =
      if boot.update ⟨v, secs⟩ then secs.foldl placed (fun _ => 0xff) else d.chip.mem := by
  obtain ⟨ptr, hparse⟩ := parseUchar2intArr_fileText hv hall hsecs before
  rw [solomonFirmwarePreBootUpCheckBin, solomonMakeHeaderUseBin, hparse]
  obtain ⟨_, -, -, hmem⟩ := (check_ready boot ⟨v, secs⟩ hpage hlayout).returns ⟨hbus, rfl, rfl⟩
  exact hmem

theorem layout_wordSection : Layout (sizesOf seepromIdMx25u1001e) bootUpdateAll [wordSection] := by
  refine layout_of_footprints _ ?_ (by decide) (by decide)
  intro sec hsec content hlive
  rw [List.mem_singleton] at hsec
  subst hsec
  cases hlive
  rfl

theorem file_to_flash_wordSection :
    (finalState (solomonFirmwarePreBootUpCheckBin mx25u1001e ⟨0, 0, false, ⟨1, 0, 1, 2, 3, 4⟩⟩ 0
      (fileText ⟨5, 13, 1, 2, 3, 4⟩ 1 [wordSection]) ⟨0, 0, 0, 0, 0, 0⟩) writtenDev).chip.mem =
        placed (fun _ => 0xff) wordSection :=
  file_to_flash mx25u1001e (by decide) ⟨0, 0, false, ⟨1, 0, 1, 2, 3, 4⟩⟩ (by decide) (by decide)
    (fun sec hsec => List.mem_singleton.mp hsec ▸ representable_wordSection) layout_wordSection writtenDev
    healthy_faultless

end GeminiLinux.Solomon
