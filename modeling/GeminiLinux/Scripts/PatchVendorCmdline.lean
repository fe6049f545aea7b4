import GeminiLinux.Lib.Utf8
import GeminiLinux.Scripts.PackBootImg

/-! `patch-vendor-cmdline.py`: a boot image with a text appended to the command line of its header.

        0        64                            576       608
        | ...... | cmdline, NUL, anything .... | ids ... | ...
                 | cmdline ' ' text, NUL ..... |

    The tool keeps its own offset and length for the field; `pack-boot-img.py` copies the field as it is.
    So the two write the same file in either order. But `pack-boot-img.py` prints the field in the end, and
    does not stop at the NUL: with no text behind it, it exits with 1 if it is run first. -/

namespace GeminiLinux.PatchVendorCmdline
open Bytes Utf8
open PackBootImg hiding magic

def cmdlineOff : ℕ := 64
def cmdlineLen : ℕ := 512

/-- The two calls of `sys.exit`, and the `UnicodeDecodeError` of a command line that is not UTF-8. -/
inductive PatchError where
  | notAndroid
  | unicodeDecode
  | tooLong (len : ℕ)
  deriving DecidableEq

/-- `b"ANDROID!"`. -/
def magic : List UInt8 := [0x41, 0x4e, 0x44, 0x52, 0x4f, 0x49, 0x44, 0x21]

/-- `field.split(b"\x00", 1)[0]`. -/
def untilNul (field : List UInt8) : List UInt8 := field.takeWhile (· ≠ 0)

/-- From the old contents of the field to the new ones. -/
def newField (field : List UInt8) (append : String) : Except PatchError (List UInt8) :=
  match decode (untilNul field) with
  | none => .error .unicodeDecode
  | some old =>
    let new := encode (old ++ " " ++ append)
    if new.length ≥ cmdlineLen then .error (.tooLong new.length)
    else .ok (new ++ List.replicate (cmdlineLen - new.length) 0)

/-- `main`, from the contents of the input and the text to the file written. -/
def patchCmdline (data : List UInt8) (append : String) : Except PatchError (List UInt8) := do
  if slice data 0 8 ≠ magic then throw .notAndroid
  else do
    let newfield ← newField (slice data cmdlineOff (cmdlineOff + cmdlineLen)) append
    return sliceAssign data cmdlineOff (cmdlineOff + cmdlineLen) newfield

/-! ### Writing a field in place -/

section SliceAssign

variable {l v w : List UInt8} {a b : ℕ} (hab : a ≤ b) (hb : b ≤ l.length) (hv : v.length = b - a)
include hab hb hv

theorem length_sliceAssign : (sliceAssign l a b v).length = l.length := by
  rw [sliceAssign, List.length_append, List.length_append, List.length_take, List.length_drop]
  omega

theorem getElem?_sliceAssign (i : ℕ) :
    (sliceAssign l a b v)[i]? = if a ≤ i ∧ i < b then v[i - a]? else l[i]? := by
  have hlen : (l.take a).length = a := by
    rw [List.length_take]
    omega
  rw [sliceAssign, List.append_assoc, List.getElem?_append, hlen, List.getElem?_append, List.getElem?_drop,
    List.getElem?_take]
  rcases Nat.lt_or_ge i a with hi | hi
  · rw [if_pos hi, if_pos hi, if_neg (by omega)]
  · rcases Nat.lt_or_ge i b with hib | hib
    · rw [if_neg (by omega), if_pos (by omega), if_pos ⟨hi, hib⟩]
    · rw [if_neg (by omega), if_neg (by omega), if_neg (by omega)]
      congr 1
      omega

theorem slice_sliceAssign_self : slice (sliceAssign l a b v) a b = v := by
  apply List.ext_getElem?
  intro i
  rw [getElem?_slice, getElem?_sliceAssign hab hb hv]
  split_ifs with hi hin
  · rw [Nat.add_sub_cancel_left]
  · omega
  · rw [List.getElem?_eq_none (by omega)]

/-- The other fields stay. -/
theorem slice_sliceAssign_of_disjoint {c d : ℕ} (h : d ≤ a ∨ b ≤ c) :
    slice (sliceAssign l a b v) c d = slice l c d := by
  apply List.ext_getElem?
  intro i
  rw [getElem?_slice, getElem?_slice, getElem?_sliceAssign hab hb hv]
  split_ifs with hi hin
  · omega
  · rfl
  · rfl

theorem sliceAssign_sliceAssign (hw : w.length = b - a) :
    sliceAssign (sliceAssign l a b v) a b w = sliceAssign l a b w := by
  have hb' : b ≤ (sliceAssign l a b v).length := by rwa [length_sliceAssign hab hb hv]
  apply List.ext_getElem?
  intro i
  rw [getElem?_sliceAssign hab hb' hw, getElem?_sliceAssign hab hb hw, getElem?_sliceAssign hab hb hv]
  split_ifs <;> rfl

end SliceAssign

/-! ### The field -/

section Field

variable {field : List UInt8} {old a b : String}

theorem zero_notMem_untilNul (field : List UInt8) : 0 ∉ untilNul field := by
  intro h
  have := List.mem_takeWhile_imp h
  simp at this

/-- A text with NULs behind it is read back. -/
theorem untilNul_append_zeros {text : List UInt8} (h : 0 ∉ text) (n : ℕ) :
    untilNul (text ++ List.replicate (n + 1) 0) = text := by
  rw [untilNul, List.takeWhile_append_of_pos]
  · simp [List.replicate_succ]
  · intro c hc
    simp only [ne_eq, decide_not, Bool.not_eq_eq_eq_not, Bool.not_true, decide_eq_false_iff_not]
    rintro rfl
    exact h hc

theorem newField_eq (h : decode (untilNul field) = some old) (a : String) : newField field a =
    if (encode (old ++ " " ++ a)).length ≥ cmdlineLen then
      .error (.tooLong (encode (old ++ " " ++ a)).length)
    else .ok (encode (old ++ " " ++ a) ++
      List.replicate (cmdlineLen - (encode (old ++ " " ++ a)).length) 0) := by
  rw [newField, h]

theorem length_newField {new : List UInt8} (h : newField field a = .ok new) : new.length = cmdlineLen := by
  rcases hold : decode (untilNul field) with _ | old
  · rw [newField, hold] at h
    cases h
  · rw [newField_eq hold] at h
    split_ifs at h
    cases h
    rw [List.length_append, List.length_replicate]
    omega

/-- What is written can be appended to as if it had been there from the start. -/
theorem newField_text (h : decode (untilNul field) = some old) (ha : Char.ofNat 0 ∉ a.toList)
    {new : List UInt8} (hnew : newField field a = .ok new) :
    (∃ n, new = encode (old ++ " " ++ a) ++ List.replicate (n + 1) 0) ∧
      decode (untilNul new) = some (old ++ " " ++ a) := by
  rw [newField_eq h] at hnew
  split_ifs at hnew with hlen
  cases hnew
  have hold : 0 ∉ encode old := by
    rw [decode_eq_some.mp h]
    exact zero_notMem_untilNul field
  have hzero : 0 ∉ encode (old ++ " " ++ a) := by
    rw [encode_append, encode_append, List.mem_append, List.mem_append]
    rintro ((hmem | hmem) | hmem)
    · exact hold hmem
    · revert hmem
      decide
    · exact zero_notMem_encode ha hmem
  obtain ⟨n, hn⟩ := Nat.exists_eq_add_of_lt (Nat.lt_of_not_ge hlen)
  rw [show cmdlineLen - (encode (old ++ " " ++ a)).length = n + 1 by omega]
  exact ⟨⟨n, rfl⟩, by rw [untilNul_append_zeros hzero, decode_encode]⟩

theorem newField_newField (h : decode (untilNul field) = some old) (ha : Char.ofNat 0 ∉ a.toList) :
    ((newField field a).bind (newField · b)).toOption = (newField field (a ++ " " ++ b)).toOption := by
  have htext : old ++ " " ++ (a ++ " " ++ b) = old ++ " " ++ a ++ " " ++ b := by
    simp only [String.append_assoc]
  rcases hnew : newField field a with e | new
  · rw [newField_eq h] at hnew
    split_ifs at hnew with hlen
    rw [newField_eq h, htext, if_pos]
    · rfl
    · rw [encode_append, encode_append _ " ", List.length_append, List.length_append]
      omega
  · show (newField new b).toOption = _
    rw [newField_eq (newField_text h ha hnew).2, newField_eq h, htext]

end Field

theorem toOption_map {ε α β : Type} (f : α → β) (r : Except ε α) : (r.map f).toOption = r.toOption.map f := by
  cases r <;> rfl

/-! ### Images -/

/-- The header with another command line. -/
def withCmdline (hdr : Header) (cmdline : List UInt8) : Header := { hdr with cmdline }

theorem patchCmdline_eq {data : List UInt8} (h : slice data 0 8 = magic) (a : String) :
    patchCmdline data a = (newField (slice data 64 576) a).map (sliceAssign data 64 576) := by
  rw [patchCmdline, if_neg fun hne => hne h]
  show (newField (slice data 64 576) a).bind _ = _
  rcases newField (slice data 64 576) a with e | new <;> rfl

/-- What `parse_header` has accepted, and where it has read the command line. -/
theorem parseHeader_reads {buf : List UInt8} {hdr : Header} (h : parseHeader buf = .ok hdr) :
    slice buf 0 8 = magic ∧ slice buf 64 576 = hdr.cmdline := by
  rw [parseHeader] at h
  split_ifs at h with hmagic
  split at h
  · cases h
    exact ⟨not_not.mp hmagic, rfl⟩
  · cases h

section Image

variable {i new : List UInt8} {hdr : Header}

theorem parseHeader_sliceAssign (hlen : 608 ≤ i.length) (hnew : new.length = cmdlineLen)
    (hparse : parseHeader i = .ok hdr) :
    parseHeader (sliceAssign i 64 576 new) = .ok (withCmdline hdr new) := by
  have hb : 576 ≤ i.length := by omega
  have hkept (c d : ℕ) (h : d ≤ 64 ∨ 576 ≤ c) : slice (sliceAssign i 64 576 new) c d = slice i c d :=
    slice_sliceAssign_of_disjoint (by decide) hb hnew h
  have hself : slice (sliceAssign i 64 576 new) 64 576 = new := slice_sliceAssign_self (by decide) hb hnew
  rw [parseHeader] at hparse ⊢
  rw [hkept 0 8 (by decide), hkept 8 48 (by decide), hkept 48 64 (by decide), hkept 576 608 (by decide), hself]
  split_ifs at hparse ⊢
  split at hparse
  · cases hparse
    rfl
  · cases hparse

/-- The ramdisk lies behind the field. -/
theorem ramdiskIn_sliceAssign (hlen : 608 ≤ i.length) (hnew : new.length = cmdlineLen) (hfits : hdr.Fits) :
    ramdiskIn (sliceAssign i 64 576 new) (withCmdline hdr new) = ramdiskIn i hdr := by
  have hpage := hfits.page
  have hoff : 576 ≤ ramdiskOff hdr := by
    rw [ramdiskOff]
    omega
  exact slice_sliceAssign_of_disjoint (by decide) (by omega) hnew (.inr hoff)

theorem sliceAssign_append {pre v post w : List UInt8} {a b : ℕ} (ha : a = pre.length)
    (hb : b = pre.length + v.length) : sliceAssign (pre ++ (v ++ post)) a b w = pre ++ (w ++ post) := by
  rw [sliceAssign, ha, hb, List.take_left, ← List.drop_drop, List.drop_left, List.drop_left, List.append_assoc]

/-- The field of a packed image is that of its header. -/
theorem sliceAssign_image (hfits : hdr.Fits) (blob ramdisk : List UInt8) :
    sliceAssign (image hdr blob ramdisk) 64 576 new = image (withCmdline hdr new) blob ramdisk := by
  have hbefore : (magic ++ (((headerWords hdr blob.length).map Int.toNat).flatMap le32 ++ hdr.name)).length =
      64 := by
    rw [List.length_append, List.length_append, length_words, hfits.name]
    rfl
  have himage (cmdline : List UInt8) : image (withCmdline hdr cmdline) blob ramdisk =
      magic ++ (((headerWords hdr blob.length).map Int.toNat).flatMap le32 ++ hdr.name) ++ (cmdline ++
        (hdr.ids ++ List.replicate (hdr.pageSize - 608) 0 ++ pad blob hdr.pageSize ++
          pad ramdisk hdr.pageSize)) := by
    simp only [image, headerBytes, List.append_assoc]
    rfl
  have hsame : image hdr blob ramdisk = image (withCmdline hdr hdr.cmdline) blob ramdisk := rfl
  rw [hsame, himage, himage, sliceAssign_append hbefore.symm]
  rw [hbefore, hfits.cmdline]

theorem withCmdline_fits (hfits : hdr.Fits) (hnew : new.length = cmdlineLen) : (withCmdline hdr new).Fits :=
  ⟨hfits.page, hfits.name, hnew, hfits.ids, hfits.words⟩

/-- `pack-boot-img.py` as a function that may have no value. -/
theorem toOption_packBootImg (hparse : parseHeader i = .ok hdr) (hfits : hdr.Fits)
    (kernel dtb : List UInt8) (kernelAddr : Option ℤ) :
    (Accepts i (kernel ++ dtb) hdr kernelAddr ∧ (packBootImg i kernel dtb kernelAddr).toOption =
        some (image (hdr.withAddr kernelAddr) (kernel ++ dtb) (ramdiskIn i hdr))) ∨
      (¬ Accepts i (kernel ++ dtb) hdr kernelAddr ∧ (packBootImg i kernel dtb kernelAddr).toOption = none) := by
  by_cases hacc : Accepts i (kernel ++ dtb) hdr kernelAddr
  · rw [packBootImg_eq hparse hfits hacc.addr hacc.size, if_pos hacc.ramdisk]
    exact .inl ⟨hacc, rfl⟩
  · rcases hpack : packBootImg i kernel dtb kernelAddr with e | out
    · exact .inr ⟨hacc, rfl⟩
    · exact absurd ((packBootImg_ok_iff hparse hfits).mp ⟨out, hpack⟩) hacc

theorem toOption_patchCmdline_image (hfits : hdr.Fits) {blob : List UInt8} (hblob : blob.length < 2 ^ 32)
    (ramdisk : List UInt8) (a : String) : (patchCmdline (image hdr blob ramdisk) a).toOption =
      (newField hdr.cmdline a).toOption.map fun new => image (withCmdline hdr new) blob ramdisk := by
  obtain ⟨hmagic, hcmdline⟩ := parseHeader_reads (parseHeader_image hfits blob ramdisk hblob)
  have hfield : slice (image hdr blob ramdisk) 64 576 = hdr.cmdline := hcmdline
  rw [patchCmdline_eq hmagic, hfield]
  rcases newField hdr.cmdline a with e | new
  · rfl
  · exact congrArg some (sliceAssign_image hfits blob ramdisk)

/-- Either tool first: the file that is written is the same, and there is one from either order or from
    neither. -/
theorem packBootImg_comm {a : String} (hlen : 608 ≤ i.length) (hparse : parseHeader i = .ok hdr)
    (hpage : 608 ≤ hdr.pageSize) (kernel dtb : List UInt8) (kernelAddr : Option ℤ) :
    ((patchCmdline i a).toOption.bind fun p => (packBootImg p kernel dtb kernelAddr).toOption) =
      (packBootImg i kernel dtb kernelAddr).toOption.bind fun p => (patchCmdline p a).toOption := by
  have hfits := fits_of_parseHeader hparse hlen hpage
  obtain ⟨hmagic, hcmdline⟩ := parseHeader_reads hparse
  have hpatch := patchCmdline_eq hmagic a
  have hpack := toOption_packBootImg hparse hfits kernel dtb kernelAddr
  rcases hnew : newField (slice i 64 576) a with e | new
  · rw [hpatch, hnew]
    rcases hpack with ⟨hacc, hpack⟩ | ⟨-, hpack⟩
    · rw [hpack, Option.bind_some, toOption_patchCmdline_image (hfits.withAddr hacc.addr) hacc.size]
      rw [hcmdline] at hnew
      show _ = (newField hdr.cmdline a).toOption.map _
      rw [hnew]
      rfl
    · rw [hpack]
      rfl
  · have hlen' := length_newField hnew
    have hparse' := parseHeader_sliceAssign hlen hlen' hparse
    have hram := ramdiskIn_sliceAssign hlen hlen' hfits
    have hpack' := toOption_packBootImg hparse' (withCmdline_fits hfits hlen') kernel dtb kernelAddr
    have hiff : Accepts (sliceAssign i 64 576 new) (kernel ++ dtb) (withCmdline hdr new) kernelAddr ↔
        Accepts i (kernel ++ dtb) hdr kernelAddr :=
      ⟨fun h => ⟨h.addr, h.size, hram ▸ h.ramdisk⟩, fun h => ⟨h.addr, h.size, hram.symm ▸ h.ramdisk⟩⟩
    rw [hpatch, hnew]
    show (packBootImg (sliceAssign i 64 576 new) kernel dtb kernelAddr).toOption = _
    rcases hpack with ⟨hacc, hpack⟩ | ⟨hrej, hpack⟩
    · rcases hpack' with ⟨-, hpack'⟩ | ⟨hrej, -⟩
      · rw [hpack, hpack', hram, Option.bind_some, toOption_patchCmdline_image (hfits.withAddr hacc.addr) hacc.size]
        rw [hcmdline] at hnew
        show _ = (newField hdr.cmdline a).toOption.map _
        rw [hnew]
        rfl
      · exact absurd (hiff.mpr hacc) hrej
    · rcases hpack' with ⟨hacc, -⟩ | ⟨-, hpack'⟩
      · exact absurd (hiff.mp hacc) hrej
      · rw [hpack, hpack']
        rfl

/-- Appending twice is appending once, with a blank between the texts. -/
theorem patchCmdline_patchCmdline {a b old : String} (hlen : 608 ≤ i.length) (hmagic : slice i 0 8 = magic)
    (hold : decode (untilNul (slice i 64 576)) = some old) (ha : Char.ofNat 0 ∉ a.toList) :
    ((patchCmdline i a).bind (patchCmdline · b)).toOption = (patchCmdline i (a ++ " " ++ b)).toOption := by
  have hb : 576 ≤ i.length := by omega
  have hcomp := newField_newField (b := b) hold ha
  rw [patchCmdline_eq hmagic, patchCmdline_eq hmagic, toOption_map]
  rcases hnew : newField (slice i 64 576) a with e | new
  · rw [← hcomp, hnew]
    rfl
  · have hlen' := length_newField hnew
    have hmagic' : slice (sliceAssign i 64 576 new) 0 8 = magic := by
      rw [slice_sliceAssign_of_disjoint (by decide) hb hlen' (by decide), hmagic]
    have hself : slice (sliceAssign i 64 576 new) 64 576 = new := slice_sliceAssign_self (by decide) hb hlen'
    rw [hnew] at hcomp
    show (patchCmdline (sliceAssign i 64 576 new) b).toOption = _
    rw [patchCmdline_eq hmagic', hself, toOption_map, ← hcomp]
    show _ = (newField new b).toOption.map _
    rcases hagain : newField new b with e | w
    · rfl
    · exact congrArg some (sliceAssign_sliceAssign (by decide) hb hlen' (length_newField hagain))

/-- A patched image differs from the image in the field only, which holds the text and a NUL. -/
theorem patchCmdline_frame {a old : String} {out : List UInt8} (hlen : 608 ≤ i.length)
    (hmagic : slice i 0 8 = magic) (hold : decode (untilNul (slice i 64 576)) = some old)
    (ha : Char.ofNat 0 ∉ a.toList) (hout : patchCmdline i a = .ok out) :
    out.length = i.length ∧ (∀ k, k < 64 ∨ 576 ≤ k → out[k]? = i[k]?) ∧
      ∃ n, slice out 64 576 = encode (old ++ " " ++ a) ++ List.replicate (n + 1) 0 := by
  have hb : 576 ≤ i.length := by omega
  rw [patchCmdline_eq hmagic] at hout
  rcases hnew : newField (slice i 64 576) a with e | new
  · rw [hnew] at hout
    cases hout
  · rw [hnew] at hout
    cases hout
    have hlen' := length_newField hnew
    refine ⟨length_sliceAssign (by decide) hb hlen', ?_, ?_⟩
    · intro k hk
      rw [getElem?_sliceAssign (by decide) hb hlen', if_neg (by omega)]
    · rw [slice_sliceAssign_self (by decide) hb hlen']
      exact (newField_text hold ha hnew).1

end Image

/-! ### What is printed -/

theorem zeros_eq_encode (n : ℕ) :
    encode (String.ofList (List.replicate n (Char.ofNat 0))) = List.replicate n 0 := by
  have hzero : String.utf8EncodeChar (Char.ofNat 0) = [0] := by decide
  rw [encode_eq_flatMap, String.toList_ofList]
  induction n with
  | zero => rfl
  | succ n ih => rw [List.replicate_succ, List.flatMap_cons, ih, hzero]; rfl

/-- Text with NULs behind it can be printed. -/
theorem printedCmdline_text (text : String) (n : ℕ) :
    (printedCmdline (encode text ++ List.replicate n 0)).isSome = true := by
  have hcut : ∃ cut, decode (beforeFirst [0x5c, 0x78, 0x30, 0x30] (encode
      (text ++ String.ofList (List.replicate n (Char.ofNat 0))))) = some cut := decode_beforeFirst (by decide) _
  obtain ⟨cut, hcut⟩ := hcut
  rw [encode_append, zeros_eq_encode] at hcut
  rw [printedCmdline, cmdlineSep, hcut]
  rfl

/-- So can a field that the tool has written. -/
theorem printedCmdline_newField {field new : List UInt8} {old a : String}
    (h : decode (untilNul field) = some old) (ha : Char.ofNat 0 ∉ a.toList)
    (hnew : newField field a = .ok new) : (printedCmdline new).isSome = true := by
  obtain ⟨⟨n, rfl⟩, -⟩ := newField_text h ha hnew
  exact printedCmdline_text _ _

theorem packRun_image? {i : List UInt8} {hdr : Header} (hparse : parseHeader i = .ok hdr)
    (kernel dtb : List UInt8) (kernelAddr : Option ℤ) : (packRun i kernel dtb kernelAddr).image? =
      if (printedCmdline hdr.cmdline).isSome then (packBootImg i kernel dtb kernelAddr).toOption else none := by
  rw [packRun, hparse]
  rcases packBootImg i kernel dtb kernelAddr with e | out
  · rw [Except.toOption, ite_self]
    rfl
  · rfl

/-- After a patch the print does not fail. -/
theorem packRun_patched {i : List UInt8} {hdr : Header} {old a : String} (hlen : 608 ≤ i.length)
    (hparse : parseHeader i = .ok hdr) (hold : decode (untilNul (slice i 64 576)) = some old)
    (ha : Char.ofNat 0 ∉ a.toList) (kernel dtb : List UInt8) (kernelAddr : Option ℤ) :
    ((patchCmdline i a).toOption.bind fun p => (packRun p kernel dtb kernelAddr).image?) =
      (patchCmdline i a).toOption.bind fun p => (packBootImg p kernel dtb kernelAddr).toOption := by
  rw [patchCmdline_eq (parseHeader_reads hparse).1]
  rcases hnew : newField (slice i 64 576) a with e | new
  · rfl
  · have hprinted := printedCmdline_newField hold ha hnew
    have hparse' := parseHeader_sliceAssign hlen (length_newField hnew) hparse
    exact (packRun_image? hparse' kernel dtb kernelAddr).trans (if_pos hprinted)

/-- The tools run in either order, to one who looks at the exit status. -/
def Commutes (i : List UInt8) (a : String) : Prop := ∀ kernel dtb kernelAddr,
  ((patchCmdline i a).toOption.bind fun p => (packRun p kernel dtb kernelAddr).image?) =
    (packRun i kernel dtb kernelAddr).image?.bind fun p => (patchCmdline p a).toOption

theorem commutes_iff {i : List UInt8} {hdr : Header} {old a : String} (hlen : 608 ≤ i.length)
    (hparse : parseHeader i = .ok hdr) (hpage : 608 ≤ hdr.pageSize)
    (hold : decode (untilNul (slice i 64 576)) = some old) (ha : Char.ofNat 0 ∉ a.toList) :
    Commutes i a ↔ (printedCmdline hdr.cmdline).isSome = true ∨ cmdlineLen ≤ (encode (old ++ " " ++ a)).length ∨
      (ramdiskIn i hdr).length ≠ hdr.ramdiskSize := by
  have hfits := fits_of_parseHeader hparse hlen hpage
  have hfield := (parseHeader_reads hparse).2
  have hnew := newField_eq hold a
  have hwritten (kernel dtb : List UInt8) (kernelAddr : Option ℤ) :
      ((patchCmdline i a).toOption.bind fun p => (packRun p kernel dtb kernelAddr).image?) =
        (packBootImg i kernel dtb kernelAddr).toOption.bind fun p => (patchCmdline p a).toOption := by
    rw [← packBootImg_comm hlen hparse hpage]
    exact packRun_patched hlen hparse hold ha kernel dtb kernelAddr
  by_cases hprinted : (printedCmdline hdr.cmdline).isSome = true
  · refine ⟨fun _ => .inl hprinted, fun _ kernel dtb kernelAddr => ?_⟩
    rw [hwritten, packRun_image? hparse, if_pos hprinted]
  · have hnone (kernel dtb : List UInt8) (kernelAddr : Option ℤ) :
        (packRun i kernel dtb kernelAddr).image? = none := by
      rw [packRun_image? hparse, if_neg hprinted]
    constructor
    · intro hcomm
      by_contra hneither
      obtain ⟨hshort, hram⟩ : (encode (old ++ " " ++ a)).length < cmdlineLen ∧
          (ramdiskIn i hdr).length = hdr.ramdiskSize := by
        push Not at hneither
        exact hneither.2
      have hacc : Accepts i ([] ++ []) hdr none := ⟨nofun, by decide, hram⟩
      have hpack := (packBootImg_eq hparse hfits hacc.addr hacc.size).trans (if_pos hram)
      have hempty := hcomm [] [] none
      rw [hwritten, hnone, hpack, Option.bind_none] at hempty
      have hpatch := toOption_patchCmdline_image (hfits.withAddr hacc.addr) hacc.size (ramdiskIn i hdr) a
      have hsame : (hdr.withAddr none).cmdline = hdr.cmdline := rfl
      rw [hfield, if_neg (Nat.not_le_of_lt hshort)] at hnew
      rw [hsame, hnew] at hpatch
      exact Option.some_ne_none _ (hpatch.symm.trans hempty)
    · rintro (hp | hlong | hram) kernel dtb kernelAddr
      · exact absurd hp hprinted
      · rw [hnone, patchCmdline_eq (parseHeader_reads hparse).1, hnew, if_pos hlong]
        rfl
      · rw [hnone, hwritten]
        rcases toOption_packBootImg hparse hfits kernel dtb kernelAddr with ⟨hacc, -⟩ | ⟨-, hpack⟩
        · exact absurd hacc.ramdisk hram
        · rw [hpack]

/-- Patching is framed and composes. With packing it commutes exactly if what `pack-boot-img.py` prints of
    the field is text, or one of the tools refuses: the text is too long, or the ramdisk is not all there. -/
theorem patch_composes_and_commutes_iff {i : List UInt8} {hdr : Header} {old a b : String}
    (hlen : 608 ≤ i.length) (hparse : parseHeader i = .ok hdr) (hpage : 608 ≤ hdr.pageSize)
    (hold : decode (untilNul (slice i 64 576)) = some old) (ha : Char.ofNat 0 ∉ a.toList) :
    (∀ out, patchCmdline i a = .ok out → out.length = i.length ∧
      (∀ k, k < 64 ∨ 576 ≤ k → out[k]? = i[k]?) ∧
        ∃ n, slice out 64 576 = encode (old ++ " " ++ a) ++ List.replicate (n + 1) 0) ∧
    ((patchCmdline i a).bind (patchCmdline · b)).toOption = (patchCmdline i (a ++ " " ++ b)).toOption ∧
    (Commutes i a ↔ (printedCmdline hdr.cmdline).isSome = true ∨
      cmdlineLen ≤ (encode (old ++ " " ++ a)).length ∨ (ramdiskIn i hdr).length ≠ hdr.ramdiskSize) := by
  obtain ⟨hmagic, -⟩ := parseHeader_reads hparse
  exact ⟨fun _ => patchCmdline_frame hlen hmagic hold ha, patchCmdline_patchCmdline hlen hmagic hold ha,
    commutes_iff hlen hparse hpage hold ha⟩

/-- An image of one page, with the command line `ro` and something behind its NUL. -/
def roImage : List UInt8 :=
  magic ++ [0, 0x40080000, 0, 0x45000000, 0, 0, 0x44000000, 608, 0, 0].flatMap le32 ++
    List.replicate 16 0 ++ encode "ro" ++ [0x00, 0xff] ++ List.replicate 540 0

theorem roImage_readable : 608 ≤ roImage.length ∧ decode (untilNul (slice roImage 64 576)) = some "ro" ∧
    ∃ hdr, parseHeader roImage = .ok hdr ∧ 608 ≤ hdr.pageSize := by
  have hlen : 608 ≤ roImage.length := by decide +kernel
  have hmagic : slice roImage 0 8 = magic := by decide +kernel
  have htext : untilNul (slice roImage 64 576) = encode "ro" := by decide +kernel
  obtain ⟨hdr, hparse⟩ := parseHeader_ok hmagic hlen
  have hpage : (parseHeader roImage).toOption.map Header.pageSize = some 608 := by decide +kernel
  rw [hparse] at hpage
  exact ⟨hlen, by rw [htext, decode_encode], hdr, hparse, (Option.some.inj hpage).ge⟩

theorem patch_composes_and_commutes_iff_ro : ∃ hdr, parseHeader roImage = .ok hdr ∧
    (∀ out, patchCmdline roImage "quiet" = .ok out → out.length = roImage.length ∧
      (∀ k, k < 64 ∨ 576 ≤ k → out[k]? = roImage[k]?) ∧
        ∃ n, slice out 64 576 = encode ("ro" ++ " " ++ "quiet") ++ List.replicate (n + 1) 0) ∧
    ((patchCmdline roImage "quiet").bind (patchCmdline · "maxcpus=1")).toOption =
      (patchCmdline roImage ("quiet" ++ " " ++ "maxcpus=1")).toOption ∧
    (Commutes roImage "quiet" ↔ (printedCmdline hdr.cmdline).isSome = true ∨
      cmdlineLen ≤ (encode ("ro" ++ " " ++ "quiet")).length ∨
        (ramdiskIn roImage hdr).length ≠ hdr.ramdiskSize) := by
  obtain ⟨hlen, htext, hdr, hparse, hpage⟩ := roImage_readable
  exact ⟨hdr, hparse, patch_composes_and_commutes_iff hlen hparse hpage htext (by decide)⟩

/-- Patched first it is packed; packed first it is not patched. -/
theorem pack_first_fails : (608 ≤ roImage.length ∧ decode (untilNul (slice roImage 64 576)) = some "ro" ∧
    ∃ hdr, parseHeader roImage = .ok hdr ∧ 608 ≤ hdr.pageSize) ∧ ¬ Commutes roImage "quiet" := by
  refine ⟨roImage_readable, fun h => ?_⟩
  obtain ⟨hlen, htext, hdr, hparse, -⟩ := roImage_readable
  have hrun := h [0x1f] [0xd0] none
  have hpacked : (packRun roImage [0x1f] [0xd0] none).image? = none := by
    decide +kernel
  have hpatched : ((patchCmdline roImage "quiet").toOption.bind fun p =>
      (packBootImg p [0x1f] [0xd0] none).toOption).isSome = true := by
    decide +kernel
  rw [← packRun_patched hlen hparse htext (by decide), hrun, hpacked] at hpatched
  cases hpatched

end GeminiLinux.PatchVendorCmdline
