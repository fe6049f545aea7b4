import GeminiLinux.Lib.Search
import GeminiLinux.Scripts.HeaderPage

/-! Step 5 of `build-pack.sh`: the packed image is read back and the kernel in it is checked for its banner
    and for debug strings. The kernel is not taken from the offset the header gives but from the first gzip
    magic of the image,

        ANDROID! | size | address | the dict | 0 ... 0 | 1f 8b 08 ...
        0        8      12        16         608       page_size

    so the fields in front of it must not spell the magic. The two seams cannot: no letter of `ANDROID!` and
    no 0 is in the magic's first place, and neither a 0 nor another magic goes on with it. -/

namespace GeminiLinux.BuildPack
open Bytes PackBootImg Search Utf8

/-! ### The check of the decompressed kernel -/

/-- The ways step 5 fails: the four calls of `sys.exit`, a `zlib.error`, and a banner that is no text. -/
inductive VerifyError where
  | noGzip
  | zlib
  | noBanner
  | undecodable
  | otherBuild (banner : List UInt8)
  | debugPresent
  deriving DecidableEq

def isDigit (b : UInt8) : Bool := decide (0x30 ≤ b ∧ b ≤ 0x39)

/-- `UTC \d{4}` at the start. -/
def utcHere (t : List UInt8) : Bool :=
  (encode "UTC ").isPrefixOf t && decide ((slice t 4 8).length = 4) && (slice t 4 8).all isDigit

/-- The banner pattern at the start: `m.group()` and `m.group(1)`. -/
def bannerHere : List UInt8 → Option (List UInt8 × List UInt8)
  | [] => none
  | b :: rest =>
    let digits := rest.takeWhile isDigit
    let front := digits ++ encode " SMP PREEMPT "
    if b = 0x23 ∧ digits ≠ [] ∧ front <+: rest then
      let free := (rest.drop front.length).takeWhile (· ≠ 0)
      -- `[^\x00]*` takes as much as it can
      (((List.range free.length).filter fun j => utcHere (free.drop j)).getLast?).map fun j =>
        (b :: front ++ free.take (j + 8), digits)
    else none

/-- `re.search` of the banner. -/
def banner (k : List UInt8) : Option (List UInt8 × List UInt8) := k.tails.findSome? bannerHere

/-- What is checked of a decompressed kernel. -/
def checkKernel (nn : List UInt8) (allowDebug : Bool) (k : List UInt8) : Except VerifyError Unit :=
  match banner k with
  | none => .error .noBanner
  | some (text, number) =>
    if decode text = none then .error .undecodable
    else if number ≠ nn then .error (.otherBuild number)
    else if (find (encode "GEMINI-DEBUG") k).isSome ∧ allowDebug = false then .error .debugPresent
    else .ok ()

/-! ### The verifier -/

section Verify

variable (decompress : List UInt8 → Option (List UInt8)) (nn : List UInt8) (allowDebug : Bool)

/-- The first three bytes of a gzip stream that is deflated. -/
def gzipMagic : List UInt8 := [0x1f, 0x8b, 0x08]

/-- The checks on what `zlib.decompressobj(31)` makes of a stream and what follows it. -/
def checkStream (stream : List UInt8) : Except VerifyError Unit :=
  match decompress stream with
  | none => .error .zlib
  | some k => checkKernel nn allowDebug k

/-- Step 5 on the bytes of an image. -/
def verify (d : List UInt8) : Except VerifyError Unit :=
  match find gzipMagic d with
  | none => .error .noGzip
  | some i => checkStream decompress nn allowDebug (d.drop i)

end Verify

/-- The verifier looks at the kernel blob that was packed: the first magic is at the kernel offset, the blob
    stands there, and it is what the checks are made on. -/
structure LooksAtPacked (out kernelBlob : List UInt8) (pageSize : ℕ) : Prop where
  first : find gzipMagic out = some pageSize
  packed : kernelBlob <+: out.drop pageSize
  checks : ∀ decompress nn allowDebug, verify decompress nn allowDebug out =
    checkStream decompress nn allowDebug (out.drop pageSize)

/-! ### A reference of full length -/

/-- The blob stands in front of its padding and the ramdisk. -/
theorem prefix_packed (blob ramdisk : List UInt8) (pageSize : ℕ) :
    blob <+: pad blob pageSize ++ pad ramdisk pageSize := by
  refine List.IsPrefix.trans ?_ (List.prefix_append ..)
  rw [pad, padTo]
  split_ifs
  · exact List.prefix_rfl
  · exact List.prefix_append ..

/-- The first magic of an image is in the fields, or it is the kernel's. -/
theorem find_page (size addr : ℕ) {rest kernel : List UInt8} (hrest : rest.length = 592)
    (hgzip : gzipMagic <+: kernel) (k : ℕ) :
    find gzipMagic (page size addr rest (List.replicate k 0) ++ kernel) =
      some ((find gzipMagic (le32 size ++ (le32 addr ++ rest))).elim (608 + k) (8 + ·)) := by
  have hlen : (le32 size ++ (le32 addr ++ rest)).length = 600 := by
    have hword (n : ℕ) : (le32 n).length = 4 := rfl
    rw [List.length_append, List.length_append, hrest, hword, hword]
  have hparts : page size addr rest (List.replicate k 0) ++ kernel =
      magic ++ ((le32 size ++ (le32 addr ++ rest)) ++ (List.replicate k 0 ++ kernel)) := by
    simp only [page, List.append_assoc]
  have hzeros : find gzipMagic (List.replicate k 0 ++ kernel) = some k := by
    have hnot : (0x1f : UInt8) ∉ List.replicate k 0 := fun h => absurd (List.eq_of_mem_replicate h) (by decide)
    rw [gzipMagic, find_append_of_notMem hnot, ← gzipMagic, find_of_prefix hgzip, Option.map_some,
      List.length_replicate, Nat.add_zero]
  have hseam : ∀ x ∈ (List.replicate k (0 : UInt8) ++ kernel).head?, x ∉ gzipMagic.tail := by
    obtain ⟨more, rfl⟩ := hgzip
    intro x hx
    cases k with
    | zero =>
      cases hx
      decide
    | succ k =>
      cases hx
      decide
  rw [hparts, gzipMagic, find_append_of_notMem (by decide), ← gzipMagic, find_append (by decide) hseam, hzeros,
    hlen]
  cases find gzipMagic (le32 size ++ (le32 addr ++ rest)) with
  | none =>
    change some (8 + (600 + k)) = some (608 + k)
    rw [← Nat.add_assoc]
  | some i => rfl

/-- The bytes of the dict are those of the reference. -/
theorem copied_eq_slice {ref : List UInt8} {hdr : Header} (hparse : parseHeader ref = .ok hdr)
    (hlen : 608 ≤ ref.length) (hpage : 608 ≤ hdr.pageSize) : copied hdr = slice ref 16 608 := by
  have hcopied := length_copied (fits_of_parseHeader hparse hlen hpage)
  refine List.ext_getElem? fun i => ?_
  rw [getElem?_slice]
  split_ifs with hi
  · have hpaged : ref[16 + i]? = (ref.take hdr.pageSize)[16 + i]? := by
      rw [List.getElem?_take, if_pos (by omega)]
    rw [hpaged, take_eq_page hparse hlen hpage, getElem?_page _ _ hcopied, if_neg (by omega),
      if_neg (by omega), if_neg (by omega), if_pos (by omega), Nat.add_sub_cancel_left]
  · exact List.getElem?_eq_none (by omega)

/-! ### A truncated reference -/

theorem length_sliceAssign (h v : List UInt8) (a b : ℕ) :
    (sliceAssign h a b v).length = min a h.length + v.length + (h.length - b) := by
  rw [sliceAssign, List.length_append, List.length_append, List.length_take, List.length_drop]

theorem length_slice_min (l : List UInt8) (a b : ℕ) : (slice l a b).length = min (b - a) (l.length - a) := by
  rw [slice, List.length_take, List.length_drop]

theorem length_packInto {h h' : List UInt8} {vals : List ℤ} (hpack : packInto h vals = .ok h') :
    h'.length = h.length := by
  rw [packInto] at hpack
  split_ifs at hpack with hroom
  cases hpack
  have hwords : ((vals.map Int.toNat).flatMap le32).length = 4 * vals.length := by
    rw [length_le32s, List.length_map]
  rw [overlay, List.length_append, List.length_append, List.length_take, List.length_drop, hwords]
  omega

/-- Fields that are cut short leave a header that is shorter than its page. -/
theorem length_buildHeader_lt {ref h : List UInt8} {hdr : Header} {n : ℕ} (hname : hdr.name = slice ref 48 64)
    (hcmdline : hdr.cmdline = slice ref 64 576) (hids : hdr.ids = slice ref 576 608) (hlen : ref.length < 608)
    (hpage : 608 ≤ hdr.pageSize) (hbuild : buildHeader hdr n = .ok h) : h.length < hdr.pageSize := by
  have hmagic : magic.length = 8 := rfl
  rw [buildHeader] at hbuild
  cases hpack : packInto (sliceAssign (List.replicate hdr.pageSize 0) 0 8 magic) (headerWords hdr n) with
  | error e =>
    rw [hpack] at hbuild
    cases hbuild
  | ok h₁ =>
    rw [hpack] at hbuild
    cases hbuild
    have h₁len := length_packInto hpack
    rw [length_sliceAssign, List.length_replicate, hmagic] at h₁len
    simp only [length_sliceAssign, hname, hcmdline, hids, length_slice_min]
    omega

theorem fields_of_parseHeader {ref : List UInt8} {hdr : Header} (hparse : parseHeader ref = .ok hdr) :
    hdr.name = slice ref 48 64 ∧ hdr.cmdline = slice ref 64 576 ∧ hdr.ids = slice ref 576 608 := by
  rw [parseHeader] at hparse
  split_ifs at hparse
  split at hparse
  · cases hparse
    exact ⟨rfl, rfl, rfl⟩
  · cases hparse

/-! ### Where the verifier looks -/

/-- The fields between the magic and the zeros, as a run writes them. -/
def fieldBytes (ref blob : List UInt8) (addr : ℤ) : List UInt8 :=
  le32 blob.length ++ (le32 addr.toNat ++ slice ref 16 608)

theorem length_fieldBytes {ref : List UInt8} (hlen : 608 ≤ ref.length) (blob : List UInt8) (addr : ℤ) :
    (fieldBytes ref blob addr).length = 600 := by
  have hword (n : ℕ) : (le32 n).length = 4 := rfl
  rw [fieldBytes, List.length_append, List.length_append, hword, hword, length_slice hlen]

section Packed

variable {ref kernel dtb out : List UInt8} {hdr : Header} {kernelAddr : Option ℤ}

theorem find_packed (hparse : parseHeader ref = .ok hdr) (hpage : 608 ≤ hdr.pageSize) (hlen : 608 ≤ ref.length)
    (hgzip : gzipMagic <+: kernel) (hout : packBootImg ref kernel dtb kernelAddr = .ok out) :
    find gzipMagic out = some ((find gzipMagic (fieldBytes ref (kernel ++ dtb)
      (kernelAddr.getD hdr.kernelAddr))).elim hdr.pageSize (8 + ·)) := by
  have hfits := fits_of_parseHeader hparse hlen hpage
  obtain ⟨-, rfl⟩ := image_of_packBootImg hparse hfits hout
  have hkernel : gzipMagic <+: pad (kernel ++ dtb) hdr.pageSize ++ pad (ramdiskIn ref hdr) hdr.pageSize :=
    hgzip.trans ((List.prefix_append ..).trans (prefix_packed ..))
  have hrest : 608 + (hdr.pageSize - 608) = hdr.pageSize := Nat.add_sub_cancel' hpage
  rw [image, List.append_assoc, headerBytes_withAddr]
  refine (find_page _ _ (length_copied hfits) hkernel _).trans ?_
  rw [hrest, copied_eq_slice hparse hlen hpage, fieldBytes]

/-- With a dict in full the kernel is at its offset. -/
theorem packed_at_offset (hparse : parseHeader ref = .ok hdr) (hpage : 608 ≤ hdr.pageSize)
    (hlen : 608 ≤ ref.length) (hout : packBootImg ref kernel dtb kernelAddr = .ok out) :
    kernel ++ dtb <+: out.drop hdr.pageSize := by
  obtain ⟨hfits', rfl⟩ := image_of_packBootImg hparse (fits_of_parseHeader hparse hlen hpage) hout
  have hheader := length_headerBytes hfits' (kernel ++ dtb).length
  have hpageSize : (hdr.withAddr kernelAddr).pageSize = hdr.pageSize := rfl
  rw [image, List.append_assoc, ← hpageSize, ← hheader, List.drop_left, hheader]
  exact prefix_packed ..

/-- In the image of a truncated reference the kernel stands in front of the page's end. -/
theorem find_truncated (hparse : parseHeader ref = .ok hdr) (hpage : 608 ≤ hdr.pageSize)
    (hshort : ref.length < 608) (hgzip : gzipMagic <+: kernel)
    (hout : packBootImg ref kernel dtb kernelAddr = .ok out) :
    ∃ i < hdr.pageSize, find gzipMagic out = some i := by
  obtain ⟨-, -, h, hbuild, rfl⟩ := packBootImg_ok hparse hout
  obtain ⟨hname, hcmdline, hids⟩ := fields_of_parseHeader hparse
  have hlt : h.length < (hdr.withAddr kernelAddr).pageSize :=
    length_buildHeader_lt hname hcmdline hids hshort hpage hbuild
  have hkernel : gzipMagic <+: (h ++ pad (kernel ++ dtb) hdr.pageSize ++
      pad (ramdiskIn ref hdr) hdr.pageSize).drop h.length := by
    rw [List.append_assoc, List.drop_left]
    exact hgzip.trans ((List.prefix_append ..).trans (prefix_packed ..))
  obtain ⟨i, hi, hfind⟩ := find_le hkernel
  exact ⟨i, Nat.lt_of_le_of_lt hi hlt, hfind⟩

/-- The verifier looks at the kernel that was packed exactly if the reference has its dict in full and the
    fields of the header do not spell the magic. -/
theorem looks_at_packed_iff (hparse : parseHeader ref = .ok hdr) (hpage : 608 ≤ hdr.pageSize)
    (hgzip : gzipMagic <+: kernel) (hout : packBootImg ref kernel dtb kernelAddr = .ok out) :
    LooksAtPacked out (kernel ++ dtb) hdr.pageSize ↔
      608 ≤ ref.length ∧ ¬ gzipMagic <:+: fieldBytes ref (kernel ++ dtb) (kernelAddr.getD hdr.kernelAddr) := by
  rcases Nat.lt_or_ge ref.length 608 with hshort | hlen
  · refine iff_of_false (fun h => ?_) fun h => absurd h.1 (Nat.not_le_of_lt hshort)
    obtain ⟨i, hi, hfind⟩ := find_truncated hparse hpage hshort hgzip hout
    rw [h.first] at hfind
    cases hfind
    exact absurd hi (Nat.lt_irrefl _)
  · have hfind := find_packed hparse hpage hlen hgzip hout
    rw [← find_eq_none_iff]
    constructor
    · intro h
      rw [h.first] at hfind
      refine ⟨hlen, ?_⟩
      cases hfields : find gzipMagic (fieldBytes ref (kernel ++ dtb) (kernelAddr.getD hdr.kernelAddr)) with
      | none => rfl
      | some i =>
        -- a magic in the fields is in front of the page's end
        have hbound := find_add_length_le hfields
        have hthree : gzipMagic.length = 3 := rfl
        rw [length_fieldBytes hlen, hthree] at hbound
        rw [hfields] at hfind
        have hpos : hdr.pageSize = 8 + i := Option.some.inj hfind
        omega
    · rintro ⟨-, hfields⟩
      rw [hfields] at hfind
      refine ⟨hfind, packed_at_offset hparse hpage hlen hout, ?_⟩
      intro decompress nn allowDebug
      rw [verify, hfind]
      rfl

end Packed

theorem looks_at_packed_iff_small : ∃ hdr out, parseHeader extraCmdlineRef = .ok hdr ∧
    packBootImg extraCmdlineRef [0x1f, 0x8b, 0x08] [0xd0] none = .ok out ∧
    (LooksAtPacked out ([0x1f, 0x8b, 0x08] ++ [0xd0]) hdr.pageSize ↔
      608 ≤ extraCmdlineRef.length ∧ ¬ gzipMagic <:+: fieldBytes extraCmdlineRef ([0x1f, 0x8b, 0x08] ++ [0xd0])
        ((none : Option ℤ).getD hdr.kernelAddr)) := by
  obtain ⟨hdr, out, hparse, hpage, hout⟩ :=
    packBootImg_extraCmdlineRef [0x1f, 0x8b, 0x08] [0xd0] (by decide)
  exact ⟨hdr, out, hparse, hout, looks_at_packed_iff hparse (by omega) List.prefix_rfl hout⟩

/-- A size that is stored as `1f 8b 08 01`. -/
theorem size_spelled {blob : List UInt8} (hsize : blob.length = 17337119) (ref : List UInt8) (addr : ℤ) :
    gzipMagic <+: fieldBytes ref blob addr := by
  have hword : le32 17337119 = gzipMagic ++ [0x01] := by decide
  rw [fieldBytes, hsize, hword, List.append_assoc]
  exact List.prefix_append ..

/-- A kernel that is 17337119 bytes long with its device tree. -/
def sizedKernel : List UInt8 := gzipMagic ++ List.replicate 17300000 0

def sizedDtb : List UInt8 := List.replicate 37116 0xd0

theorem length_sized : (sizedKernel ++ sizedDtb).length = 17337119 := by
  rw [List.length_append, sizedKernel, sizedDtb, List.length_append, List.length_replicate,
    List.length_replicate]
  rfl

/-- The magic is found in the size. -/
theorem size_spells_magic : ∃ hdr out, parseHeader extraCmdlineRef = .ok hdr ∧ 608 ≤ hdr.pageSize ∧
    gzipMagic <+: sizedKernel ∧ packBootImg extraCmdlineRef sizedKernel sizedDtb none = .ok out ∧
    ¬ LooksAtPacked out (sizedKernel ++ sizedDtb) hdr.pageSize := by
  have hsize := length_sized
  have hgzip : gzipMagic <+: sizedKernel := List.prefix_append ..
  generalize sizedKernel = kernel at hsize hgzip ⊢
  generalize sizedDtb = dtb at hsize ⊢
  have hlen : 608 ≤ extraCmdlineRef.length := by decide +kernel
  obtain ⟨hdr, out, hparse, hpageSize, hout⟩ := packBootImg_extraCmdlineRef kernel dtb (by omega)
  have hpage : 608 ≤ hdr.pageSize := by omega
  refine ⟨hdr, out, hparse, hpage, hgzip, hout, ?_⟩
  intro h
  have hfind := find_packed hparse hpage hlen hgzip hout
  rw [h.first, find_of_prefix (size_spelled hsize ..)] at hfind
  have hpos : hdr.pageSize = 8 + 0 := Option.some.inj hfind
  omega

end GeminiLinux.BuildPack
