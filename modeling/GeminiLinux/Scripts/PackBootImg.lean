import GeminiLinux.Lib.Bytes
import GeminiLinux.Lib.Prog
import GeminiLinux.Lib.Utf8

/-! `pack-boot-img.py`: a new Android boot image (v0 header) from the header fields and the ramdisk of
    a reference image and a new kernel blob.

        header page | kernel ++ dtb, padded | ramdisk, padded
        0           | page_size             | page_size + the padded kernel

    The header is read with `struct.unpack_from` and written with `struct.pack_into`; the ramdisk is
    located in the reference by the pages formula and placed in the output by padding. A Python
    exception and `sys.exit` both end the run before the output is opened, but for one: when the image is
    written, `main` prints the command line, and `decode()` raises where the bytes are no text. -/

namespace GeminiLinux.PackBootImg
open Bytes Prog

/-- The ways `main` ends without writing: `ValueError` of `parse_header`, `struct.error`,
    `ZeroDivisionError`, and the two calls of `sys.exit`. -/
inductive PackError where
  | notAndroid
  | struct
  | zeroDivision
  | notAligned
  | ramdiskMismatch
  deriving DecidableEq

/-- The dict `parse_header` returns. The load address may come from the command line instead, where
    it is any integer. -/
structure Header where
  kernelSize : ℕ
  kernelAddr : ℤ
  ramdiskSize : ℕ
  ramdiskAddr : ℕ
  secondSize : ℕ
  secondAddr : ℕ
  tagsAddr : ℕ
  pageSize : ℕ
  headerVersion : ℕ
  osVersion : ℕ
  name : List UInt8
  cmdline : List UInt8
  ids : List UInt8
  deriving DecidableEq

/-- `b"ANDROID!"`. -/
def magic : List UInt8 := [0x41, 0x4e, 0x44, 0x52, 0x4f, 0x49, 0x44, 0x21]

/-- `pad`, for a page size that is not 0. -/
def pad (data : List UInt8) (pageSize : ℕ) : List UInt8 := padTo pageSize data

def parseHeader (buf : List UInt8) : Except PackError Header :=
  if slice buf 0 8 ≠ magic then .error .notAndroid
  else match readLe32s (slice buf 8 48) with
    | [kernelSize, kernelAddr, ramdiskSize, ramdiskAddr, secondSize, secondAddr, tagsAddr, pageSize,
        headerVersion, osVersion] =>
      .ok { kernelSize, kernelAddr, ramdiskSize, ramdiskAddr, secondSize, secondAddr, tagsAddr,
            pageSize, headerVersion, osVersion, name := slice buf 48 64, cmdline := slice buf 64 576,
            ids := slice buf 576 608 }
    | _ => .error .struct

/-- Where `extract_ramdisk` looks: behind the header page and the kernel's pages. -/
def ramdiskOff (hdr : Header) : ℕ :=
  hdr.pageSize + (hdr.kernelSize + hdr.pageSize - 1) / hdr.pageSize * hdr.pageSize

def extractRamdisk (buf : List UInt8) (hdr : Header) : Except PackError (List UInt8) :=
  if hdr.pageSize = 0 then .error .zeroDivision
  else .ok (slice buf (ramdiskOff hdr) (ramdiskOff hdr + hdr.ramdiskSize))

/-- `struct.pack_into("<10I", h, 8, ...)`. -/
def packInto (h : List UInt8) (vals : List ℤ) : Except PackError (List UInt8) :=
  if 8 + 4 * vals.length ≤ h.length ∧ ∀ v ∈ vals, 0 ≤ v ∧ v < 2 ^ 32 then
    .ok (overlay h 8 ((vals.map Int.toNat).flatMap le32))
  else .error .struct

/-- `h[a:b] = v` on a `bytearray`, which changes its length where `v` is not `b - a` long. -/
def sliceAssign (h : List UInt8) (a b : ℕ) (v : List UInt8) : List UInt8 := h.take a ++ v ++ h.drop b

/-- The ten numbers of the header, in order. -/
def headerWords (hdr : Header) (newKernelSize : ℕ) : List ℤ :=
  [newKernelSize, hdr.kernelAddr, hdr.ramdiskSize, hdr.ramdiskAddr, hdr.secondSize, hdr.secondAddr,
    hdr.tagsAddr, hdr.pageSize, hdr.headerVersion, hdr.osVersion]

def buildHeader (hdr : Header) (newKernelSize : ℕ) : Except PackError (List UInt8) := do
  let h := sliceAssign (List.replicate hdr.pageSize 0) 0 8 magic
  let h ← packInto h (headerWords hdr newKernelSize)
  let h := sliceAssign h 48 64 hdr.name
  let h := sliceAssign h 64 576 hdr.cmdline
  return sliceAssign h 576 608 hdr.ids

/-- The `--kernel-addr` option. -/
def overrideAddr (hdr : Header) : Option ℤ → Except PackError Header
  | none => .ok hdr
  | some addr =>
    if addr % (2 * 1024 * 1024) ≠ 0 then .error .notAligned else .ok { hdr with kernelAddr := addr }

/-- `main` up to the write, from the contents of the three input files and the option to the file. -/
def packBootImg (ref kernel dtb : List UInt8) (kernelAddr : Option ℤ) :
    Except PackError (List UInt8) := do
  let hdr ← parseHeader ref
  let hdr ← overrideAddr hdr kernelAddr
  let ramdisk ← extractRamdisk ref hdr
  if ramdisk.length ≠ hdr.ramdiskSize then throw .ramdiskMismatch
  else do
    let kernelBlob := kernel ++ dtb
    let header ← buildHeader hdr kernelBlob.length
    return header ++ pad kernelBlob hdr.pageSize ++ pad ramdisk hdr.pageSize

/-- `b'\\x00'`, as it stands in the f-string: four characters, not a NUL. -/
def cmdlineSep : List UInt8 := [0x5c, 0x78, 0x30, 0x30]

/-- What `main` prints of the command line in the end; `none` is a `UnicodeDecodeError`. -/
def printedCmdline (field : List UInt8) : Option String := Utf8.decode (Utf8.beforeFirst cmdlineSep field)

/-- What a run leaves: the file, if one is written, and whether it exits with 0. -/
structure Run where
  written : Option (List UInt8)
  ok : Bool
  deriving DecidableEq

/-- `main` to its end. -/
def packRun (ref kernel dtb : List UInt8) (kernelAddr : Option ℤ) : Run :=
  match packBootImg ref kernel dtb kernelAddr, parseHeader ref with
  | .ok out, .ok hdr => ⟨some out, (printedCmdline hdr.cmdline).isSome⟩
  | _, _ => ⟨none, false⟩

/-- The image, to one who looks at the exit status. -/
def Run.image? (r : Run) : Option (List UInt8) := if r.ok then r.written else none

/-! ### The header page -/

/-- What a header page holds, in front of anything else. -/
def headerBytes (hdr : Header) (newKernelSize : ℕ) : List UInt8 :=
  magic ++ (((headerWords hdr newKernelSize).map Int.toNat).flatMap le32 ++
    (hdr.name ++ (hdr.cmdline ++ (hdr.ids ++ List.replicate (hdr.pageSize - 608) 0))))

/-- A header as a reference image of full length gives it: fields of 16, 512 and 32 bytes, numbers
    that fit in 32 bits, and a page that holds them. -/
structure Header.Fits (hdr : Header) : Prop where
  page : 608 ≤ hdr.pageSize
  name : hdr.name.length = 16
  cmdline : hdr.cmdline.length = 512
  ids : hdr.ids.length = 32
  words : ∀ n : ℕ, n < 2 ^ 32 → ∀ v ∈ headerWords hdr n, 0 ≤ v ∧ v < 2 ^ 32

/-- The header with another kernel size, which `build_header` does not look at. -/
def Header.withKernel (hdr : Header) (n : ℕ) : Header := { hdr with kernelSize := n }

theorem length_words (hdr : Header) (n : ℕ) :
    (((headerWords hdr n).map Int.toNat).flatMap le32).length = 40 := by
  rw [length_le32s]; rfl

theorem length_headerBytes {hdr : Header} (h : hdr.Fits) (n : ℕ) :
    (headerBytes hdr n).length = hdr.pageSize := by
  have hpage := h.page
  simp only [headerBytes, List.length_append, length_words, h.name, h.cmdline, h.ids,
    List.length_replicate, magic, List.length_cons, List.length_nil]
  omega

/-- Overwriting the zeros behind a prefix extends the prefix. -/
theorem sliceAssign_zeros (pre v : List UInt8) {a b k : ℕ} (ha : a = pre.length)
    (hb : b = pre.length + v.length) :
    sliceAssign (pre ++ List.replicate k 0) a b v = pre ++ v ++ List.replicate (k - v.length) 0 := by
  rw [sliceAssign, ha, hb, List.take_left, ← List.drop_drop, List.drop_left, List.drop_replicate]

theorem packInto_zeros {h : List UInt8} {vals : List ℤ} {k : ℕ} (hlen : h.length = 8)
    (hroom : 4 * vals.length ≤ k) (hvals : ∀ v ∈ vals, 0 ≤ v ∧ v < 2 ^ 32) :
    packInto (h ++ List.replicate k 0) vals =
      .ok (h ++ (vals.map Int.toNat).flatMap le32 ++ List.replicate (k - 4 * vals.length) 0) := by
  have hwords : ((vals.map Int.toNat).flatMap le32).length = 4 * vals.length := by
    rw [length_le32s, List.length_map]
  have hfits : 8 + 4 * vals.length ≤ (h ++ List.replicate k 0).length := by
    rw [List.length_append, List.length_replicate]; omega
  rw [packInto, if_pos ⟨hfits, hvals⟩, overlay, hwords, ← hlen, List.take_left, ← List.drop_drop,
    List.drop_left, List.drop_replicate]

/-- `build_header` succeeds and lays the page out. -/
theorem buildHeader_eq {hdr : Header} (h : hdr.Fits) {n : ℕ} (hn : n < 2 ^ 32) :
    buildHeader hdr n = .ok (headerBytes hdr n) := by
  have hpage := h.page
  have hmagic : sliceAssign (List.replicate hdr.pageSize 0) 0 8 magic =
      magic ++ List.replicate (hdr.pageSize - 8) 0 :=
    sliceAssign_zeros [] magic rfl rfl
  have hroom : 4 * (headerWords hdr n).length ≤ hdr.pageSize - 8 := by
    simp only [headerWords, List.length_cons, List.length_nil]; omega
  have hwords := packInto_zeros (h := magic) rfl hroom (h.words n hn)
  have hlen := length_words hdr n
  simp only [buildHeader, hmagic, hwords]
  show Except.ok _ = _
  rw [sliceAssign_zeros _ hdr.name (by simp [magic, hlen]) (by simp [magic, hlen, h.name]),
    sliceAssign_zeros _ hdr.cmdline (by simp [magic, hlen, h.name])
      (by simp [magic, hlen, h.name, h.cmdline]),
    sliceAssign_zeros _ hdr.ids (by simp [magic, hlen, h.name, h.cmdline])
      (by simp [magic, hlen, h.name, h.cmdline, h.ids]), headerBytes]
  have hrest : hdr.pageSize - 8 - 4 * (headerWords hdr n).length - hdr.name.length -
      hdr.cmdline.length - hdr.ids.length = hdr.pageSize - 608 := by
    simp only [headerWords, List.length_cons, List.length_nil, h.name, h.cmdline, h.ids]; omega
  rw [hrest]
  simp only [List.append_assoc]

theorem readWords {hdr : Header} (h : hdr.Fits) {n : ℕ} (hn : n < 2 ^ 32) :
    readLe32s (((headerWords hdr n).map Int.toNat).flatMap le32) =
      [n, hdr.kernelAddr.toNat, hdr.ramdiskSize, hdr.ramdiskAddr, hdr.secondSize, hdr.secondAddr,
        hdr.tagsAddr, hdr.pageSize, hdr.headerVersion, hdr.osVersion] := by
  have hlt : ∀ m ∈ (headerWords hdr n).map Int.toNat, m < 2 ^ 32 := by
    intro m hm
    obtain ⟨v, hv, rfl⟩ := List.mem_map.mp hm
    have := h.words n hn v hv
    omega
  rw [readLe32s_flatMap hlt]
  simp only [headerWords, List.map_cons, List.map_nil, Int.toNat_natCast]

/-- A header page is parsed back, whatever follows it. -/
theorem parseHeader_headerBytes {hdr : Header} (h : hdr.Fits) {n : ℕ} (hn : n < 2 ^ 32)
    (rest : List UInt8) :
    parseHeader (headerBytes hdr n ++ rest) = .ok (hdr.withKernel n) := by
  have hmagic : magic.length = 8 := rfl
  have hlen := length_words hdr n
  have haddr : 0 ≤ hdr.kernelAddr := (h.words n hn _ (by simp [headerWords])).1
  have hwords := readWords h hn
  have hbuf : headerBytes hdr n ++ rest = magic ++ (((headerWords hdr n).map Int.toNat).flatMap le32 ++
      (hdr.name ++ (hdr.cmdline ++ (hdr.ids ++ (List.replicate (hdr.pageSize - 608) 0 ++ rest))))) := by
    simp only [headerBytes, List.append_assoc]
  generalize ((headerWords hdr n).map Int.toNat).flatMap le32 = w at hlen hwords hbuf
  have h0 : slice (headerBytes hdr n ++ rest) 0 8 = magic := by
    rw [hbuf, slice_append_left _ _ hmagic.symm]
  have h8 : slice (headerBytes hdr n ++ rest) 8 48 = w := by
    rw [hbuf, slice_append_right hmagic.le, hmagic, slice_append_left _ _ (by omega)]
  have h48 : slice (headerBytes hdr n ++ rest) 48 64 = hdr.name := by
    rw [hbuf, slice_append_right (by omega), slice_append_right (by omega), hmagic, hlen,
      slice_append_left _ _ (by rw [h.name])]
  have h64 : slice (headerBytes hdr n ++ rest) 64 576 = hdr.cmdline := by
    rw [hbuf, slice_append_right (by omega), slice_append_right (by omega),
      slice_append_right (by rw [h.name]; omega), hmagic, hlen, h.name,
      slice_append_left _ _ (by rw [h.cmdline])]
  have h576 : slice (headerBytes hdr n ++ rest) 576 608 = hdr.ids := by
    rw [hbuf, slice_append_right (by omega), slice_append_right (by omega),
      slice_append_right (by rw [h.name]; omega), slice_append_right (by rw [h.name, h.cmdline]; omega),
      hmagic, hlen, h.name, h.cmdline, slice_append_left _ _ (by rw [h.ids])]
  rw [parseHeader, if_neg (by rw [h0]; exact fun hne => hne rfl), h8, hwords, h48, h64, h576]
  simp only [Int.toNat_of_nonneg haddr, Header.withKernel]

/-- What `parse_header` reads from a reference of full length fits. -/
theorem fits_of_parseHeader {ref : List UInt8} {hdr : Header} (hparse : parseHeader ref = .ok hdr)
    (hlen : 608 ≤ ref.length) (hpage : 608 ≤ hdr.pageSize) : hdr.Fits := by
  rw [parseHeader] at hparse
  split_ifs at hparse
  split at hparse
  · next ks ka rs ra ss sa ta ps ver os hwords =>
    have hlt : ∀ m ∈ [ks, ka, rs, ra, ss, sa, ta, ps, ver, os], m < 2 ^ 32 := by
      rw [← hwords]; exact fun m hm => readLe32s_lt hm
    cases hparse
    refine ⟨hpage, length_slice (by omega), length_slice (by omega), length_slice (by omega), ?_⟩
    intro n hn v hv
    have hnat : ∃ m : ℕ, v = m ∧ m < 2 ^ 32 := by
      rcases List.mem_cons.mp hv with rfl | hv
      · exact ⟨n, rfl, hn⟩
      · obtain ⟨m, hm, rfl⟩ : ∃ m ∈ [ka, rs, ra, ss, sa, ta, ps, ver, os], ((m : ℕ) : ℤ) = v := by
          simpa [headerWords, eq_comm] using hv
        exact ⟨m, rfl, hlt m (List.mem_cons_of_mem _ hm)⟩
    obtain ⟨m, rfl, hm⟩ := hnat
    omega
  · cases hparse

/-- The header with the address the option gives, if it gives one. -/
def Header.withAddr (hdr : Header) (kernelAddr : Option ℤ) : Header :=
  { hdr with kernelAddr := kernelAddr.getD hdr.kernelAddr }

/-- An address the option accepts and the header can hold. -/
def AddrOk (kernelAddr : Option ℤ) : Prop :=
  ∀ addr ∈ kernelAddr, addr % (2 * 1024 * 1024) = 0 ∧ 0 ≤ addr ∧ addr < 2 ^ 32

theorem Header.Fits.withAddr {hdr : Header} (h : hdr.Fits) {kernelAddr : Option ℤ}
    (haddr : AddrOk kernelAddr) : (hdr.withAddr kernelAddr).Fits := by
  refine ⟨h.page, h.name, h.cmdline, h.ids, ?_⟩
  intro n hn v hv
  cases kernelAddr with
  | none => exact h.words n hn v hv
  | some addr =>
    have hwords := h.words n hn
    simp only [headerWords, Header.withAddr, Option.getD_some, List.mem_cons] at hv hwords
    rcases hv with hv | rfl | hv
    · exact hwords v (.inl hv)
    · exact (haddr v rfl).2
    · exact hwords v (.inr (.inr hv))

theorem Header.Fits.withKernel {hdr : Header} (h : hdr.Fits) (n : ℕ) : (hdr.withKernel n).Fits :=
  ⟨h.page, h.name, h.cmdline, h.ids, h.words⟩

theorem overrideAddr_eq (hdr : Header) {kernelAddr : Option ℤ} (haddr : AddrOk kernelAddr) :
    overrideAddr hdr kernelAddr = .ok (hdr.withAddr kernelAddr) := by
  cases kernelAddr with
  | none => rfl
  | some addr => exact if_neg fun hne => hne (haddr addr rfl).1

/-! ### The image -/

/-- The ramdisk section of a buffer. -/
def ramdiskIn (buf : List UInt8) (hdr : Header) : List UInt8 :=
  slice buf (ramdiskOff hdr) (ramdiskOff hdr + hdr.ramdiskSize)

/-- The image made of a header, a kernel blob and a ramdisk. -/
def image (hdr : Header) (blob ramdisk : List UInt8) : List UInt8 :=
  headerBytes hdr blob.length ++ pad blob hdr.pageSize ++ pad ramdisk hdr.pageSize

theorem dvd_ramdiskOff (hdr : Header) : hdr.pageSize ∣ ramdiskOff hdr :=
  Nat.dvd_add (Nat.dvd_refl _) (dvd_roundUp hdr.kernelSize hdr.pageSize)

section Image

variable {hdr : Header} (h : hdr.Fits) (blob ramdisk : List UInt8)
include h

theorem length_image : (image hdr blob ramdisk).length =
    hdr.pageSize + roundUp blob.length hdr.pageSize + roundUp ramdisk.length hdr.pageSize := by
  have hpos : 0 < hdr.pageSize := by have := h.page; omega
  rw [image, List.length_append, List.length_append, length_headerBytes h, pad, pad,
    length_padTo hpos, length_padTo hpos]

theorem dvd_length_image : hdr.pageSize ∣ (image hdr blob ramdisk).length := by
  rw [length_image h blob ramdisk]
  exact Nat.dvd_add (Nat.dvd_add (Nat.dvd_refl _) (dvd_roundUp ..)) (dvd_roundUp ..)

theorem parseHeader_image (hblob : blob.length < 2 ^ 32) :
    parseHeader (image hdr blob ramdisk) = .ok (hdr.withKernel blob.length) := by
  rw [image, List.append_assoc, parseHeader_headerBytes h hblob]

/-- The kernel stands behind the header page. -/
theorem kernel_image : slice (image hdr blob ramdisk) hdr.pageSize (hdr.pageSize + blob.length) = blob := by
  have hlen := length_headerBytes h blob.length
  rw [image, List.append_assoc, slice_append_right hlen.le, hlen, Nat.sub_self,
    Nat.add_sub_cancel_left, slice, List.drop_zero, Nat.sub_zero, pad, take_padTo]

/-- The ramdisk stands where `extract_ramdisk` looks for it. -/
theorem ramdisk_image (hsize : ramdisk.length = hdr.ramdiskSize) :
    ramdiskIn (image hdr blob ramdisk) (hdr.withKernel blob.length) = ramdisk := by
  have hpos : 0 < hdr.pageSize := by have := h.page; omega
  have hoff : (headerBytes hdr blob.length ++ pad blob hdr.pageSize).length =
      ramdiskOff (hdr.withKernel blob.length) := by
    rw [List.length_append, length_headerBytes h, pad, length_padTo hpos]
    rfl
  rw [ramdiskIn, image, slice_append_right hoff.le, hoff, Nat.sub_self, Nat.add_sub_cancel_left, slice,
    List.drop_zero, Nat.sub_zero, ← List.append_nil (pad ramdisk hdr.pageSize), pad]
  exact hsize ▸ take_padTo ..

end Image

/-- `main` on a reference whose header fits: it writes the image, unless the ramdisk is truncated. -/
theorem packBootImg_eq {ref kernel dtb : List UInt8} {hdr : Header} {kernelAddr : Option ℤ}
    (hparse : parseHeader ref = .ok hdr) (hfits : hdr.Fits) (haddr : AddrOk kernelAddr)
    (hblob : (kernel ++ dtb).length < 2 ^ 32) :
    packBootImg ref kernel dtb kernelAddr =
      if (ramdiskIn ref hdr).length = hdr.ramdiskSize then
        .ok (image (hdr.withAddr kernelAddr) (kernel ++ dtb) (ramdiskIn ref hdr))
      else .error .ramdiskMismatch := by
  have hpage := hfits.page
  have hextract : extractRamdisk ref (hdr.withAddr kernelAddr) = .ok (ramdiskIn ref hdr) :=
    if_neg (by change hdr.pageSize ≠ 0; omega)
  have hsize : (hdr.withAddr kernelAddr).ramdiskSize = hdr.ramdiskSize := rfl
  have hheader := buildHeader_eq (hfits.withAddr haddr) hblob
  by_cases htrunc : (ramdiskIn ref hdr).length = hdr.ramdiskSize
  · have hgo : ¬ (ramdiskIn ref hdr).length ≠ hdr.ramdiskSize := fun hne => hne htrunc
    simp only [packBootImg, hparse, overrideAddr_eq hdr haddr, hextract, hsize, hheader, if_pos htrunc,
      if_neg hgo, bind, Except.bind]
    rfl
  · simp only [packBootImg, hparse, overrideAddr_eq hdr haddr, hextract, hsize, if_neg htrunc,
      if_pos htrunc, bind, Except.bind]
    rfl

/-! ### Packing and packing again -/

theorem parseHeader_ok {ref : List UInt8} (hmagic : slice ref 0 8 = magic) (hlen : 608 ≤ ref.length) :
    ∃ hdr, parseHeader ref = .ok hdr := by
  have hwords : (readLe32s (slice ref 8 48)).length = 10 :=
    length_readLe32s (length_slice (by omega))
  rw [parseHeader, if_neg fun hne => hne hmagic]
  match readLe32s (slice ref 8 48), hwords with
  | [_, _, _, _, _, _, _, _, _, _], _ => exact ⟨_, rfl⟩

theorem extractRamdisk_eq {hdr : Header} (h : hdr.Fits) (buf : List UInt8) :
    extractRamdisk buf hdr = .ok (ramdiskIn buf hdr) :=
  if_neg (by have := h.page; omega)

/-- Packing an image that was packed from `ref` is packing `ref`: only the load address is kept,
    unless it is given anew. -/
theorem packBootImg_packBootImg {ref kernel dtb kernel' dtb' : List UInt8} {hdr : Header}
    {kernelAddr kernelAddr' : Option ℤ} (hparse : parseHeader ref = .ok hdr) (hfits : hdr.Fits)
    (haddr : AddrOk kernelAddr) (haddr' : AddrOk kernelAddr')
    (hblob : (kernel ++ dtb).length < 2 ^ 32) (hblob' : (kernel' ++ dtb').length < 2 ^ 32) :
    (packBootImg ref kernel dtb kernelAddr).bind (packBootImg · kernel' dtb' kernelAddr') =
      packBootImg ref kernel' dtb' (kernelAddr' <|> kernelAddr) := by
  have hboth : AddrOk (kernelAddr' <|> kernelAddr) := by
    cases kernelAddr' with
    | none => exact haddr
    | some addr => exact haddr'
  have hwith : ((hdr.withAddr kernelAddr).withAddr kernelAddr') =
      hdr.withAddr (kernelAddr' <|> kernelAddr) := by
    cases kernelAddr' <;> rfl
  rw [packBootImg_eq hparse hfits haddr hblob, packBootImg_eq hparse hfits hboth hblob']
  by_cases hsize : (ramdiskIn ref hdr).length = hdr.ramdiskSize
  · rw [if_pos hsize, if_pos hsize]
    have hfits' := hfits.withAddr haddr
    have hram := ramdisk_image hfits' (kernel ++ dtb) (ramdiskIn ref hdr) hsize
    have hparse' := parseHeader_image hfits' (kernel ++ dtb) (ramdiskIn ref hdr) hblob
    have hagain := packBootImg_eq hparse' (hfits'.withKernel _) haddr' hblob'
    rw [hram] at hagain
    rw [← hwith]
    exact hagain.trans (if_pos hsize)
  · rw [if_neg hsize, if_neg hsize]
    rfl

/-- Packing round-trips through its own parser, and packing again is last-writer-wins. -/
theorem pack_roundtrip (ref kernel dtb : List UInt8) (kernelAddr : Option ℤ)
    (hlen : 608 ≤ ref.length) (hmagic : slice ref 0 8 = magic)
    (hblob : (kernel ++ dtb).length < 2 ^ 32) (haddr : AddrOk kernelAddr) :
    ∃ hdr, parseHeader ref = .ok hdr ∧ (608 ≤ hdr.pageSize →
      (∀ out, packBootImg ref kernel dtb kernelAddr = .ok out →
        let hdr' : Header := { hdr with
          kernelSize := kernel.length + dtb.length, kernelAddr := kernelAddr.getD hdr.kernelAddr }
        parseHeader out = .ok hdr' ∧
        slice out hdr.pageSize (hdr.pageSize + hdr'.kernelSize) = kernel ++ dtb ∧
        extractRamdisk out hdr' = extractRamdisk ref hdr ∧
        hdr.pageSize ∣ ramdiskOff hdr' ∧ hdr.pageSize ∣ out.length) ∧
      ((∃ e, packBootImg ref kernel dtb kernelAddr = .error e) ↔
        ∃ ramdisk, extractRamdisk ref hdr = .ok ramdisk ∧ ramdisk.length ≠ hdr.ramdiskSize) ∧
      ∀ kernel' dtb' kernelAddr', (kernel' ++ dtb').length < 2 ^ 32 → AddrOk kernelAddr' →
        (packBootImg ref kernel dtb kernelAddr).bind (packBootImg · kernel' dtb' kernelAddr') =
          packBootImg ref kernel' dtb' (kernelAddr' <|> kernelAddr)) := by
  obtain ⟨hdr, hparse⟩ := parseHeader_ok hmagic hlen
  refine ⟨hdr, hparse, ?_⟩
  intro hpage
  have hfits := fits_of_parseHeader hparse hlen hpage
  have hpack := packBootImg_eq hparse hfits haddr hblob
  refine ⟨?_, ?_, ?_⟩
  · intro out hout
    rw [hpack] at hout
    split_ifs at hout with hsize
    cases hout
    have hfits' := hfits.withAddr haddr
    have hdr'_eq : (hdr.withAddr kernelAddr).withKernel (kernel ++ dtb).length =
        { hdr with
          kernelSize := kernel.length + dtb.length, kernelAddr := kernelAddr.getD hdr.kernelAddr } := by
      rw [List.length_append]; rfl
    rw [← hdr'_eq]
    refine ⟨parseHeader_image hfits' _ _ hblob, kernel_image hfits' _ _, ?_, dvd_ramdiskOff _,
      dvd_length_image hfits' _ _⟩
    rw [extractRamdisk_eq hfits, extractRamdisk_eq (hfits'.withKernel _), ramdisk_image hfits' _ _ hsize]
  · rw [hpack, extractRamdisk_eq hfits]
    split_ifs with hsize
    · simp [hsize]
    · simp [hsize]
  · intro kernel' dtb' kernelAddr' hblob' haddr'
    exact packBootImg_packBootImg hparse hfits haddr haddr' hblob hblob'

/-- A reference with an empty kernel and a ramdisk of one byte, packed with a kernel and a dtb and a
    new load address. -/
theorem pack_roundtrip_small :
    let ref : List UInt8 := magic ++ [0, 0, 0x40080000, 1, 0x45000000, 0, 0, 0x44000000, 608,
      0].flatMap le32
      ++ List.replicate 560 0 ++ [0xaa]
    ∃ hdr, parseHeader ref = .ok hdr ∧ (608 ≤ hdr.pageSize →
      (∀ out, packBootImg ref [0x1f, 0x8b] [0xd0] (some 0x40200000) = .ok out →
        let hdr' : Header := { hdr with
          kernelSize := 2 + 1, kernelAddr := (some 0x40200000).getD hdr.kernelAddr }
        parseHeader out = .ok hdr' ∧
        slice out hdr.pageSize (hdr.pageSize + hdr'.kernelSize) = [0x1f, 0x8b] ++ [0xd0] ∧
        extractRamdisk out hdr' = extractRamdisk ref hdr ∧
        hdr.pageSize ∣ ramdiskOff hdr' ∧ hdr.pageSize ∣ out.length) ∧
      ((∃ e, packBootImg ref [0x1f, 0x8b] [0xd0] (some 0x40200000) = .error e) ↔
        ∃ ramdisk, extractRamdisk ref hdr = .ok ramdisk ∧ ramdisk.length ≠ hdr.ramdiskSize) ∧
      ∀ kernel' dtb' kernelAddr', (kernel' ++ dtb').length < 2 ^ 32 → AddrOk kernelAddr' →
        (packBootImg ref [0x1f, 0x8b] [0xd0] (some 0x40200000)).bind
            (packBootImg · kernel' dtb' kernelAddr') =
          packBootImg ref kernel' dtb' (kernelAddr' <|> some 0x40200000)) :=
  pack_roundtrip _ _ _ _ (by decide +kernel) (by decide +kernel) (by decide) (by
    intro addr haddr
    cases haddr
    decide)

/-! ### Declared sections -/

/-- Where the second stage belongs: behind the ramdisk's pages. -/
def secondOff (hdr : Header) : ℕ := ramdiskOff hdr + roundUp hdr.ramdiskSize hdr.pageSize

/-- A section of `size` bytes at `off` is all there and is `content`. -/
def Holds (buf : List UInt8) (off size : ℕ) (content : List UInt8) : Prop :=
  content.length = size ∧ slice buf off (off + size) = content

/-- Every section the header of `out` declares is in `out`: the kernel blob, and the ramdisk and the
    second stage of the reference. -/
structure DeclaresWhatItHolds (ref out kernelBlob : List UInt8) (hdr hdr' : Header) : Prop where
  kernel : Holds out hdr'.pageSize hdr'.kernelSize kernelBlob
  ramdisk : Holds out (ramdiskOff hdr') hdr'.ramdiskSize (ramdiskIn ref hdr)
  second : Holds out (secondOff hdr') hdr'.secondSize
    (slice ref (secondOff hdr) (secondOff hdr + hdr.secondSize))

/-- The conditions under which `main` writes: an aligned address that fits, a kernel blob whose size
    fits, and a reference that contains its ramdisk. -/
structure Accepts (ref kernelBlob : List UInt8) (hdr : Header) (kernelAddr : Option ℤ) : Prop where
  addr : AddrOk kernelAddr
  size : kernelBlob.length < 2 ^ 32
  ramdisk : (ramdiskIn ref hdr).length = hdr.ramdiskSize

theorem buildHeader_ok {hdr : Header} {n : ℕ} {h : List UInt8} (hok : buildHeader hdr n = .ok h) :
    ∀ v ∈ headerWords hdr n, 0 ≤ v ∧ v < 2 ^ 32 := by
  by_contra hbad
  have herr : packInto (sliceAssign (List.replicate hdr.pageSize 0) 0 8 magic) (headerWords hdr n) =
      .error .struct := if_neg fun hfits => hbad hfits.2
  simp only [buildHeader, herr, bind, Except.bind] at hok
  cases hok

/-- The steps of a run that writes. -/
theorem packBootImg_ok {ref kernel dtb out : List UInt8} {hdr : Header} {kernelAddr : Option ℤ}
    (hparse : parseHeader ref = .ok hdr) (hout : packBootImg ref kernel dtb kernelAddr = .ok out) :
    (∀ addr ∈ kernelAddr, addr % (2 * 1024 * 1024) = 0) ∧ (ramdiskIn ref hdr).length = hdr.ramdiskSize ∧
      ∃ h, buildHeader (hdr.withAddr kernelAddr) (kernel ++ dtb).length = .ok h ∧
        out = h ++ pad (kernel ++ dtb) hdr.pageSize ++ pad (ramdiskIn ref hdr) hdr.pageSize := by
  obtain ⟨hdr₀, hparse₀, hout⟩ := bind_eq_ok hout
  obtain ⟨hdr₁, hover, hout⟩ := bind_eq_ok hout
  obtain ⟨ramdisk, hext, hout⟩ := bind_eq_ok hout
  rw [hparse] at hparse₀
  cases hparse₀
  have hsame : hdr₁ = hdr.withAddr kernelAddr ∧ ∀ addr ∈ kernelAddr, addr % (2 * 1024 * 1024) = 0 := by
    cases kernelAddr with
    | none => cases hover; exact ⟨rfl, by simp⟩
    | some addr =>
      rw [overrideAddr] at hover
      split_ifs at hover with haligned
      cases hover
      exact ⟨rfl, fun a ha => by cases ha; exact not_not.mp haligned⟩
  obtain ⟨rfl, haligned⟩ := hsame
  rw [extractRamdisk] at hext
  split_ifs at hext
  cases hext
  split_ifs at hout with hsize
  obtain ⟨h, hbuild, hwrite⟩ := bind_eq_ok hout
  cases hwrite
  exact ⟨haligned, not_not.mp hsize, h, hbuild, rfl⟩

/-- `main` writes exactly if the conditions hold. -/
theorem packBootImg_ok_iff {ref kernel dtb : List UInt8} {hdr : Header} {kernelAddr : Option ℤ}
    (hparse : parseHeader ref = .ok hdr) (hfits : hdr.Fits) :
    (∃ out, packBootImg ref kernel dtb kernelAddr = .ok out) ↔
      Accepts ref (kernel ++ dtb) hdr kernelAddr := by
  constructor
  · rintro ⟨out, hout⟩
    obtain ⟨haligned, hsize, h, hbuild, -⟩ := packBootImg_ok hparse hout
    have hwords := buildHeader_ok hbuild
    refine ⟨fun addr haddr => ⟨haligned addr haddr, ?_⟩, ?_, hsize⟩
    · cases haddr
      exact hwords addr (by simp [headerWords, Header.withAddr])
    · have := hwords (kernel ++ dtb).length (by simp [headerWords])
      omega
  · intro hacc
    exact ⟨_, (packBootImg_eq hparse hfits hacc.addr hacc.size).trans (if_pos hacc.ramdisk)⟩

/-- What a run writes is the image, of an address that fits. -/
theorem image_of_packBootImg {ref kernel dtb out : List UInt8} {hdr : Header} {kernelAddr : Option ℤ}
    (hparse : parseHeader ref = .ok hdr) (hfits : hdr.Fits)
    (hout : packBootImg ref kernel dtb kernelAddr = .ok out) :
    (hdr.withAddr kernelAddr).Fits ∧
      out = image (hdr.withAddr kernelAddr) (kernel ++ dtb) (ramdiskIn ref hdr) := by
  have hacc := (packBootImg_ok_iff hparse hfits).mp ⟨out, hout⟩
  rw [packBootImg_eq hparse hfits hacc.addr hacc.size, if_pos hacc.ramdisk] at hout
  cases hout
  exact ⟨hfits.withAddr hacc.addr, rfl⟩

/-- The second stage is the one section that is declared without being copied. -/
theorem declares_iff {ref out kernelBlob : List UInt8} {hdr : Header} {kernelAddr : Option ℤ}
    (hfits : hdr.Fits) (hacc : Accepts ref kernelBlob hdr kernelAddr)
    (hout : out = image (hdr.withAddr kernelAddr) kernelBlob (ramdiskIn ref hdr)) :
    DeclaresWhatItHolds ref out kernelBlob hdr
      ((hdr.withAddr kernelAddr).withKernel kernelBlob.length) ↔ hdr.secondSize = 0 := by
  have hfits' := hfits.withAddr hacc.addr
  have hlen : out.length = secondOff ((hdr.withAddr kernelAddr).withKernel kernelBlob.length) := by
    rw [hout, length_image hfits', hacc.ramdisk]; rfl
  have hnone : ∀ size, slice out (secondOff ((hdr.withAddr kernelAddr).withKernel kernelBlob.length))
      (secondOff ((hdr.withAddr kernelAddr).withKernel kernelBlob.length) + size) = [] := by
    intro size
    rw [slice, ← hlen, List.drop_length, List.take_nil]
  constructor
  · rintro ⟨-, -, hsize, hcontent⟩
    rw [hnone] at hcontent
    rw [← hcontent] at hsize
    exact hsize.symm
  · intro hzero
    have hnil : slice ref (secondOff hdr) (secondOff hdr + hdr.secondSize) = [] := by
      rw [hzero, slice_self]
    refine ⟨⟨rfl, ?_⟩, ⟨hacc.ramdisk, ?_⟩, ?_⟩
    · rw [hout]; exact kernel_image hfits' _ _
    · rw [hout]; exact ramdisk_image hfits' _ _ hacc.ramdisk
    · rw [hnil]
      exact ⟨hzero.symm, hnone _⟩

/-- What the tool does with a reference: it refuses, or its output declares only what it holds. -/
def PacksFaithfully (ref kernel dtb : List UInt8) (kernelAddr : Option ℤ) : Prop :=
  ∀ out, packBootImg ref kernel dtb kernelAddr = .ok out →
    ∃ hdr hdr', parseHeader ref = .ok hdr ∧ parseHeader out = .ok hdr' ∧
      DeclaresWhatItHolds ref out (kernel ++ dtb) hdr hdr'

theorem packsFaithfully_of_accepts {ref kernel dtb : List UInt8} {hdr : Header} {kernelAddr : Option ℤ}
    (hparse : parseHeader ref = .ok hdr) (hfits : hdr.Fits)
    (hacc : Accepts ref (kernel ++ dtb) hdr kernelAddr) :
    PacksFaithfully ref kernel dtb kernelAddr ↔ hdr.secondSize = 0 := by
  have hpack : packBootImg ref kernel dtb kernelAddr =
      .ok (image (hdr.withAddr kernelAddr) (kernel ++ dtb) (ramdiskIn ref hdr)) :=
    (packBootImg_eq hparse hfits hacc.addr hacc.size).trans (if_pos hacc.ramdisk)
  have hparse' := parseHeader_image (hfits.withAddr hacc.addr) (kernel ++ dtb) (ramdiskIn ref hdr) hacc.size
  have hiff := declares_iff hfits hacc rfl
  constructor
  · intro h
    obtain ⟨hdr₁, hdr₂, hparse₁, hparse₂, hholds⟩ := h _ hpack
    rw [hparse] at hparse₁
    rw [hparse'] at hparse₂
    cases hparse₁
    cases hparse₂
    exact hiff.mp hholds
  · intro hzero out hout
    rw [hpack] at hout
    cases hout
    exact ⟨_, _, hparse, hparse', hiff.mpr hzero⟩

/-- A packed image declares only what it holds, or the tool refuses, exactly if a reference that is
    accepted has no second stage. -/
theorem packs_faithfully_iff (ref kernel dtb : List UInt8) (kernelAddr : Option ℤ) (hdr : Header)
    (hlen : 608 ≤ ref.length) (hparse : parseHeader ref = .ok hdr) (hpage : 608 ≤ hdr.pageSize) :
    PacksFaithfully ref kernel dtb kernelAddr ↔
      (Accepts ref (kernel ++ dtb) hdr kernelAddr → hdr.secondSize = 0) := by
  have hfits := fits_of_parseHeader hparse hlen hpage
  constructor
  · intro h hacc
    exact (packsFaithfully_of_accepts hparse hfits hacc).mp h
  · intro h out hout
    have hacc := (packBootImg_ok_iff hparse hfits).mp ⟨out, hout⟩
    exact (packsFaithfully_of_accepts hparse hfits hacc).mpr (h hacc) out hout

/-- A reference of one page with an empty kernel, an empty ramdisk and a second stage of one byte
    behind them. -/
def secondStageRef : List UInt8 :=
  magic ++ [0, 0x40080000, 0, 0x45000000, 1, 0x40f00000, 0x44000000, 608, 0, 0].flatMap le32 ++
    List.replicate 560 0 ++ [0xbb]

theorem secondStageRef_header : ∃ hdr, parseHeader secondStageRef = .ok hdr ∧ hdr.Fits ∧
    hdr.secondSize = 1 ∧ Accepts secondStageRef ([0x1f, 0x8b] ++ [0xd0]) hdr none := by
  have hlen : 608 ≤ secondStageRef.length := by decide +kernel
  have hmagic : slice secondStageRef 0 8 = magic := by decide +kernel
  obtain ⟨hdr, hparse⟩ := parseHeader_ok hmagic hlen
  have hread : (parseHeader secondStageRef).toOption.map
      (fun h => (h.pageSize, h.secondSize, h.ramdiskSize)) = some (608, 1, 0) := by decide +kernel
  rw [hparse] at hread
  obtain ⟨hpage, hsecond, hram⟩ : hdr.pageSize = 608 ∧ hdr.secondSize = 1 ∧ hdr.ramdiskSize = 0 := by
    simpa [Except.toOption] using hread
  refine ⟨hdr, hparse, fits_of_parseHeader hparse hlen hpage.ge, hsecond, by simp [AddrOk], by decide, ?_⟩
  rw [ramdiskIn, hram, slice_self]
  rfl

theorem packs_faithfully_iff_second : ∃ hdr, parseHeader secondStageRef = .ok hdr ∧
    (PacksFaithfully secondStageRef [0x1f, 0x8b] [0xd0] none ↔
      (Accepts secondStageRef ([0x1f, 0x8b] ++ [0xd0]) hdr none → hdr.secondSize = 0)) := by
  obtain ⟨hdr, hparse, hfits, -, -⟩ := secondStageRef_header
  exact ⟨hdr, hparse, packs_faithfully_iff _ _ _ _ hdr (by decide +kernel) hparse hfits.page⟩

/-- The image packed from it declares a second stage and ends before it. -/
theorem second_stage_dropped : ¬ PacksFaithfully secondStageRef [0x1f, 0x8b] [0xd0] none := by
  obtain ⟨hdr, hparse, hfits, hsecond, hacc⟩ := secondStageRef_header
  intro h
  have := (packsFaithfully_of_accepts hparse hfits hacc).mp h
  omega

end GeminiLinux.PackBootImg
