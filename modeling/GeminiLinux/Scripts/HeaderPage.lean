import GeminiLinux.Lib.Utf8
import GeminiLinux.Scripts.PackBootImg

/-! The header page of a packed image, byte by byte against that of the reference:

        0       8           12          16                     608
        | magic | new size  | address   | copied from the dict | zeros up to the page's end
                              the same unless given anew

    The dict ends with `ids`. What a reference has behind it in its first page, `extra_cmdline` first, is
    not in the dict. -/

namespace GeminiLinux.PackBootImg
open Bytes Utf8

/-! ### The layout -/

/-- The bytes of the dict behind the load address. -/
def copied (hdr : Header) : List UInt8 :=
  [hdr.ramdiskSize, hdr.ramdiskAddr, hdr.secondSize, hdr.secondAddr, hdr.tagsAddr, hdr.pageSize,
    hdr.headerVersion, hdr.osVersion].flatMap le32 ++ hdr.name ++ hdr.cmdline ++ hdr.ids

/-- A header page from its kernel size, its load address, the rest of the dict, and what is behind. -/
def page (size addr : ℕ) (rest tail : List UInt8) : List UInt8 :=
  magic ++ (le32 size ++ (le32 addr ++ (rest ++ tail)))

theorem length_copied {hdr : Header} (h : hdr.Fits) : (copied hdr).length = 592 := by
  rw [copied, List.length_append, List.length_append, List.length_append, length_le32s, h.name, h.cmdline,
    h.ids]
  rfl

theorem getElem?_page (size addr : ℕ) {rest : List UInt8} (hrest : rest.length = 592) (tail : List UInt8)
    (i : ℕ) : (page size addr rest tail)[i]? =
      if i < 8 then magic[i]? else if i < 12 then (le32 size)[i - 8]?
      else if i < 16 then (le32 addr)[i - 12]? else if i < 608 then rest[i - 16]? else tail[i - 608]? := by
  have hmagic : magic.length = 8 := rfl
  have hword (n : ℕ) : (le32 n).length = 4 := rfl
  rw [page, List.getElem?_append, hmagic, List.getElem?_append, hword, List.getElem?_append, hword,
    List.getElem?_append, hrest, Nat.sub_sub, Nat.sub_sub, Nat.sub_sub]
  split_ifs <;> first | rfl | omega

theorem headerBytes_withAddr (hdr : Header) (n : ℕ) (kernelAddr : Option ℤ) :
    headerBytes (hdr.withAddr kernelAddr) n = page n (kernelAddr.getD hdr.kernelAddr).toNat (copied hdr)
      (List.replicate (hdr.pageSize - 608) 0) := by
  simp only [headerBytes, headerWords, page, copied, List.map_cons, List.map_nil, List.flatMap_cons,
    List.append_assoc, Int.toNat_natCast]
  rfl

/-- The page a header was parsed from. -/
theorem take_eq_page {ref : List UInt8} {hdr : Header} (hparse : parseHeader ref = .ok hdr)
    (hlen : 608 ≤ ref.length) (hpage : 608 ≤ hdr.pageSize) :
    ref.take hdr.pageSize = page hdr.kernelSize hdr.kernelAddr.toNat (copied hdr)
      (slice ref 608 hdr.pageSize) := by
  have hwords : (readLe32s (slice ref 8 48)).flatMap le32 = slice ref 8 48 :=
    flatMap_readLe32s (n := 10) (length_slice (by omega))
  have hall : ref.take hdr.pageSize = slice ref 0 8 ++ (slice ref 8 48 ++ (slice ref 48 64 ++
      (slice ref 64 576 ++ (slice ref 576 608 ++ slice ref 608 hdr.pageSize)))) := by
    rw [slice_append_slice _ (by omega) hpage, slice_append_slice _ (by omega) (by omega),
      slice_append_slice _ (by omega) (by omega), slice_append_slice _ (by omega) (by omega),
      slice_append_slice _ (by omega) (by omega)]
    rfl
  rw [hall]
  rw [parseHeader] at hparse
  split_ifs at hparse with hmagic
  split at hparse
  · next hread =>
    rw [hread] at hwords
    cases hparse
    rw [not_not.mp hmagic, ← hwords]
    simp only [page, copied, List.flatMap_cons, List.flatMap_nil, List.append_assoc, Int.toNat_natCast]
  · cases hparse

/-! ### What packing keeps -/

/-- The first page of `out` is that of `ref`, but for the kernel size and a load address given anew. -/
def KeepsHeader (ref out : List UInt8) (pageSize : ℕ) (kernelAddr : Option ℤ) : Prop :=
  ∀ i < pageSize, ¬ (8 ≤ i ∧ i < 12) → ¬ (kernelAddr.isSome ∧ 12 ≤ i ∧ i < 16) → out[i]? = ref[i]?

section Page

variable {ref out kernel dtb : List UInt8} {hdr : Header} {kernelAddr : Option ℤ}

theorem getElem?_packed (hparse : parseHeader ref = .ok hdr) (hfits : hdr.Fits)
    (hout : packBootImg ref kernel dtb kernelAddr = .ok out) {i : ℕ} (hi : i < hdr.pageSize) :
    out[i]? = (page (kernel ++ dtb).length (kernelAddr.getD hdr.kernelAddr).toNat (copied hdr)
      (List.replicate (hdr.pageSize - 608) 0))[i]? := by
  obtain ⟨hfits', rfl⟩ := image_of_packBootImg hparse hfits hout
  have hlen : i < (headerBytes (hdr.withAddr kernelAddr) (kernel ++ dtb).length).length := by
    rwa [length_headerBytes hfits']
  rw [image, List.append_assoc, List.getElem?_append_left hlen, headerBytes_withAddr]

/-- Behind the dict the page is empty. -/
theorem getElem?_packed_tail (hparse : parseHeader ref = .ok hdr) (hfits : hdr.Fits)
    (hout : packBootImg ref kernel dtb kernelAddr = .ok out) {i : ℕ} (h608 : 608 ≤ i) (hi : i < hdr.pageSize) :
    out[i]? = some 0 := by
  rw [getElem?_packed hparse hfits hout hi, getElem?_page _ _ (length_copied hfits), if_neg (by omega),
    if_neg (by omega), if_neg (by omega), if_neg (by omega), List.getElem?_replicate, if_pos (by omega)]

/-- An image that is packed has the header page of its reference exactly if that page ends with the dict,
    and only zeros follow. -/
theorem pack_keeps_header_iff (hparse : parseHeader ref = .ok hdr) (hpage : 608 ≤ hdr.pageSize)
    (hfull : hdr.pageSize ≤ ref.length) (hout : packBootImg ref kernel dtb kernelAddr = .ok out) :
    KeepsHeader ref out hdr.pageSize kernelAddr ↔
      ∀ i, 608 ≤ i → i < hdr.pageSize → ref[i]? = some 0 := by
  have hfits := fits_of_parseHeader hparse (hpage.trans hfull) hpage
  have hcopied := length_copied hfits
  have hpacked {i : ℕ} (hi : i < hdr.pageSize) := getElem?_packed hparse hfits hout hi
  have href {i : ℕ} (hi : i < hdr.pageSize) : ref[i]? =
      (page hdr.kernelSize hdr.kernelAddr.toNat (copied hdr) (slice ref 608 hdr.pageSize))[i]? := by
    rw [← take_eq_page hparse (hpage.trans hfull) hpage, List.getElem?_take, if_pos hi]
  have hzero {i : ℕ} (h608 : 608 ≤ i) (hi : i < hdr.pageSize) : out[i]? = some 0 :=
    getElem?_packed_tail hparse hfits hout h608 hi
  constructor
  · intro h i h608 hi
    rw [← h i hi (by omega) (by omega), hzero h608 hi]
  · intro h i hi hsize haddr
    rcases Nat.lt_or_ge i 608 with h608 | h608
    · rw [hpacked hi, href hi, getElem?_page _ _ hcopied, getElem?_page _ _ hcopied]
      cases kernelAddr with
      | none =>
        rw [Option.getD_none]
        split_ifs <;> first | rfl | omega
      | some addr =>
        simp only [Option.isSome_some, true_and] at haddr
        split_ifs <;> first | rfl | omega
    · rw [hzero h608 hi, h i h608 hi]

end Page

/-- A reference with more kernel arguments behind `ids`, where the v0 header has `extra_cmdline`. -/
def extraCmdlineRef : List UInt8 :=
  magic ++ [0, 0x40080000, 0, 0x45000000, 0, 0x40f00000, 0x44000000, 2048, 0, 0].flatMap le32 ++
    List.replicate 560 0 ++ encode "maxcpus=1" ++ List.replicate 1431 0

/-- It is packed with every kernel blob whose size fits. -/
theorem packBootImg_extraCmdlineRef (kernel dtb : List UInt8) (hsize : (kernel ++ dtb).length < 2 ^ 32) :
    ∃ hdr out, parseHeader extraCmdlineRef = .ok hdr ∧ hdr.pageSize = 2048 ∧
      packBootImg extraCmdlineRef kernel dtb none = .ok out := by
  have hlen : 608 ≤ extraCmdlineRef.length := by decide +kernel
  have hmagic : slice extraCmdlineRef 0 8 = magic := by decide +kernel
  obtain ⟨hdr, hparse⟩ := parseHeader_ok hmagic hlen
  have hread : (parseHeader extraCmdlineRef).toOption.map (fun h => (h.pageSize, h.ramdiskSize)) =
      some (2048, 0) := by decide +kernel
  rw [hparse] at hread
  obtain ⟨hpage, hram⟩ : hdr.pageSize = 2048 ∧ hdr.ramdiskSize = 0 := by simpa [Except.toOption] using hread
  have hfits := fits_of_parseHeader hparse hlen (by omega)
  have hacc : Accepts extraCmdlineRef (kernel ++ dtb) hdr none := by
    refine ⟨by simp [AddrOk], hsize, ?_⟩
    rw [ramdiskIn, hram, slice_self]
    rfl
  obtain ⟨out, hout⟩ := (packBootImg_ok_iff hparse hfits).mpr hacc
  exact ⟨hdr, out, hparse, hpage, hout⟩

theorem pack_keeps_header_iff_extraCmdlineRef : ∃ hdr out, parseHeader extraCmdlineRef = .ok hdr ∧
    packBootImg extraCmdlineRef [0x1f, 0x8b] [0xd0] none = .ok out ∧
    (KeepsHeader extraCmdlineRef out hdr.pageSize none ↔
      ∀ i, 608 ≤ i → i < hdr.pageSize → extraCmdlineRef[i]? = some 0) := by
  obtain ⟨hdr, out, hparse, hpage, hout⟩ := packBootImg_extraCmdlineRef [0x1f, 0x8b] [0xd0] (by decide)
  have hfull : extraCmdlineRef.length = 2048 := by decide +kernel
  exact ⟨hdr, out, hparse, hout, pack_keeps_header_iff hparse (by omega) (by omega) hout⟩

/-- Packing it loses the arguments. -/
theorem extra_cmdline_lost : ∃ hdr out, parseHeader extraCmdlineRef = .ok hdr ∧ 608 ≤ hdr.pageSize ∧
    hdr.pageSize ≤ extraCmdlineRef.length ∧
    packBootImg extraCmdlineRef [0x1f, 0x8b] [0xd0] none = .ok out ∧
    ¬ KeepsHeader extraCmdlineRef out hdr.pageSize none := by
  obtain ⟨hdr, out, hparse, hpage, hout⟩ := packBootImg_extraCmdlineRef [0x1f, 0x8b] [0xd0] (by decide)
  have hfull : extraCmdlineRef.length = 2048 := by decide +kernel
  refine ⟨hdr, out, hparse, by omega, by omega, hout, ?_⟩
  intro hkeeps
  have hsame := hkeeps 608 (by omega) (by omega) (by simp)
  have hfits := fits_of_parseHeader hparse (by omega) (by omega)
  rw [getElem?_packed_tail hparse hfits hout (by omega) (by omega)] at hsame
  have hletter : extraCmdlineRef[608]? = some 0x6d := by decide +kernel
  rw [hletter] at hsame
  cases hsame

end GeminiLinux.PackBootImg
