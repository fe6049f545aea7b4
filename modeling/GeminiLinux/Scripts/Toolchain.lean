import GeminiLinux.Scripts.PatchVendorCmdline

/-! The two image tools together. A boot image comes out of runs of both, each on the file that the one before
    it has written, as long as each exits with 0. Where `pack-boot-img.py` can print the command line, in which
    order they were run does not matter, nor how often:

        ref ─▶ pack k₁ ─▶ patch "a" ─▶ pack k₂ ─▶ patch "b"
        ref ─▶ pack k₂ ─▶ patch "a b"                            the same file, or none from either -/

namespace GeminiLinux.PatchVendorCmdline
open Bytes Utf8
open PackBootImg hiding magic

/-- The arguments of a pack. -/
structure Packing where
  kernel : List UInt8
  dtb : List UInt8
  kernelAddr : Option ℤ

/-- A run of one of the tools. -/
inductive Tool where
  | pack (p : Packing)
  | patch (append : String)

/-- The file of a run that exits with 0. -/
def Tool.run (i : List UInt8) : Tool → Option (List UInt8)
  | .pack p => (packRun i p.kernel p.dtb p.kernelAddr).image?
  | .patch append => (patchCmdline i append).toOption

def runAll (tools : List Tool) (i : List UInt8) : Option (List UInt8) := tools.foldlM Tool.run i

theorem runAll_cons (t : Tool) (tools : List Tool) (i : List UInt8) :
    runAll (t :: tools) i = (t.run i).bind (runAll tools) := List.foldlM_cons

/-- Arguments that the tool does not refuse by themselves. A text has no NUL, being an argument. -/
def Tool.Ok : Tool → Prop
  | .pack p => AddrOk p.kernelAddr ∧ (p.kernel ++ p.dtb).length < 2 ^ 32
  | .patch append => Char.ofNat 0 ∉ append.toList

/-! ### The normal form -/

/-- At most one pack, and then at most one patch. -/
structure Plan where
  pack : Option Packing
  patch : Option String

def Plan.tools (p : Plan) : List Tool := (p.pack.map Tool.pack).toList ++ (p.patch.map Tool.patch).toList

/-- A pack that another one may follow: then only its address can stay. -/
def Packing.before (p : Packing) : Option Packing → Packing
  | none => p
  | some p' => { p' with kernelAddr := p'.kernelAddr <|> p.kernelAddr }

/-- A text that another one may follow. -/
def textBefore (append : String) : Option String → String
  | none => append
  | some text => append ++ " " ++ text

/-- A run in front of a plan. -/
def Plan.after (p : Plan) : Tool → Plan
  | .pack packing => { p with pack := some (packing.before p.pack) }
  | .patch append => { p with patch := some (textBefore append p.patch) }

/-- The last kernel and device tree, the last address that was given, and all the texts. -/
def plan (tools : List Tool) : Plan := tools.foldr (fun t p => p.after t) ⟨none, none⟩

/-! ### What both tools can read -/

/-- A header of full length whose command line is text, as either tool reads it. -/
structure Readable (i : List UInt8) : Prop where
  length : 608 ≤ i.length
  header : ∃ hdr, parseHeader i = .ok hdr ∧ 608 ≤ hdr.pageSize
  text : ∃ old, decode (untilNul (slice i 64 576)) = some old
  printed : (printedCmdline (slice i 64 576)).isSome = true

theorem toOption_bind {ε α β : Type} (r : Except ε α) (f : α → Except ε β) :
    (r.bind f).toOption = r.toOption.bind fun a => (f a).toOption := by
  cases r <;> rfl

theorem toOption_eq_some {ε α : Type} {r : Except ε α} {a : α} : r.toOption = some a ↔ r = .ok a := by
  cases r with
  | error e => exact ⟨nofun, nofun⟩
  | ok b => exact ⟨fun h => congrArg Except.ok (Option.some.inj h), fun h => by cases h; rfl⟩

section Readable

variable {i j : List UInt8}

/-- A pack of a readable image exits with 0 if it writes. -/
theorem run_pack (h : Readable i) (p : Packing) :
    (Tool.pack p).run i = (packBootImg i p.kernel p.dtb p.kernelAddr).toOption := by
  obtain ⟨hdr, hparse, -⟩ := h.header
  have hprinted := h.printed
  rw [(parseHeader_reads hparse).2] at hprinted
  exact (packRun_image? hparse _ _ _).trans (if_pos hprinted)

theorem readable_pack (h : Readable i) {p : Packing} (hj : packBootImg i p.kernel p.dtb p.kernelAddr = .ok j) :
    Readable j := by
  obtain ⟨hdr, hparse, hpage⟩ := h.header
  obtain ⟨old, hold⟩ := h.text
  have hfits := fits_of_parseHeader hparse h.length hpage
  have hacc := (packBootImg_ok_iff hparse hfits).mp ⟨j, hj⟩
  obtain ⟨hfits', rfl⟩ := image_of_packBootImg hparse hfits hj
  have hparse' := parseHeader_image hfits' (p.kernel ++ p.dtb) (ramdiskIn i hdr) hacc.size
  have hfield : slice (image (hdr.withAddr p.kernelAddr) (p.kernel ++ p.dtb) (ramdiskIn i hdr)) 64 576 =
      slice i 64 576 := (parseHeader_reads hparse').2.trans (parseHeader_reads hparse).2.symm
  refine ⟨?_, ⟨_, hparse', hpage⟩, ⟨old, ?_⟩, ?_⟩
  · rw [length_image hfits', Nat.add_assoc]
    exact hpage.trans (Nat.le_add_right _ _)
  · rw [hfield]
    exact hold
  · rw [hfield]
    exact h.printed

theorem readable_patch (h : Readable i) {append : String} (happend : Char.ofNat 0 ∉ append.toList)
    (hj : patchCmdline i append = .ok j) : Readable j := by
  obtain ⟨hdr, hparse, hpage⟩ := h.header
  obtain ⟨old, hold⟩ := h.text
  have hmagic := (parseHeader_reads hparse).1
  have hb : 576 ≤ i.length := le_trans (by decide) h.length
  rw [patchCmdline_eq hmagic] at hj
  rcases hnew : newField (slice i 64 576) append with e | new
  · rw [hnew] at hj
    cases hj
  · rw [hnew] at hj
    cases hj
    have hlen := length_newField hnew
    refine ⟨?_, ⟨_, parseHeader_sliceAssign h.length hlen hparse, hpage⟩, ⟨old ++ " " ++ append, ?_⟩, ?_⟩
    · rw [length_sliceAssign (by decide) hb hlen]
      exact h.length
    · rw [slice_sliceAssign_self (by decide) hb hlen]
      exact (newField_text hold happend hnew).2
    · rw [slice_sliceAssign_self (by decide) hb hlen]
      exact printedCmdline_newField hold happend hnew

theorem readable_run (h : Readable i) {t : Tool} (ht : t.Ok) (hj : t.run i = some j) : Readable j := by
  cases t with
  | pack p =>
    rw [run_pack h] at hj
    exact readable_pack h (toOption_eq_some.mp hj)
  | patch append => exact readable_patch h ht (toOption_eq_some.mp hj)

/-! ### One run in front of a plan -/

theorem pack_pack (h : Readable i) {p p' : Packing} (hp : (Tool.pack p).Ok) (hp' : (Tool.pack p').Ok) :
    ((Tool.pack p).run i).bind (Tool.run · (.pack p')) = (Tool.pack (p.before (some p'))).run i := by
  obtain ⟨hdr, hparse, hpage⟩ := h.header
  have hfits := fits_of_parseHeader hparse h.length hpage
  have hpack := packBootImg_packBootImg hparse hfits hp.1 hp'.1 hp.2 hp'.2
  have hboth : ((Tool.pack p).run i).bind (Tool.run · (.pack p')) =
      ((packBootImg i p.kernel p.dtb p.kernelAddr).bind (packBootImg · p'.kernel p'.dtb p'.kernelAddr)).toOption := by
    rw [run_pack h, toOption_bind]
    refine Option.bind_congr fun j hj => ?_
    exact run_pack (readable_pack h (toOption_eq_some.mp hj)) p'
  rw [hboth, run_pack h, hpack]
  rfl

theorem patch_patch (h : Readable i) {append : String} (happend : (Tool.patch append).Ok) (text : String) :
    ((Tool.patch append).run i).bind (Tool.run · (.patch text)) =
      (Tool.patch (textBefore append (some text))).run i := by
  obtain ⟨hdr, hparse, -⟩ := h.header
  obtain ⟨old, hold⟩ := h.text
  exact (toOption_bind _ _).symm.trans
    (patchCmdline_patchCmdline h.length (parseHeader_reads hparse).1 hold happend)

theorem patch_pack (h : Readable i) {append : String} (happend : (Tool.patch append).Ok) (p : Packing) :
    ((Tool.patch append).run i).bind (Tool.run · (.pack p)) =
      ((Tool.pack p).run i).bind (Tool.run · (.patch append)) := by
  obtain ⟨hdr, hparse, hpage⟩ := h.header
  obtain ⟨old, hold⟩ := h.text
  have hprinted := h.printed
  rw [(parseHeader_reads hparse).2] at hprinted
  exact (commutes_iff h.length hparse hpage hold happend).mpr (.inl hprinted) p.kernel p.dtb p.kernelAddr

/-- A patch in front of one that may follow. -/
theorem patch_patches (h : Readable i) {append : String} (happend : (Tool.patch append).Ok) (patch : Option String) :
    ((Tool.patch append).run i).bind (runAll (patch.map Tool.patch).toList) =
      runAll [.patch (textBefore append patch)] i := by
  cases patch with
  | none => exact (runAll_cons _ _ _).symm
  | some text =>
    have hboth := patch_patch h happend text
    show ((Tool.patch append).run i).bind (runAll [.patch text]) = _
    rw [runAll_cons, ← hboth, Option.bind_assoc]
    rfl

/-- A run and then a plan is a plan. -/
theorem run_plan (h : Readable i) {t : Tool} (ht : t.Ok) {p : Plan} (hp : ∀ packing ∈ p.pack, (Tool.pack packing).Ok) :
    (t.run i).bind (runAll p.tools) = runAll (p.after t).tools i := by
  obtain ⟨pack, patch⟩ := p
  cases t with
  | pack packing =>
    cases pack with
    | none => exact (runAll_cons _ _ _).symm
    | some packing' =>
      have hboth := pack_pack h ht (hp packing' rfl)
      show ((Tool.pack packing).run i).bind (runAll (.pack packing' :: _)) = runAll (.pack (packing.before _) :: _) i
      rw [runAll_cons, ← hboth, Option.bind_assoc]
      rfl
  | patch append =>
    cases pack with
    | none => exact patch_patches h ht patch
    | some packing =>
      have hafter (j : List UInt8) (hj : (Tool.pack packing).run i = some j) :
          ((Tool.patch append).run j).bind (runAll (patch.map Tool.patch).toList) =
            runAll [.patch (textBefore append patch)] j :=
        patch_patches (readable_run h (hp packing rfl) hj) ht patch
      show ((Tool.patch append).run i).bind (runAll (.pack packing :: (patch.map Tool.patch).toList)) =
        runAll [.pack packing, .patch (textBefore append patch)] i
      rw [runAll_cons, ← Option.bind_congr hafter, ← Option.bind_assoc, ← patch_pack h ht, Option.bind_assoc]
      rfl

end Readable

theorem plan_ok {tools : List Tool} (h : ∀ t ∈ tools, t.Ok) : ∀ packing ∈ (plan tools).pack, (Tool.pack packing).Ok := by
  induction tools with
  | nil => exact nofun
  | cons t tools ih =>
    have hrest := ih fun t' ht' => h t' (List.mem_cons_of_mem _ ht')
    have ht : t.Ok := h t List.mem_cons_self
    show ∀ packing ∈ ((plan tools).after t).pack, _
    cases t with
    | patch append => exact hrest
    | pack packing =>
      rintro _ ⟨⟩
      cases hpack : (plan tools).pack with
      | none => exact ht
      | some packing' =>
        have hlast := hrest packing' hpack
        obtain ⟨kernel, dtb, kernelAddr⟩ := packing'
        refine ⟨?_, hlast.2⟩
        cases kernelAddr with
        | none => exact ht.1
        | some addr => exact hlast.1

/-- Any runs of the two tools are one pack and one patch: of the last kernel and device tree, with the last
    address that was given, and of all the texts. The files are the same, and where a run exits with 1 on the
    one way there is none on the other. -/
theorem runAll_eq_plan {tools : List Tool} (htools : ∀ t ∈ tools, t.Ok) {i : List UInt8} (h : Readable i) :
    runAll tools i = runAll (plan tools).tools i := by
  induction tools generalizing i with
  | nil => rfl
  | cons t tools ih =>
    have hrest : ∀ t' ∈ tools, t'.Ok := fun t' ht' => htools t' (List.mem_cons_of_mem _ ht')
    have ht : t.Ok := htools t List.mem_cons_self
    have hthen (j : List UInt8) (hj : t.run i = some j) : runAll tools j = runAll (plan tools).tools j :=
      ih hrest (readable_run h ht hj)
    rw [runAll_cons, Option.bind_congr hthen, run_plan h ht (plan_ok hrest)]
    rfl

/-- The image of one page, with nothing behind the NUL. -/
def cleanImage : List UInt8 :=
  magic ++ [0, 0x40080000, 0, 0x45000000, 0, 0, 0x44000000, 608, 0, 0].flatMap le32 ++
    List.replicate 16 0 ++ encode "ro" ++ List.replicate 542 0

theorem readable_cleanImage : Readable cleanImage := by
  have hlen : 608 ≤ cleanImage.length := by decide +kernel
  have hmagic : slice cleanImage 0 8 = magic := by decide +kernel
  obtain ⟨hdr, hparse⟩ := parseHeader_ok hmagic hlen
  have hpage : (parseHeader cleanImage).toOption.map Header.pageSize = some 608 := by decide +kernel
  rw [hparse] at hpage
  have htext : untilNul (slice cleanImage 64 576) = encode "ro" := by decide +kernel
  have hfield : slice cleanImage 64 576 = encode "ro" ++ List.replicate 510 0 := by decide +kernel
  exact ⟨hlen, ⟨hdr, hparse, (Option.some.inj hpage).ge⟩, ⟨"ro", by rw [htext, decode_encode]⟩,
    by rw [hfield]; exact printedCmdline_text _ _⟩

/-- Two packs with a text in front of each, the first one with an address. -/
def fourRuns : List Tool :=
  [.patch "quiet", .pack ⟨[0x1f, 0x8b], [0xd0], some 0x40200000⟩, .patch "maxcpus=1", .pack ⟨[0x1f], [0xd0], none⟩]

theorem runAll_eq_plan_fourRuns : runAll fourRuns cleanImage =
    runAll [.pack ⟨[0x1f], [0xd0], some 0x40200000⟩, .patch "quiet maxcpus=1"] cleanImage := by
  refine runAll_eq_plan (fun t ht => ?_) readable_cleanImage
  rw [fourRuns, List.mem_cons, List.mem_cons, List.mem_cons, List.mem_singleton] at ht
  rcases ht with rfl | rfl | rfl | rfl
  · exact (by decide : Char.ofNat 0 ∉ "quiet".toList)
  · exact ⟨fun addr haddr => by cases haddr; decide, by decide⟩
  · exact (by decide : Char.ofNat 0 ∉ "maxcpus=1".toList)
  · exact ⟨nofun, by decide⟩

end GeminiLinux.PatchVendorCmdline
