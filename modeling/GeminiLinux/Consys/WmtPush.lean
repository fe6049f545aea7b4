import GeminiLinux.Consys.Wmt
import GeminiLinux.Lib.Bytes

/-! The firmware push of `mtk-consys-spike.c`: `wmt_push_patch` sends one ROM patch as two address
    writes, the body in 1000-byte fragments, and a reset, and stops at the first exchange that is
    not acknowledged; `wmt_firmware_push` does this for both patches between two scripts of register
    writes, and `consys_gate_g2b` asks the ROM who it is before and after.

        blob:      28-byte header | body
        fragment:  01 01 | 1+len LE | 1st/mid/last | body[off .. off+len)

    The driver computes lengths and offsets in `u32` and the command length in `u16`. -/

namespace GeminiLinux.Wmt
open Btif Prog Bytes

/-! ### Commands and events -/

def wmtQueryStpCmd : List UInt8 := [0x01, 0x04, 0x01, 0x00, 0x04]
def wmtQueryStpEvt : List UInt8 := [0x02, 0x04, 0x06, 0x00, 0x00, 0x04, 0x11, 0x00, 0x00, 0x00]

def wmtPatchHdrSize : ℕ := 28
def wmtPatchInfoOff : ℕ := 24
def wmtPatchFragSize : ℕ := 1000
def wmtPatchFrag1st : UInt8 := 1
def wmtPatchFragMid : UInt8 := 2
def wmtPatchFragLast : UInt8 := 3

/-- In download-seq order. -/
def wmtPatchNames : List String := ["ROMv3_patch_1_1_hdr.bin", "ROMv3_patch_1_0_hdr.bin"]

/-- The event of every register write. -/
def wmtRegEvt : List UInt8 := [0x02, 0x08, 0x04, 0x00, 0x00, 0x00, 0x00, 0x01]

/-- A masked register write (opcode 0x08): address, value and mask, each little endian. -/
def wmtRegCmd (addr value mask : List UInt8) : List UInt8 :=
  [0x01, 0x08, 0x10, 0x00, 0x01, 0x01, 0x00, 0x01] ++ addr ++ value ++ mask

def wmtPatchAddressCmd : List UInt8 :=
  wmtRegCmd [0x08, 0x05, 0x09, 0x02] [0x00, 0x00, 0x00, 0x00] [0xff, 0xff, 0xff, 0xff]

/-- Bytes 12..15 are filled in for each patch. -/
def wmtPatchPAddressCmd : List UInt8 :=
  wmtRegCmd [0x2c, 0x0b, 0x09, 0x02] [0x00, 0x00, 0x00, 0x00] [0xff, 0xff, 0xff, 0xff]

def wmtPatchEvt : List UInt8 := [0x02, 0x01, 0x01, 0x00, 0x00]
def wmtResetCmd : List UInt8 := [0x01, 0x07, 0x01, 0x00, 0x04]
def wmtResetEvt : List UInt8 := [0x02, 0x07, 0x01, 0x00, 0x00]

def wmtDlmCmd1 : List UInt8 :=
  wmtRegCmd [0x60, 0x00, 0x10, 0x80] [0x00, 0x00, 0x00, 0x00] [0x00, 0x0f, 0x00, 0x00]
def wmtDlmCmd2 : List UInt8 :=
  wmtRegCmd [0x60, 0x00, 0x10, 0x80] [0x00, 0x00, 0x00, 0x00] [0xf0, 0x00, 0x00, 0x00]
def wmtDlmCmd3 : List UInt8 :=
  wmtRegCmd [0x60, 0x00, 0x10, 0x80] [0x00, 0x00, 0x00, 0x00] [0x08, 0x00, 0x00, 0x00]

def wmtMcuclkEn : List UInt8 :=
  wmtRegCmd [0x10, 0x11, 0x02, 0x81] [0x00, 0x00, 0x00, 0x10] [0x00, 0x00, 0x00, 0x10]
def wmtMcuclkRatio : List UInt8 :=
  wmtRegCmd [0x0c, 0x01, 0x00, 0x80] [0x40, 0x00, 0x00, 0x00] [0xc0, 0x00, 0x00, 0x00]
def wmtMcuclkDiv : List UInt8 :=
  wmtRegCmd [0x18, 0x11, 0x02, 0x80] [0x07, 0x00, 0x00, 0x00] [0x3f, 0x00, 0x00, 0x00]
def wmtMcuclkHclk : List UInt8 :=
  wmtRegCmd [0x00, 0x11, 0x02, 0x81] [0x04, 0x00, 0x00, 0x00] [0x07, 0x00, 0x00, 0x00]
def wmtMcuclkHclkDis : List UInt8 :=
  wmtRegCmd [0x00, 0x11, 0x02, 0x81] [0x00, 0x00, 0x00, 0x00] [0x07, 0x00, 0x00, 0x00]
def wmtMcuclkRatioDis : List UInt8 :=
  wmtRegCmd [0x0c, 0x01, 0x00, 0x80] [0x00, 0x00, 0x00, 0x00] [0xc0, 0x00, 0x00, 0x00]
def wmtMcuclkDis : List UInt8 :=
  wmtRegCmd [0x10, 0x11, 0x02, 0x81] [0x00, 0x00, 0x00, 0x00] [0x00, 0x00, 0x00, 0x10]

/-! ### Fragments -/

def addU32 (a b : ℕ) : ℕ := (a + b) % 2 ^ 32
def subU32 (a b : ℕ) : ℕ := (a + 2 ^ 32 - b) % 2 ^ 32

/-- DIV_ROUND_UP of `u32`s. -/
def divRoundUp (n d : ℕ) : ℕ := subU32 (addU32 n d) 1 / d

/-- `p_address_cmd` of a patch: header bytes 24..27 in the value field, byte 24 zeroed. -/
def pAddressCmd (fw : List UInt8) : List UInt8 :=
  (overlay wmtPatchPAddressCmd 12 ((fw.drop wmtPatchInfoOff).take 4)).set 12 0x00

/-- `body_len`. -/
def bodyLen (size : ℕ) : ℕ := (size - wmtPatchHdrSize) % 2 ^ 32

/-- `frag_num`. -/
def fragNum (size : ℕ) : ℕ := divRoundUp (bodyLen size) wmtPatchFragSize

/-- `off` in the `i`-th pass of the fragment loop. -/
def fragOff (i : ℕ) : ℕ := (addU32 · wmtPatchFragSize)^[i] 0

/-- `frag_len` at `off`. -/
def fragLen (size off : ℕ) : ℕ := min (subU32 (bodyLen size) off) wmtPatchFragSize

/-- `cmd_len`, a `u16`. -/
def cmdLen (size off : ℕ) : ℕ := (1 + fragLen size off) % 2 ^ 16

def fragFlag (fragSeq fragNum : ℕ) : UInt8 :=
  if fragSeq = subU32 fragNum 1 then wmtPatchFragLast
  else if fragSeq ≠ 0 then wmtPatchFragMid else wmtPatchFrag1st

/-- The fragment command built in `frag`: `patch_cmd` and `frag_len` bytes of the body. -/
def fragCmd (fw : List UInt8) (fragSeq off : ℕ) : List UInt8 :=
  [0x01, 0x01,
    UInt8.ofNat (cmdLen fw.length off &&& 0xff),
    UInt8.ofNat (cmdLen fw.length off >>> 8),
    fragFlag fragSeq (fragNum fw.length)] ++
  ((fw.drop wmtPatchHdrSize).drop off).take (fragLen fw.length off)

/-- The fragment loop of `wmt_push_patch` (`fuel` bounds the passes; use `frag_num`). -/
def pushFrags (fw : List UInt8) : ℕ → ℕ → ℕ → EStateM Errno Ap Unit
  | 0, _, _ => pure ()
  | fuel + 1, fragSeq, off =>
    if fragSeq < fragNum fw.length then do
      wmtCmdEvt (fragCmd fw fragSeq off) wmtPatchEvt
      pushFrags fw fuel (addU32 fragSeq 1) (addU32 off wmtPatchFragSize)
    else pure ()

/-- `kmalloc` of the fragment buffer. -/
def kmallocFrag : EStateM Errno Ap Unit := do
  let s ← get
  set { s with fragAlloc := s.fragAlloc.tail }
  if s.fragAlloc.head then pure () else throw .ENOMEM

def wmtPushPatch (fw : List UInt8) : EStateM Errno Ap Unit :=
  if fw.length ≤ wmtPatchHdrSize then throw .EINVAL
  else do
    wmtCmdEvt wmtPatchAddressCmd wmtRegEvt
    wmtCmdEvt (pAddressCmd fw) wmtRegEvt
    kmallocFrag
    pushFrags fw (fragNum fw.length) 0 0
    wmtCmdEvt wmtResetCmd wmtResetEvt

/-! ### The push and the gate -/

def wmtRunScript (cmds : List (List UInt8)) : EStateM Errno Ap Unit :=
  sendEach (cmds.map fun cmd => (cmd, wmtRegEvt))

def requestFirmware (name : String) : EStateM Errno Ap (List UInt8) := do
  MonadExcept.ofExcept ((← get).firmware name)

/-- The loop over `wmt_patch_names`. It returns `push_ret`; a blob that is not found ends
    `wmt_firmware_push` itself. -/
def pushPatches : List String → EStateM Errno Ap (Except Errno Unit)
  | [] => pure (.ok ())
  | name :: names => do
    let fw ← requestFirmware name
    match ← attempt (wmtPushPatch fw) with
    | .ok () => pushPatches names
    | .error e => pure (.error e)

def wmtFirmwarePush : EStateM Errno Ap Unit := do
  wmtRunScript [wmtDlmCmd1, wmtDlmCmd2, wmtDlmCmd3]
  wmtRunScript [wmtMcuclkEn, wmtMcuclkRatio, wmtMcuclkDiv, wmtMcuclkHclk]
  let pushRet ← pushPatches wmtPatchNames
  wmtRunScript [wmtMcuclkHclkDis, wmtMcuclkRatioDis, wmtMcuclkDis]
  MonadExcept.ofExcept pushRet

/-- The query of the bare ROM, asked once more if it times out. -/
def queryStp : EStateM Errno Ap Unit := do
  match ← attempt (wmtCmdEvt wmtQueryStpCmd wmtQueryStpEvt) with
  | .error .ETIMEDOUT => wmtCmdEvt wmtQueryStpCmd wmtQueryStpEvt
  | ret => MonadExcept.ofExcept ret

/-- `consys_gate_g2b` from the release of the MCU on: the drain of what the ROM sends by itself, the
    query, the push, whatever became of either, and the query that decides. -/
def consysGateG2b (postRelease : List RxPass) : EStateM Errno Ap Unit := do
  modify fun s => { s with bus := finalState (btifRxDrain postRelease rxBufSz) s.bus }
  let _ ← attempt queryStp
  let _ ← attempt wmtFirmwarePush
  wmtCmdEvt wmtQueryStpCmd wmtQueryStpEvt

/-! ### What the fragments are -/

/-- The fragments a blob is cut into are exact: what the body of each carries, how long it is, and
    that the header says so. -/
structure FragsExact (blob : List UInt8) (frags : List (List UInt8)) : Prop where
  reassemble : (frags.map (·.drop 5)).flatten = blob.drop 28
  body : ∀ f ∈ frags, 1 ≤ (f.drop 5).length ∧ (f.drop 5).length ≤ 1000
  full : ∀ f ∈ frags.dropLast, (f.drop 5).length = 1000
  opcode : ∀ f ∈ frags, f.take 2 = [0x01, 0x01]
  cmd_len : ∀ f ∈ frags, ∃ lo hi : UInt8, (f.drop 2).take 2 = [lo, hi] ∧
    lo.toNat + 256 * hi.toNat = 1 + (f.drop 5).length
  flag : ∀ i, ∀ h : i < frags.length,
    frags[i][4]? = some (if i + 1 = frags.length then 3 else if i = 0 then 1 else 2)

/-- No `u32` or `u16` computation of `wmt_push_patch` wraps for a blob of `size` bytes. -/
structure NoWrap (size : ℕ) : Prop where
  body_len : bodyLen size = size - 28
  frag_num : bodyLen size + 1000 < 2 ^ 32
  off : ∀ i < fragNum size, fragOff i + 1000 < 2 ^ 32 ∧ fragOff (i + 1) = fragOff i + 1000
  rest : ∀ i < fragNum size, fragOff i < bodyLen size
  cmd_len : ∀ i < fragNum size, 1 + fragLen size (fragOff i) < 2 ^ 16

section Sizes

variable {size : ℕ} (hlo : 28 < size) (hhi : size ≤ 2 ^ 31 - 1)
include hlo hhi

theorem bodyLen_eq : bodyLen size = size - 28 := by
  rw [bodyLen, wmtPatchHdrSize]; omega

theorem fragNum_eq : fragNum size = (size - 28 + 999) / 1000 := by
  have hup : ((size - 28 + 1000) % 2 ^ 32 + 2 ^ 32 - 1) % 2 ^ 32 = size - 28 + 999 := by omega
  rw [fragNum, bodyLen_eq hlo hhi, divRoundUp, addU32, subU32, wmtPatchFragSize, hup]

theorem fragOff_eq : ∀ {i : ℕ}, i ≤ fragNum size → fragOff i = i * 1000 := by
  intro i
  induction i with
  | zero =>
    intro _
    rfl
  | succ i ih =>
    intro hi
    have hnum := fragNum_eq hlo hhi
    rw [fragOff, Function.iterate_succ_apply']
    change addU32 (fragOff i) wmtPatchFragSize = _
    rw [ih (by omega), addU32, wmtPatchFragSize]
    omega

theorem fragLen_eq {i : ℕ} (hi : i < fragNum size) :
    fragLen size (fragOff i) = min (size - 28 - i * 1000) 1000 := by
  have hnum := fragNum_eq hlo hhi
  have hrest : (size - 28 + 2 ^ 32 - i * 1000) % 2 ^ 32 = size - 28 - i * 1000 := by omega
  rw [fragLen, fragOff_eq hlo hhi hi.le, bodyLen_eq hlo hhi, subU32, wmtPatchFragSize, hrest]

theorem noWrap : NoWrap size where
  body_len := bodyLen_eq hlo hhi
  frag_num := by rw [bodyLen_eq hlo hhi]; omega
  off := fun i hi => by
    have hnum := fragNum_eq hlo hhi
    rw [fragOff_eq hlo hhi hi, fragOff_eq hlo hhi hi.le]
    omega
  rest := fun i hi => by
    have hnum := fragNum_eq hlo hhi
    rw [fragOff_eq hlo hhi hi.le, bodyLen_eq hlo hhi]
    omega
  cmd_len := fun i hi => by
    rw [fragLen_eq hlo hhi hi]; omega

end Sizes

/-- The fragment commands of a blob, in sending order. -/
def fragCmds (fw : List UInt8) : List (List UInt8) :=
  (List.range (fragNum fw.length)).map fun i => fragCmd fw i (fragOff i)

section Blob

variable {fw : List UInt8} (hlo : 28 < fw.length) (hhi : fw.length ≤ 2 ^ 31 - 1)
include hlo hhi

/-- The body of the `i`-th fragment is the `i`-th piece of the blob's body. -/
theorem fragCmd_body {i : ℕ} (hi : i < fragNum fw.length) :
    (fragCmd fw i (fragOff i)).drop 5 = ((fw.drop 28).drop (i * 1000)).take 1000 := by
  have hbody : (fragCmd fw i (fragOff i)).drop 5 =
      ((fw.drop 28).drop (fragOff i)).take (fragLen fw.length (fragOff i)) := List.drop_left' rfl
  have hfits : ((fw.drop 28).drop (i * 1000)).length ≤ fw.length - 28 - i * 1000 := by
    rw [List.length_drop, List.length_drop]
  rw [hbody, fragLen_eq hlo hhi hi, fragOff_eq hlo hhi hi.le, Nat.min_comm, ← List.take_take,
    List.take_of_length_le hfits]

theorem fragCmd_body_length {i : ℕ} (hi : i < fragNum fw.length) :
    ((fragCmd fw i (fragOff i)).drop 5).length = fragLen fw.length (fragOff i) := by
  rw [fragCmd_body hlo hhi hi, fragLen_eq hlo hhi hi]
  simp only [List.length_take, List.length_drop]
  omega

theorem fragFlag_eq {i : ℕ} (hi : i < fragNum fw.length) :
    fragFlag i (fragNum fw.length) =
      if i + 1 = fragNum fw.length then 3 else if i = 0 then 1 else 2 := by
  have hnum := fragNum_eq hlo hhi
  have hlast : (i = subU32 (fragNum fw.length) 1) ↔ (i + 1 = fragNum fw.length) := by
    rw [subU32]; omega
  rw [fragFlag, if_congr hlast rfl (ite_not _ _ _)]
  rfl

/-- The fragments of a blob are exact. -/
theorem fragCmds_exact : FragsExact fw (fragCmds fw) := by
  have hnum := fragNum_eq hlo hhi
  have hlen : (fragCmds fw).length = fragNum fw.length := by simp [fragCmds]
  have hmem : ∀ f ∈ fragCmds fw, ∃ i < fragNum fw.length, fragCmd fw i (fragOff i) = f := by
    intro f hf
    obtain ⟨i, hi, rfl⟩ := List.mem_map.mp hf
    exact ⟨i, List.mem_range.mp hi, rfl⟩
  refine ⟨?_, ?_, ?_, ?_, ?_, ?_⟩
  · have hpieces : (fragCmds fw).map (·.drop 5) =
        (List.range (fragNum fw.length)).map fun i => ((fw.drop 28).drop (i * 1000)).take 1000 := by
      rw [fragCmds, List.map_map]
      refine List.map_congr_left fun i hi => ?_
      rw [Function.comp_apply]
      exact fragCmd_body hlo hhi (List.mem_range.mp hi)
    have hall : (fw.drop 28).length ≤ fragNum fw.length * 1000 := by
      rw [List.length_drop]; omega
    rw [hpieces, flatten_pieces, List.take_of_length_le hall]
  · intro f hf
    obtain ⟨i, hi, rfl⟩ := hmem f hf
    rw [fragCmd_body_length hlo hhi hi, fragLen_eq hlo hhi hi]
    omega
  · intro f hf
    rw [List.dropLast_eq_take, hlen, fragCmds, ← List.map_take, List.take_range] at hf
    obtain ⟨i, hi, rfl⟩ := List.mem_map.mp hf
    have hi' : i < min (fragNum fw.length - 1) (fragNum fw.length) := List.mem_range.mp hi
    rw [fragCmd_body_length hlo hhi (by omega), fragLen_eq hlo hhi (by omega)]
    omega
  · intro f hf
    obtain ⟨i, hi, rfl⟩ := hmem f hf
    rfl
  · intro f hf
    obtain ⟨i, hi, rfl⟩ := hmem f hf
    refine ⟨_, _, rfl, ?_⟩
    have hle : fragLen fw.length (fragOff i) ≤ 1000 := Nat.min_le_right _ _
    rw [fragCmd_body_length hlo hhi hi, cmdLen, Nat.and_two_pow_sub_one_eq_mod _ 8,
      Nat.shiftRight_eq_div_pow, UInt8.toNat_ofNat', UInt8.toNat_ofNat']
    omega
  · intro i h
    have hi : i < fragNum fw.length := hlen ▸ h
    have hget : (fragCmds fw)[i] = fragCmd fw i (fragOff i) := by simp [fragCmds]
    rw [hget, hlen, ← fragFlag_eq hlo hhi hi]
    rfl

end Blob

/-! ### Which commands are issued -/

/-- The calls made and the value returned when a list of commands is worked through up to and
    including the first that is not acknowledged. -/
inductive Sends : List (List UInt8 × List UInt8) → List Call → Except Errno Unit → Prop where
  | done : Sends [] [] (.ok ())
  | acked {c : Call} {plan calls r} (hack : c.Acked) (rest : Sends plan calls r) :
      Sends ((c.cmd, c.evt) :: plan) (c :: calls) r
  | failed {c : Call} {plan e} (herr : c.result = .error e) :
      Sends ((c.cmd, c.evt) :: plan) [c] (.error e)

theorem Sends.append {plan plan' : List (List UInt8 × List UInt8)} {calls calls' : List Call}
    {r : Except Errno Unit} (h : Sends plan calls (.ok ())) (h' : Sends plan' calls' r) :
    Sends (plan ++ plan') (calls ++ calls') r := by
  induction plan generalizing calls with
  | nil => cases h; exact h'
  | cons c plan ih =>
    cases h with
    | acked hack rest => exact .acked hack (ih rest)

theorem Sends.stop {plan : List (List UInt8 × List UInt8)} {calls : List Call} {e : Errno}
    (plan' : List (List UInt8 × List UInt8)) (h : Sends plan calls (.error e)) :
    Sends (plan ++ plan') calls (.error e) := by
  induction plan generalizing calls with
  | nil => cases h
  | cons c plan ih =>
    cases h with
    | acked hack rest => exact .acked hack (ih rest)
    | failed herr => exact .failed herr

theorem Sends.all {plan : List (List UInt8 × List UInt8)} {calls : List Call}
    {r : Except Errno Unit} (h : Sends plan calls r) (hack : ∀ c ∈ calls, c.Acked) :
    calls.map (fun c => (c.cmd, c.evt)) = plan ∧ r = .ok () := by
  induction h with
  | done => exact ⟨rfl, rfl⟩
  | acked _ _ ih =>
    obtain ⟨hcalls, hr⟩ := ih fun c hc => hack c (List.mem_cons_of_mem _ hc)
    exact ⟨congrArg _ hcalls, hr⟩
  | failed herr =>
    obtain ⟨rx, hok⟩ := hack _ (List.mem_cons_self ..)
    rw [herr] at hok
    cases hok

/-- Commands sent one after another as long as each is acknowledged. -/
def sendAll : List (List UInt8 × List UInt8) → EStateM Errno Ap Unit
  | [] => pure ()
  | c :: cs => do
    wmtCmdEvt c.1 c.2
    sendAll cs

theorem sendAll_append : ∀ xs ys : List (List UInt8 × List UInt8),
    sendAll (xs ++ ys) = (do sendAll xs; sendAll ys) := by
  intro xs ys
  induction xs with
  | nil => rw [List.nil_append, sendAll, pure_bind]
  | cons x xs ih => rw [List.cons_append, sendAll, ih, sendAll, bind_assoc]

theorem wmtCmdEvt_outcome (cmd evt : List UInt8) (s : Ap) :
    outcome (wmtCmdEvt cmd evt) s = (outcome (exchange s.env.head cmd evt) s.bus).map fun _ => () := by
  unfold outcome wmtCmdEvt
  cases exchange s.env.head cmd evt s.bus <;> rfl

theorem sendAll_sends : ∀ (plan : List (List UInt8 × List UInt8)) (s : Ap), ∃ calls,
    (finalState (sendAll plan) s).calls = s.calls ++ calls ∧
    (finalState (sendAll plan) s).fragAlloc = s.fragAlloc ∧
    Sends plan calls (outcome (sendAll plan) s) := by
  intro plan
  induction plan with
  | nil =>
    intro s
    exact ⟨[], (List.append_nil _).symm, rfl, .done⟩
  | cons c cs ih =>
    intro s
    have hstate := wmtCmdEvt_state c.1 c.2 s
    rcases hr : outcome (exchange s.env.head c.1 c.2) s.bus with e | rx
    · have hout : outcome (wmtCmdEvt c.1 c.2) s = .error e := by rw [wmtCmdEvt_outcome, hr]; rfl
      rw [sendAll, finalState_bind_error _ hout, outcome_bind_error _ hout, hstate, hr]
      exact ⟨_, rfl, rfl, .failed (c := ⟨c.1, c.2, s.env.head, s.bus, .error e⟩) rfl⟩
    · have hout : outcome (wmtCmdEvt c.1 c.2) s = .ok () := by rw [wmtCmdEvt_outcome, hr]; rfl
      obtain ⟨calls, hcalls, halloc, hsends⟩ := ih (finalState (wmtCmdEvt c.1 c.2) s)
      rw [sendAll, finalState_bind_ok _ hout, outcome_bind_ok _ hout]
      refine ⟨⟨c.1, c.2, s.env.head, s.bus, .ok rx⟩ :: calls, ?_, ?_, ?_⟩
      · rw [hcalls, hstate, hr, List.append_assoc]; rfl
      · rw [halloc, hstate]
      · exact .acked (c := ⟨c.1, c.2, s.env.head, s.bus, .ok rx⟩) ⟨rx, rfl⟩ hsends

/-- The fragment loop is the fragments sent one after another. -/
theorem pushFrags_eq {fw : List UInt8} (hlo : 28 < fw.length) (hhi : fw.length ≤ 2 ^ 31 - 1) :
    ∀ fuel i : ℕ, i + fuel = fragNum fw.length → pushFrags fw fuel i (fragOff i) =
      sendAll ((List.range' i fuel).map fun j => (fragCmd fw j (fragOff j), wmtPatchEvt)) := by
  intro fuel
  induction fuel with
  | zero =>
    intro i _
    rfl
  | succ fuel ih =>
    intro i h
    have hnum := fragNum_eq hlo hhi
    have hseq : addU32 i 1 = i + 1 := by rw [addU32]; omega
    have hoff : addU32 (fragOff i) wmtPatchFragSize = fragOff (i + 1) := by
      rw [fragOff, fragOff, Function.iterate_succ_apply']
    rw [pushFrags, if_pos (by omega), hseq, hoff, ih (i + 1) (by omega)]
    rfl

/-- The commands and events of a whole patch, in sending order: the two address writes, the second
    with header bytes 24..27 as its value and byte 24 zeroed, the fragments, one reset. -/
def patchPlan (fw : List UInt8) (frags : List (List UInt8)) : List (List UInt8 × List UInt8) :=
  (wmtPatchAddressCmd, wmtRegEvt) ::
    (wmtPatchPAddressCmd.take 12 ++ [0x00] ++ (fw.drop 25).take 3 ++ wmtPatchPAddressCmd.drop 16,
      wmtRegEvt) ::
    (frags.map (·, wmtPatchEvt) ++ [(wmtResetCmd, wmtResetEvt)])

theorem pAddressCmd_eq {fw : List UInt8} (h : 28 < fw.length) :
    pAddressCmd fw = wmtPatchPAddressCmd.take 12 ++ [0x00] ++ (fw.drop 25).take 3 ++
      wmtPatchPAddressCmd.drop 16 := by
  have hcons : fw.drop 24 = fw[24] :: fw.drop 25 := List.drop_eq_getElem_cons (by omega)
  have hlen : (fw[24] :: (fw.drop 25).take 3).length = 4 := by
    simp only [List.length_cons, List.length_take, List.length_drop]; omega
  rw [pAddressCmd, wmtPatchInfoOff, hcons, List.take_succ_cons, overlay, hlen]
  rfl

theorem wmtPushPatch_eq {fw : List UInt8} (hlo : 28 < fw.length) (hhi : fw.length ≤ 2 ^ 31 - 1) :
    wmtPushPatch fw = (do
      sendAll ((patchPlan fw (fragCmds fw)).take 2)
      kmallocFrag
      sendAll ((patchPlan fw (fragCmds fw)).drop 2)) := by
  have hloop := pushFrags_eq hlo hhi (fragNum fw.length) 0 (Nat.zero_add _)
  have hfrags : (List.range' 0 (fragNum fw.length)).map
      (fun j => (fragCmd fw j (fragOff j), wmtPatchEvt)) = (fragCmds fw).map (·, wmtPatchEvt) := by
    rw [fragCmds, List.map_map, List.range_eq_range']
    rfl
  have hstart : fragOff 0 = 0 := rfl
  rw [hfrags, hstart] at hloop
  have hsize : ¬ fw.length ≤ wmtPatchHdrSize := by rw [wmtPatchHdrSize]; omega
  rw [wmtPushPatch, if_neg hsize, pAddressCmd_eq hlo]
  simp only [patchPlan, List.take_succ_cons, List.take_zero, List.drop_succ_cons, List.drop_zero,
    sendAll_append, ← hloop, sendAll, bind_assoc, bind_pure_unit]

theorem kmallocFrag_outcome (s : Ap) :
    outcome kmallocFrag s = if s.fragAlloc.head then .ok () else .error .ENOMEM := by
  unfold kmallocFrag outcome
  cases h : s.fragAlloc.head <;> simp [bind_apply, h]

theorem kmallocFrag_calls (s : Ap) : (finalState kmallocFrag s).calls = s.calls := by
  unfold kmallocFrag finalState
  cases h : s.fragAlloc.head <;> simp [bind_apply, h]

/-- What a push does with its plan: with a fragment buffer it is worked through until an exchange fails;
    without one that ends, at the latest, behind the two address writes, and `-ENOMEM` is returned. -/
def Pushes (plan : List (List UInt8 × List UInt8)) (fragAlloc : Bool) (calls : List Call)
    (r : Except Errno Unit) : Prop :=
  (fragAlloc = true ∧ Sends plan calls r) ∨
    (fragAlloc = false ∧ ∃ r', Sends (plan.take 2) calls r' ∧ r = r'.bind fun _ => .error .ENOMEM)

theorem wmtPushPatch_sends {fw : List UInt8} (s : Ap) (hlo : 28 < fw.length)
    (hhi : fw.length ≤ 2 ^ 31 - 1) : ∃ calls,
    (finalState (wmtPushPatch fw) s).calls = s.calls ++ calls ∧
    Pushes (patchPlan fw (fragCmds fw)) s.fragAlloc.head calls (outcome (wmtPushPatch fw) s) := by
  rw [wmtPushPatch_eq hlo hhi]
  unfold Pushes
  generalize patchPlan fw (fragCmds fw) = plan
  obtain ⟨calls₁, hcalls₁, halloc, hsends₁⟩ := sendAll_sends (plan.take 2) s
  rcases hr : outcome (sendAll (plan.take 2)) s with e | _
  · rw [hr] at hsends₁
    rw [finalState_bind_error _ hr, outcome_bind_error _ hr]
    refine ⟨calls₁, hcalls₁, ?_⟩
    rcases hbuf : s.fragAlloc.head with _ | _
    · exact .inr ⟨rfl, _, hsends₁, rfl⟩
    · have hstop := hsends₁.stop (plan.drop 2)
      rw [List.take_append_drop] at hstop
      exact .inl ⟨rfl, hstop⟩
  · rw [hr] at hsends₁
    rw [finalState_bind_ok _ hr, outcome_bind_ok _ hr]
    generalize finalState (sendAll (plan.take 2)) s = s₁ at hcalls₁ halloc
    have hout := kmallocFrag_outcome s₁
    have hcalls := kmallocFrag_calls s₁
    by_cases hbuf : s.fragAlloc.head = true
    · rw [halloc, if_pos hbuf] at hout
      rw [finalState_bind_ok _ hout, outcome_bind_ok _ hout]
      obtain ⟨calls₂, hcalls₂, _, hsends₂⟩ := sendAll_sends (plan.drop 2) (finalState kmallocFrag s₁)
      have hall := hsends₁.append hsends₂
      rw [List.take_append_drop] at hall
      refine ⟨calls₁ ++ calls₂, ?_, .inl ⟨hbuf, hall⟩⟩
      rw [hcalls₂, hcalls, hcalls₁, List.append_assoc]
    · rw [halloc, if_neg hbuf] at hout
      rw [finalState_bind_error _ hout, outcome_bind_error _ hout]
      refine ⟨calls₁, ?_, .inr ⟨by simpa using hbuf, _, hsends₁, rfl⟩⟩
      rw [hcalls, hcalls₁]

/-- `wmt_push_patch` on a blob the firmware loader can hand it: the fragments are exact, no
    computation wraps, and the commands issued are those of the plan up to and including the first
    that fails, and none behind the two address writes when the fragment buffer cannot be allocated;
    the whole plan when it can and every exchange is acknowledged. -/
theorem wmt_push_patch_exact (fw : List UInt8) (s : Ap) (hlo : 28 < fw.length)
    (hhi : fw.length ≤ 2 ^ 31 - 1) :
    ∃ frags calls, FragsExact fw frags ∧ NoWrap fw.length ∧
      (finalState (wmtPushPatch fw) s).calls = s.calls ++ calls ∧
      Pushes (patchPlan fw frags) s.fragAlloc.head calls (outcome (wmtPushPatch fw) s) ∧
      ((∀ c ∈ calls, c.Acked) → s.fragAlloc.head = true →
        calls.map (fun c => (c.cmd, c.evt)) = patchPlan fw frags ∧
          outcome (wmtPushPatch fw) s = .ok ()) := by
  obtain ⟨calls, hcalls, hpushes⟩ := wmtPushPatch_sends s hlo hhi
  refine ⟨fragCmds fw, calls, fragCmds_exact hlo hhi, noWrap hlo hhi, hcalls, hpushes, ?_⟩
  intro hack hbuf
  rcases hpushes with ⟨-, hsends⟩ | ⟨hnobuf, -⟩
  · exact hsends.all hack
  · rw [hnobuf] at hbuf
    cases hbuf

/-- A body of 1001 bytes, one more than a fragment, pushed to an MCU that never answers. -/
theorem wmt_push_patch_exact_two :
    let fw : List UInt8 := List.replicate 1029 0x21
    let s : Ap := ⟨Stream'.const ⟨true, fun _ => ⟨0, 9⟩, [], []⟩, ⟨[], 0, [], [], []⟩, [],
      Stream'.const true, fun _ => .ok fw⟩
    ∃ frags calls, FragsExact fw frags ∧ NoWrap fw.length ∧
      (finalState (wmtPushPatch fw) s).calls = s.calls ++ calls ∧
      Pushes (patchPlan fw frags) s.fragAlloc.head calls (outcome (wmtPushPatch fw) s) ∧
      ((∀ c ∈ calls, c.Acked) → s.fragAlloc.head = true →
        calls.map (fun c => (c.cmd, c.evt)) = patchPlan fw frags ∧
          outcome (wmtPushPatch fw) s = .ok ()) :=
  wmt_push_patch_exact _ _ (by rw [List.length_replicate]; omega) (by rw [List.length_replicate]; omega)

end GeminiLinux.Wmt
