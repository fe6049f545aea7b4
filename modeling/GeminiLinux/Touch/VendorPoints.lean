import GeminiLinux.Lib.Runs
import GeminiLinux.Touch.Checksum
import GeminiLinux.Touch.VendorReport

/-! How the vendor's touch driver reads its points. A work reads the S&L word, handles what its status says,
    reads the packet into `points` if there is one, and has `solomon_report` take as many records from
    `points` as the word's length gives:

        S&L ──▶ AUX ──▶ BOOT ──▶ packet ──▶ points[0 .. 9] ──▶ report: length / 6 records
                         │         ╵ no low status bit               ▲
                         └─ configured again ────────────────────────┘ what was there before

    The length is cut to the size of `points` for the packet and not for the report. -/

namespace GeminiLinux.Solomon
open Prog Runs
open Ssd2092 (le16 xorOf sumOf checksumOk)

def solomonAux : ℕ := 0x0AF8
def auxBootupReset : ℕ := 0x0001
def auxWdtdsInt : ℕ := 0x0002
def auxEsdDetect : ℕ := 0x00AA
def auxNeedC1TmcReset : ℕ := 0x00C1
def auxNeedC2DicReset : ℕ := 0x00C2
def auxNeedC3DicPower : ℕ := 0x00C3
def auxNeedC4DsvPowerReset : ℕ := 0x00C4
def auxCsError : ℕ := 0x00F0

def statusCheckAux : ℕ := 0x40
def statusCheckBootSt : ℕ := 0x80

/-- `sizeof(esd_snl) - 4`, which is the size of `points`. -/
def pointsSize : ℕ := 60

/-- `ds_process_version` finds one of the two, or the probe fails. -/
inductive EsVersion where
  | es1 | es2
  deriving DecidableEq

/-- What a `solomon_pre_init` finds: the boot status, and behind it whether the chip raised its interrupt. -/
structure PreInit where
  bootSt : Except Errno ℕ
  intPin : Except Errno Bool

/-- The driver's data but for `points`, and what bus and chip will do: `recent` is whether the last change of the
    touch mode is less than 32 ms ago. -/
structure Link where
  intPin : Bool
  stateFlag : Bool
  esVersion : EsVersion
  pointSkipTime : Bool
  recent : Bool
  bootFlag : ℕ
  pointInfo : ℕ
  reporter : Reporter
  cleared : ℕ
  i2c : Stream' (Except Errno (ℕ → UInt8))
  preInits : Stream' PreInit
  initConfigs : Stream' ℤ

/-- The ways out of `solomon_read_points` before its end: its labels, and its `return err`. -/
inductive Exit where
  | out (err : ℤ)
  | ret (err : ℤ)
  | checksum
  | reset
  deriving DecidableEq

abbrev PointsM := EStateM Exit Link

/-! ### What it calls -/

def tsReadData (len : ℕ) : PointsM (Except Errno (List UInt8)) := modifyGet fun l =>
  (l.i2c.head.map fun bytes => (List.range len).map bytes, { l with i2c := l.i2c.tail })

/-- `esd_checksum` and the two comparisons behind it: the word with index `length / 2` is the checksum. -/
def esdChecksumOk (snl : List UInt8) (length : ℕ) : Bool :=
  xorOf (snl.take length) == snl.getD (2 * (length / 2) + 1) 0 && sumOf (snl.take length) == snl.getD (2 * (length / 2)) 0

def release : PointsM Unit := modify fun l => { l with reporter := solomonReportRelease l.reporter }

def solomonPreInit : PointsM ℤ := do
  let pre ← modifyGet fun l => (l.preInits.head, { l with preInits := l.preInits.tail })
  match pre.bootSt with
  | .error _ => pure (-1)
  | .ok bootSt => do
    modify fun l => { l with bootFlag := bootSt }
    match pre.intPin with
    | .error _ => pure (-1)
    | .ok intPin => do
      modify fun l => { l with stateFlag := true }
      pure (if intPin then 0 else -1)

def solomonInitConfig : PointsM ℤ := modifyGet fun l =>
  (l.initConfigs.head, { l with initConfigs := l.initConfigs.tail, pointSkipTime := false })

/-- `solomon_check_skiptime`, and the `goto out` behind it. -/
def solomonCheckSkiptime (err : ℤ) : PointsM ℤ := do
  let l ← get
  if l.pointSkipTime then do
    modify fun l => { l with pointSkipTime := false }
    if l.recent then throw (.out (-1)) else pure 0
  else pure err

/-! ### `solomon_read_points` -/

/-- The S&L word and its checksum, read again at the other address if the first one is echoed. A read that
    fails leaves the words as they were. -/
def readSnlWords (snl : List UInt8) : PointsM (Except Errno Unit × List UInt8) := do
  let first ← tsReadData 4
  let snl := first.toOption.getD snl
  if le16 snl 0 = 0x0AF0 then do
    let again ← tsReadData 4
    pure (again.map fun _ => (), again.toOption.getD snl)
  else pure (first.map fun _ => (), snl)

/-- From `retry_snl` on, with `retry` tries left. -/
def snlTries (snl : List UInt8) : ℕ → PointsM (List UInt8)
  | 0 => throw .reset
  | retry + 1 => do
    let (err, snl) ← readSnlWords snl
    match err with
    | .error e => throw (.out e.ret)
    | .ok _ => do
      let l ← get
      if l.stateFlag && !esdChecksumOk snl 2 then snlTries snl retry else pure snl

/-- The TMC has been reset, or the chip has booted. -/
def restart : PointsM Unit := do
  release
  let err ← solomonPreInit
  let l ← get
  if l.bootFlag &&& 0x7fff ≠ 0 then throw .checksum else throw (.ret err)

/-- The AUX word. -/
def auxEvent : PointsM Unit := do
  match ← tsReadData 2 with
  | .error _ => pure ()
  | .ok buf => do
    let aux := le16 buf 0
    let l ← get
    if aux &&& solomonAux = solomonAux then
      match l.esVersion with
      | .es2 => throw .reset
      | .es1 => restart
    else if aux = auxBootupReset then restart
    else if aux = auxWdtdsInt ∨ aux = auxNeedC1TmcReset then throw .reset
    else if aux = auxNeedC2DicReset ∨ aux = auxNeedC3DicPower ∨ aux = auxNeedC4DsvPowerReset then pure ()
    else if aux &&& auxEsdDetect = auxEsdDetect then throw .reset
    else if aux &&& auxCsError = auxCsError then throw .checksum
    else pure ()

/-- From `retry_point` on: `err`, and what is copied to `points`. -/
def pointTries (length : ℕ) : ℕ → PointsM (ℤ × List UInt8)
  | 0 => throw .reset
  | retry + 1 => do
    match ← tsReadData (length + 2) with
    | .error e => throw (.out e.ret)
    | .ok snl =>
      if esdChecksumOk snl length then pure ((length : ℤ) + 2, snl.take length) else pointTries length retry

def statusOf (info : ℕ) : ℕ := info >>> 8
def lengthOf (info : ℕ) : ℕ := info &&& 0xff

/-- `solomon_read_points` from the S&L word on. -/
def readWord (info : ℕ) : PointsM (ℤ × List UInt8) := do
  let err ← (if statusOf info &&& 0xf0 ≠ 0 then solomonCheckSkiptime 4 else pure 4)
  let err ← (if lengthOf info > pointsSize then solomonCheckSkiptime err else pure err)
  let _ ← (if statusOf info &&& statusCheckAux ≠ 0 then auxEvent else pure ())
  if statusOf info &&& statusCheckBootSt ≠ 0 then do
    release
    let err ← solomonInitConfig
    throw (.out err)
  else if 0 < lengthOf info ∧ statusOf info &&& 0x7f ≠ 0 then pointTries (min (lengthOf info) pointsSize) 3
  else pure (err, [])

/-- `solomon_read_points` down to its label `out`. -/
def readPoints : PointsM (ℤ × List UInt8) := do
  let l ← get
  if l.intPin then throw (.ret (-11))
  else do
    let snl ← snlTries [0, 0, 0, 0] 3
    modify fun l => { l with pointInfo := le16 snl 0 }
    if le16 snl 0 = 0x0000 then throw (.out (-1)) else readWord (le16 snl 0)

/-- `int_clear_cmd`. -/
def intClearCmd (l : Link) : Link := { l with cleared := l.cleared + 1 }

/-- `solomon_power_control` with `POWER_RESET`. -/
def powerReset (l : Link) : Link := { l with stateFlag := false }

/-- `solomon_read_points`, of a driver at normal work in `TOUCH_POINT_MODE`: what it returns and has copied to
    `points`. Left out are the raw data that an aging mode reads behind the packet, which go elsewhere, and
    `LPM_SUSPEND_DELAY`, which leaves the interrupt as it is. -/
def solomonReadPoints (l : Link) : (ℤ × List UInt8) × Link :=
  match readPoints l with
  | .ok r l => (r, intClearCmd l)
  | .error (.out err) l => ((err, []), intClearCmd l)
  | .error (.ret err) l => ((err, []), l)
  | .error .checksum l => ((-1, []), powerReset { l with reporter := solomonReportRelease l.reporter })
  | .error .reset l => ((-1, []), powerReset l)

/-! ### The work -/

/-- The device: `mem` is its memory from `points` on. -/
structure Ftdev where
  link : Link
  mem : ℕ → UInt8

def memcpy (mem : ℕ → UInt8) (bytes : List UInt8) : ℕ → UInt8 := fun i => bytes[i]?.getD (mem i)

/-- `points[i]`. -/
def pointAt (mem : ℕ → UInt8) (i : ℕ) : SsdData :=
  ⟨mem (6 * i), mem (6 * i + 1), mem (6 * i + 2), mem (6 * i + 3), mem (6 * i + 4), mem (6 * i + 5)⟩

/-- The records that `solomon_report` goes through. -/
def pointsOf (mem : ℕ → UInt8) (info : ℕ) : List SsdData := (List.range (lengthOf info / 6)).map (pointAt mem)

/-- What a `solomon_work` has reported, if it reports: it does where `solomon_read_points` is positive. -/
def handled (d : Ftdev) : Option (List SsdData) :=
  let r := solomonReadPoints d.link
  if 0 < r.1.1 then some (pointsOf (memcpy d.mem r.1.2) r.2.pointInfo) else none

/-- `solomon_work` in `TOUCH_POINT_MODE`. -/
def solomonWork (d : Ftdev) : Ftdev :=
  let r := solomonReadPoints d.link
  let mem := memcpy d.mem r.1.2
  match handled d with
  | some points => ⟨{ r.2 with reporter := solomonReport points r.2.reporter }, mem⟩
  | none => ⟨r.2, mem⟩

/-- One more work: in front of it anything may become of the driver's data but `points`. -/
def nextWork (d : Ftdev) (before : Link → Link) : Ftdev := solomonWork ⟨before d.link, d.mem⟩

/-! ### What is copied -/

/-- The word of a report whose packet is read. -/
def Asks (info : ℕ) : Prop :=
  statusOf info &&& statusCheckBootSt = 0 ∧ 0 < lengthOf info ∧ statusOf info &&& 0x7f ≠ 0

instance (info : ℕ) : Decidable (Asks info) := by unfold Asks; infer_instance

def copyLength (info : ℕ) : ℕ := if Asks info then min (lengthOf info) pointsSize else 0

/-- What `solomon_read_points` returns behind an exit. -/
def Exit.err : Exit → ℤ
  | .out err => err
  | .ret err => err
  | .checksum => -1
  | .reset => -1

theorem ret_nonpos (e : Errno) : e.ret ≤ 0 := by
  cases e with
  | other code => exact Int.neg_nonpos_of_nonneg (Int.natCast_nonneg code)
  | _ => decide

section Copied

variable {info : ℕ}

/-- Until the word is there, an exit is one without a report. -/
def Fails (e : Exit) (_ : Link) : Prop := e.err ≤ 0

theorem fails_reset (l : Link) : Fails .reset l := Int.neg_nonpos_of_nonneg zero_le_one

theorem fails_checksum (l : Link) : Fails .checksum l := Int.neg_nonpos_of_nonneg zero_le_one

theorem tsReadData_ends (len : ℕ) : Ends (·.pointInfo = info) (tsReadData len)
    (fun r l => l.pointInfo = info ∧ ∀ bytes, r = .ok bytes → bytes.length = len) Fails := by
  refine .modifyGet fun l hl => ⟨hl, fun bytes hbytes => ?_⟩
  cases hhead : l.i2c.head with
  | error e =>
    rw [hhead] at hbytes
    cases hbytes
  | ok f =>
    rw [hhead] at hbytes
    cases hbytes
    rw [List.length_map, List.length_range]

theorem pointTries_ends (length retry : ℕ) : Ends (·.pointInfo = info) (pointTries length retry)
    (fun r l => l.pointInfo = info ∧ r.2.length = length) Fails := by
  induction retry with
  | zero => exact .throw fun l _ => fails_reset l
  | succ retry ih =>
    refine .bind (tsReadData_ends _) fun
      | .error e => .throw fun _ _ => ret_nonpos e
      | .ok snl => .cases (fun _ => .pure fun l hl => ⟨hl.1, ?_⟩) fun _ => ih.mono (fun _ hl => hl.1)
          (fun _ _ hr => hr) fun _ _ he => he
    rw [List.length_take, hl.2 snl rfl]
    omega

theorem solomonPreInit_ends : Ends (·.pointInfo = info) solomonPreInit
    (fun err l => l.pointInfo = info ∧ err ≤ 0) Fails := by
  refine .bind (I := fun _ l => l.pointInfo = info) (.modifyGet fun _ hl => hl) fun pre => ?_
  cases pre.bootSt with
  | error e => exact .pure fun _ hl => ⟨hl, by decide⟩
  | ok bootSt =>
    refine .bind (I := fun _ l => l.pointInfo = info) (.modify fun _ hl => hl) fun _ => ?_
    cases pre.intPin with
    | error e => exact .pure fun _ hl => ⟨hl, by decide⟩
    | ok intPin =>
      refine .bind (I := fun _ l => l.pointInfo = info) (.modify fun _ hl => hl) fun _ => .pure fun _ hl => ⟨hl, ?_⟩
      cases intPin with
      | false => decide
      | true => decide

theorem restart_ends : Ends (·.pointInfo = info) restart (fun _ l => l.pointInfo = info) Fails := by
  refine .bind (.modify fun _ hl => hl) fun _ => .bind solomonPreInit_ends fun err => .read fun l hl => ?_
  exact .cases (fun _ => .throw fun l _ => fails_checksum l) fun _ => .throw fun _ _ => hl.2

theorem auxEvent_ends : Ends (·.pointInfo = info) auxEvent (fun _ l => l.pointInfo = info) Fails := by
  have hreset {P : Link → Prop} {Q : Unit → Link → Prop} : Ends P (throw .reset : PointsM Unit) Q Fails :=
    .throw fun l _ => fails_reset l
  refine .bind (tsReadData_ends 2) fun
    | .error e => .pure fun _ hl => hl.1
    | .ok buf => .read fun l hl => ?_
  have hrestart : Ends (· = l) restart (fun _ l => l.pointInfo = info) Fails := restart_ends.starting hl.1
  refine .cases (fun _ => ?_) fun _ => .cases (fun _ => hrestart) fun _ => .cases (fun _ => hreset) fun _ => .cases
    (fun _ => .pure fun _ heq => heq ▸ hl.1) fun _ => .cases (fun _ => hreset) fun _ => .cases (fun _ => .throw fun l _ => fails_checksum l) fun _ => .pure fun _ heq => heq ▸ hl.1
  cases l.esVersion with
  | es1 => exact hrestart
  | es2 => exact hreset

theorem solomonCheckSkiptime_ends (err : ℤ) :
    Ends (·.pointInfo = info) (solomonCheckSkiptime err) (fun _ l => l.pointInfo = info) Fails := by
  refine .read fun l hl => .cases (fun _ => ?_) fun _ => .pure fun _ heq => heq ▸ hl
  refine .bind (I := fun _ l' => l'.pointInfo = info) (.modify fun _ heq => heq ▸ hl) fun _ => .cases (fun _ => ?_) fun _ =>
    .pure fun _ hl => hl
  exact .throw fun l _ => fails_checksum l

/-- An exit that is a report has no packet. -/
def Stale (info : ℕ) (e : Exit) (l : Link) : Prop := 0 < e.err → l.pointInfo = info ∧ copyLength info = 0

theorem Fails.stale {e : Exit} {l : Link} (h : Fails e l) : Stale info e l := fun hpos => absurd h (Int.not_le.mpr hpos)

theorem solomonInitConfig_ends : Ends (·.pointInfo = info) solomonInitConfig (fun _ l => l.pointInfo = info) Fails :=
  .modifyGet fun _ hl => hl

theorem readWord_ends : Ends (·.pointInfo = info) (readWord info)
    (fun r l => l.pointInfo = info ∧ r.2.length = copyLength info) (Stale info) := by
  have hskip (err : ℤ) (C : Prop) [Decidable C] : Ends (·.pointInfo = info)
      (if C then solomonCheckSkiptime err else pure err) (fun _ l => l.pointInfo = info) (Stale info) :=
    .cases (fun _ => (solomonCheckSkiptime_ends err).failing fun _ _ he => he.stale) fun _ => .pure fun _ hl => hl
  have haux : Ends (·.pointInfo = info) (if statusOf info &&& statusCheckAux ≠ 0 then auxEvent else pure ())
      (fun _ l => l.pointInfo = info) (Stale info) :=
    .cases (fun _ => auxEvent_ends.failing fun _ _ he => he.stale) fun _ => .pure fun _ hl => hl
  refine .bind (hskip 4 (statusOf info &&& 0xf0 ≠ 0)) fun err => .bind (hskip err (lengthOf info > pointsSize)) fun err =>
    .bind haux fun _ => ?_
  refine .cases (fun hboot => ?_) fun hboot => .cases (fun hpacket => ?_) fun hpacket => .pure fun _ hl => ⟨hl, ?_⟩
  · have hnot : copyLength info = 0 := if_neg fun hasks => hboot hasks.1
    refine .bind (.modify fun _ hl => hl) fun _ => .bind (solomonInitConfig_ends.failing fun _ _ he => he.stale)
      fun err => .throw fun _ hl _ => ⟨hl, hnot⟩
  · have hasks : copyLength info = min (lengthOf info) pointsSize := if_pos ⟨not_not.mp hboot, hpacket⟩
    rw [hasks]
    exact (pointTries_ends _ 3).failing fun _ _ he => he.stale
  · exact (if_neg fun hasks : Asks info => hpacket hasks.2).symm

end Copied

theorem snlTries_ends (snl : List UInt8) (retry : ℕ) :
    Ends (fun _ => True) (snlTries snl retry) (fun _ _ => True) Fails := by
  induction retry generalizing snl with
  | zero => exact .throw fun l _ => fails_reset l
  | succ retry ih =>
    have hread (len : ℕ) : Ends (fun _ => True) (tsReadData len) (fun _ _ => True) Fails := .modifyGet fun _ _ => trivial
    have hwords : Ends (fun _ => True) (readSnlWords snl) (fun _ _ => True) Fails :=
      .bind (hread 4) fun first => .cases (fun _ => .bind (hread 4) fun again => .pure fun _ _ => trivial) fun _ =>
        .pure fun _ _ => trivial
    refine .bind hwords fun
      | (.error e, _) => .throw fun _ _ => ret_nonpos e
      | (.ok _, snl) => .read fun l _ => .cases (fun _ => (ih snl).starting trivial) fun _ => .pure fun _ _ => trivial

theorem readPoints_ends : Ends (fun _ => True) readPoints (fun r l => r.2.length = copyLength l.pointInfo)
    fun e l => 0 < e.err → copyLength l.pointInfo = 0 := by
  have hstale {e : Exit} {l : Link} (h : Fails e l) : 0 < e.err → copyLength l.pointInfo = 0 := fun hpos =>
    absurd h (Int.not_le.mpr hpos)
  refine .read fun l _ => .cases (fun _ => .throw fun _ _ hpos => absurd hpos (by decide)) fun _ => ?_
  refine .bind (((snlTries_ends [0, 0, 0, 0] 3).starting trivial).failing fun _ _ => hstale) fun snl => ?_
  refine .bind (I := fun _ l => l.pointInfo = le16 snl 0) (.modify fun _ _ => rfl) fun _ => .cases
    (fun _ => .throw fun _ _ hpos => absurd hpos (by decide)) fun _ => ?_
  exact readWord_ends.post (fun r l hr => hr.1 ▸ hr.2) fun e l he hpos => (he hpos).1 ▸ (he hpos).2

/-- A work that reports has read as many bytes into `points` as its word asks for. -/
theorem solomonReadPoints_copies {l : Link} (h : 0 < (solomonReadPoints l).1.1) :
    (solomonReadPoints l).1.2.length = copyLength (solomonReadPoints l).2.pointInfo := by
  have hends := readPoints_ends l trivial
  have hnot : ¬ (0 : ℤ) < -1 := by decide
  rw [solomonReadPoints] at h ⊢
  cases hrun : readPoints l with
  | ok r l' =>
    rw [hrun] at hends
    exact hends
  | error e l' =>
    rw [hrun] at hends h
    cases e with
    | out err => exact (hends h).symm
    | ret err => exact (hends h).symm
    | checksum => exact absurd h (hnot : ¬ (0 : ℤ) < -1)
    | reset => exact absurd h (hnot : ¬ (0 : ℤ) < -1)

/-! ### What is reported -/

theorem memcpy_of_lt {bytes : List UInt8} {i : ℕ} (h : i < bytes.length) (mem mem' : ℕ → UInt8) :
    memcpy mem bytes i = memcpy mem' bytes i := by
  rw [memcpy, memcpy, List.getElem?_eq_getElem h, Option.getD_some, Option.getD_some]

theorem memcpy_of_le {bytes : List UInt8} {i : ℕ} (h : bytes.length ≤ i) (mem : ℕ → UInt8) :
    memcpy mem bytes i = mem i := by
  rw [memcpy, List.getElem?_eq_none h, Option.getD_none]

/-- Records come from the bytes that were copied alone if these reach the end of the last one, and only then. -/
theorem points_copied_iff (bytes : List UInt8) (mem : ℕ → UInt8) (n : ℕ) :
    (∀ mem', (List.range n).map (pointAt (memcpy mem' bytes)) = (List.range n).map (pointAt (memcpy mem bytes))) ↔
      6 * n ≤ bytes.length := by
  constructor
  · intro hsame
    by_contra hshort
    have hmem : n - 1 ∈ List.range n := List.mem_range.mpr (by omega)
    have hlast := List.map_inj_left.mp (hsame fun i => mem i + 1) (n - 1) hmem
    have hbyte : memcpy (fun i => mem i + 1) bytes (6 * (n - 1) + 5) = memcpy mem bytes (6 * (n - 1) + 5) :=
      congrArg SsdData.b5 hlast
    rw [memcpy_of_le (by omega), memcpy_of_le (by omega)] at hbyte
    exact absurd (UInt8.add_eq_left.mp hbyte) (by decide)
  · intro hlong mem'
    refine List.map_congr_left fun i hi => ?_
    have hrec : 6 * i + 6 ≤ bytes.length := by
      have := List.mem_range.mp hi
      omega
    have hfirst : memcpy mem' bytes (6 * i) = memcpy mem bytes (6 * i) := memcpy_of_lt (by omega) mem' mem
    have hbyte (k : ℕ) (hk : k < 6) : memcpy mem' bytes (6 * i + k) = memcpy mem bytes (6 * i + k) :=
      memcpy_of_lt (by omega) mem' mem
    rw [pointAt, pointAt, hfirst, hbyte 1 (by decide), hbyte 2 (by decide), hbyte 3 (by decide),
      hbyte 4 (by decide), hbyte 5 (by decide)]

theorem records_le_copyLength_iff (info : ℕ) :
    6 * (lengthOf info / 6) ≤ copyLength info ↔
      lengthOf info / 6 = 0 ∨ Asks info ∧ lengthOf info / 6 ≤ solomonMaxPoint := by
  have hmax : solomonMaxPoint = 10 := rfl
  have hsize : pointsSize = 60 := rfl
  rw [copyLength]
  split_ifs with hasks
  · simp only [hasks, true_and]
    omega
  · simp only [hasks, false_and, or_false]
    omega

/-- What a work reports is its own if its word gives no record or asks for a packet that `points` can hold. -/
def Own (l : Link) : Prop :=
  lengthOf (solomonReadPoints l).2.pointInfo / 6 = 0 ∨ Asks (solomonReadPoints l).2.pointInfo ∧
    lengthOf (solomonReadPoints l).2.pointInfo / 6 ≤ solomonMaxPoint

theorem handled_same_iff {l : Link} (h : 0 < (solomonReadPoints l).1.1) (mem : ℕ → UInt8) :
    (∀ mem', handled ⟨l, mem'⟩ = handled ⟨l, mem⟩) ↔ Own l := by
  have hcopied := solomonReadPoints_copies h
  have hhandled (mem : ℕ → UInt8) : handled ⟨l, mem⟩ =
      some (pointsOf (memcpy mem (solomonReadPoints l).1.2) (solomonReadPoints l).2.pointInfo) := if_pos h
  simp only [hhandled, Option.some.injEq, pointsOf]
  rw [points_copied_iff, hcopied, records_le_copyLength_iff, Own]

/-- A work reports records that are not there any more, or never were, unless its word gives none or asks for a
    packet that `points` can hold: then, and only then, what it reports does not depend on what `points` and
    the memory behind it held before. -/
theorem handled_own_iff {d : Ftdev} {points : List SsdData} (h : handled d = some points) :
    (∀ mem, handled ⟨d.link, mem⟩ = some points) ↔
      points = [] ∨ Asks (solomonReadPoints d.link).2.pointInfo ∧ points.length ≤ solomonMaxPoint := by
  by_cases hpos : 0 < (solomonReadPoints d.link).1.1
  · have hpoints : pointsOf (memcpy d.mem (solomonReadPoints d.link).1.2) (solomonReadPoints d.link).2.pointInfo =
        points := Option.some.inj ((if_pos hpos).symm.trans h)
    have hlen : points.length = lengthOf (solomonReadPoints d.link).2.pointInfo / 6 := by
      rw [← hpoints, pointsOf, List.length_map, List.length_range]
    rw [← h, ← List.length_eq_zero_iff, hlen]
    exact handled_same_iff hpos d.mem
  · rw [handled, if_neg hpos] at h
    cases h

/-- A chip that has lost its configuration, and says so with the length of a record: the last packet had a
    finger with ID 3. -/
def unconfigured : Ftdev where
  link :=
    { intPin := false
      stateFlag := true
      esVersion := .es1
      pointSkipTime := false
      recent := false
      bootFlag := 0
      pointInfo := 0
      reporter := Reporter.start (Stream'.const false)
      cleared := 0
      i2c := Stream'.const (.ok fun i => [6, 0x80, 0x86, 0x86].getD i 0)
      preInits := Stream'.const ⟨.ok 0, .ok true⟩
      initConfigs := Stream'.const 2 }
  mem := fun i => [3, 10, 20, 0, 5, 0].getD i 0

theorem handled_own_iff_unconfigured : handled unconfigured = some [⟨3, 10, 20, 0, 5, 0⟩] ∧
    ((∀ mem, handled ⟨unconfigured.link, mem⟩ = some [⟨3, 10, 20, 0, 5, 0⟩]) ↔
      [(⟨3, 10, 20, 0, 5, 0⟩ : SsdData)] = [] ∨
        Asks (solomonReadPoints unconfigured.link).2.pointInfo ∧ [(⟨3, 10, 20, 0, 5, 0⟩ : SsdData)].length ≤ solomonMaxPoint) :=
  have h : handled unconfigured = some [⟨3, 10, 20, 0, 5, 0⟩] := by decide +kernel
  ⟨h, handled_own_iff h⟩

/-! ### Works -/

theorem handled_own {l : Link} (h : 0 < (solomonReadPoints l).1.1 → Own l) (mem mem' : ℕ → UInt8) :
    handled ⟨l, mem'⟩ = handled ⟨l, mem⟩ := by
  by_cases hpos : 0 < (solomonReadPoints l).1.1
  · exact (handled_same_iff hpos mem).mpr (h hpos) mem'
  · exact (if_neg hpos).trans (if_neg hpos).symm

/-- A step of a run whose report, if there is one, is its own. -/
def ReportsOwn (d : Ftdev) (before : Link → Link) : Prop :=
  0 < (solomonReadPoints (before d.link)).1.1 → Own (before d.link)

theorem nextWork_link {d : Ftdev} {before : Link → Link} (h : ReportsOwn d before) (mem : ℕ → UInt8) :
    (nextWork ⟨d.link, mem⟩ before).link = (nextWork d before).link := by
  rw [nextWork, nextWork, solomonWork, solomonWork, handled_own h d.mem mem]
  cases handled ⟨before d.link, d.mem⟩ with
  | none => rfl
  | some points => rfl

/-- Over a run of works that report their own records alone, what `points` and the memory behind it held at its
    start makes no difference to anything but them. -/
theorem works_own {d : Ftdev} {es : List (Link → Link)} (h : Steps nextWork ReportsOwn d es) (mem : ℕ → UInt8) :
    (run nextWork ⟨d.link, mem⟩ es).link = (run nextWork d es).link := by
  induction es generalizing d mem with
  | nil => rfl
  | cons e es ih =>
    have hrest := ih h.2 (nextWork ⟨d.link, mem⟩ e).mem
    rw [← nextWork_link h.1 mem] at hrest
    exact hrest

/-- A chip with a finger to report, whose packet comes at every try. -/
def fingerWork : Ftdev where
  link := { unconfigured.link with
    i2c := Stream'.cons (Ssd2092.reply [6, 1, 7, 7]) (Stream'.const (Ssd2092.reply Ssd2092.fingerPkt)) }
  mem := fun _ => 0

theorem works_own_finger :
    (run nextWork ⟨fingerWork.link, fun _ => 7⟩ [id]).link = (run nextWork fingerWork [id]).link :=
  have h : Steps nextWork ReportsOwn fingerWork [id] := ⟨fun _ => .inr (by decide +kernel), trivial⟩
  works_own h fun _ => 7

end GeminiLinux.Solomon
