import GeminiLinux.Consys.WmtPush

/-! What `wmt_firmware_push` has to give back: the MCU clock it raises is to be lowered again, and a blob
    it gets from `request_firmware` is to be released. The push is followed here with a log of what
    becomes of the blobs; but for the log it is the push of the gate (`wmtFirmwarePush_follows`).

        dlm ─▶ mcuclk-up ─▶ request ─▶ push ─▶ release ─▶ ... ─▶ mcuclk-restore ─▶ push_ret
                               │          └─ failed: ────────────▲
                               └─ not found: ─▶ ret

    The second way out passes the restore by. -/

namespace GeminiLinux.Wmt
open Prog Bytes

/-! ### The push with its blobs -/

namespace Blobs

inductive FwEv where
  | obtained (name : String)
  | pushed (name : String) (ok : Bool)
  | released (name : String)
  deriving DecidableEq

structure Push where
  ap : Ap
  log : List FwEv

abbrev PushM := EStateM Errno Push

def onAp {α : Type} (p : EStateM Errno Ap α) : PushM α := zoom Push.ap (fun ap s => { s with ap := ap }) p

def note (ev : FwEv) : PushM Unit := modify fun s => { s with log := s.log ++ [ev] }

def requestFirmware (name : String) : PushM (List UInt8) := do
  let fw ← onAp (Wmt.requestFirmware name)
  note (.obtained name)
  pure fw

def wmtPushPatch (fw : List UInt8) (name : String) : PushM (Except Errno Unit) := do
  let ret ← onAp (attempt (Wmt.wmtPushPatch fw))
  note (.pushed name ret.isOk)
  pure ret

def releaseFirmware (name : String) : PushM Unit := note (.released name)

/-- The loop over `wmt_patch_names`; a blob that is not found ends `wmt_firmware_push` itself. -/
def pushPatches : List String → PushM (Except Errno Unit)
  | [] => pure (.ok ())
  | name :: names => do
    let fw ← requestFirmware name
    let ret ← wmtPushPatch fw name
    releaseFirmware name
    match ret with
    | .ok () => pushPatches names
    | .error e => pure (.error e)

def dlmCmds : List (List UInt8) := [wmtDlmCmd1, wmtDlmCmd2, wmtDlmCmd3]
def clkUpCmds : List (List UInt8) := [wmtMcuclkEn, wmtMcuclkRatio, wmtMcuclkDiv, wmtMcuclkHclk]
def clkDnCmds : List (List UInt8) := [wmtMcuclkHclkDis, wmtMcuclkRatioDis, wmtMcuclkDis]

def wmtFirmwarePush : PushM Unit := do
  onAp (wmtRunScript dlmCmds)
  onAp (wmtRunScript clkUpCmds)
  let pushRet ← pushPatches wmtPatchNames
  onAp (wmtRunScript clkDnCmds)
  MonadExcept.ofExcept pushRet

/-! ### It is the push of the gate -/

/-- But for the log, `p` does what `q` does. -/
def Follows {α : Type} (p : PushM α) (q : EStateM Errno Ap α) : Prop :=
  ∀ s, outcome p s = outcome q s.ap ∧ (finalState p s).ap = finalState q s.ap

section Follows

variable {α β : Type} {p : PushM α} {q : EStateM Errno Ap α}

theorem Follows.pure (a : α) : Follows (pure a) (pure a) := fun _ => ⟨rfl, rfl⟩

theorem Follows.ofExcept (r : Except Errno α) :
    Follows (MonadExcept.ofExcept r) (MonadExcept.ofExcept r) := fun s => by
  cases r <;> exact ⟨rfl, rfl⟩

theorem Follows.onAp (q : EStateM Errno Ap α) : Follows (onAp q) q := by
  intro s
  rw [Blobs.onAp, outcome_zoom, finalState_zoom]
  exact ⟨rfl, rfl⟩

theorem Follows.bind {f : α → PushM β} {g : α → EStateM Errno Ap β} (hp : Follows p q)
    (hf : ∀ a, Follows (f a) (g a)) : Follows (p >>= f) (q >>= g) := by
  intro s
  obtain ⟨hout, hstate⟩ := hp s
  rcases hq : outcome q s.ap with e | a
  · rw [hq] at hout
    rw [outcome_bind_error _ hout, outcome_bind_error _ hq, finalState_bind_error _ hout,
      finalState_bind_error _ hq]
    exact ⟨rfl, hstate⟩
  · rw [hq] at hout
    rw [outcome_bind_ok _ hout, outcome_bind_ok _ hq, finalState_bind_ok _ hout,
      finalState_bind_ok _ hq, ← hstate]
    exact hf a (finalState p s)

/-- A note in between is not seen. -/
theorem Follows.note {f : Unit → PushM α} (ev : FwEv) (hf : Follows (f ()) q) :
    Follows (note ev >>= f) q := fun s => hf { s with log := s.log ++ [ev] }

end Follows

/-! ### One blob -/

section Blob

variable {name : String} {names : List String} {s : Push} {fw : List UInt8}

/-- What stands in the log once a blob has been dealt with. -/
def handled (name : String) (ret : Except Errno Unit) : List FwEv :=
  [.obtained name, .pushed name ret.isOk, .released name]

/-- The state once a blob has been dealt with. -/
def Push.next (s : Push) (name : String) (fw : List UInt8) : Push where
  ap := finalState (Wmt.wmtPushPatch fw) s.ap
  log := s.log ++ handled name (outcome (Wmt.wmtPushPatch fw) s.ap)

theorem onAp_request (s : Push) : onAp (Wmt.requestFirmware name) s =
    match s.ap.firmware name with
    | .ok fw => .ok fw s
    | .error e => .error e s := by
  rw [onAp, zoom, Wmt.requestFirmware, bind_apply, get_apply]
  dsimp only
  cases s.ap.firmware name <;> rfl

theorem requestFirmware_found (h : s.ap.firmware name = .ok fw) :
    requestFirmware name s = .ok fw { s with log := s.log ++ [.obtained name] } := by
  rw [requestFirmware, bind_apply, onAp_request, h]
  rfl

theorem wmtPushPatch_apply (s : Push) : wmtPushPatch fw name s =
    .ok (outcome (Wmt.wmtPushPatch fw) s.ap)
      ⟨finalState (Wmt.wmtPushPatch fw) s.ap,
        s.log ++ [.pushed name (outcome (Wmt.wmtPushPatch fw) s.ap).isOk]⟩ := by
  rw [wmtPushPatch, bind_apply, onAp, zoom]
  unfold attempt outcome finalState
  cases Wmt.wmtPushPatch fw s.ap <;> rfl

theorem pushPatches_notFound {e : Errno} (h : s.ap.firmware name = .error e) :
    pushPatches (name :: names) s = .error e s := by
  rw [pushPatches, bind_apply, requestFirmware, bind_apply, onAp_request, h]

theorem pushPatches_found (h : s.ap.firmware name = .ok fw) : pushPatches (name :: names) s =
    match outcome (Wmt.wmtPushPatch fw) s.ap with
    | .ok () => pushPatches names (s.next name fw)
    | .error e => .ok (.error e) (s.next name fw) := by
  rw [pushPatches, bind_apply, requestFirmware_found h]
  dsimp only
  rw [bind_apply, wmtPushPatch_apply]
  dsimp only
  rw [bind_apply, releaseFirmware, note, modify_apply]
  rw [Push.next, handled]
  rcases outcome (Wmt.wmtPushPatch fw) s.ap with e | _
  · simp
  · simp

theorem lower_found {a : Ap} (h : a.firmware name = .ok fw) : Wmt.pushPatches (name :: names) a =
    match outcome (Wmt.wmtPushPatch fw) a with
    | .ok () => Wmt.pushPatches names (finalState (Wmt.wmtPushPatch fw) a)
    | .error e => .ok (.error e) (finalState (Wmt.wmtPushPatch fw) a) := by
  rw [Wmt.pushPatches, bind_apply, Wmt.requestFirmware, bind_apply, get_apply]
  dsimp only
  rw [h, ofExcept_ok_apply]
  dsimp only
  rw [bind_apply]
  unfold attempt outcome finalState
  cases Wmt.wmtPushPatch fw a <;> rfl

theorem lower_notFound {a : Ap} {e : Errno} (h : a.firmware name = .error e) :
    Wmt.pushPatches (name :: names) a = .error e a := by
  rw [Wmt.pushPatches, bind_apply, Wmt.requestFirmware, bind_apply, get_apply]
  dsimp only
  rw [h]
  rfl

end Blob

theorem pushPatches_follows (names : List String) :
    Follows (pushPatches names) (Wmt.pushPatches names) := by
  induction names with
  | nil => exact .pure _
  | cons name names ih =>
    intro s
    unfold outcome finalState
    rcases hfw : s.ap.firmware name with e | fw
    · rw [pushPatches_notFound hfw, lower_notFound hfw]
      exact ⟨rfl, rfl⟩
    · rw [pushPatches_found hfw, lower_found hfw]
      rcases outcome (Wmt.wmtPushPatch fw) s.ap with e | _
      · exact ⟨rfl, rfl⟩
      · exact ih (s.next name fw)

/-- Whatever is said of the calls here is said of those of the gate's push. -/
theorem wmtFirmwarePush_follows : Follows wmtFirmwarePush Wmt.wmtFirmwarePush :=
  .bind (.onAp _) fun _ => .bind (.onAp _) fun _ => .bind (pushPatches_follows _) fun r =>
    .bind (.onAp _) fun _ => .ofExcept r

/-! ### Calls -/

/-- Calls whose commands have `Q` are added; what `request_firmware` will find stays. -/
structure Adds (Q : List UInt8 → Prop) (a a' : Ap) : Prop where
  firmware : a'.firmware = a.firmware
  calls : ∃ calls, a'.calls = a.calls ++ calls ∧ ∀ c ∈ calls, Q c.cmd

section Adds

variable {Q : List UInt8 → Prop}

instance : Std.Refl (Adds Q) where
  refl a := ⟨rfl, [], (List.append_nil _).symm, by simp⟩

instance : IsTrans Ap (Adds Q) where
  trans := by
    rintro a a' a'' ⟨hfw, calls, hcalls, hall⟩ ⟨hfw', calls', hcalls', hall'⟩
    refine ⟨hfw'.trans hfw, calls ++ calls', by rw [hcalls', hcalls, List.append_assoc], ?_⟩
    intro c hc
    rcases List.mem_append.mp hc with hc | hc
    · exact hall c hc
    · exact hall' c hc

theorem wmtCmdEvt_adds {cmd evt : List UInt8} (h : Q cmd) : Within (Adds Q) (wmtCmdEvt cmd evt) := by
  intro a
  rw [wmtCmdEvt_state]
  exact ⟨rfl, _, rfl, fun c hc => by rw [List.mem_singleton.mp hc]; exact h⟩

theorem kmallocFrag_adds : Within (Adds Q) kmallocFrag := by
  intro a
  refine ⟨?_, [], by rw [kmallocFrag_calls, List.append_nil], by simp⟩
  unfold kmallocFrag finalState
  cases h : a.fragAlloc.head <;> simp [bind_apply, h]

theorem pushFrags_adds {fw : List UInt8} (h : ∀ i off, Q (fragCmd fw i off)) :
    ∀ fuel fragSeq off : ℕ, Within (Adds Q) (pushFrags fw fuel fragSeq off) := by
  intro fuel
  induction fuel with
  | zero =>
    intro fragSeq off
    exact .pure ()
  | succ fuel ih =>
    intro fragSeq off
    rw [pushFrags]
    split_ifs
    · exact .bind (wmtCmdEvt_adds (h _ _)) fun _ => ih _ _
    · exact .pure ()

end Adds

/-- A command is told from those that lower the clock by its first bytes. -/
theorem notMem_clkDnCmds {cmd start : List UInt8} (n : ℕ) (h : cmd.take n = start)
    (hstart : start ∉ clkDnCmds.map (·.take n)) : cmd ∉ clkDnCmds := by
  rintro hmem
  exact hstart (h ▸ List.mem_map_of_mem hmem)

theorem pAddressCmd_take (fw : List UInt8) :
    (pAddressCmd fw).take 12 = wmtPatchPAddressCmd.take 12 := by
  have hlen : (wmtPatchPAddressCmd.take 12).length = 12 := by decide
  rw [pAddressCmd, List.take_set_of_le (le_refl 12), overlay, List.append_assoc,
    List.take_append_of_le_length hlen.ge, List.take_take, min_self]

/-- No command of a patch lowers the clock. -/
theorem wmtPushPatch_adds (fw : List UInt8) : Within (Adds (· ∉ clkDnCmds)) (Wmt.wmtPushPatch fw) := by
  have hfrag : ∀ i off, fragCmd fw i off ∉ clkDnCmds := by
    intro i off
    have htake : (fragCmd fw i off).take 2 = [0x01, 0x01] := rfl
    exact notMem_clkDnCmds 2 htake (by decide)
  have haddr : pAddressCmd fw ∉ clkDnCmds := notMem_clkDnCmds 12 (pAddressCmd_take fw) (by decide)
  rw [Wmt.wmtPushPatch]
  split_ifs
  · exact .throw _
  · exact .bind (wmtCmdEvt_adds (by decide)) fun _ => .bind (wmtCmdEvt_adds haddr) fun _ =>
      .bind kmallocFrag_adds fun _ => .bind (pushFrags_adds hfrag _ _ _) fun _ =>
      wmtCmdEvt_adds (by decide)

theorem sendEach_adds (cmds : List (List UInt8 × List UInt8)) : ∀ a : Ap,
    outcome (sendEach cmds) a = .ok () ∧ (finalState (sendEach cmds) a).firmware = a.firmware ∧
      ∃ calls, (finalState (sendEach cmds) a).calls = a.calls ++ calls ∧
        calls.map Call.cmd = cmds.map Prod.fst := by
  induction cmds with
  | nil =>
    intro a
    exact ⟨rfl, rfl, [], (List.append_nil _).symm, rfl⟩
  | cons c cs ih =>
    intro a
    have hout := outcome_attempt (wmtCmdEvt c.1 c.2) a
    have hstate := wmtCmdEvt_state c.1 c.2 a
    obtain ⟨hok, hfw, calls, hcalls, hmap⟩ := ih (finalState (wmtCmdEvt c.1 c.2) a)
    rw [sendEach, outcome_bind_ok _ hout, finalState_bind_ok _ hout, finalState_attempt]
    refine ⟨hok, ?_, ⟨c.1, c.2, a.env.head, a.bus, outcome (exchange a.env.head c.1 c.2) a.bus⟩ :: calls,
      ?_, ?_⟩
    · rw [hfw, hstate]
    · rw [hcalls, hstate, List.append_assoc]
      rfl
    · rw [List.map_cons, hmap]
      rfl

/-! ### Whole runs -/

/-- What the loop over the blobs leaves behind. -/
structure Looped (names : List String) (s : Push) (evs : List FwEv) : Prop where
  log : (finalState (pushPatches names) s).log = s.log ++ evs
  calls : Adds (· ∉ clkDnCmds) s.ap (finalState (pushPatches names) s).ap
  released : ∀ name, evs.count (.released name) = evs.count (.obtained name)
  named : ∀ name ok, .pushed name ok ∈ evs → name ∈ names
  all_pushed : outcome (pushPatches names) s = .ok (.ok ()) ↔ ∀ name ∈ names, .pushed name true ∈ evs

theorem handled_released (name : String) (ret : Except Errno Unit) (n : String) :
    (handled name ret).count (.released n) = (handled name ret).count (.obtained n) := by
  simp [handled, List.count_cons]

section Loop

variable {name : String} {names : List String} {s : Push} {fw : List UInt8} {e : Errno}

theorem looped_notFound (h : s.ap.firmware name = .error e) : Looped (name :: names) s [] := by
  have hrun : pushPatches (name :: names) s = .error e s := pushPatches_notFound h
  refine ⟨?_, ?_, ?_, ?_, ?_⟩
  · rw [finalState, hrun, List.append_nil]
  · rw [finalState, hrun]
    exact Std.Refl.refl _
  · exact fun _ => rfl
  · exact fun n ok hmem => absurd hmem List.not_mem_nil
  · rw [outcome, hrun]
    constructor
    · intro hok
      cases hok
    · intro hall
      exact absurd (hall name (List.mem_cons_self ..)) List.not_mem_nil

theorem mem_handled {ret : Except Errno Unit} {n : String} {ok : Bool} :
    .pushed n ok ∈ handled name ret ↔ n = name ∧ ok = ret.isOk := by
  simp [handled]

theorem looped_failed (h : s.ap.firmware name = .ok fw)
    (hpush : outcome (Wmt.wmtPushPatch fw) s.ap = .error e) :
    Looped (name :: names) s (handled name (.error e)) := by
  have hrun : pushPatches (name :: names) s = .ok (.error e) (s.next name fw) := by
    rw [pushPatches_found h, hpush]
  refine ⟨?_, ?_, handled_released _ _, ?_, ?_⟩
  · rw [finalState, hrun, ← hpush]
    rfl
  · rw [finalState, hrun]
    exact wmtPushPatch_adds fw s.ap
  · intro n ok hmem
    exact (mem_handled.mp hmem).1 ▸ List.mem_cons_self ..
  · rw [outcome, hrun]
    constructor
    · intro hok
      cases hok
    · intro hall
      cases (mem_handled.mp (hall name (List.mem_cons_self ..))).2

theorem Looped.cons {evs : List FwEv} (hname : name ∉ names) (h : s.ap.firmware name = .ok fw)
    (hpush : outcome (Wmt.wmtPushPatch fw) s.ap = .ok ()) (hrest : Looped names (s.next name fw) evs) :
    Looped (name :: names) s (handled name (.ok ()) ++ evs) := by
  have hrun : pushPatches (name :: names) s = pushPatches names (s.next name fw) := by
    rw [pushPatches_found h, hpush]
  have hnext : (s.next name fw).log = s.log ++ handled name (.ok ()) := by rw [Push.next, hpush]
  refine ⟨?_, ?_, ?_, ?_, ?_⟩
  · rw [finalState, hrun, ← finalState, hrest.log, hnext, List.append_assoc]
  · rw [finalState, hrun, ← finalState]
    exact IsTrans.trans _ _ _ (wmtPushPatch_adds fw s.ap) hrest.calls
  · intro n
    rw [List.count_append, List.count_append, handled_released, hrest.released]
  · intro n ok hmem
    rcases List.mem_append.mp hmem with hmem | hmem
    · exact (mem_handled.mp hmem).1 ▸ List.mem_cons_self ..
    · exact List.mem_cons_of_mem _ (hrest.named n ok hmem)
  · rw [outcome, hrun, ← outcome, hrest.all_pushed]
    constructor
    · intro hall n hn
      rcases List.mem_cons.mp hn with rfl | hn
      · exact List.mem_append_left _ (mem_handled.mpr ⟨rfl, rfl⟩)
      · exact List.mem_append_right _ (hall n hn)
    · intro hall n hn
      rcases List.mem_append.mp (hall n (List.mem_cons_of_mem _ hn)) with hmem | hmem
      · exact absurd ((mem_handled.mp hmem).1 ▸ hn) hname
      · exact hmem

end Loop

theorem pushPatches_looped (names : List String) (hnodup : names.Nodup) : ∀ s : Push,
    ∃ evs, Looped names s evs := by
  induction names with
  | nil =>
    intro s
    refine ⟨[], ?_, Std.Refl.refl _, ?_, ?_, ?_⟩
    · exact (List.append_nil _).symm
    · simp
    · simp
    · simp [pushPatches, outcome]
  | cons name names ih =>
    intro s
    obtain ⟨hname, hnames⟩ := List.nodup_cons.mp hnodup
    rcases hfw : s.ap.firmware name with e | fw
    · exact ⟨_, looped_notFound hfw⟩
    · rcases hpush : outcome (Wmt.wmtPushPatch fw) s.ap with e | _
      · exact ⟨_, looped_failed hfw hpush⟩
      · obtain ⟨evs, hrest⟩ := ih hnames (s.next name fw)
        exact ⟨_, hrest.cons hname hfw hpush⟩

/-- The loop gets to its end, the restore, unless a blob it asks for is not there. -/
theorem pushPatches_ends_iff (s : Push) (first second : String) :
    (∃ r, outcome (pushPatches [first, second]) s = .ok r) ↔
      ∃ fw, s.ap.firmware first = .ok fw ∧ ((∃ fw', s.ap.firmware second = .ok fw') ∨
        ∃ e, outcome (Wmt.wmtPushPatch fw) s.ap = .error e) := by
  rcases hfw : s.ap.firmware first with e | fw
  · rw [outcome, pushPatches_notFound hfw]
    simp
  · have hkeep : (s.next first fw).ap.firmware = s.ap.firmware := (wmtPushPatch_adds fw s.ap).firmware
    rw [outcome, pushPatches_found hfw]
    rcases hpush : outcome (Wmt.wmtPushPatch fw) s.ap with e | _
    · simp [hpush]
    · rcases hfw' : s.ap.firmware second with e | fw'
      · rw [← hkeep] at hfw'
        dsimp only
        rw [pushPatches_notFound hfw']
        simp [hpush]
      · rw [← hkeep] at hfw'
        dsimp only
        rw [pushPatches_found hfw']
        rcases outcome (Wmt.wmtPushPatch fw') (s.next first fw).ap with e | _
        · simp
        · simp [pushPatches]

theorem onAp_script (cmds : List (List UInt8)) (s : Push) : onAp (wmtRunScript cmds) s =
    .ok () { s with ap := finalState (wmtRunScript cmds) s.ap } := by
  have hok := (sendEach_adds (cmds.map fun cmd => (cmd, wmtRegEvt)) s.ap).1
  unfold outcome at hok
  unfold onAp zoom finalState wmtRunScript
  cases hr : sendEach (cmds.map fun cmd => (cmd, wmtRegEvt)) s.ap with
  | ok _ a => rfl
  | error e a =>
    rw [hr] at hok
    cases hok

/-- The AP once the first two scripts are through. -/
def clockUp (a : Ap) : Ap := finalState (wmtRunScript clkUpCmds) (finalState (wmtRunScript dlmCmds) a)

/-- The state in which the loop over the blobs ends. -/
def Push.looped (s : Push) : Push := finalState (pushPatches wmtPatchNames) { s with ap := clockUp s.ap }

/-- The two ways out. -/
theorem wmtFirmwarePush_ends (s : Push) :
    (∃ r, outcome (pushPatches wmtPatchNames) { s with ap := clockUp s.ap } = .ok r ∧
      outcome wmtFirmwarePush s = r ∧ finalState wmtFirmwarePush s =
        { s.looped with ap := finalState (wmtRunScript clkDnCmds) s.looped.ap }) ∨
    ∃ e, outcome (pushPatches wmtPatchNames) { s with ap := clockUp s.ap } = .error e ∧
      outcome wmtFirmwarePush s = .error e ∧ finalState wmtFirmwarePush s = s.looped := by
  have hup : wmtFirmwarePush s = (do
      let pushRet ← pushPatches wmtPatchNames
      onAp (wmtRunScript clkDnCmds)
      MonadExcept.ofExcept pushRet : PushM Unit) { s with ap := clockUp s.ap } := by
    rw [wmtFirmwarePush, bind_apply, onAp_script]
    dsimp only
    rw [bind_apply, onAp_script]
    rfl
  unfold Push.looped outcome finalState
  rw [hup, bind_apply]
  cases pushPatches wmtPatchNames { s with ap := clockUp s.ap } with
  | ok pushRet s' =>
    refine .inl ⟨pushRet, rfl, ?_⟩
    dsimp only
    rw [bind_apply, onAp_script]
    cases pushRet <;> exact ⟨rfl, rfl⟩
  | error e s' => exact .inr ⟨e, rfl, rfl, rfl⟩

theorem script_calls (cmds : List (List UInt8)) (a : Ap) : ∃ calls,
    (finalState (wmtRunScript cmds) a).calls = a.calls ++ calls ∧ calls.map Call.cmd = cmds := by
  obtain ⟨-, -, calls, hcalls, hmap⟩ := sendEach_adds (cmds.map fun cmd => (cmd, wmtRegEvt)) a
  refine ⟨calls, hcalls, ?_⟩
  rw [hmap, List.map_map]
  exact List.map_id _

theorem clockUp_firmware (a : Ap) : (clockUp a).firmware = a.firmware :=
  (sendEach_adds (clkUpCmds.map fun cmd => (cmd, wmtRegEvt)) _).2.1.trans
    (sendEach_adds (dlmCmds.map fun cmd => (cmd, wmtRegEvt)) a).2.1

theorem clockUp_calls (a : Ap) : ∃ calls,
    (clockUp a).calls = a.calls ++ calls ∧ calls.map Call.cmd = dlmCmds ++ clkUpCmds := by
  obtain ⟨calls, hcalls, hmap⟩ := script_calls dlmCmds a
  obtain ⟨calls', hcalls', hmap'⟩ := script_calls clkUpCmds (finalState (wmtRunScript dlmCmds) a)
  refine ⟨calls ++ calls', ?_, ?_⟩
  · rw [clockUp, hcalls', hcalls, List.append_assoc]
  · rw [List.map_append, hmap, hmap']

/-- The commands that lower the clock are sent once each, in order, after everything else. -/
def ClockRestored (s : Push) : Prop :=
  ∃ calls pushed, (finalState wmtFirmwarePush s).ap.calls = s.ap.calls ++ calls ∧
    calls.map Call.cmd = dlmCmds ++ clkUpCmds ++ pushed ++ clkDnCmds ∧ ∀ cmd ∈ pushed, cmd ∉ clkDnCmds

/-- Every blob is released as often as it is obtained, and success is reported of both or not at all. -/
def BlobsAccounted (s : Push) : Prop :=
  ∃ evs, (finalState wmtFirmwarePush s).log = s.log ++ evs ∧
    (∀ name, evs.count (.released name) = evs.count (.obtained name)) ∧
    (outcome wmtFirmwarePush s = .ok () ↔ ∀ name ∈ wmtPatchNames, .pushed name true ∈ evs)

/-- `request_firmware` finds what the loop asks it for: the first blob, and the second unless the push
    of the first fails. -/
def Served (a : Ap) : Prop :=
  ∃ fw, a.firmware "ROMv3_patch_1_1_hdr.bin" = .ok fw ∧
    ((∃ fw', a.firmware "ROMv3_patch_1_0_hdr.bin" = .ok fw') ∨
      ∃ e, outcome (Wmt.wmtPushPatch fw) (clockUp a) = .error e)

theorem blobs_accounted (s : Push) : BlobsAccounted s := by
  obtain ⟨evs, hloop⟩ := pushPatches_looped wmtPatchNames (by decide) { s with ap := clockUp s.ap }
  have hlog : s.looped.log = s.log ++ evs := hloop.log
  have hall := hloop.all_pushed
  rcases wmtFirmwarePush_ends s with ⟨r, hloop', hout, hfinal⟩ | ⟨e, hloop', hout, hfinal⟩
  · rw [hloop'] at hall
    refine ⟨evs, by rw [hfinal, hlog], hloop.released, ?_⟩
    rw [hout, ← hall]
    exact ⟨congrArg _, Except.ok.inj⟩
  · rw [hloop'] at hall
    refine ⟨evs, by rw [hfinal, hlog], hloop.released, ?_⟩
    rw [hout, ← hall]
    constructor <;> exact fun h => by cases h

theorem looped_calls (s : Push) : ∃ up pushed, s.looped.ap.calls = s.ap.calls ++ (up ++ pushed) ∧
    up.map Call.cmd = dlmCmds ++ clkUpCmds ∧ ∀ c ∈ pushed, c.cmd ∉ clkDnCmds := by
  obtain ⟨up, hup, hmap⟩ := clockUp_calls s.ap
  obtain ⟨evs, hloop⟩ := pushPatches_looped wmtPatchNames (by decide) { s with ap := clockUp s.ap }
  obtain ⟨pushed, hpushed, hall⟩ := hloop.calls.calls
  refine ⟨up, pushed, ?_, hmap, hall⟩
  rw [Push.looped, hpushed, hup, List.append_assoc]

theorem clock_restored_iff (s : Push) : ClockRestored s ↔ Served s.ap := by
  obtain ⟨up, pushed, hcalls, hup, hpushed⟩ := looped_calls s
  have hserved : Served s.ap ↔
      ∃ r, outcome (pushPatches wmtPatchNames) { s with ap := clockUp s.ap } = .ok r := by
    rw [wmtPatchNames, pushPatches_ends_iff]
    dsimp only
    rw [clockUp_firmware, Served]
  rw [hserved]
  rcases wmtFirmwarePush_ends s with ⟨r, hloop, -, hfinal⟩ | ⟨e, hloop, -, hfinal⟩
  · obtain ⟨dn, hdn, hmap⟩ := script_calls clkDnCmds s.looped.ap
    refine ⟨fun _ => ⟨r, hloop⟩, fun _ => ⟨up ++ pushed ++ dn, pushed.map Call.cmd, ?_, ?_, ?_⟩⟩
    · rw [hfinal, hdn, hcalls, List.append_assoc]
    · rw [List.map_append, List.map_append, hup, hmap]
    · intro cmd hcmd
      obtain ⟨c, hc, rfl⟩ := List.mem_map.mp hcmd
      exact hpushed c hc
  · constructor
    · -- none of the calls made lowers the clock
      rintro ⟨calls, pushed', hcalls', hmap, -⟩
      rw [hfinal, hcalls] at hcalls'
      rw [← List.append_cancel_left hcalls', List.map_append, hup] at hmap
      have hlast : wmtMcuclkDis ∈ dlmCmds ++ clkUpCmds ++ pushed.map Call.cmd := by
        rw [hmap]
        exact List.mem_append_right _ (by decide)
      rcases List.mem_append.mp hlast with hmem | hmem
      · exact absurd hmem (by decide)
      · obtain ⟨c, hc, hcmd⟩ := List.mem_map.mp hmem
        exact absurd (hcmd ▸ (by decide : wmtMcuclkDis ∈ clkDnCmds)) (hpushed c hc)
    · rintro ⟨r, hr⟩
      rw [hloop] at hr
      cases hr

/-- The blobs are always accounted for, and the clock is restored exactly if `request_firmware` finds
    what it is asked for. -/
theorem push_gives_back_iff (s : Push) : (ClockRestored s ∧ BlobsAccounted s) ↔ Served s.ap := by
  rw [clock_restored_iff]
  exact ⟨And.left, fun h => ⟨h, blobs_accounted s⟩⟩

/-- An MCU that never answers, and no blob built in. -/
def noBlobs : Push where
  ap := ⟨Stream'.const ⟨true, fun _ => ⟨0, 9⟩, [], []⟩, ⟨[], 0, [], [], []⟩, [], Stream'.const true,
    fun _ => .error (.other 2)⟩
  log := []

theorem clock_left_up : ¬ (ClockRestored noBlobs ∧ BlobsAccounted noBlobs) := by
  rintro ⟨hclock, -⟩
  obtain ⟨fw, hfw, -⟩ := (clock_restored_iff noBlobs).mp hclock
  cases hfw

end Blobs

end GeminiLinux.Wmt
