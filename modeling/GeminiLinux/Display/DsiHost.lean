import GeminiLinux.Lib.Prog
import GeminiLinux.Lib.Runs
import GeminiLinux.Kernel.Errno

/-! The DSI host: a panel that attaches puts the controller's bridge on the global list of bridges and
    registers its component; one that detaches takes both away.

        probe ─▶ bridge fields ─▶ mipi_dsi_host_register ─▶ clocks, registers, PHY, IRQ ─▶ bound
                                    ╰ attach, detach ... ╯    ╰ fails ─▶ host_unregister
                                                                         ╰ detach of every child ╯

    Every probe has a controller of its own; the list of bridges and the components stay. Attaches come at
    any time while the host is registered, detaches at any time at all, from the registration and from the
    unregistration as well. What each fallible call returns is given by a stream. -/

namespace GeminiLinux.DsiHost
open Prog Runs

/-! ### The host -/

/-- What is done to the list of bridges and to the component, and whether it could be done. -/
inductive Op where
  /-- `drm_bridge_add`, and whether funcs, of_node and type of the bridge are set. -/
  | bridgeAdd (bridge : ℕ) (set : Bool)
  /-- `drm_bridge_remove`, and whether the bridge is on the list. -/
  | bridgeRemove (bridge : ℕ) (listed : Bool)
  | componentAdd
  /-- `component_del`, and whether the component is registered. -/
  | componentDel (registered : Bool)
  deriving DecidableEq

structure Host where
  /-- The controllers of all probes are numbered; this is the current one's. -/
  dsi : ℕ
  funcs : Bool
  ofNode : Bool
  type : Bool
  bridgeAdded : Bool
  registered : Bool
  /-- The devices on the host, and those of them that have attached and not detached. -/
  children : List ℕ
  attached : List ℕ
  bridges : List ℕ
  components : ℕ
  steps : Stream' (Except Errno Unit)
  ops : List Op
  log : List (String × List ℤ)

abbrev HostM := EStateM Errno Host

def drmError (fmt : String) (args : List ℤ) : HostM Unit :=
  modify fun h => { h with log := h.log ++ [(fmt, args)] }

/-- A call that may fail. -/
def step : HostM Unit := do
  let r ← modifyGet fun h => (h.steps.head, { h with steps := h.steps.tail })
  MonadExcept.ofExcept r

def drmBridgeAdd : HostM Unit := modify fun h => { h with
  bridges := h.bridges ++ [h.dsi], ops := h.ops ++ [.bridgeAdd h.dsi (h.funcs && h.ofNode && h.type)] }

def drmBridgeRemove : HostM Unit := modify fun h => { h with
  bridges := h.bridges.erase h.dsi, ops := h.ops ++ [.bridgeRemove h.dsi (h.bridges.contains h.dsi)] }

def componentAdd : HostM Unit := do
  step
  modify fun h => { h with components := h.components + 1, ops := h.ops ++ [.componentAdd] }

def componentDel : HostM Unit := modify fun h => { h with
  components := h.components - 1, ops := h.ops ++ [.componentDel (decide (0 < h.components))] }

def setBridgeAdded (added : Bool) : HostM Unit := modify fun h => { h with bridgeAdded := added }

/-- `devm_drm_of_get_bridge`. -/
def getBridge : HostM Unit := step

/-- `mtk_dsi_host_attach`. -/
def hostAttach : HostM Unit := do
  getBridge
  drmBridgeAdd
  setBridgeAdded true
  onError componentAdd fun e => do
    drmError "failed to add dsi_host component: %d" [e.ret]
    drmBridgeRemove
    setBridgeAdded false

/-- `mtk_dsi_host_detach`. -/
def hostDetach : HostM Unit := do
  if !(← get).bridgeAdded then pure ()
  else do
    componentDel
    drmBridgeRemove
    setBridgeAdded false

/-! ### Devices, probe and remove -/

/-- `mipi_dsi_attach`, made only when no device is attached. -/
def attach (device : ℕ) : HostM Unit := do
  let h ← get
  if h.registered ∧ device ∈ h.children ∧ h.attached = [] then do
    hostAttach
    modify fun h => { h with attached := [device] }
  else pure ()

/-- `mipi_dsi_detach`, of any device at any time. -/
def detach (device : ℕ) : HostM Unit := do
  hostDetach
  modify fun h => { h with attached := h.attached.erase device }

/-- `mipi_dsi_host_unregister`. -/
def hostUnregister : List ℕ → HostM Unit
  | [] => modify fun h => { h with registered := false, children := [] }
  | device :: devices => do
    detach device
    hostUnregister devices

/-- `mtk_dsi_probe` up to the registration of the host, with the devices that this finds. -/
def probeRegister (children : List ℕ) : HostM Unit := do
  if (← get).registered then pure ()
  else do
    modify fun h => { h with
      dsi := h.dsi + 1, funcs := false, ofNode := false, type := false,
      bridgeAdded := false, attached := [] }
    modify fun h => { h with funcs := true, ofNode := true, type := true }
    onError step fun e => drmError "failed to register DSI host: %d" [e.ret]
    modify fun h => { h with registered := true, children }

/-- The other fallible steps of the probe, in their order: three clocks, the registers, the PHY, the IRQ and
    its handler. -/
def probeSteps : ℕ → HostM Unit
  | 0 => pure ()
  | n + 1 => do
    step
    probeSteps n

/-- The rest of the probe, under the label `err_unregister_host`. -/
def probeRest : HostM Unit := do
  if (← get).registered then onError (probeSteps 7) fun _ => do hostUnregister (← get).children
  else pure ()

/-- `mtk_dsi_remove`. -/
def remove : HostM Unit := do
  if (← get).registered then hostUnregister (← get).children else pure ()

/-! ### Runs -/

inductive Call where
  | attach (device : ℕ)
  | detach (device : ℕ)
  | probeRegister (children : List ℕ)
  | probeRest
  | remove
  deriving DecidableEq

def Call.prog : Call → HostM Unit
  | .attach device => DsiHost.attach device
  | .detach device => DsiHost.detach device
  | .probeRegister children => DsiHost.probeRegister children
  | .probeRest => DsiHost.probeRest
  | .remove => DsiHost.remove

def callStep (h : Host) (c : Call) : Host := finalState c.prog h

/-- Only a complete bridge is added, and only what is there is taken away. -/
def Op.Ok : Op → Prop
  | .bridgeAdd _ set => set = true
  | .bridgeRemove _ listed => listed = true
  | .componentAdd => True
  | .componentDel registered => registered = true

/-- The additions of a bridge that have been made. -/
def Op.added (bridge : ℕ) : Op → Bool
  | .bridgeAdd b _ => b == bridge
  | _ => false

def Op.removed (bridge : ℕ) : Op → Bool
  | .bridgeRemove b _ => b == bridge
  | _ => false

/-- The flag says what is on the list and what is registered; what was done could be done; and each removal
    has an addition of its own. -/
structure Balanced (h : Host) : Prop where
  bridges : h.bridges = if h.bridgeAdded then [h.dsi] else []
  components : h.components = if h.bridgeAdded then 1 else 0
  ops : ∀ op ∈ h.ops, op.Ok
  paired : ∀ bridge, h.ops.countP (Op.added bridge) =
    h.ops.countP (Op.removed bridge) + h.bridges.count bridge
  pairedComponent : h.ops.count .componentAdd = h.ops.count (.componentDel true) + h.components

/-- Nothing has been probed yet. -/
structure Host.Fresh (h : Host) : Prop where
  registered : h.registered = false
  bridgeAdded : h.bridgeAdded = false
  bridges : h.bridges = []
  components : h.components = 0
  ops : h.ops = []

/-! ### What the operations do -/

/-- What attaches and detaches find: whether the fields of the bridge are set, whether the host is
    registered, and the devices on it. -/
structure Found where
  set : Bool
  registered : Bool
  children : List ℕ
  attached : List ℕ

/-- In the middle of an attach or a detach the flag, the list and the component may differ. -/
structure Midway (f : Found) (added listed : Bool) (components : ℕ) (h : Host) : Prop where
  set : (h.funcs && h.ofNode && h.type) = f.set
  registered : h.registered = f.registered
  children : h.children = f.children
  attached : h.attached = f.attached
  bridgeAdded : h.bridgeAdded = added
  bridges : h.bridges = if listed then [h.dsi] else []
  components : h.components = components
  ops : ∀ op ∈ h.ops, op.Ok
  paired : ∀ bridge, h.ops.countP (Op.added bridge) =
    h.ops.countP (Op.removed bridge) + h.bridges.count bridge
  pairedComponent : h.ops.count .componentAdd = h.ops.count (.componentDel true) + h.components

/-- The flag, the list and the component agree. -/
abbrev At (f : Found) (added : Bool) : Host → Prop := Midway f added added (if added then 1 else 0)

section Ops

variable {f : Found} {added listed : Bool} {components : ℕ}

theorem At.balanced {h : Host} (hat : At f added h) : Balanced h where
  bridges := by rw [hat.bridges, hat.bridgeAdded]
  components := by rw [hat.components, hat.bridgeAdded]
  ops := hat.ops
  paired := hat.paired
  pairedComponent := hat.pairedComponent

theorem drmError_at (fmt : String) (args : List ℤ) :
    Ends (Midway f added listed components) (drmError fmt args)
      (fun _ => Midway f added listed components) fun _ _ => False :=
  .modify fun _ hd => ⟨hd.set, hd.registered, hd.children, hd.attached, hd.bridgeAdded, hd.bridges,
    hd.components, hd.ops, hd.paired, hd.pairedComponent⟩

theorem step_at : Ends (Midway f added listed components) step
    (fun _ => Midway f added listed components) fun _ => Midway f added listed components :=
  .bind (.modifyGet (Q := fun _ => Midway f added listed components) fun _ hd =>
    ⟨hd.set, hd.registered, hd.children, hd.attached, hd.bridgeAdded, hd.bridges, hd.components, hd.ops,
      hd.paired, hd.pairedComponent⟩) fun _ => .ofExcept (fun _ _ _ hd => hd) fun _ _ _ hd => hd

theorem setBridgeAdded_at (added' : Bool) : Ends (Midway f added listed components) (setBridgeAdded added')
    (fun _ => Midway f added' listed components) fun _ _ => False :=
  .modify fun _ hd => ⟨hd.set, hd.registered, hd.children, hd.attached, rfl, hd.bridges, hd.components,
    hd.ops, hd.paired, hd.pairedComponent⟩

/-- A bridge is added only with its fields set. -/
theorem drmBridgeAdd_at (hset : f.set = true) : Ends (Midway f added false components) drmBridgeAdd
    (fun _ => Midway f added true components) fun _ _ => False := by
  refine .modify fun h hd => { hd with bridges := ?_, ops := ?_, paired := ?_, pairedComponent := ?_ }
  · simp [hd.bridges]
  · intro op hop
    rcases List.mem_append.mp hop with hop | hop
    · exact hd.ops op hop
    · rw [List.mem_singleton.mp hop]
      exact hd.set.trans hset
  · intro bridge
    have hpaired := hd.paired bridge
    simp [Op.added, Op.removed, List.count_singleton, hpaired, hd.bridges]
  · simpa using hd.pairedComponent

/-- Only a bridge on the list is removed. -/
theorem drmBridgeRemove_at : Ends (Midway f added true components) drmBridgeRemove
    (fun _ => Midway f added false components) fun _ _ => False := by
  refine .modify fun h hd => { hd with bridges := ?_, ops := ?_, paired := ?_, pairedComponent := ?_ }
  · simp [hd.bridges]
  · intro op hop
    rcases List.mem_append.mp hop with hop | hop
    · exact hd.ops op hop
    · rw [List.mem_singleton.mp hop]
      simp [Op.Ok, hd.bridges]
  · intro bridge
    have hpaired := hd.paired bridge
    rw [hd.bridges] at hpaired ⊢
    simp [Op.added, Op.removed, List.count_singleton] at hpaired ⊢
    omega
  · simpa using hd.pairedComponent

theorem componentAdd_at : Ends (Midway f added listed 0) componentAdd
    (fun _ => Midway f added listed 1) fun _ => Midway f added listed 0 := by
  refine .bind step_at fun _ => .modify fun h hd =>
    { hd with components := ?_, ops := ?_, paired := ?_, pairedComponent := ?_ }
  · simp [hd.components]
  · intro op hop
    rcases List.mem_append.mp hop with hop | hop
    · exact hd.ops op hop
    · rw [List.mem_singleton.mp hop]
      trivial
  · intro bridge
    simpa [Op.added, Op.removed] using hd.paired bridge
  · have hpaired := hd.pairedComponent
    simp [hd.components] at hpaired ⊢
    omega

/-- Only a registered component is deleted. -/
theorem componentDel_at : Ends (Midway f added listed 1) componentDel
    (fun _ => Midway f added listed 0) fun _ _ => False := by
  refine .modify fun h hd => { hd with components := ?_, ops := ?_, paired := ?_, pairedComponent := ?_ }
  · simp [hd.components]
  · intro op hop
    rcases List.mem_append.mp hop with hop | hop
    · exact hd.ops op hop
    · rw [List.mem_singleton.mp hop]
      simp [Op.Ok, hd.components]
  · intro bridge
    simpa [Op.added, Op.removed] using hd.paired bridge
  · have hpaired := hd.pairedComponent
    simp [hd.components] at hpaired ⊢
    omega

/-! ### Attach and detach -/

/-- An attach adds both, or leaves neither. -/
theorem hostAttach_at (hset : f.set = true) :
    Ends (At f false) hostAttach (fun _ => At f true) fun _ => At f false := by
  have hundo : ∀ e : Errno, Ends (Midway f true true 0) (do
      drmError "failed to add dsi_host component: %d" [e.ret]
      drmBridgeRemove
      setBridgeAdded false) (fun _ => At f false) fun _ _ => False := by
    intro e
    refine .bind (drmError_at _ _) fun _ => ?_
    exact .bind drmBridgeRemove_at fun _ => setBridgeAdded_at false
  refine .bind step_at fun _ => ?_
  refine .bind (drmBridgeAdd_at hset).noError fun _ => ?_
  refine .bind (setBridgeAdded_at true).noError fun _ => ?_
  exact .onError componentAdd_at fun e => (hundo e).noError

/-- A detach takes both away, and does nothing where there is neither. -/
theorem hostDetach_at : Ends (At f added) hostDetach (fun _ => At f false) fun _ _ => False := by
  refine .read fun h hat => ?_
  rcases added with _ | _
  · rw [if_pos (by rw [hat.bridgeAdded]; rfl)]
    exact .pure fun _ heq => heq ▸ hat
  · rw [if_neg (by rw [hat.bridgeAdded]; simp)]
    refine .bind (componentDel_at.starting hat) fun _ => ?_
    exact .bind drmBridgeRemove_at fun _ => setBridgeAdded_at false

theorem detach_at (device : ℕ) : Ends (At f added) (detach device)
    (fun _ => At { f with attached := f.attached.erase device } false) fun _ _ => False := by
  refine .bind hostDetach_at fun _ => .modify fun h hat => { hat with attached := ?_ }
  rw [hat.attached]

/-- The first device that is detached takes the bridge off. -/
theorem hostUnregister_at {devices : List ℕ} (h : devices = [] → added = false) :
    Ends (At f added) (hostUnregister devices)
      (fun _ h => ∃ attached, At ⟨f.set, false, [], attached⟩ false h) fun _ _ => False := by
  induction devices generalizing f added with
  | nil =>
    have hnone : added = false := h rfl
    subst hnone
    exact .modify fun _ hat => ⟨f.attached, { hat with registered := rfl, children := rfl }⟩
  | cons device devices ih =>
    exact .bind (detach_at device) fun _ => ih (f := { f with attached := f.attached.erase device })
      fun _ => rfl

end Ops

/-! ### Every run -/

/-- The fields are set on a registered host, and a bridge that is added has the device that attached. -/
structure Found.Ok (f : Found) (added : Bool) : Prop where
  set : f.registered = true → f.set = true
  registered : added = true → f.registered = true
  children : added = true → f.children ≠ []
  attached : added = true → f.attached ≠ []

/-- What holds between any two calls. -/
def Inv (h : Host) : Prop := ∃ f added, f.Ok added ∧ At f added h

theorem Found.Ok.of_not_added {f : Found} (h : f.registered = true → f.set = true) : f.Ok false :=
  ⟨h, nofun, nofun, nofun⟩

/-- Every call ends with the invariant, whether it fails or not. -/
abbrev Preserves (p : HostM Unit) : Prop := Ends Inv p (fun _ => Inv) fun _ => Inv

theorem attach_inv (device : ℕ) : Preserves (attach device) := by
  refine .read fun h hinv => .cases (fun hguard => ?_) fun _ => .pure fun _ heq => heq ▸ hinv
  obtain ⟨f, added, hok, hat⟩ := hinv
  obtain ⟨hregistered, hchild, hnone⟩ := hguard
  rw [hat.registered] at hregistered
  rw [hat.children] at hchild
  rw [hat.attached] at hnone
  -- a bridge that is still there would have an attached device
  have hadded : added = false := by
    by_contra hne
    exact hok.attached (by simpa using hne) hnone
  subst hadded
  refine .bind (((hostAttach_at (hok.set hregistered)).starting hat).failing fun _ h hat =>
    ⟨f, false, hok, hat⟩) fun _ => .modify fun h hat => ?_
  refine ⟨{ f with attached := [device] }, true, ⟨hok.set, fun _ => hregistered, fun _ => ?_, fun _ => ?_⟩,
    { hat with attached := rfl }⟩
  · exact List.ne_nil_of_mem hchild
  · exact List.cons_ne_nil _ _

theorem detach_inv (device : ℕ) : Preserves (detach device) := by
  refine .of_exists fun f => .of_exists fun added => .of_and fun hok => ?_
  refine ((detach_at device).noError).returning fun _ h hat => ?_
  exact ⟨{ f with attached := f.attached.erase device }, false, .of_not_added hok.set, hat⟩

theorem probeRegister_inv (children : List ℕ) : Preserves (probeRegister children) := by
  refine .read fun h hinv => .cases (fun _ => .pure fun _ heq => heq ▸ hinv) fun hoff => ?_
  obtain ⟨f, added, hok, hat⟩ := hinv
  rw [hat.registered] at hoff
  have hadded : added = false := by
    by_contra hne
    exact hoff (hok.registered (by simpa using hne))
  subst hadded
  refine .bind (I := fun _ => At ⟨false, false, f.children, []⟩ false) ?_ fun _ => ?_
  · refine .modify fun _ heq => ?_
    subst heq
    exact { hat with
      set := rfl, registered := by simpa [hat.registered] using hoff, attached := rfl, bridgeAdded := rfl }
  refine .bind (I := fun _ => At ⟨true, false, f.children, []⟩ false)
    (.modify fun _ hat => { hat with set := rfl }) fun _ => ?_
  have hfail : ∀ h, At ⟨true, false, f.children, []⟩ false h → Inv h := fun _ hat =>
    ⟨_, false, .of_not_added fun _ => rfl, hat⟩
  refine .bind (.onError step_at fun e => ?_) fun _ => .modify fun h hat => ?_
  · exact (drmError_at _ _).post (fun _ h hat => hfail h hat) fun _ _ h => h.elim
  · exact ⟨⟨true, true, children, []⟩, false, .of_not_added fun _ => rfl,
      { hat with registered := rfl, children := rfl }⟩

/-- However a host is unregistered, neither the bridge nor the component stays. -/
theorem unregister_inv {h : Host} (hinv : Inv h) :
    Ends (· = h) (hostUnregister h.children) (fun _ => Inv) fun _ => Inv := by
  obtain ⟨f, added, hok, hat⟩ := hinv
  have hchild : h.children = [] → added = false := by
    intro hnone
    rw [hat.children] at hnone
    by_contra hne
    exact hok.children (by simpa using hne) hnone
  refine ((hostUnregister_at hchild).starting hat).post ?_ fun _ _ h => h.elim
  rintro _ h' ⟨attached, hat'⟩
  exact ⟨_, false, .of_not_added (by simp), hat'⟩

theorem step_inv : Preserves step :=
  .of_exists fun f => .of_exists fun added => .of_and fun hok =>
    step_at.post (fun _ _ hat => ⟨f, added, hok, hat⟩) fun _ _ hat => ⟨f, added, hok, hat⟩

theorem probeSteps_inv (n : ℕ) : Preserves (probeSteps n) := by
  induction n with
  | zero => exact .pure fun _ h => h
  | succ n ih => exact .bind step_inv fun _ => ih

theorem probeRest_inv : Preserves probeRest := by
  refine .read fun h hinv => .cases (fun _ => ?_) fun _ => .pure fun _ heq => heq ▸ hinv
  -- the children are those of the state in which the probe has failed
  refine .onError ((probeSteps_inv 7).starting hinv) fun _ => ?_
  exact .read fun h' hinv' => unregister_inv hinv'

theorem remove_inv : Preserves remove :=
  .read fun _ hinv => .cases (fun _ => .read fun _ heq => unregister_inv (heq ▸ hinv)) fun _ =>
    .pure fun _ heq => heq ▸ hinv

theorem prog_inv : ∀ c : Call, Preserves c.prog
  | .attach device => attach_inv device
  | .detach device => detach_inv device
  | .probeRegister children => probeRegister_inv children
  | .probeRest => probeRest_inv
  | .remove => remove_inv

theorem fresh_inv {h : Host} (hfresh : h.Fresh) : Inv h := by
  refine ⟨⟨h.funcs && h.ofNode && h.type, false, h.children, h.attached⟩, false,
    .of_not_added (by simp), ?_⟩
  refine ⟨rfl, hfresh.registered, rfl, rfl, hfresh.bridgeAdded, hfresh.bridges, hfresh.components,
    ?_, ?_, ?_⟩
  · simp [hfresh.ops]
  · simp [hfresh.ops, hfresh.bridges]
  · simp [hfresh.ops, hfresh.components]

/-- In every run of attaches, detaches, probes and removes, whatever fails in it: the flag is set exactly
    if the bridge is on the list and the component is registered, only a complete bridge is added, and
    only what is there is taken away, once. -/
theorem attach_detach_balanced {h : Host} (hfresh : h.Fresh) (calls : List Call) :
    Always callStep Balanced h calls := by
  have hinv : ∀ h c, Inv h → Inv (callStep h c) := fun _ c hinv => (prog_inv c).final hinv
  refine (always_of_inv hinv (fresh_inv hfresh) calls).mono ?_
  rintro _ ⟨f, added, _, hat⟩
  exact hat.balanced

/-- The bridge of the panel comes late, then the component is refused once, and in the first probe the
    second clock is not there yet. -/
def booted : Host where
  dsi := 0
  funcs := false
  ofNode := false
  type := false
  bridgeAdded := false
  registered := false
  children := []
  attached := []
  bridges := []
  components := 0
  steps := fun k => if k = 1 ∨ k = 3 ∨ k = 7 then .error .EPROBE_DEFER else .ok ()
  ops := []
  log := []

def twoProbes : List Call :=
  [.probeRegister [5, 6], .attach 5, .attach 5, .detach 6, .attach 5, .probeRest,
    .probeRegister [5, 6], .attach 5, .detach 6, .detach 5, .remove]

theorem attach_detach_balanced_twoProbes : Always callStep Balanced booted twoProbes :=
  attach_detach_balanced ⟨rfl, rfl, rfl, rfl, rfl⟩ twoProbes

/-- What the first probe added is removed before the second one adds its own. -/
example : (Runs.run callStep booted twoProbes).ops =
    [.bridgeAdd 1 true, .bridgeRemove 1 true, .bridgeAdd 1 true, .componentAdd, .componentDel true,
      .bridgeRemove 1 true, .bridgeAdd 2 true, .componentAdd, .componentDel true,
      .bridgeRemove 2 true] := by
  decide +kernel

end GeminiLinux.DsiHost
