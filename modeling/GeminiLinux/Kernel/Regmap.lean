import GeminiLinux.Lib.Prog
import GeminiLinux.Kernel.Errno

/-! The register map that a driver accesses its chip through: `regmap_read`, `regmap_write` and
    `regmap_update_bits`, with a cache of those registers that only the driver changes.

        driver ──▶ cache ──▶ bus ──▶ registers

    A write goes to the cache first. Whether a transfer on the bus succeeds is given by a stream; one that
    fails leaves the registers as they are. -/

namespace GeminiLinux.Regmap
open Prog

variable {w : ℕ}

/-! ### Bits of a register -/

/-- What `regmap_update_bits` makes of a register's value. -/
def updateBits (orig mask val : BitVec w) : BitVec w := orig &&& ~~~mask ||| val &&& mask

theorem getLsbD_updateBits {i : ℕ} (orig mask val : BitVec w) :
    (updateBits orig mask val).getLsbD i =
      if mask.getLsbD i then val.getLsbD i else orig.getLsbD i := by
  rw [updateBits, BitVec.getLsbD_or, BitVec.getLsbD_and, BitVec.getLsbD_not, BitVec.getLsbD_and]
  cases hmask : mask.getLsbD i with
  | true => simp
  | false =>
    by_cases hi : i < w
    · simp [hi]
    · simp [BitVec.getLsbD_of_ge orig i (Nat.le_of_not_lt hi)]

/-- The bits in the mask are those of the value. -/
theorem updateBits_and_self (orig mask val : BitVec w) :
    updateBits orig mask val &&& mask = val &&& mask := by
  apply BitVec.eq_of_getLsbD_eq
  intro i _
  rw [BitVec.getLsbD_and, BitVec.getLsbD_and, getLsbD_updateBits]
  cases mask.getLsbD i <;> simp

section Disjoint

variable {mask mask' : BitVec w} (h : mask &&& mask' = 0#w)
include h

theorem getLsbD_of_disjoint {i : ℕ} (hi : mask.getLsbD i = true) : mask'.getLsbD i = false := by
  have hand : (mask &&& mask').getLsbD i = false := by rw [h, BitVec.getLsbD_zero]
  rwa [BitVec.getLsbD_and, hi, Bool.true_and] at hand

/-- The bits outside the mask stay. -/
theorem updateBits_and_of_disjoint (orig val : BitVec w) :
    updateBits orig mask val &&& mask' = orig &&& mask' := by
  apply BitVec.eq_of_getLsbD_eq
  intro i _
  rw [BitVec.getLsbD_and, BitVec.getLsbD_and, getLsbD_updateBits]
  cases hmask : mask.getLsbD i with
  | true => simp [getLsbD_of_disjoint h hmask]
  | false => rfl

/-- Updates of different bits may change places. -/
theorem updateBits_comm (orig val val' : BitVec w) :
    updateBits (updateBits orig mask val) mask' val' =
      updateBits (updateBits orig mask' val') mask val := by
  apply BitVec.eq_of_getLsbD_eq
  intro i _
  simp only [getLsbD_updateBits]
  cases hmask : mask.getLsbD i with
  | true => simp [getLsbD_of_disjoint h hmask]
  | false => simp

end Disjoint

/-! ### The map -/

/-- What the registers hold, what the cache remembers of them, how the next transfers turn out, and
    the contents the registers have gone through. -/
structure Map (w : ℕ) where
  regs : ℕ → BitVec w
  cache : ℕ → Option (BitVec w)
  xfers : Stream' (Except Errno Unit)
  seen : List (ℕ → BitVec w)

abbrev MapM (w : ℕ) := EStateM Errno (Map w)

def transfer : MapM w Unit := do
  let r ← modifyGet fun m => (m.xfers.head, { m with xfers := m.xfers.tail })
  MonadExcept.ofExcept r

variable (cached : ℕ → Bool)

/-- Remember a value, unless the register is volatile. -/
def remember (reg : ℕ) (val : BitVec w) : MapM w Unit :=
  modify fun m => { m with cache := if cached reg then Function.update m.cache reg (some val) else m.cache }

def regmapRead (reg : ℕ) : MapM w (BitVec w) := do
  match (← get).cache reg with
  | some val => pure val
  | none => do
    transfer
    let val := (← get).regs reg
    remember cached reg val
    pure val

def regmapWrite (reg : ℕ) (val : BitVec w) : MapM w Unit := do
  remember cached reg val
  transfer
  modify fun m => { m with
    regs := Function.update m.regs reg val, seen := m.seen ++ [Function.update m.regs reg val] }

def regmapUpdateBits (reg : ℕ) (mask val : BitVec w) : MapM w Unit := do
  let orig ← regmapRead cached reg
  let tmp := updateBits orig mask val
  if tmp ≠ orig then regmapWrite cached reg tmp else pure ()

/-! ### Transfers that succeed -/

/-- The cache is right, every transfer from now on succeeds, and the registers hold `regs` now and have
    gone through `seen`. -/
structure Holds (regs : ℕ → BitVec w) (seen : List (ℕ → BitVec w)) (m : Map w) : Prop where
  coherent : ∀ reg val, m.cache reg = some val → cached reg = true ∧ val = m.regs reg
  xfers : ∀ k, m.xfers.get k = .ok ()
  regs : m.regs = regs
  seen : m.seen = seen

/-- A right cache and no transfer that fails. -/
def Sound (m : Map w) : Prop := Holds cached m.regs m.seen m

/-- The registers after an update of some bits of one of them. -/
def updated (regs : ℕ → BitVec w) (reg : ℕ) (mask val : BitVec w) : ℕ → BitVec w :=
  Function.update regs reg (updateBits (regs reg) mask val)

theorem updated_comm {regs : ℕ → BitVec w} {reg reg' : ℕ} {mask mask' : BitVec w}
    (h : reg = reg' → mask &&& mask' = 0#w) (val val' : BitVec w) :
    updated (updated regs reg mask val) reg' mask' val' =
      updated (updated regs reg' mask' val') reg mask val := by
  unfold updated
  by_cases hreg : reg = reg'
  · subst hreg
    rw [Function.update_self, Function.update_self, Function.update_idem, Function.update_idem,
      updateBits_comm (h rfl)]
  · rw [Function.update_of_ne (Ne.symm hreg), Function.update_of_ne hreg, Function.update_comm hreg]

section Holds

variable {cached} {regs : ℕ → BitVec w} {seen : List (ℕ → BitVec w)}

theorem Holds.head {m : Map w} (h : Holds cached regs seen m) : m.xfers.head = .ok () := h.xfers 0

theorem transfer_holds :
    Ends (Holds cached regs seen) transfer (fun _ => Holds cached regs seen) fun _ _ => False := by
  refine .bind (.modifyGet (Q := fun r m => r = .ok () ∧ Holds cached regs seen m) fun m h =>
    ⟨h.head, h.coherent, fun k => h.xfers (k + 1), h.regs, h.seen⟩) fun r =>
    .ofExcept (fun m _ _ h => h.2) fun m e he h => ?_
  rw [h.1] at he
  cases he

/-- A value that goes into the cache and into the registers leaves the cache right. -/
theorem coherent_update {m : Map w} (h : Holds cached regs seen m) (reg : ℕ) (val : BitVec w) {reg' : ℕ}
    {val' : BitVec w}
    (hcache : (if cached reg then Function.update m.cache reg (some val) else m.cache) reg' = some val') :
    cached reg' = true ∧ val' = Function.update m.regs reg val reg' := by
  by_cases hreg : reg' = reg
  · subst hreg
    rw [Function.update_self]
    split_ifs at hcache with hc
    · rw [Function.update_self, Option.some.injEq] at hcache
      exact ⟨hc, hcache.symm⟩
    · exact absurd (h.coherent reg' val' hcache).1 hc
  · rw [Function.update_of_ne hreg]
    split_ifs at hcache with hc
    · rw [Function.update_of_ne hreg] at hcache
      exact h.coherent reg' val' hcache
    · exact h.coherent reg' val' hcache

theorem remember_holds (reg : ℕ) : Ends (Holds cached regs seen) (remember cached reg (regs reg))
    (fun _ => Holds cached regs seen) fun _ _ => False := by
  refine .modify fun m h => ⟨fun reg' val' hcache => ?_, h.xfers, h.regs, h.seen⟩
  have hval := coherent_update h reg (regs reg) hcache
  rwa [← h.regs, Function.update_eq_self] at hval

theorem regmapRead_holds (reg : ℕ) : Ends (Holds cached regs seen) (regmapRead cached reg)
    (fun val m => val = regs reg ∧ Holds cached regs seen m) fun _ _ => False := by
  refine .read fun m hm => ?_
  cases hcache : m.cache reg with
  | some val =>
    have hval : val = regs reg := by rw [(hm.coherent reg val hcache).2, hm.regs]
    exact .pure fun m' h => h ▸ ⟨hval, hm⟩
  | none =>
    refine .bind (transfer_holds.mono (fun m' h => h ▸ hm) (fun _ _ h => h) fun _ _ h => h) fun _ =>
      .read fun m' hm' => ?_
    rw [hm'.regs]
    exact .bind ((remember_holds reg).mono (fun m'' h => h ▸ hm') (fun _ _ h => h) fun _ _ h => h)
      fun _ => .pure fun m'' h => ⟨rfl, h⟩

theorem regmapWrite_apply {m : Map w} (h : m.xfers.head = .ok ()) (reg : ℕ) (val : BitVec w) :
    regmapWrite cached reg val m = .ok ()
      { regs := Function.update m.regs reg val
        cache := if cached reg then Function.update m.cache reg (some val) else m.cache
        xfers := m.xfers.tail
        seen := m.seen ++ [Function.update m.regs reg val] } := by
  simp only [regmapWrite, remember, transfer, bind_apply, modify_apply, modifyGet_apply, h]
  rfl

theorem regmapWrite_holds (reg : ℕ) (val : BitVec w) :
    Ends (Holds cached regs seen) (regmapWrite cached reg val)
      (fun _ => Holds cached (Function.update regs reg val) (seen ++ [Function.update regs reg val]))
      fun _ _ => False := by
  intro m h
  rw [regmapWrite_apply h.head]
  exact ⟨fun reg' val' hcache => coherent_update h reg val hcache, fun k => h.xfers (k + 1), by rw [h.regs],
    by rw [h.seen, h.regs]⟩

/-- An update makes at most one write. -/
theorem regmapUpdateBits_holds (reg : ℕ) (mask val : BitVec w) :
    Ends (Holds cached regs seen) (regmapUpdateBits cached reg mask val)
      (fun _ m => ∃ writes, (∀ r ∈ writes, r = updated regs reg mask val) ∧
        Holds cached (updated regs reg mask val) (seen ++ writes) m) fun _ _ => False := by
  refine .bind (regmapRead_holds reg) fun orig => .of_and fun horig => .cases (fun hne => ?_) fun heq => ?_
  · subst horig
    exact (regmapWrite_holds reg _).mono (fun m h => h) (fun _ m h => ⟨[updated regs reg mask val],
      fun r hr => List.mem_singleton.mp hr, h⟩) fun _ _ h => h
  · have hsame : updated regs reg mask val = regs := by
      rw [updated, ← horig, of_not_not heq, horig, Function.update_eq_self]
    refine .pure fun m h => ⟨[], fun r hr => absurd hr List.not_mem_nil, ?_⟩
    rwa [hsame, List.append_nil]

end Holds

/-! ### Maps without a cache -/

/-- Nothing is cached, and the registers hold `regs`. -/
structure Bare (regs : ℕ → BitVec w) (m : Map w) : Prop where
  cache : m.cache = fun _ => none
  regs : m.regs = regs

section Bare

variable {cached} (hcached : ∀ reg, cached reg = false) {regs : ℕ → BitVec w}
include hcached

theorem regmapRead_apply {m : Map w} (h : m.cache = fun _ => none) (reg : ℕ) :
    regmapRead cached reg m = match m.xfers.head with
      | .ok _ => .ok (m.regs reg) { m with xfers := m.xfers.tail }
      | .error e => .error e { m with xfers := m.xfers.tail } := by
  have hnone : m.cache reg = none := congrFun h reg
  simp only [regmapRead, remember, transfer, hcached, bind_apply, get_apply, hnone, modifyGet_apply]
  rcases m.xfers.head with e | ⟨⟩
  · rfl
  · rfl

theorem regmapRead_bare (reg : ℕ) : Ends (Bare regs) (regmapRead cached reg)
    (fun val m => val = regs reg ∧ Bare regs m) fun _ => Bare regs := by
  intro m h
  rw [regmapRead_apply hcached h.cache]
  rcases m.xfers.head with e | ⟨⟩
  · exact ⟨h.cache, h.regs⟩
  · exact ⟨congrFun h.regs reg, h.cache, h.regs⟩

theorem regmapWrite_bare (reg : ℕ) (val : BitVec w) : Ends (Bare regs) (regmapWrite cached reg val)
    (fun _ => Bare (Function.update regs reg val)) fun _ => Bare regs := by
  intro m h
  simp only [regmapWrite, remember, transfer, hcached, bind_apply, modify_apply, modifyGet_apply]
  rcases m.xfers.head with e | ⟨⟩
  · exact ⟨h.cache, h.regs⟩
  · exact ⟨h.cache, congrArg (Function.update · reg val) h.regs⟩

/-- An update that fails leaves the registers as they are. -/
theorem regmapUpdateBits_bare (reg : ℕ) (mask val : BitVec w) :
    Ends (Bare regs) (regmapUpdateBits cached reg mask val)
      (fun _ => Bare (updated regs reg mask val)) fun _ => Bare regs := by
  refine .bind (regmapRead_bare hcached reg) fun orig => .of_and fun horig =>
    .cases (fun _ => ?_) fun heq => ?_
  · rw [horig]
    exact regmapWrite_bare hcached reg _
  · have hsame : updated regs reg mask val = regs := by
      rw [updated, ← horig, of_not_not heq, horig, Function.update_eq_self]
    rw [hsame]
    exact .pure fun _ h => h

end Bare

end GeminiLinux.Regmap
