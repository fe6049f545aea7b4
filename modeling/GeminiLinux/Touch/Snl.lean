import GeminiLinux.Touch.Transfers
import GeminiLinux.Touch.Checksum

/-! How the driver reads. `ssd2092_read_snl` takes the first of three tries that passes its checksum, and
    a try whose first word is the address itself is made again at the other address:

        try:  0x0AF0 ─▶ word ≠ 0x0AF0 ───────────▶ checksum ok: return | next try
                     └▶ word = 0x0AF0 ─▶ 0x00F0 ─▶     "

    `ssd2092_poll` reads the points into 62 bytes on its stack and `ssd2092_write` builds its packet in
    eight; here every access to the one is checked, and no caller of the other needs its check. -/

namespace GeminiLinux.Ssd2092
open Prog

/-! ### What the bus has for a reader -/

abbrev Bus := Stream' (Except Errno (ℕ → UInt8))

/-- Reading off the bus alone; `none` once a transfer fails. -/
abbrev Reading := StateT Bus Option

def sent : Reading Unit := fun bus =>
  match bus.head with
  | .ok _ => some ((), bus.tail)
  | .error _ => none

def received (n : ℕ) : Reading (List UInt8) := fun bus =>
  match bus.head with
  | .ok data => some ((List.range n).map data, bus.tail)
  | .error _ => none

def reg (n : ℕ) : Reading (List UInt8) := do
  sent
  received n

/-- The final words of one try. -/
def oneTry : Reading (List UInt8) := do
  let snl ← reg 4
  if le16 snl 0 = regStatusLength then reg 4 else pure snl

/-- The final words of at most `n` tries in a row, up to the first transfer error. -/
def tries : ℕ → Bus → List (List UInt8)
  | 0, _ => []
  | n + 1, bus =>
    match oneTry bus with
    | some (snl, rest) => snl :: tries n rest
    | none => []

/-- The first of the three that passes its checksum. -/
def accepted (bus : Bus) : Option (List UInt8) := (tries 3 bus).find? (packetOk 2)

/-- `p` gets from the bus what `r` says. -/
def Gets {α : Type} (p : TsM α) (r : Reading α) : Prop :=
  ∀ ts, match r ts.i2c with
    | some (a, bus) => outcome p ts = .ok a ∧ (finalState p ts).i2c = bus
    | none => ∃ e, outcome p ts = .error e

section Rules

variable {α β : Type} {p : TsM α} {r : Reading α}

theorem Gets.pure (a : α) : Gets (pure a : TsM α) (pure a) := fun _ => ⟨rfl, rfl⟩

theorem reading_bind (r : Reading α) (g : α → Reading β) (bus : Bus) :
    (r >>= g) bus = match r bus with
      | some (a, rest) => g a rest
      | none => none := by
  show Option.bind (r bus) _ = _
  rcases r bus with _ | ⟨a, rest⟩ <;> rfl

theorem Gets.bind {f : α → TsM β} {g : α → Reading β} (hp : Gets p r) (hf : ∀ a, Gets (f a) (g a)) :
    Gets (p >>= f) (r >>= g) := by
  intro ts
  have hpts := hp ts
  rw [reading_bind]
  rcases hr : r ts.i2c with _ | ⟨a, bus⟩
  · rw [hr] at hpts
    obtain ⟨e, he⟩ := hpts
    exact ⟨e, outcome_bind_error _ he⟩
  · rw [hr] at hpts
    obtain ⟨hout, rfl⟩ := hpts
    rw [outcome_bind_ok _ hout, finalState_bind_ok _ hout]
    exact hf a (finalState p ts)

end Rules

theorem send_gets (pkt : List UInt8) : Gets (i2cMasterSend pkt) sent := by
  intro ts
  unfold sent outcome finalState i2cMasterSend
  cases ts.i2c.head with
  | error e => exact ⟨e, rfl⟩
  | ok data => exact ⟨rfl, rfl⟩

theorem recv_gets (n : ℕ) : Gets (i2cMasterRecv n) (received n) := by
  intro ts
  unfold received outcome finalState i2cMasterRecv
  cases ts.i2c.head with
  | error e => exact ⟨e, rfl⟩
  | ok data => exact ⟨rfl, rfl⟩

theorem readReg_gets (r n : ℕ) : Gets (readReg r n) (reg n) :=
  .bind (send_gets _) fun _ => recv_gets n

theorem readSnlWords_gets : Gets readSnlWords oneTry := by
  refine .bind (readReg_gets _ _) fun snl => ?_
  split_ifs
  · exact readReg_gets _ _
  · exact .pure _

theorem readSnlTries_ok_iff (n : ℕ) : ∀ (ts : Ts) (w : ℕ), outcome (readSnlTries n) ts = .ok w ↔
    ∃ snl, (tries n ts.i2c).find? (packetOk 2) = some snl ∧ le16 snl 0 = w := by
  induction n with
  | zero =>
    intro ts w
    constructor
    · intro h
      cases h
    · rintro ⟨snl, hfind, -⟩
      cases hfind
  | succ n ih =>
    intro ts w
    have hgets := readSnlWords_gets ts
    rw [readSnlTries, tries]
    rcases htry : oneTry ts.i2c with _ | ⟨snl, rest⟩
    · rw [htry] at hgets
      obtain ⟨e, he⟩ := hgets
      rw [outcome_bind_error _ he]
      constructor
      · intro h
        cases h
      · rintro ⟨snl, hfind, -⟩
        cases hfind
    · rw [htry] at hgets
      obtain ⟨hout, hrest⟩ := hgets
      rw [outcome_bind_ok _ hout]
      dsimp only
      rw [List.find?_cons, ← hrest]
      change outcome (if packetOk 2 snl then _ else _) _ = _ ↔ _
      by_cases hok : packetOk 2 snl = true
      · rw [if_pos hok, hok]
        simp [outcome]
      · rw [if_neg hok, Bool.eq_false_of_not_eq_true hok]
        exact ih _ w

theorem readSnl_ok_iff (ts : Ts) (w : ℕ) :
    outcome readSnl ts = .ok w ↔ ∃ snl, accepted ts.i2c = some snl ∧ le16 snl 0 = w :=
  readSnlTries_ok_iff 3 ts w

/-- Both addresses, sent back twice, fail the checksum. -/
theorem echo_refused : ∀ r ∈ [regStatusLength, regStatusLengthAlt],
    packetOk 2 (regBytes r ++ regBytes r) = false := by decide

theorem accepted_ne_echo {bus : Bus} {snl : List UInt8} (h : accepted bus = some snl) :
    ∀ r ∈ [regStatusLength, regStatusLengthAlt], snl ≠ regBytes r ++ regBytes r := by
  rintro r hr rfl
  have hpass := List.find?_some h
  rw [echo_refused r hr] at hpass
  cases hpass

/-! ### How many reads -/

def Ev.isSend : Ev → Bool
  | .send _ _ _ => true
  | _ => false

/-- What a read of Status&Length puts on the bus. -/
def OfSnl : Ev → Prop
  | .send pkt _ _ => pkt = regBytes regStatusLength ∨ pkt = regBytes regStatusLengthAlt
  | .recv n _ => n = 4
  | _ => False

/-- `p` only reads Status&Length, and at most `k` times: each read sends its address. -/
def Asks {α : Type} (k : ℕ) (p : TsM α) : Prop :=
  ∀ ts, ∃ evs, (finalState p ts).trace = ts.trace ++ evs ∧ evs.countP Ev.isSend ≤ k ∧ ∀ ev ∈ evs, OfSnl ev

section Rules

variable {α β : Type} {p : TsM α} {k m : ℕ}

theorem Asks.mono (hp : Asks k p) (h : k ≤ m) : Asks m p := by
  intro ts
  obtain ⟨evs, htrace, hcount, hall⟩ := hp ts
  exact ⟨evs, htrace, hcount.trans h, hall⟩

theorem Asks.pure (a : α) : Asks 0 (pure a : TsM α) := fun _ => ⟨[], (List.append_nil _).symm, by simp⟩

theorem Asks.throw (e : Errno) : Asks 0 (throw e : TsM α) := fun _ => ⟨[], (List.append_nil _).symm, by simp⟩

theorem Asks.bind {f : α → TsM β} (hp : Asks k p) (hf : ∀ a, Asks m (f a)) :
    Asks (k + m) (p >>= f) := by
  intro ts
  obtain ⟨evs, htrace, hcount, hall⟩ := hp ts
  rw [finalState_bind]
  rcases outcome p ts with e | a
  · exact ⟨evs, htrace, by omega, hall⟩
  · obtain ⟨evs', htrace', hcount', hall'⟩ := hf a (finalState p ts)
    refine ⟨evs ++ evs', ?_, ?_, ?_⟩
    · rw [htrace', htrace, List.append_assoc]
    · rw [List.countP_append]
      omega
    · intro ev hev
      rcases List.mem_append.mp hev with hev | hev
      · exact hall ev hev
      · exact hall' ev hev

end Rules

theorem send_reads {pkt : List UInt8}
    (h : pkt = regBytes regStatusLength ∨ pkt = regBytes regStatusLengthAlt) :
    Asks 1 (i2cMasterSend pkt) := by
  intro ts
  have hcount : ∀ ok run, [Ev.send pkt ok run].countP Ev.isSend ≤ 1 := fun ok run => List.countP_le_length
  unfold finalState i2cMasterSend
  rcases ts.i2c.head with e | data
  · exact ⟨_, rfl, hcount _ _, fun _ hmem => List.mem_singleton.mp hmem ▸ h⟩
  · exact ⟨_, rfl, hcount _ _, fun _ hmem => List.mem_singleton.mp hmem ▸ h⟩

theorem recv_reads : Asks 0 (i2cMasterRecv 4) := by
  intro ts
  unfold finalState i2cMasterRecv
  rcases ts.i2c.head with e | data
  · exact ⟨_, rfl, by simp [Ev.isSend], fun _ hmem => List.mem_singleton.mp hmem ▸ rfl⟩
  · exact ⟨_, rfl, by simp [Ev.isSend], fun _ hmem => List.mem_singleton.mp hmem ▸ rfl⟩

theorem readSnlWords_reads : Asks 2 readSnlWords := by
  refine .bind (k := 1) (m := 1) (.bind (m := 0) (send_reads (.inl rfl)) fun _ => recv_reads) fun snl => ?_
  split_ifs
  · exact .bind (m := 0) (send_reads (.inr rfl)) fun _ => recv_reads
  · exact (Asks.pure _).mono (by decide)

theorem readSnlTries_reads (n : ℕ) : Asks (2 * n) (readSnlTries n) := by
  induction n with
  | zero => exact .throw _
  | succ n ih =>
    refine (Asks.bind (k := 2) (m := 2 * n) readSnlWords_reads fun snl => ?_).mono (by omega)
    split_ifs
    · exact (Asks.pure _).mono (by omega)
    · exact ih

/-! ### The packet on the stack of the poll -/

/-- `u8 pkt[SSD2092_MAX_PKT]`, whatever stands there before. -/
structure Pkt where
  bytes : List UInt8
  size : bytes.length = maxPkt

/-- A transfer into the packet; `none` if it would run over its end. -/
def Pkt.fill (pkt : Pkt) (data : List UInt8) : Option Pkt :=
  if h : data.length ≤ maxPkt then
    some ⟨data ++ pkt.bytes.drop data.length, by
      rw [List.length_append, List.length_drop, pkt.size]; omega⟩
  else none

def Pkt.get (pkt : Pkt) (i : ℕ) : Option UInt8 := pkt.bytes[i]?

/-- The loop of `ssd2092_checksum_ok`. -/
def Pkt.sums (pkt : Pkt) (n : ℕ) : Option (UInt8 × UInt8) :=
  (List.range n).foldlM (fun acc i => (pkt.get i).map fun b => (acc.1 ^^^ b, acc.2 + b)) (0, 0)

/-- `ssd2092_checksum_ok(pkt, len, pkt[len] | (pkt[len + 1] << 8))`. -/
def Pkt.checksumOk (pkt : Pkt) (n : ℕ) : Option Bool := do
  let lo ← pkt.get n
  let hi ← pkt.get (n + 1)
  let sums ← pkt.sums n
  let csum := lo.toNat ||| hi.toNat <<< 8
  pure (sums.1.toNat == csum >>> 8 && sums.2.toNat == csum &&& 0xff)

/-- The fields `ssd2092_report_points` takes from a record. -/
def Pkt.record (pkt : Pkt) (rec : ℕ) : Option Record := do
  let id ← pkt.get rec
  let msb ← pkt.get (rec + 3)
  let x ← pkt.get (rec + 1)
  let y ← pkt.get (rec + 2)
  let w ← pkt.get (rec + 4)
  pure {
    id := id.toNat
    x := (msb.toNat &&& 0xf0) <<< 4 ||| x.toNat
    y := (msb.toNat &&& 0x0f) <<< 8 ||| y.toNat
    w := w.toNat }

def Pkt.records (pkt : Pkt) (count : ℕ) : Option (List Record) :=
  (List.range count).mapM fun i => pkt.record (i * pointSz)

/-- What the poll does with the reply to a point read, every access checked: the records it reports,
    if the checksum holds. -/
def Pkt.points (pkt : Pkt) (info : ℕ) (reply : List UInt8) : Option (Option (List Record)) := do
  let pkt ← pkt.fill reply
  if ← pkt.checksumOk (pointLen info) then
    some <$> pkt.records (pointLen info / pointSz)
  else pure none

/-- `data` stands at the front of the packet. -/
def Pkt.Holds (pkt : Pkt) (data : List UInt8) : Prop :=
  ∀ i < data.length, pkt.get i = some (data.getD i 0)

section Pkt

variable {pkt : Pkt} {data : List UInt8}

theorem Pkt.fill_holds (h : data.length ≤ maxPkt) : ∃ pkt', pkt.fill data = some pkt' ∧ pkt'.Holds data := by
  refine ⟨_, dif_pos h, ?_⟩
  intro i hi
  rw [Pkt.get, List.getElem?_append_left hi, List.getElem?_eq_getElem hi, List.getD_eq_getElem _ _ hi]

theorem Pkt.Holds.sums (h : pkt.Holds data) : ∀ {n : ℕ}, n ≤ data.length →
    pkt.sums n = some (xorOf (data.take n), sumOf (data.take n)) := by
  intro n
  induction n with
  | zero => exact fun _ => rfl
  | succ n ih =>
    intro hn
    have hprefix := ih (by omega)
    have htake : data.take (n + 1) = data.take n ++ [data.getD n 0] := by
      rw [List.take_succ_eq_append_getElem (by omega), List.getD_eq_getElem _ _ (by omega)]
    have hlast : pkt.get n = some (data.getD n 0) := h n (by omega)
    rw [Pkt.sums] at hprefix ⊢
    rw [List.range_succ, List.foldlM_append, hprefix, htake, xorOf_concat, sumOf_concat]
    simp only [Option.bind_eq_bind, Option.bind_some, List.foldlM_cons, List.foldlM_nil, hlast,
      Option.map_some, Option.pure_def]

theorem Pkt.Holds.checksumOk (h : pkt.Holds data) {n : ℕ} (hn : n + 2 ≤ data.length) :
    pkt.checksumOk n = some (Ssd2092.checksumOk (data.take n) (le16 data n)) := by
  have hor : (data.getD n 0).toNat ||| (data.getD (n + 1) 0).toNat <<< 8 = le16 data n := by
    rw [Nat.or_comm, ← Nat.shiftLeft_add_eq_or_of_lt (UInt8.toNat_lt _), Nat.shiftLeft_eq, le16]
    omega
  rw [Pkt.checksumOk, h n (by omega), h (n + 1) (by omega), h.sums (n := n) (by omega)]
  simp only [Option.bind_eq_bind, Option.bind_some, hor, Option.pure_def]
  rfl

theorem Pkt.Holds.record (h : pkt.Holds data) {off : ℕ} (hoff : off + pointSz ≤ data.length) :
    pkt.record off = some (Ssd2092.record (data.drop off)) := by
  have hget : ∀ k < pointSz, pkt.get (off + k) = some ((data.drop off).getD k 0) := by
    intro k hk
    rw [h (off + k) (by omega)]
    simp [List.getD_eq_getElem?_getD]
  rw [Pkt.record, hget 1 (by decide), hget 2 (by decide), hget 3 (by decide), hget 4 (by decide),
    ← Nat.add_zero off, hget 0 (by decide)]
  rfl

theorem Pkt.Holds.records (h : pkt.Holds data) : ∀ {count : ℕ}, count * pointSz ≤ data.length →
    pkt.records count = some (Ssd2092.records data count) := by
  intro count
  induction count with
  | zero => exact fun _ => rfl
  | succ count ih =>
    intro hcount
    rw [Nat.succ_mul] at hcount
    have hfront := ih (by omega)
    rw [Pkt.records] at hfront ⊢
    rw [List.range_succ, List.mapM_append, hfront, Ssd2092.records, Ssd2092.records, List.range_succ,
      List.map_append]
    simp [h.record hcount]

end Pkt

theorem pointLen_le (info : ℕ) : pointLen info + 2 ≤ maxPkt := by
  unfold pointLen maxPkt maxPoint pointSz
  omega

theorem recv_length {n : ℕ} {ts : Ts} {reply : List UInt8}
    (h : outcome (i2cMasterRecv n) ts = .ok reply) : reply.length = n := by
  unfold outcome i2cMasterRecv at h
  cases hdata : ts.i2c.head with
  | error e =>
    rw [hdata] at h
    cases h
  | ok data =>
    rw [hdata] at h
    cases h
    rw [List.length_map, List.length_range]

theorem readReg_length {r n : ℕ} {ts : Ts} {reply : List UInt8}
    (h : outcome (readReg r n) ts = .ok reply) : reply.length = n := by
  rcases hsend : outcome (i2cMasterSend (regBytes r)) ts with e | a
  · rw [readReg, outcome_bind_error _ hsend] at h
    cases h
  · rw [readReg, outcome_bind_ok _ hsend] at h
    exact recv_length h

/-- The accesses stay in the packet, and what comes out is what the poll of the model reports. -/
theorem points_eq (pkt : Pkt) {info : ℕ} {reply : List UInt8} (h : reply.length = pointLen info + 2) :
    pkt.points info reply = some (if packetOk (pointLen info) reply then
      some (records reply (pointLen info / pointSz)) else none) := by
  obtain ⟨filled, hfill, hholds⟩ := pkt.fill_holds (h ▸ pointLen_le info)
  have hfits : pointLen info / pointSz * pointSz ≤ reply.length := by
    have := Nat.div_mul_le_self (pointLen info) pointSz
    omega
  have hrecords := hholds.records hfits
  rw [Pkt.points, hfill]
  simp only [Option.bind_eq_bind, Option.bind_some, hholds.checksumOk (n := pointLen info) h.ge,
    ← packetOk.eq_1]
  split_ifs
  · rw [hrecords]
    rfl
  · rfl

/-- `ssd2092_report_points` from the records on. -/
def reportRecords (rs : List Record) : TsM Unit :=
  modify fun ts => { ts with
    mt := ts.mt.run (rs.flatMap (recordEvents ts.prop) ++ [.syncFrame])
    trace := ts.trace ++ [.packet (rs.flatMap (recordEvents ts.prop) ++ [.syncFrame])] }

/-- The point read of `ssd2092_poll` into its own packet; `none` once an access leaves it. -/
def Pkt.readPoints (pkt : Pkt) (info : ℕ) : TsM (Option Unit) := do
  match ← attempt (readReg regPointData (pointLen info + 2)) with
  | .error e => do
    devLog "point read failed: %d" [e.ret]
    pure (some ())
  | .ok reply =>
    match pkt.points info reply with
    | some (some rs) => do
      reportRecords rs
      pure (some ())
    | some none => do
      devLog "point checksum fail" []
      pure (some ())
    | none => pure none

/-- No access leaves it, and it is the point read of the model. -/
theorem Pkt.readPoints_eq (pkt : Pkt) (info : ℕ) :
    pkt.readPoints info = (fun _ => some ()) <$> Ssd2092.readPoints info := by
  funext ts
  rw [Pkt.readPoints, Ssd2092.readPoints, map_bind, bind_apply, bind_apply, attempt]
  rcases hread : readReg regPointData (pointLen info + 2) ts with ⟨reply, ts'⟩ | ⟨e, ts'⟩
  · have hout : outcome (readReg regPointData (pointLen info + 2)) ts = .ok reply := by
      rw [outcome, hread]
    have hpoints := points_eq pkt (readReg_length hout)
    rw [packetOk] at hpoints
    simp only [hpoints]
    split_ifs
    · rfl
    · rfl
  · rfl

/-! ### The packet of a write -/

/-- `u8 pkt[8]` of `ssd2092_write`. -/
def writeSize : ℕ := 8

theorem write_eq_send {r : ℕ} {val : List UInt8} (h : (regBytes r ++ val).length ≤ writeSize) :
    write r val = i2cMasterSend (regBytes r ++ val) := by
  rw [List.length_append, regBytes_length, writeSize] at h
  exact if_neg (by omega)

theorem word_length (r val : ℕ) : (regBytes r ++ regBytes val).length ≤ writeSize := by
  rw [List.length_append, regBytes_length, regBytes_length]
  decide

theorem eflash_length (addr data : ℕ) :
    (regBytes dsEflashWrite ++ (regBytes addr ++ regBytes data)).length ≤ writeSize := by
  rw [List.length_append, List.length_append, regBytes_length, regBytes_length, regBytes_length]
  decide

/-! ### Together -/

/-- What the driver takes for a Status&Length word, and that neither the point read that follows nor a
    write leaves its buffer. -/
structure ReadsSoundly (ts : Ts) : Prop where
  ok_iff : ∀ w, outcome readSnl ts = .ok w ↔ ∃ snl, accepted ts.i2c = some snl ∧ le16 snl 0 = w
  reads : ∃ evs, (finalState readSnl ts).trace = ts.trace ++ evs ∧ evs.countP Ev.isSend ≤ 6 ∧
    ∀ ev ∈ evs, OfSnl ev
  no_echo : ∀ snl, accepted ts.i2c = some snl →
    ∀ r ∈ [regStatusLength, regStatusLengthAlt], snl ≠ regBytes r ++ regBytes r
  in_packet : ∀ info, outcome readSnl ts = .ok info → ∀ pkt ts' reply,
    outcome (readReg regPointData (pointLen info + 2)) ts' = .ok reply →
    Pkt.points pkt info reply = some (if packetOk (pointLen info) reply then
      some (records reply (pointLen info / pointSz)) else none)
  checked : ∀ info, ∀ pkt : Pkt, pkt.readPoints info = (fun _ => some ()) <$> readPoints info
  whole_records : ∀ info, outcome readSnl ts = .ok info →
    pointLen info / pointSz * pointSz ≤ pointLen info
  word_fits : ∀ r val, writeWord r val = i2cMasterSend (regBytes r ++ regBytes val) ∧
    (regBytes r ++ regBytes val).length ≤ writeSize
  eflash_fits : ∀ addr data, eflashWrite addr data =
      i2cMasterSend (regBytes dsEflashWrite ++ (regBytes addr ++ regBytes data)) ∧
    (regBytes dsEflashWrite ++ (regBytes addr ++ regBytes data)).length ≤ writeSize

end GeminiLinux.Ssd2092
