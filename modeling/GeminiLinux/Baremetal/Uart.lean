import GeminiLinux.Lib.Digits
import GeminiLinux.Lib.Framing

/-! The console of the payload that runs without a kernel: characters, texts and numbers as they go out on
    the serial line, and what they read back as.

        uart_putdec 407     "407"                      the digits go through a buffer of twenty, lowest first
        uart_puthex 407     "0x0000000000000197"
        uart_putc '\n'      "\r\n" -/

namespace GeminiLinux.Baremetal
open Digits Framing

abbrev Text := List Char

def uartPutc (c : Char) : Text := if c = '\n' then ['\r', '\n'] else [c]

def uartPuts (s : Text) : Text := s.flatMap uartPutc

def digits : Text := "0123456789abcdef".toList

def digit (d : ℕ) : Char := digits.getD d '0'

def uartPuthex (v : BitVec 64) : Text :=
  uartPuts "0x".toList ++ (List.range 16).flatMap fun i => uartPutc (digit (v.toNat >>> (60 - 4 * i) &&& 0xf))

/-- The buffer, as long as there is room in it and a digit left. -/
def fillBuf : ℕ → ℕ → List ℕ
  | 0, _ => []
  | room + 1, v => if v = 0 then [] else v % 10 :: fillBuf room (v / 10)

def uartPutdec (v : BitVec 64) : Text :=
  if v = 0 then uartPutc '0' else (fillBuf 20 v.toNat).reverse.flatMap fun d => uartPutc (digit d)

/-! ### Reading -/

/-- A digit's value. -/
def value (c : Char) : Option ℕ := digits.findIdx? (· = c)

def readDigits (b : ℕ) : Text → Option ℕ := fun s => (s.mapM value).map (place b)

theorem value_digit {d : ℕ} (h : d < 16) : value (digit d) = some d := by
  have hall : ∀ d : Fin 16, value (digit d) = some (d : ℕ) := by decide
  exact hall ⟨d, h⟩

theorem uartPutc_digit {d : ℕ} (h : d < 16) : uartPutc (digit d) = [digit d] := by
  have hall : ∀ d : Fin 16, uartPutc (digit d) = [digit d] := by decide
  exact hall ⟨d, h⟩

theorem mapM_value : ∀ {ds : List ℕ}, (∀ d ∈ ds, d < 16) → (ds.map digit).mapM value = some ds
  | [], _ => rfl
  | d :: ds, h => by
    rw [List.map_cons, List.mapM_cons, value_digit (h d List.mem_cons_self),
      mapM_value fun d' hd' => h d' (List.mem_cons_of_mem d hd')]
    rfl

theorem readDigits_map {b : ℕ} {ds : List ℕ} (h : ∀ d ∈ ds, d < 16) :
    readDigits b (ds.map digit) = some (place b ds) := by
  rw [readDigits, mapM_value h]
  rfl

/-- Digits go out as they are. -/
theorem flatMap_uartPutc {ds : List ℕ} (h : ∀ d ∈ ds, d < 16) :
    (ds.flatMap fun d => uartPutc (digit d)) = ds.map digit := by
  rw [← List.flatMap_pure_eq_map]
  exact List.flatMap_congr fun d hd => uartPutc_digit (h d hd)

/-! ### Decimal -/

theorem fillBuf_lt {room v d : ℕ} (h : d ∈ fillBuf room v) : d < 10 := by
  induction room generalizing v with
  | zero => cases h
  | succ room ih =>
    rw [fillBuf] at h
    split_ifs at h with hv
    · cases h
    · rcases List.mem_cons.mp h with rfl | h
      · exact Nat.mod_lt v (by decide)
      · exact ih h

theorem length_fillBuf (room v : ℕ) : (fillBuf room v).length ≤ room := by
  induction room generalizing v with
  | zero => exact Nat.le_refl 0
  | succ room ih =>
    rw [fillBuf]
    split_ifs
    · exact Nat.zero_le _
    · exact Nat.succ_le_succ (ih _)

theorem place_append (b : ℕ) (ds : List ℕ) (d : ℕ) : place b (ds ++ [d]) = place b ds * b + d := by
  induction ds with
  | nil => rw [List.nil_append, place, place, place, List.length_nil, pow_zero, Nat.mul_one, Nat.zero_mul, Nat.add_comm]
  | cons e ds ih =>
    rw [List.cons_append, place, ih, place, List.length_append, List.length_singleton, pow_succ, Nat.add_mul,
      Nat.add_assoc, Nat.mul_assoc]

/-- The buffer holds the number where that has room. -/
theorem place_fillBuf {room v : ℕ} (h : v < 10 ^ room) : place 10 (fillBuf room v).reverse = v := by
  induction room generalizing v with
  | zero =>
    rw [pow_zero, Nat.lt_one_iff] at h
    rw [h]
    rfl
  | succ room ih =>
    rw [fillBuf]
    split_ifs with hv
    · rw [hv]
      rfl
    · have hdiv : v / 10 < 10 ^ room := by
        rw [Nat.div_lt_iff_lt_mul (by decide), ← pow_succ]
        exact h
      rw [List.reverse_cons, place_append, ih hdiv, Nat.mul_comm, Nat.div_add_mod]

theorem fillBuf_ne_nil {room v : ℕ} (hroom : 0 < room) (hv : v ≠ 0) : fillBuf room v ≠ [] := by
  obtain ⟨room, rfl⟩ := Nat.exists_eq_succ_of_ne_zero hroom.ne'
  rw [fillBuf, if_neg hv]
  exact List.cons_ne_nil _ _

/-- The characters of a number: one zero, or what is in the buffer, which twenty places suffice for. -/
theorem exists_uartPutdec (v : BitVec 64) : ∃ ds : List ℕ, uartPutdec v = ds.map digit ∧ (∀ d ∈ ds, d < 10) ∧
    ds ≠ [] ∧ ds.length ≤ 20 ∧ place 10 ds = v.toNat := by
  by_cases hv : v = 0
  · refine ⟨[0], ?_, by decide, List.cons_ne_nil _ _, by decide, ?_⟩
    · rw [uartPutdec, if_pos hv]
      rfl
    · rw [hv]
      rfl
  · have hne : v.toNat ≠ 0 := fun h => hv (BitVec.eq_of_toNat_eq h)
    have hlt : ∀ d ∈ (fillBuf 20 v.toNat).reverse, d < 10 := fun d hd => fillBuf_lt (List.mem_reverse.mp hd)
    refine ⟨(fillBuf 20 v.toNat).reverse, ?_, hlt, ?_, ?_, ?_⟩
    · rw [uartPutdec, if_neg hv]
      exact flatMap_uartPutc fun d hd => (hlt d hd).trans (by decide)
    · rw [Ne, List.reverse_eq_nil_iff]
      exact fillBuf_ne_nil (by decide) hne
    · rw [List.length_reverse]
      exact length_fillBuf 20 _
    · exact place_fillBuf (v.isLt.trans (by decide))

theorem readDigits_uartPutdec (v : BitVec 64) : readDigits 10 (uartPutdec v) = some v.toNat := by
  obtain ⟨ds, hds, hlt, -, -, hplace⟩ := exists_uartPutdec v
  rw [hds, readDigits_map fun d hd => (hlt d hd).trans (by decide), hplace]

/-! ### Hexadecimal -/

/-- Sixteen places, the highest first. -/
theorem uartPuthex_eq (v : BitVec 64) : uartPuthex v = "0x".toList ++ (fixed 16 16 v.toNat).map digit := by
  have hdigits : (List.range 16).map (fun i => v.toNat >>> (60 - 4 * i) &&& 0xf) = fixed 16 16 v.toNat := by
    have hand (n : ℕ) : n &&& 0xf = n % 16 := Nat.and_two_pow_sub_one_eq_mod n 4
    simp only [List.range_succ, List.range_zero, List.nil_append, List.cons_append, List.map_cons, List.map_nil, hand,
      Nat.shiftRight_eq_div_pow, fixed]
    norm_num
  rw [uartPuthex, ← hdigits, List.map_map]
  refine congrArg₂ _ rfl ?_
  rw [← List.flatMap_pure_eq_map]
  have hand (n : ℕ) : n &&& 0xf < 2 ^ 4 := Nat.and_lt_two_pow n (by decide)
  exact List.flatMap_congr fun i _ => uartPutc_digit (hand _)

theorem readDigits_fixed (v : BitVec 64) : readDigits 16 ((fixed 16 16 v.toNat).map digit) = some v.toNat := by
  have hlt : v.toNat < 16 ^ 16 := v.isLt.trans_eq (by norm_num)
  rw [readDigits_map fun d hd => lt_of_mem_fixed (by decide) hd, place_fixed, Nat.mod_eq_of_lt hlt]

end GeminiLinux.Baremetal
