import Mathlib

/-! Text as bytes. A text is a sequence of Unicode scalar values, which is what `String` is; `encode` is its
    UTF-8, and `decode` reads the one text that bytes are the UTF-8 of, if there is one. A text has a NUL
    byte only where it has a NUL, and cut in front of an ASCII byte it stays text. -/

namespace GeminiLinux.Utf8

def encode (s : String) : List UInt8 := s.toUTF8.data.toList

def decode (bytes : List UInt8) : Option String := String.fromUTF8? ⟨bytes.toArray⟩

@[simp] theorem encode_append (s t : String) : encode (s ++ t) = encode s ++ encode t := by
  simp [encode]

theorem decode_eq_some {bytes : List UInt8} {s : String} : decode bytes = some s ↔ encode s = bytes := by
  unfold decode encode String.fromUTF8?
  constructor
  · intro h
    split_ifs at h
    cases h
    simp [String.fromUTF8]
  · rintro rfl
    have hvalid : ByteArray.IsValidUTF8 ⟨s.toUTF8.data.toList.toArray⟩ := by simpa using s.isValidUTF8
    rw [dif_pos hvalid]
    congr 1

@[simp] theorem decode_encode (s : String) : decode (encode s) = some s := decode_eq_some.mpr rfl

theorem encode_eq_flatMap (s : String) : encode s = s.toList.flatMap String.utf8EncodeChar := by
  rw [encode, String.toUTF8, ← String.utf8Encode_toList, List.utf8Encode, List.data_toByteArray]

/-- The bytes of a character other than NUL are not 0: the further bytes of a long one are from 0x80 on. -/
theorem zero_mem_utf8EncodeChar {c : Char} (h : 0 ∈ String.utf8EncodeChar c) : c = Char.ofNat 0 := by
  unfold String.utf8EncodeChar at h
  simp only at h
  split_ifs at h
  all_goals simp only [List.mem_cons, List.not_mem_nil, or_false, ← UInt8.toNat_inj, UInt8.toNat_ofNat',
    UInt8.reduceToNat] at h
  · apply Char.ext
    rw [← UInt32.toNat_inj]
    show c.val.toNat = 0
    omega
  all_goals omega

/-- An ASCII byte is a character by itself. -/
theorem utf8EncodeChar_of_ascii_mem {c : Char} {b : UInt8} (h : b ∈ String.utf8EncodeChar c)
    (hb : b.toNat < 0x80) : String.utf8EncodeChar c = [b] := by
  unfold String.utf8EncodeChar at h ⊢
  simp only at h ⊢
  split_ifs at h ⊢
  · rw [List.mem_singleton.mp h]
  all_goals
    simp only [List.mem_cons, List.not_mem_nil, or_false, ← UInt8.toNat_inj, UInt8.toNat_ofNat'] at h
    omega

theorem zero_notMem_encode {s : String} (h : Char.ofNat 0 ∉ s.toList) : 0 ∉ encode s := by
  rw [encode_eq_flatMap, List.mem_flatMap]
  rintro ⟨c, hc, hzero⟩
  rw [zero_mem_utf8EncodeChar hzero] at hc
  exact h hc

/-! ### Cutting at a separator -/

/-- What stands before the first `sep`, or all if there is none. -/
def beforeFirst (sep : List UInt8) : List UInt8 → List UInt8
  | [] => []
  | b :: bs => if sep <+: b :: bs then [] else b :: beforeFirst sep bs

section Separator

variable {b : UInt8} {sep : List UInt8}

theorem beforeFirst_append {front : List UInt8} (h : b ∉ front) (rest : List UInt8) :
    beforeFirst (b :: sep) (front ++ rest) = front ++ beforeFirst (b :: sep) rest := by
  induction front with
  | nil => rfl
  | cons c front ih =>
    obtain ⟨hc, hfront⟩ := List.ne_and_not_mem_of_not_mem_cons h
    have hno : ¬ b :: sep <+: c :: (front ++ rest) := fun hpre => hc (List.cons_prefix_cons.mp hpre).1
    rw [List.cons_append, beforeFirst, if_neg hno, ih hfront, List.cons_append]

/-- Text cut at a separator that starts with an ASCII byte is text. -/
theorem beforeFirst_encode (hb : b.toNat < 0x80) (cs : List Char) : ∃ n,
    beforeFirst (b :: sep) (cs.flatMap String.utf8EncodeChar) = (cs.take n).flatMap String.utf8EncodeChar := by
  induction cs with
  | nil => exact ⟨0, rfl⟩
  | cons c cs ih =>
    obtain ⟨n, hn⟩ := ih
    rw [List.flatMap_cons]
    by_cases hmem : b ∈ String.utf8EncodeChar c
    · have hone := utf8EncodeChar_of_ascii_mem hmem hb
      rw [hone, List.singleton_append, beforeFirst]
      split_ifs
      · exact ⟨0, rfl⟩
      · refine ⟨n + 1, ?_⟩
        rw [List.take_succ_cons, List.flatMap_cons, hone, hn, List.singleton_append]
    · refine ⟨n + 1, ?_⟩
      rw [beforeFirst_append hmem, hn, List.take_succ_cons, List.flatMap_cons]

theorem decode_beforeFirst (hb : b.toNat < 0x80) (s : String) :
    ∃ t, decode (beforeFirst (b :: sep) (encode s)) = some t := by
  have hcut : ∃ n, beforeFirst (b :: sep) (s.toList.flatMap String.utf8EncodeChar) = _ :=
    beforeFirst_encode hb s.toList
  obtain ⟨n, hn⟩ := hcut
  refine ⟨String.ofList (s.toList.take n), ?_⟩
  rw [decode_eq_some, encode_eq_flatMap, encode_eq_flatMap, hn, String.toList_ofList]

end Separator

end GeminiLinux.Utf8
