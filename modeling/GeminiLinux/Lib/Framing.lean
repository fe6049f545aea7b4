import Mathlib

/-! Self-delimiting codes: a message is written as a non-empty word that a decoder can cut off the
    front of any stream. Words written one after another are then read back one after another, so
    the concatenation of a list of messages determines the list (`decodeAll_encode`), whatever the
    messages contain. -/

namespace GeminiLinux.Framing

/-- An encoder and a decoder of one message, with the law that the decoder cuts a valid message off
    the front of any stream. -/
structure Code (α β : Type) where
  enc : α → List β
  dec : List β → Option (α × List β)
  Valid : α → Prop
  enc_ne_nil : ∀ a, enc a ≠ []
  dec_enc : ∀ a rest, Valid a → dec (enc a ++ rest) = some (a, rest)

variable {α β : Type} (c : Code α β)

/-- Read messages until the stream is empty (`fuel` bounds the messages; use the stream's length). -/
def Code.decodeAll : ℕ → List β → Option (List α)
  | _, [] => some []
  | 0, _ :: _ => none
  | fuel + 1, b :: bs =>
    match c.dec (b :: bs) with
    | none => none
    | some (a, rest) => (Code.decodeAll fuel rest).map (a :: ·)

theorem decodeAll_step (fuel : ℕ) (a : α) (rest : List β) (ha : c.Valid a) :
    c.decodeAll (fuel + 1) (c.enc a ++ rest) = (c.decodeAll fuel rest).map (a :: ·) := by
  obtain ⟨b, bs, hb⟩ := List.exists_cons_of_ne_nil (c.enc_ne_nil a)
  have hdec := c.dec_enc a rest ha
  rw [hb, List.cons_append] at hdec ⊢
  rw [Code.decodeAll, hdec]

/-- The words of a list of messages, one after another, are read back as that list and nothing is
    left over. -/
theorem decodeAll_encode : ∀ (as : List α) (fuel : ℕ), (∀ a ∈ as, c.Valid a) → as.length ≤ fuel →
    c.decodeAll fuel (as.flatMap c.enc) = some as
  | [], fuel, _, _ => by cases fuel <;> rfl
  | a :: as, 0, _, hle => by simp at hle
  | a :: as, fuel + 1, hv, hle => by
      rw [List.flatMap_cons, decodeAll_step c fuel a _ (hv a (List.mem_cons_self ..)),
        decodeAll_encode as fuel (fun x hx => hv x (List.mem_cons_of_mem _ hx)) (by simpa using hle)]
      rfl

theorem length_le_encode (as : List α) : as.length ≤ (as.flatMap c.enc).length := by
  induction as with
  | nil => simp
  | cons a as ih =>
    have hpos : 0 < (c.enc a).length := List.length_pos_of_ne_nil (c.enc_ne_nil a)
    rw [List.flatMap_cons, List.length_append, List.length_cons]
    omega

/-- Reading a whole stream, with as much fuel as it has symbols. -/
def Code.parse (s : List β) : Option (List α) := c.decodeAll s.length s

theorem parse_encode (as : List α) (hv : ∀ a ∈ as, c.Valid a) :
    c.parse (as.flatMap c.enc) = some as :=
  decodeAll_encode c as _ hv (length_le_encode c as)

end GeminiLinux.Framing
