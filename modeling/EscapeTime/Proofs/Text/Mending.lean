import EscapeTime.Proofs.Text.Utf8

/-!
# Malformed bytes

A byte string is well formed if a text has these bytes. Of a byte string that is read as a text and
written again, every character is kept, and every byte that starts no character becomes the three
bytes of the replacement character. So the well-formed byte strings are those that come back.
-/

namespace EscapeTime.Text

/-- The bytes are those of a text. -/
def WellFormed (bytes : List UInt8) : Prop :=
  ∃ text : String, encodeUtf8 text = bytes

/-- The bytes of characters are kept, and a byte that starts no character is replaced. -/
inductive Mended : List UInt8 → List UInt8 → Prop
  | nil : Mended [] []
  | character (c : Char) {bytes out : List UInt8} :
    Mended bytes out → Mended (String.utf8EncodeChar c ++ bytes) (String.utf8EncodeChar c ++ out)
  | malformed {b : UInt8} {bytes out : List UInt8} :
    (∀ c : Char, ¬ String.utf8EncodeChar c <+: b :: bytes) → Mended bytes out →
      Mended (b :: bytes) (0xEF :: 0xBF :: 0xBD :: out)

/-! ### Texts -/

theorem encodeUtf8_ofList (cs : List Char) :
    encodeUtf8 (String.ofList cs) = cs.flatMap String.utf8EncodeChar := by
  rw [encodeUtf8, String.toList_ofList]

theorem encodeUtf8_append (s t : String) : encodeUtf8 (s ++ t) = encodeUtf8 s ++ encodeUtf8 t := by
  rw [encodeUtf8, String.toList_append, List.flatMap_append]
  rfl

/-- A text is read back from its bytes. -/
theorem decodeUtf8_encodeUtf8 (text : String) : decodeUtf8 (encodeUtf8 text) = text := by
  have chars (cs : List Char) : decodeFrom 0 (cs.flatMap String.utf8EncodeChar) = cs := by
    induction cs with
    | nil => rfl
    | cons c cs ih => rw [List.flatMap_cons, decodeFrom_character, ih]
  rw [decodeUtf8, encodeUtf8, chars, String.ofList_toList]

/-- What bytes are read as, written again. -/
def mend (bytes : List UInt8) : List UInt8 :=
  encodeUtf8 (decodeUtf8 bytes)

theorem mend_eq_self_iff {bytes : List UInt8} : mend bytes = bytes ↔ WellFormed bytes := by
  constructor
  · intro same
    exact ⟨_, same⟩
  · rintro ⟨text, rfl⟩
    rw [mend, decodeUtf8_encodeUtf8]

theorem mended_mend (bytes : List UInt8) : Mended bytes (mend bytes) := by
  rw [mend, decodeUtf8, encodeUtf8_ofList]
  induction bytes using bytes_induction with
  | nil => exact .nil
  | character c rest ih =>
    rw [decodeFrom_character]
    exact .character c ih
  | malformed b rest read ih =>
    rw [decodeFrom_malformed read]
    exact .malformed (sequence?_eq_none_iff.1 read) ih

theorem Mended.length_le {bytes out : List UInt8} (mended : Mended bytes out) :
    bytes.length ≤ out.length := by
  induction mended with
  | nil => exact Nat.le_refl 0
  | character c _ ih =>
    rw [List.length_append, List.length_append]
    omega
  | malformed _ _ ih =>
    simp only [List.length_cons]
    omega

/-! ### Texts around ASCII bytes -/

/-- No character goes on with an ASCII byte. -/
theorem sequence?_before_ascii {b q : UInt8} {front more : List UInt8} (ascii : q.toNat < 0x80)
    (read : sequence? b front = none) : sequence? b (front ++ q :: more) = none := by
  rw [sequence?_eq_none_iff] at read ⊢
  intro c starts
  have whole : b :: front ++ [q] <+: b :: (front ++ q :: more) := ⟨more, by simp⟩
  have inside : ¬ b :: front ++ [q] <+: String.utf8EncodeChar c := by
    rintro ⟨rest, spelled⟩
    by_cases low : c.toNat < 0x80
    · have short : (String.utf8EncodeChar c).length = 1 := by
        rw [String.length_utf8EncodeChar, Char.utf8Size_eq_one_iff, UInt32.le_iff_toNat_le]
        exact Nat.le_of_lt_succ low
      rw [← spelled] at short
      simp at short
    · have far := utf8EncodeChar_beyond (Nat.le_of_not_lt low) q (by simp [← spelled])
      omega
  rcases List.prefix_or_prefix_of_prefix starts whole with before | after
  · rcases List.prefix_concat_iff.1 before with same | before
    · exact inside (same ▸ List.prefix_rfl)
    · exact read c before
  · exact inside after

theorem decodeFrom_append {q : UInt8} (ascii : q.toNat < 0x80) (front more : List UInt8) :
    decodeFrom 0 (front ++ q :: more) =
      decodeFrom 0 front ++ Char.ofUInt8 q :: decodeFrom 0 more := by
  induction front using bytes_induction with
  | nil =>
    rw [List.nil_append, ← List.singleton_append, ← utf8EncodeChar_ascii q ascii,
      decodeFrom_character]
    rfl
  | character c rest ih =>
    rw [List.append_assoc, decodeFrom_character, ih, decodeFrom_character]
    rfl
  | malformed b rest read ih =>
    rw [List.cons_append, decodeFrom_malformed (sequence?_before_ascii ascii read), ih,
      decodeFrom_malformed read]
    rfl

end EscapeTime.Text
