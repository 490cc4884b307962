import EscapeTime.Text.Utf8
import Mathlib.Data.List.Infix

/-!
# Bytes and the characters they are read as

Reading bytes as UTF-8 keeps ASCII apart: an ASCII byte is read as itself wherever it stands, and
every other character stands for bytes beyond ASCII only.
-/

namespace EscapeTime.Text

/-- The characters that bytes are read as. -/
inductive Reading : List UInt8 → List Char → Prop
  | nil : Reading [] []
  | ascii {b : UInt8} {bytes : List UInt8} {cs : List Char} :
    b.toNat < 0x80 → Reading bytes cs → Reading (b :: bytes) (Char.ofUInt8 b :: cs)
  | beyond {c : Char} {run bytes : List UInt8} {cs : List Char} :
    run ≠ [] → (∀ b ∈ run, 0x80 ≤ b.toNat) → 0x80 ≤ c.toNat → Reading bytes cs →
      Reading (run ++ bytes) (c :: cs)

theorem toNat_ofUInt8 (b : UInt8) : (Char.ofUInt8 b).toNat = b.toNat :=
  UInt8.toNat_toUInt32 b

theorem toNat_ofNat {n : Nat} (valid : n.isValidChar) : (Char.ofNat n).toNat = n := by
  rw [Char.ofNat, dif_pos valid]
  rfl

theorem ofNat_toNat_byte (b : UInt8) : Char.ofNat b.toNat = Char.ofUInt8 b := by
  have small := b.toNat_lt
  refine Char.toNat_inj.mp ?_
  rw [toNat_ofNat (.inl (by omega)), toNat_ofUInt8]

theorem Reading.mem_ascii {b : UInt8} {bytes : List UInt8} {cs : List Char}
    (reading : Reading bytes cs) (ascii : b.toNat < 0x80) : Char.ofUInt8 b ∈ cs ↔ b ∈ bytes := by
  induction reading with
  | nil => simp
  | @ascii d _ _ _ _ ih =>
    have same : Char.ofUInt8 b = Char.ofUInt8 d ↔ b = d := by
      rw [← Char.toNat_inj, toNat_ofUInt8, toNat_ofUInt8, UInt8.toNat_inj]
    rw [List.mem_cons, List.mem_cons, same, ih]
  | @beyond c run _ _ _ far other _ ih =>
    have notHere : Char.ofUInt8 b ≠ c := by
      rintro rfl
      rw [toNat_ofUInt8] at other
      omega
    have notRun : b ∉ run := fun there => absurd (far b there) (by omega)
    rw [List.mem_cons, List.mem_append, or_iff_right notHere, or_iff_right notRun, ih]

/-- The bytes of a character beyond ASCII are beyond ASCII. -/
theorem utf8EncodeChar_beyond {c : Char} (far : 0x80 ≤ c.toNat) :
    ∀ b ∈ String.utf8EncodeChar c, 0x80 ≤ b.toNat := by
  have byte (x : Nat) (low : 0x80 ≤ x) (high : x < 0x100) : 0x80 ≤ (UInt8.ofNat x).toNat := by
    rw [UInt8.toNat_ofNat', Nat.mod_eq_of_lt high]
    exact low
  change 0x80 ≤ c.val.toNat at far
  unfold String.utf8EncodeChar
  dsimp only
  split
  · omega
  split
  · simp only [List.forall_mem_cons]
    exact ⟨byte _ (by omega) (by omega), byte _ (by omega) (by omega), nofun⟩
  split
  · simp only [List.forall_mem_cons]
    exact ⟨byte _ (by omega) (by omega), byte _ (by omega) (by omega),
      byte _ (by omega) (by omega), nofun⟩
  · simp only [List.forall_mem_cons]
    exact ⟨byte _ (by omega) (by omega), byte _ (by omega) (by omega),
      byte _ (by omega) (by omega), byte _ (by omega) (by omega), nofun⟩

theorem utf8EncodeChar_ascii (b : UInt8) (ascii : b.toNat < 0x80) :
    String.utf8EncodeChar (Char.ofUInt8 b) = [b] := by
  have code : (Char.ofUInt8 b).val.toNat = b.toNat := toNat_ofUInt8 b
  unfold String.utf8EncodeChar
  dsimp only
  rw [code, if_pos (by omega), UInt8.ofNat_toNat]

/-- The bytes of a character are read as it. -/
theorem Reading.character (c : Char) {bytes : List UInt8} {cs : List Char}
    (reading : Reading bytes cs) : Reading (String.utf8EncodeChar c ++ bytes) (c :: cs) := by
  by_cases ascii : c.toNat < 0x80
  · obtain ⟨b, small, rfl⟩ : ∃ b : UInt8, b.toNat < 0x80 ∧ Char.ofUInt8 b = c := by
      have byte : (UInt8.ofNat c.toNat).toNat = c.toNat := by
        rw [UInt8.toNat_ofNat', Nat.mod_eq_of_lt (by omega)]
      exact ⟨UInt8.ofNat c.toNat, by omega, Char.toNat_inj.mp ((toNat_ofUInt8 _).trans byte)⟩
    rw [utf8EncodeChar_ascii b small]
    exact .ascii small reading
  · exact .beyond String.utf8EncodeChar_ne_nil (utf8EncodeChar_beyond (by omega)) (by omega) reading

/-- A text is a reading of its bytes. -/
theorem reading_flatMap (cs : List Char) : Reading (cs.flatMap String.utf8EncodeChar) cs := by
  induction cs with
  | nil => exact .nil
  | cons c cs ih =>
    rw [List.flatMap_cons]
    exact .character c ih

/-! ### Sequences -/

theorem continuation?_some {b : UInt8} {lo hi x : Nat} (read : continuation? b lo hi = some x) :
    lo ≤ b.toNat ∧ b.toNat ≤ hi ∧ x = b.toNat % 64 := by
  unfold continuation? at read
  split at read
  · rename_i range
    cases read
    exact ⟨range.1, range.2, rfl⟩
  · cases read

theorem byte_eq {n : Nat} {b : UInt8} (same : n = b.toNat) : UInt8.ofNat n = b := by
  rw [same, UInt8.ofNat_toNat]

section

variable {b b₁ b₂ b₃ : UInt8}

theorem utf8EncodeChar_two (lead : 0xc2 ≤ b.toNat ∧ b.toNat ≤ 0xdf)
    (first : 0x80 ≤ b₁.toNat ∧ b₁.toNat ≤ 0xbf) :
    String.utf8EncodeChar (Char.ofNat (b.toNat % 32 * 64 + b₁.toNat % 64)) = [b, b₁] := by
  have code : (Char.ofNat (b.toNat % 32 * 64 + b₁.toNat % 64)).val.toNat = _ :=
    toNat_ofNat (.inl (by omega))
  unfold String.utf8EncodeChar
  dsimp only
  rw [code, if_neg (by omega), if_pos (by omega), byte_eq, byte_eq] <;> omega

theorem utf8EncodeChar_three (lead : 0xe0 ≤ b.toNat ∧ b.toNat ≤ 0xef)
    (low : (if b.toNat = 0xe0 then 0xa0 else 0x80) ≤ b₁.toNat)
    (high : b₁.toNat ≤ if b.toNat = 0xed then 0x9f else 0xbf)
    (second : 0x80 ≤ b₂.toNat ∧ b₂.toNat ≤ 0xbf) :
    String.utf8EncodeChar
      (Char.ofNat ((b.toNat % 16 * 64 + b₁.toNat % 64) * 64 + b₂.toNat % 64)) = [b, b₁, b₂] := by
  have valid : ((b.toNat % 16 * 64 + b₁.toNat % 64) * 64 + b₂.toNat % 64).isValidChar := by
    unfold Nat.isValidChar
    split at low <;> split at high <;> omega
  have first : 0x80 ≤ b₁.toNat ∧ b₁.toNat ≤ 0xbf := by
    split at low <;> split at high <;> omega
  have large : 0x7ff < (b.toNat % 16 * 64 + b₁.toNat % 64) * 64 + b₂.toNat % 64 := by
    split at low <;> omega
  have code := toNat_ofNat valid
  rw [Char.toNat] at code
  unfold String.utf8EncodeChar
  dsimp only
  rw [code, if_neg (by omega), if_neg (by omega), if_pos (by omega), byte_eq, byte_eq, byte_eq] <;>
    omega

theorem utf8EncodeChar_four (lead : 0xf0 ≤ b.toNat ∧ b.toNat ≤ 0xf4)
    (low : (if b.toNat = 0xf0 then 0x90 else 0x80) ≤ b₁.toNat)
    (high : b₁.toNat ≤ if b.toNat = 0xf4 then 0x8f else 0xbf)
    (second : 0x80 ≤ b₂.toNat ∧ b₂.toNat ≤ 0xbf) (third : 0x80 ≤ b₃.toNat ∧ b₃.toNat ≤ 0xbf) :
    String.utf8EncodeChar (Char.ofNat (((b.toNat % 8 * 64 + b₁.toNat % 64) * 64 +
      b₂.toNat % 64) * 64 + b₃.toNat % 64)) = [b, b₁, b₂, b₃] := by
  have valid : (((b.toNat % 8 * 64 + b₁.toNat % 64) * 64 + b₂.toNat % 64) * 64 +
      b₃.toNat % 64).isValidChar := by
    unfold Nat.isValidChar
    split at low <;> split at high <;> omega
  have first : 0x80 ≤ b₁.toNat ∧ b₁.toNat ≤ 0xbf := by
    split at low <;> split at high <;> omega
  have large : 0xffff < ((b.toNat % 8 * 64 + b₁.toNat % 64) * 64 + b₂.toNat % 64) * 64 +
      b₃.toNat % 64 := by
    split at low <;> omega
  have code := toNat_ofNat valid
  rw [Char.toNat] at code
  unfold String.utf8EncodeChar
  dsimp only
  rw [code, if_neg (by omega), if_neg (by omega), if_neg (by omega), byte_eq, byte_eq, byte_eq,
    byte_eq] <;> omega

end

/-- A sequence that is read has the bytes of its character. -/
theorem sequence?_encode {b : UInt8} {rest : List UInt8} {c : Char} {used : Nat}
    (read : sequence? b rest = some (c, used)) :
    ∃ tail more, rest = tail ++ more ∧ used = tail.length ∧
      String.utf8EncodeChar c = b :: tail := by
  unfold sequence? at read
  dsimp only at read
  split at read
  · rename_i ascii
    cases read
    refine ⟨[], rest, rfl, rfl, ?_⟩
    rw [ofNat_toNat_byte, utf8EncodeChar_ascii b ascii]
  split at read
  · rename_i lead
    rcases rest with _ | ⟨b₁, rest⟩
    · cases read
    obtain ⟨x, first, read⟩ := Option.bind_eq_some_iff.mp read
    cases read
    obtain ⟨low, high, rfl⟩ := continuation?_some first
    exact ⟨[b₁], rest, rfl, rfl, utf8EncodeChar_two lead ⟨low, high⟩⟩
  split at read
  · rename_i lead
    rcases rest with _ | ⟨b₁, _ | ⟨b₂, rest⟩⟩
    · cases read
    · cases read
    obtain ⟨x, first, read⟩ := Option.bind_eq_some_iff.mp read
    obtain ⟨y, second, read⟩ := Option.bind_eq_some_iff.mp read
    cases read
    obtain ⟨low, high, rfl⟩ := continuation?_some first
    obtain ⟨low', high', rfl⟩ := continuation?_some second
    exact ⟨[b₁, b₂], rest, rfl, rfl, utf8EncodeChar_three lead low high ⟨low', high'⟩⟩
  split at read
  · rename_i lead
    rcases rest with _ | ⟨b₁, _ | ⟨b₂, _ | ⟨b₃, rest⟩⟩⟩
    · cases read
    · cases read
    · cases read
    obtain ⟨x, first, read⟩ := Option.bind_eq_some_iff.mp read
    obtain ⟨y, second, read⟩ := Option.bind_eq_some_iff.mp read
    obtain ⟨z, third, read⟩ := Option.bind_eq_some_iff.mp read
    cases read
    obtain ⟨low, high, rfl⟩ := continuation?_some first
    obtain ⟨low', high', rfl⟩ := continuation?_some second
    obtain ⟨low'', high'', rfl⟩ := continuation?_some third
    exact ⟨[b₁, b₂, b₃], rest, rfl, rfl,
      utf8EncodeChar_four lead low high ⟨low', high'⟩ ⟨low'', high''⟩⟩
  · cases read

theorem continuation?_ofNat {n lo hi : Nat} (byte : n < 0x100) (low : lo ≤ n) (high : n ≤ hi) :
    continuation? (UInt8.ofNat n) lo hi = some (n % 64) := by
  have same : (UInt8.ofNat n).toNat = n := by rw [UInt8.toNat_ofNat', Nat.mod_eq_of_lt byte]
  rw [continuation?, same, if_pos ⟨low, high⟩]

/-- The bytes of a character are read as that character, whatever comes after them. -/
theorem sequence?_of_encode {c : Char} {b : UInt8} {tail : List UInt8}
    (spelled : String.utf8EncodeChar c = b :: tail) (more : List UInt8) :
    sequence? b (tail ++ more) = some (c, tail.length) := by
  have valid : c.val.toNat < 0xd800 ∨ 0xdfff < c.val.toNat ∧ c.val.toNat < 0x110000 := c.valid
  have same {n : Nat} (code : n = c.val.toNat) : Char.ofNat n = c := by
    rw [code]
    exact Char.ofNat_toNat c
  have byte {n : Nat} (small : n < 0x100) : (UInt8.ofNat n).toNat = n := by
    rw [UInt8.toNat_ofNat', Nat.mod_eq_of_lt small]
  unfold String.utf8EncodeChar at spelled
  dsimp only at spelled
  split at spelled
  · cases spelled
    unfold sequence?
    dsimp only [List.cons_append]
    rw [byte (by omega)]
    rw [if_pos (by omega), same rfl]
    rfl
  split at spelled
  · cases spelled
    unfold sequence?
    dsimp only [List.cons_append]
    rw [byte (by omega)]
    rw [if_neg (by omega), if_pos (by omega)]
    rw [continuation?_ofNat (by omega) (by omega) (by omega)]
    show some (Char.ofNat _, 1) = some (c, 1)
    rw [same (by omega)]
  split at spelled
  · cases spelled
    unfold sequence?
    dsimp only [List.cons_append]
    rw [byte (by omega)]
    rw [if_neg (by omega), if_neg (by omega), if_pos (by omega)]
    rw [continuation?_ofNat (by omega) (by split <;> omega) (by split <;> omega),
      continuation?_ofNat (by omega) (by omega) (by omega)]
    show some (Char.ofNat _, 2) = some (c, 2)
    rw [same (by omega)]
  · cases spelled
    unfold sequence?
    dsimp only [List.cons_append]
    rw [byte (by omega)]
    rw [if_neg (by omega), if_neg (by omega), if_neg (by omega), if_pos (by omega)]
    rw [continuation?_ofNat (by omega) (by split <;> omega) (by split <;> omega),
      continuation?_ofNat (by omega) (by omega) (by omega),
      continuation?_ofNat (by omega) (by omega) (by omega)]
    show some (Char.ofNat _, 3) = some (c, 3)
    rw [same (by omega)]

theorem sequence?_none {b : UInt8} {rest : List UInt8} (read : sequence? b rest = none) :
    0x80 ≤ b.toNat := by
  by_contra ascii
  simp [sequence?, Nat.lt_of_not_le ascii] at read

theorem sequence?_eq_none_iff {b : UInt8} {rest : List UInt8} :
    sequence? b rest = none ↔ ∀ c : Char, ¬ String.utf8EncodeChar c <+: b :: rest := by
  constructor
  · rintro read c ⟨more, spelled⟩
    obtain ⟨b', tail, bytes⟩ := List.exists_cons_of_ne_nil (String.utf8EncodeChar_ne_nil (c := c))
    rw [bytes, List.cons_append] at spelled
    obtain ⟨rfl, rfl⟩ := List.cons.inj spelled
    rw [sequence?_of_encode bytes] at read
    cases read
  · intro none
    by_contra some
    obtain ⟨⟨c, used⟩, read⟩ := Option.ne_none_iff_exists'.1 some
    obtain ⟨tail, more, rfl, -, bytes⟩ := sequence?_encode read
    refine none c ⟨more, ?_⟩
    rw [bytes, List.cons_append]

/-! ### Texts -/

theorem decodeFrom_skip (skip : Nat) (bytes : List UInt8) :
    decodeFrom skip bytes = decodeFrom 0 (bytes.drop skip) := by
  induction bytes generalizing skip with
  | nil => simp [decodeFrom]
  | cons b rest ih =>
    cases skip with
    | zero => rfl
    | succ skip => rw [decodeFrom, ih, List.drop_succ_cons]

theorem decodeFrom_character (c : Char) (bytes : List UInt8) :
    decodeFrom 0 (String.utf8EncodeChar c ++ bytes) = c :: decodeFrom 0 bytes := by
  obtain ⟨b, tail, spelled⟩ := List.exists_cons_of_ne_nil (String.utf8EncodeChar_ne_nil (c := c))
  rw [spelled, List.cons_append, decodeFrom, sequence?_of_encode spelled]
  dsimp only
  rw [decodeFrom_skip, List.drop_left]

theorem decodeFrom_malformed {b : UInt8} {rest : List UInt8} (read : sequence? b rest = none) :
    decodeFrom 0 (b :: rest) = replacement :: decodeFrom 0 rest := by
  rw [decodeFrom, read]

/-- Bytes start with those of a character, or with a byte that starts none. -/
theorem bytes_induction {P : List UInt8 → Prop} (nil : P [])
    (character : ∀ (c : Char) (rest : List UInt8), P rest → P (String.utf8EncodeChar c ++ rest))
    (malformed : ∀ (b : UInt8) (rest : List UInt8), sequence? b rest = none → P rest →
      P (b :: rest))
    (bytes : List UInt8) : P bytes := by
  -- By strong induction on the length, since a character is left behind at once.
  induction size : bytes.length using Nat.strong_induction_on generalizing bytes with
  | _ n ih =>
    cases bytes with
    | nil => exact nil
    | cons b rest =>
      cases read : sequence? b rest with
      | none =>
        refine malformed b rest read (ih rest.length ?_ rest rfl)
        rw [← size, List.length_cons]
        omega
      | some found =>
        obtain ⟨tail, more, rfl, -, spelled⟩ := sequence?_encode read
        rw [← List.cons_append, ← spelled]
        refine character _ more (ih more.length ?_ more rfl)
        rw [← size, List.length_cons, List.length_append]
        omega

theorem decodeFrom_reading (bytes : List UInt8) : Reading bytes (decodeFrom 0 bytes) := by
  induction bytes using bytes_induction with
  | nil => exact .nil
  | character c rest ih =>
    rw [decodeFrom_character]
    exact .character c ih
  | malformed b rest read ih =>
    rw [decodeFrom_malformed read, ← List.singleton_append]
    exact .beyond (List.cons_ne_nil b []) (by simpa using sequence?_none read) (by decide) ih

end EscapeTime.Text
