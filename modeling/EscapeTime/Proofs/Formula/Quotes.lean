import EscapeTime.Proofs.Formula.Lexeme
import EscapeTime.Proofs.Text.Utf8

/-!
# Quotes

No reading of bytes as characters and no pass of normalisation adds or removes a double quote. So a
byte string has a quote in its normalised text if and only if it has the byte of one.
-/

namespace EscapeTime

namespace Text

theorem eq_of_ofNat_eq_quote {n : Nat} (same : Char.ofNat n = '"') : n = 0x22 := by
  by_cases valid : n.isValidChar
  · rw [Char.ofNat, dif_pos valid] at same
    exact congrArg Char.toNat same
  · rw [Char.ofNat, dif_neg valid] at same
    cases congrArg Char.toNat same

/-! ### Lower case -/

theorem caseRanges_beyond_quote : ∀ r ∈ caseRanges, 0x22 < (r.first : Int) + r.shift := by
  decide +kernel

theorem quote_of_lowerCase {c : Char} (lower : lowerCase c = '"') : c = '"' := by
  unfold lowerCase at lower
  split at lower
  · unfold Char.toLower at lower
    split at lower
    · rename_i upper
      have code : (c.val + ('a'.val - 'A'.val)).toNat = 0x22 := congrArg Char.toNat lower
      have first : 0x41 ≤ c.val.toNat := upper.1
      have last : c.val.toNat ≤ 0x5a := upper.2
      rw [UInt32.toNat_add, show ('a'.val - 'A'.val).toNat = 32 from rfl] at code
      omega
    · exact lower
  · split at lower
    · rename_i r found
      have beyond := caseRanges_beyond_quote r (List.mem_of_find?_eq_some found)
      have covered := List.find?_some found
      simp only [CaseRange.covers, Bool.and_eq_true, decide_eq_true_eq] at covered
      have code := eq_of_ofNat_eq_quote lower
      omega
    · exact lower

/-! ### Bytes -/

theorem mem_decodeFrom_quote {skip : Nat} {bytes : List UInt8} :
    '"' ∈ decodeFrom skip bytes ↔ 0x22 ∈ bytes.drop skip := by
  have ascii : (0x22 : UInt8).toNat < 0x80 := by decide
  rw [decodeFrom_skip]
  exact (decodeFrom_reading (bytes.drop skip)).mem_ascii ascii

end Text

namespace Glyph

/-! ### Normalised text -/

theorem hasQuote_spell (inQuote : Bool) (column : Nat) (cs : List Char) :
    hasQuote (spell inQuote column cs) = decide ('"' ∈ cs) := by
  induction cs generalizing inQuote column with
  | nil => rfl
  | cons c cs ih =>
    rw [spell]
    split
    · rename_i quote
      simp [hasQuote_cons, quote]
    · rename_i other
      have kept : decide ('"' ∈ c :: cs) = decide ('"' ∈ cs) := by simp [Ne.symm other]
      rw [kept]
      split
      · rw [hasQuote_cons, ih, decide_eq_false other, Bool.false_or]
      · split
        · exact ih _ _
        · have lower : Text.lowerCase c ≠ '"' := fun quote => other (Text.quote_of_lowerCase quote)
          rw [hasQuote_cons, ih, decide_eq_false lower, Bool.false_or]

theorem hasQuote_spread {word : List Char} (plain : '"' ∉ word) (column : Nat) :
    hasQuote (spread word column) = false := by
  simp only [hasQuote, spread, List.any_map, List.any_eq_false, Function.comp_apply,
    decide_eq_true_eq]
  exact fun c member quote => plain (quote ▸ member)

theorem hasQuote_of_startsWith {word : List Char} {gs : List Glyph} (plain : '"' ∉ word)
    (starts : startsWith word gs) : hasQuote (gs.take word.length) = false := by
  induction word generalizing gs with
  | nil => rfl
  | cons c word ih =>
    cases gs with
    | nil => rfl
    | cons g gs =>
      simp only [startsWith, Bool.and_eq_true, beq_iff_eq] at starts
      simp only [List.mem_cons, not_or] at plain
      rw [List.length_cons, List.take_succ_cons, hasQuote_cons, ih plain.2 starts.2, starts.1.2,
        decide_eq_false (Ne.symm plain.1), Bool.or_false]

theorem hasQuote_substitute {old new : List Char} (nonempty : old ≠ []) (plainOld : '"' ∉ old)
    (plainNew : '"' ∉ new) (skip : Nat) (gs : List Glyph) :
    hasQuote (substitute old new skip gs) = hasQuote (gs.drop skip) := by
  induction gs generalizing skip with
  | nil => simp [substitute]
  | cons g gs ih =>
    cases skip with
    | succ skip => exact ih skip
    | zero =>
      rw [substitute, List.drop_zero]
      split
      · rename_i starts
        have after : gs.drop (old.length - 1) = (g :: gs).drop old.length := by
          obtain ⟨n, length⟩ : ∃ n, old.length = n + 1 :=
            Nat.exists_eq_succ_of_ne_zero (by simpa using nonempty)
          rw [length, List.drop_succ_cons, Nat.add_sub_cancel]
        conv_rhs => rw [← List.take_append_drop old.length (g :: gs)]
        rw [hasQuote_append, hasQuote_append, ih, after, hasQuote_spread plainNew,
          hasQuote_of_startsWith plainOld starts]
      · rw [hasQuote_cons, hasQuote_cons, ih, List.drop_zero]

theorem hasQuote_pairBars (paired : Nat) (gs : List Glyph) :
    hasQuote (pairBars paired gs) = hasQuote gs := by
  induction gs generalizing paired with
  | nil => simp [pairBars]
  | cons g gs ih =>
    cases paired with
    | zero => rfl
    | succ paired =>
      rw [pairBars, hasQuote_cons]
      split
      · rename_i bar
        simp only [isBar, Bool.and_eq_true, beq_iff_eq] at bar
        have plain : '"' ∉ (if paired % 2 = 1 then "abs(".toList else [')']) := by
          split <;> decide
        rw [hasQuote_append, hasQuote_spread plain, ih, bar.2]
        rfl
      · rw [hasQuote_cons, ih]

theorem hasQuote_normalize (formula : List Char) :
    hasQuote (normalize formula) = decide ('"' ∈ formula) := by
  have replaced (old new : String) (nonempty : old.toList ≠ []) (plainOld : '"' ∉ old.toList)
      (plainNew : '"' ∉ new.toList) (gs : List Glyph) :
      hasQuote (replace old new gs) = hasQuote gs :=
    hasQuote_substitute nonempty plainOld plainNew 0 gs
  unfold normalize absBars
  rw [replaced _ _ (by decide) (by decide) (by decide),
    replaced _ _ (by decide) (by decide) (by decide),
    hasQuote_pairBars, replaced _ _ (by decide) (by decide) (by decide),
    replaced _ _ (by decide) (by decide) (by decide), hasQuote_spell]

end Glyph

end EscapeTime
