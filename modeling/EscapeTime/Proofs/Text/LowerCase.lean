import EscapeTime.Proofs.Text.Utf8
import EscapeTime.Text.Blank
import EscapeTime.Text.LowerCase

/-!
# Letter case

Lower case has no white space and no upper-case letters: `lowerCase` leaves what it makes alone, and
makes no blank of anything else.
-/

namespace EscapeTime.Text

theorem toLower_cases (c : Char) :
    c.toLower = c ∨ 0x41 ≤ c.toNat ∧ c.toNat ≤ 0x5a ∧ c.toLower.toNat = c.toNat + 0x20 := by
  unfold Char.toLower
  split
  · rename_i upper
    have first : 0x41 ≤ c.val.toNat := upper.1
    have last : c.val.toNat ≤ 0x5a := upper.2
    refine .inr ⟨first, last, ?_⟩
    show (c.val + ('a'.val - 'A'.val)).toNat = c.val.toNat + 0x20
    rw [UInt32.toNat_add, show ('a'.val - 'A'.val).toNat = 32 from rfl]
    omega
  · exact .inl rfl

theorem isBlank_eq_false {c : Char} (first : 0x21 ≤ c.toNat) (last : c.toNat ≤ 0x7e) :
    isBlank c = false := by
  simp only [isBlank, Bool.or_eq_false_iff, Bool.and_eq_false_iff, decide_eq_false_iff_not,
    beq_eq_false_iff_ne]
  omega

/-! ### The table -/

namespace CaseRange

/-- The least code point that a character of the range is mapped to. -/
def low (r : CaseRange) : Nat := (r.first + r.shift).toNat

def high (r : CaseRange) : Nat := (r.last + r.shift).toNat

/-- No character of `r` is mapped into `s`. Where the two overlap, every second character is in
`s`, and the other ones are mapped to. -/
def avoids (r s : CaseRange) : Bool :=
  Nat.blt r.high s.first || Nat.blt s.last r.low ||
    (Nat.beq s.step 2 && Nat.beq ((r.low + s.first) % 2) 1 &&
      (Nat.beq r.step 2 || Nat.beq r.first r.last))

theorem covers_iff {r : CaseRange} {n : Nat} :
    r.covers n = true ↔ r.first ≤ n ∧ n ≤ r.last ∧ (n - r.first) % r.step = 0 := by
  simp only [covers, Bool.and_eq_true, decide_eq_true_eq, beq_iff_eq, and_assoc]

end CaseRange

/-- No character is mapped to an upper-case letter of ASCII or below, nor to white space, nor to a
surrogate. -/
def unmapped : List (Int × Int) :=
  [(0, 0x5a), (0x85, 0x85), (0xa0, 0xa0), (0x1680, 0x1680), (0x2000, 0x205f), (0x3000, 0x3000),
    (0xd800, 0xdfff)]

theorem caseRanges_unmapped :
    ∀ r ∈ caseRanges, 0 < r.first + r.shift ∧ r.last + r.shift < 0x110000 ∧
      ∀ gap ∈ unmapped, r.last + r.shift < gap.1 ∨ gap.2 < r.first + r.shift := by
  decide +kernel

theorem caseRanges_avoid :
    (caseRanges.all fun r => caseRanges.all fun s => r.avoids s) = true := by
  decide +kernel

theorem CaseRange.covers_image {r s : CaseRange} {n : Nat} (member : r ∈ caseRanges)
    (member' : s ∈ caseRanges) (covered : r.covers n = true) :
    s.covers (n + r.shift).toNat = false := by
  have apart := List.all_eq_true.mp (List.all_eq_true.mp caseRanges_avoid r member) s member'
  obtain ⟨positive, -, -⟩ := caseRanges_unmapped r member
  obtain ⟨first, last, step⟩ := covers_iff.1 covered
  rw [← Bool.not_eq_true, covers_iff]
  rintro ⟨first', last', step'⟩
  unfold avoids low high at apart
  simp only [Bool.or_eq_true, Bool.and_eq_true, Nat.blt_eq, Nat.beq_eq] at apart
  rcases apart with (above | below) | ⟨⟨two, odd⟩, single⟩
  · omega
  · omega
  · rw [two] at step'
    rcases single with even | alone
    · rw [even] at step
      omega
    · omega

/-! ### Characters -/

theorem lowerCase_cases (c : Char) :
    lowerCase c = c ∨
      (0x41 ≤ c.toNat ∧ c.toNat ≤ 0x5a ∧ (lowerCase c).toNat = c.toNat + 0x20) ∨
      ∃ r ∈ caseRanges, r.covers c.toNat = true ∧
        (lowerCase c).toNat = (c.toNat + r.shift).toNat := by
  unfold lowerCase
  split
  · exact (toLower_cases c).imp_right .inl
  · split
    · rename_i r found
      have member := List.mem_of_find?_eq_some found
      have covered := List.find?_some found
      refine .inr (.inr ⟨r, member, covered, toNat_ofNat ?_⟩)
      obtain ⟨first, last, -⟩ := CaseRange.covers_iff.1 covered
      obtain ⟨positive, bounded, gaps⟩ := caseRanges_unmapped r member
      have surrogates := gaps (0xd800, 0xdfff) (by decide)
      rw [Nat.isValidChar]
      omega
    · exact .inl rfl

theorem mapped_bounds {r : CaseRange} {n : Nat} (member : r ∈ caseRanges)
    (covered : r.covers n = true) :
    ∀ gap ∈ unmapped, ¬ (gap.1 ≤ (n + r.shift).toNat ∧ ((n + r.shift).toNat : Int) ≤ gap.2) := by
  obtain ⟨first, last, -⟩ := CaseRange.covers_iff.1 covered
  obtain ⟨positive, -, gaps⟩ := caseRanges_unmapped r member
  rintro gap there ⟨above, below⟩
  have outside := gaps gap there
  omega

theorem lowerCase_eq_self {c : Char} (letter : ¬ (0x41 ≤ c.toNat ∧ c.toNat ≤ 0x5a))
    (uncovered : 0x80 ≤ c.toNat → ∀ r ∈ caseRanges, r.covers c.toNat = false) :
    lowerCase c = c := by
  unfold lowerCase
  split
  · obtain same | ⟨first, last, -⟩ := toLower_cases c
    · exact same
    · exact absurd ⟨first, last⟩ letter
  · have none : caseRanges.find? (·.covers c.toNat) = none := by
      rw [List.find?_eq_none]
      intro r member
      rw [uncovered (by omega) r member]
      exact Bool.false_ne_true
    rw [none]

theorem lowerCase_lowerCase (c : Char) : lowerCase (lowerCase c) = lowerCase c := by
  obtain same | ⟨first, last, lower⟩ | ⟨r, member, covered, lower⟩ := lowerCase_cases c
  · rw [same, same]
  · exact lowerCase_eq_self (by omega) fun beyond => by omega
  · have outside := mapped_bounds member covered (0, 0x5a) (by decide)
    refine lowerCase_eq_self (by omega) fun _ s member' => ?_
    rw [lower]
    exact CaseRange.covers_image member member' covered

theorem isBlank_lowerCase {c : Char} (solid : isBlank c = false) :
    isBlank (lowerCase c) = false := by
  obtain same | ⟨first, last, lower⟩ | ⟨r, member, covered, lower⟩ := lowerCase_cases c
  · rw [same, solid]
  · exact isBlank_eq_false (by omega) (by omega)
  · have outside := mapped_bounds member covered
    rw [← lower] at outside
    simp only [unmapped, List.forall_mem_cons] at outside
    simp only [isBlank, Bool.or_eq_false_iff, Bool.and_eq_false_iff, decide_eq_false_iff_not,
      beq_eq_false_iff_ne]
    omega

end EscapeTime.Text
