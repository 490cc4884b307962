import EscapeTime.Number.Whole

/-!
# Words

An exact result within a word is the word. Above the greatest word it wraps to a negative one.
-/

namespace EscapeTime

theorem word_eq {n : Int} (low : 0 ≤ n) (high : n < Nat.pow 2 63) : Number.word n = n := by
  rw [Number.word]
  refine Int.bmod_eq_of_le ?_ ?_
  · have : (0 : Int) ≤ (Nat.pow 2 64 : Nat) / 2 := by decide
    omega
  · have : (((Nat.pow 2 64 : Nat) : Int) + 1) / 2 = Nat.pow 2 63 := by decide
    omega

theorem word_neg {n : Int} (low : Nat.pow 2 63 ≤ n) (high : n < Nat.pow 2 64) :
    Number.word n < 0 := by
  have large : ((Nat.pow 2 63 : Nat) : Int) = 9223372036854775808 := by decide
  have modulus : ((Nat.pow 2 64 : Nat) : Int) = 18446744073709551616 := by decide
  rw [Number.word, Int.bmod_def, modulus]
  omega

end EscapeTime
