import EscapeTime.Proofs.Number.Whole
import EscapeTime.Proofs.Shader.FloatLiteral
import EscapeTime.Proofs.Shader.HelperScan
import EscapeTime.Proofs.Shader.Writing

/-!
# The numbers of a program

What stands for the loop bound, the squared escape radius, the denominator of the progress and the
work group size in a written program, after any settings of its generator. The bound always counts.
`program_numbers` says exactly when each of the others can be used.
-/

namespace EscapeTime.Shader

/-- The text is the decimal numeral of a positive whole number. -/
def IsCount (text : String) : Prop :=
  ∃ n : Nat, 0 < n ∧ text = toString n

theorem isCount_toString {n : Int} (nonneg : 0 ≤ n) : IsCount (toString n) ↔ 1 ≤ n := by
  obtain ⟨m, rfl⟩ := Int.eq_ofNat_of_zero_le nonneg
  show IsCount (toString m) ↔ _
  constructor
  · rintro ⟨k, pos, same⟩
    have digits := congrArg String.toList same
    rw [Nat.toString_eq_ofList_toDigits, Nat.toString_eq_ofList_toDigits, String.toList_ofList,
      String.toList_ofList] at digits
    have : m = k := by
      rw [← @Nat.ofDigitChars_ten_toDigits m, digits, Nat.ofDigitChars_ten_toDigits]
    omega
  · intro pos
    exact ⟨m, by omega, rfl⟩

/-! ### Settings -/

inductive Setting where
  | iterations (n : Int64)
  | radius2 (x : Single)
  | invocations (x y z : Int64)
  | functions (fs : List Function)

namespace Setting

/-- The generator after the change. A work group size that is refused changes nothing. -/
def apply (p : Generator) : Setting → Generator
  | iterations n => { p with iterations := n.toInt }
  | radius2 x => { p with radius2 := x }
  | invocations x y z => (p.setInvocations x.toInt y.toInt z.toInt).toOption.getD p
  | functions fs => (p.addFunctions fs).1

/-- The change is to a work group size that is not refused. -/
def Resizes : Setting → Prop
  | invocations x y z => 1 ≤ x.toInt ∧ y.toInt = 1 ∧ z.toInt = 1
  | _ => False

end Setting

namespace Generator

def after (p : Generator) (settings : List Setting) : Generator :=
  settings.foldl Setting.apply p

theorem addFunctions_eq (p : Generator) (fs : List Function) :
    ∃ library, (p.addFunctions fs).1 = { p with library } := by
  induction fs generalizing p with
  | nil => exact ⟨p.library, rfl⟩
  | cons f fs ih =>
    rw [addFunctions]
    split
    · exact ⟨p.library, rfl⟩
    · split
      · exact ⟨p.library, rfl⟩
      · exact ih _

/-- What the parameters of a generator satisfy after any settings. -/
structure InWords (p : Generator) : Prop where
  iterations : p.iterations < 2 ^ 63
  invocations : 0 ≤ p.invocations

variable {p : Generator}

theorem InWords.apply (words : p.InWords) (s : Setting) :
    (s.apply p).InWords ∧ (1 ≤ (s.apply p).invocations ↔ 1 ≤ p.invocations ∨ s.Resizes) := by
  obtain ⟨iterations, invocations⟩ := words
  cases s with
  | iterations n =>
    exact ⟨⟨n.toInt_lt, invocations⟩, (or_iff_left id).symm⟩
  | radius2 x => exact ⟨⟨iterations, invocations⟩, (or_iff_left id).symm⟩
  | functions fs =>
    obtain ⟨library, added⟩ := p.addFunctions_eq fs
    rw [Setting.apply, added]
    exact ⟨⟨iterations, invocations⟩, (or_iff_left id).symm⟩
  | invocations x y z =>
    rw [Setting.apply, setInvocations, Setting.Resizes]
    by_cases flat : y.toInt ≠ 1 ∨ z.toInt ≠ 1
    · rw [if_pos flat]
      exact ⟨⟨iterations, invocations⟩, by simp [Except.toOption]; omega⟩
    · rw [if_neg flat]
      by_cases small : x.toInt < 1
      · rw [if_pos small]
        exact ⟨⟨iterations, invocations⟩, by simp [Except.toOption]; omega⟩
      · rw [if_neg small]
        exact ⟨⟨iterations, by simp [Except.toOption]; omega⟩, by simp [Except.toOption]; omega⟩

theorem InWords.after (words : p.InWords) (settings : List Setting) :
    (p.after settings).InWords ∧
      (1 ≤ (p.after settings).invocations ↔ 1 ≤ p.invocations ∨ ∃ s ∈ settings, s.Resizes) := by
  induction settings generalizing p with
  | nil => exact ⟨words, by simp [Generator.after]⟩
  | cons s settings ih =>
    obtain ⟨words, resized⟩ := words.apply s
    obtain ⟨words, run⟩ := ih words
    refine ⟨words, run.trans ?_⟩
    rw [resized, List.exists_mem_cons_iff, or_assoc]

/-! ### The text around the numbers -/

/-- The loop of a program around its numbers. -/
def loopText (bound code radius denominator : String) : String :=
  codeLines [
    "\tfloat iters = 0.;",
    "\tfor (int i = 0; i < " ++ bound ++ "; i++) \x7b",
    "\t\tz = " ++ code ++ ";",
    "\t\titers += float(dot(z,z) < " ++ radius ++ ");",
    "\t\x7d",
    "\tfloat progress = log2(iters + 2.)/log2(" ++ denominator ++ ");"]

/-- The beginning of a compute program around its work group size. -/
def sizeText (size : String) : String :=
  codeLines [
    "#shader compute",
    "#version 430",
    "",
    "layout(local_size_x = " ++ size ++ ", local_size_y = 1, local_size_z = 1) in;"]

theorem computeHead_eq (p : Generator) :
    ∃ rest, p.computeHead = sizeText (toString p.invocations) ++ rest :=
  ⟨_, codeLines_append [_, _, _, _] _⟩

theorem program_eq (p : Generator) (kind : ProgramKind) (code : String) :
    p.program kind code = p.head kind ++ p.definitions ++ kind.start ++
      loopText (toString p.iterations) code (floatCode p.radius2)
        (floatCode (.ofInt (Number.word (p.iterations + 2)))) ++ kind.ending :=
  rfl

theorem isPositiveLiteral_radius (radius : ¬ p.radius2 ≤ 0) :
    IsPositiveLiteral (floatCode p.radius2) ↔ p.radius2.isNaN = false ∧ p.radius2.isInf = false ∧
      1 / (2 * 10 ^ places) < p.radius2.magnitude.value := by
  rw [isPositiveLiteral_floatCode]
  constructor
  · rintro ⟨number, finite, _, large⟩
    exact ⟨number, finite, large⟩
  · rintro ⟨number, finite, large⟩
    rw [Single.le_zero_iff] at radius
    refine ⟨number, finite, ?_, large⟩
    rw [← Bool.not_eq_true]
    exact fun negative => radius ⟨number, .inr negative⟩

theorem isPositiveLiteral_denominator (positive : 1 ≤ p.iterations) (word : p.iterations < 2 ^ 63) :
    IsPositiveLiteral (floatCode (.ofInt (Number.word (p.iterations + 2)))) ↔
      p.iterations + 2 < 2 ^ 63 := by
  have half : ((Nat.pow 2 63 : Nat) : Int) = 2 ^ 63 := by norm_num
  have whole : ((Nat.pow 2 64 : Nat) : Int) = 2 ^ 64 := by norm_num
  rw [isPositiveLiteral_floatCode, Single.isNegative_ofInt]
  by_cases fits : p.iterations + 2 < 2 ^ 63
  · rw [word_eq (by omega) (by omega)]
    obtain ⟨number, finite, large⟩ := Single.ofInt_pos (show 0 < p.iterations + 2 by omega) fits
    have small : (1 : ℚ) / (2 * 10 ^ places) < 1 := by norm_num [places]
    exact iff_of_true ⟨number, finite, decide_eq_false (by omega), small.trans_le large⟩ fits
  · -- The sum wraps to a negative word, which is written with a minus sign.
    have negative := word_neg (n := p.iterations + 2) (by omega) (by omega)
    refine iff_of_false ?_ fits
    rintro ⟨_, _, positive, _⟩
    exact absurd negative (of_decide_eq_false positive)

end Generator

/-- After any settings of a new generator, a written program counts its iterations. Its radius can
be used unless it is NaN, infinite or written as zero, its denominator unless it wrapped, and its
work group size unless it was never set. -/
theorem program_numbers (start : Generator) (new : start = .default ∨ start = .zero)
    (settings : List Setting) (kind : ProgramKind) (iterates : kind ∈ ProgramKind.iterating)
    (f : Option Formula) (text : String)
    (written : (start.after settings).write kind f = .ok text) :
    ∃ (formula : Formula) (code before bound radius denominator : String),
      f = some formula ∧ formula.code = .ok code ∧
      text = before ++ Generator.loopText bound code radius denominator ++ kind.ending ∧
      IsCount bound ∧
      (IsPositiveLiteral radius ↔
        (start.after settings).radius2.isNaN = false ∧
        (start.after settings).radius2.isInf = false ∧
        1 / (2 * 10 ^ places) < (start.after settings).radius2.magnitude.value) ∧
      (IsPositiveLiteral denominator ↔ (start.after settings).iterations + 2 < 2 ^ 63) ∧
      (kind = .compute → ∃ size rest, before = Generator.sizeText size ++ rest ∧
        (IsCount size ↔ start = .default ∨ ∃ s ∈ settings, s.Resizes)) := by
  have words : start.InWords := by
    rcases new with rfl | rfl
    · exact ⟨by decide, by decide⟩
    · exact ⟨by decide, by decide⟩
  have sized : 1 ≤ start.invocations ↔ start = .default := by
    rcases new with rfl | rfl
    · exact iff_of_true (by decide) rfl
    · refine iff_of_false (by decide) fun same => ?_
      exact absurd (congrArg Generator.iterations same) (by decide)
  obtain ⟨⟨iterations, invocations⟩, resized⟩ := words.after settings
  rw [sized] at resized
  generalize start.after settings = p at *
  obtain ⟨formula, code, rfl, positive, radius, compiled, rfl⟩ := Generator.write_ok iterates written
  refine ⟨formula, code, _, _, _, _, rfl, compiled, p.program_eq kind code,
    (isCount_toString (by omega)).2 positive, Generator.isPositiveLiteral_radius radius,
    Generator.isPositiveLiteral_denominator positive iterations, ?_⟩
  rintro rfl
  obtain ⟨rest, head⟩ := p.computeHead_eq
  refine ⟨toString p.invocations, rest ++ p.definitions ++ ProgramKind.compute.start, ?_, ?_⟩
  · show p.computeHead ++ _ ++ _ = _
    rw [head, String.append_assoc, String.append_assoc, String.append_assoc]
  · rw [isCount_toString invocations, resized]

def identity : Formula :=
  ⟨"z", .z 0⟩

theorem write_identity (p : Generator) (kind : ProgramKind)
    (iterates : kind ∈ ProgramKind.iterating) (iterations : 0 < p.iterations)
    (radius : ¬ p.radius2 ≤ 0) :
    p.write kind (some identity) = .ok (p.program kind "z") := by
  refine Generator.write_defined iterates iterations radius rfl fun name called => ?_
  rw [calledHelpers_eq, show cutHelpers "z".toList = [] by decide +kernel] at called
  exact absurd called List.not_mem_nil

/-- The settings make every number of a compute program one that can be used. -/
theorem compute_numbers :
    let settings := [.invocations 0 1 1, .iterations 7, .radius2 4, .invocations 64 1 1]
    ∃ text, (Generator.zero.after settings).write .compute (some identity) = .ok text ∧
      ∃ size rest code bound radius denominator, identity.code = .ok code ∧
        text = Generator.sizeText size ++ rest ++
          Generator.loopText bound code radius denominator ++ ProgramKind.compute.ending ∧
        IsCount size ∧ IsCount bound ∧ IsPositiveLiteral radius ∧ IsPositiveLiteral denominator := by
  intro settings
  have written := write_identity (Generator.zero.after settings) .compute (by decide) (by decide)
    (by decide +kernel)
  obtain ⟨formula, code, before, bound, radius, denominator, same, compiled, text, counts, usable,
    fits, sized⟩ := program_numbers .zero (.inr rfl) settings .compute (by decide) (some identity) _
      written
  cases same
  obtain ⟨size, rest, rfl, resized⟩ := sized rfl
  refine ⟨_, written, size, rest, code, bound, radius, denominator, compiled, text,
    resized.2 (.inr ⟨.invocations 64 1 1, by simp [settings], by decide, by decide, by decide⟩),
    counts, usable.2 ⟨by decide +kernel, by decide +kernel, ?_⟩, fits.2 (by decide)⟩
  rw [← fixedPoint_pos]
  decide +kernel

/-- Checked parameters are not enough: the radius may be NaN or written as zero, the denominator
may wrap, and the work group size of a generator without parameters is zero. -/
theorem unusable_numbers :
    (∃ before denominator,
      (Generator.default.after [.radius2 .nan]).write .webglFragment (some identity) =
        .ok (before ++ Generator.loopText "100" "z" "NaN" denominator ++
          ProgramKind.webglFragment.ending)) ∧ ¬ IsPositiveLiteral "NaN" ∧
    (∃ before denominator,
      (Generator.default.after [.radius2 ⟨1⟩]).write .webglFragment (some identity) =
        .ok (before ++ Generator.loopText "100" "z" "0." denominator ++
          ProgramKind.webglFragment.ending)) ∧ ¬ IsPositiveLiteral "0." ∧
    (∃ before bound radius,
      (Generator.default.after [.iterations Int64.maxValue]).write .webglFragment (some identity) =
        .ok (before ++ Generator.loopText bound "z" radius "-9223372036854775808." ++
          ProgramKind.webglFragment.ending)) ∧ ¬ IsPositiveLiteral "-9223372036854775808." ∧
    (∃ rest,
      (Generator.zero.after [.iterations 1, .radius2 1]).write .compute (some identity) =
        .ok (Generator.sizeText "0" ++ rest)) ∧ ¬ IsCount "0" := by
  have nan : floatCode .nan = "NaN" := by decide +kernel
  have tiny : floatCode ⟨1⟩ = "0." := by decide +kernel
  have wrapped : floatCode (.ofInt (Number.word (Int64.maxValue.toInt + 2))) =
      "-9223372036854775808." := by decide +kernel
  refine ⟨?_, ?_, ?_, ?_, ?_, ?_, ?_, ?_⟩
  · rw [write_identity _ _ (by decide) (by decide) (by decide +kernel), Generator.program_eq, ← nan]
    exact ⟨_, _, rfl⟩
  · rw [← nan, isPositiveLiteral_floatCode]
    rintro ⟨number, _⟩
    exact absurd number (by decide)
  · rw [write_identity _ _ (by decide) (by decide) (by decide +kernel), Generator.program_eq, ← tiny]
    exact ⟨_, _, rfl⟩
  · rw [← tiny, isPositiveLiteral_floatCode, ← fixedPoint_pos]
    rintro ⟨_, _, _, pos⟩
    exact absurd pos (by decide +kernel)
  · rw [write_identity _ _ (by decide) (by decide) (by decide +kernel), Generator.program_eq,
      ← wrapped]
    exact ⟨_, _, _, rfl⟩
  · rw [← wrapped, isPositiveLiteral_floatCode]
    rintro ⟨_, _, positive, _⟩
    exact absurd positive (by decide +kernel)
  · rw [write_identity _ _ (by decide) (by decide) (by decide +kernel)]
    generalize unsized : Generator.zero.after [.iterations 1, .radius2 1] = p
    obtain ⟨rest, head⟩ := p.computeHead_eq
    rw [Generator.program, Generator.head, head, ← unsized]
    simp only [String.append_assoc]
    exact ⟨_, rfl⟩
  · exact fun counts => absurd ((isCount_toString (n := 0) (by decide)).1 counts) (by decide)

end EscapeTime.Shader
