import EscapeTime.Proofs.Formula.Literal
import EscapeTime.Proofs.Shader.CallSites
import EscapeTime.Proofs.Shader.Library

/-!
# Helpers of a formula

The code of a formula without raw code calls exactly the helpers that the templates of its nodes
name: the text around a slot keeps what fills it apart.
-/

namespace EscapeTime

open Shader

/-! ### Filled templates -/

namespace Template

/-- The text after each slot keeps the code in the slot apart from what follows. -/
structure Separates (tail : List (List Char)) : Prop where
  opens : ∀ segment ∈ tail, Opens segment
  closes : ∀ segment ∈ tail, Closes segment
  between : [] ∉ tail.dropLast

instance (tail : List (List Char)) : Decidable (Separates tail) :=
  decidable_of_iff ((∀ segment ∈ tail, Opens segment) ∧ (∀ segment ∈ tail, Closes segment) ∧
    ∀ segment ∈ tail.dropLast, segment ≠ [])
    ⟨fun all => ⟨all.1, all.2.1, fun mem => all.2.2 [] mem rfl⟩,
      fun s => ⟨s.opens, s.closes, fun _ mem same => s.between (same ▸ mem)⟩⟩

variable {name : List Char}

theorem calls_weave {tail : List (List Char)} {args : List String} (separates : Separates tail)
    (enough : tail.length ≤ args.length) :
    Calls (weave tail args).toList name ↔
      (∃ segment ∈ tail, Calls segment name) ∨
      ∃ arg ∈ args.take tail.length, Calls arg.toList name := by
  induction tail generalizing args with
  | nil =>
    have empty : (weave [] args).toList = [] := rfl
    rw [empty]
    simpa using @quiet_of_not_mem [] List.not_mem_nil name
  | cons segment tail ih =>
    cases args with
    | nil => simp at enough
    | cons arg args =>
      have opens := separates.opens segment List.mem_cons_self
      have closes := separates.closes segment List.mem_cons_self
      have rest : Separates tail := by
        refine ⟨fun s mem => separates.opens s (List.mem_cons_of_mem _ mem),
          fun s mem => separates.closes s (List.mem_cons_of_mem _ mem), fun mem => ?_⟩
        cases tail with
        | nil => cases mem
        | cons s tail => exact separates.between (List.mem_cons_of_mem _ mem)
      -- Only the last segment may be empty, and nothing follows it.
      have apart : Opens (segment ++ (weave tail args).toList) := by
        cases segment with
        | nil =>
          cases tail with
          | nil => exact opens
          | cons s tail => exact absurd List.mem_cons_self separates.between
        | cons c cs => exact opens
      have spelled : (weave (segment :: tail) (arg :: args)).toList =
          arg.toList ++ (segment ++ (weave tail args).toList) := by
        simp [weave]
      rw [spelled, calls_append (.inr apart), calls_append (.inl closes),
        ih rest (by simpa using enough)]
      simp only [List.exists_mem_cons_iff, List.length_cons, List.take_succ_cons]
      constructor
      · rintro (call | call | call | call)
        · exact .inr (.inl call)
        · exact .inl (.inl call)
        · exact .inl (.inr call)
        · exact .inr (.inr call)
      · rintro ((call | call) | (call | call))
        · exact .inr (.inl call)
        · exact .inr (.inr (.inl call))
        · exact .inl call
        · exact .inr (.inr (.inr call))

/-- The text of the template, with a mark for each slot. -/
def chars (t : Template) : List Char :=
  t.lead ++ t.tail.flatMap ('#' :: ·)

theorem toList_pattern (t : Template) : t.pattern.toList = t.chars :=
  String.toList_ofList

theorem calls_pattern (t : Template) :
    Calls t.pattern.toList name ↔ Calls t.lead name ∨ ∃ segment ∈ t.tail, Calls segment name := by
  have slot : ∀ tail : List (List Char), Opens (tail.flatMap ('#' :: ·)) := by
    intro tail
    cases tail with
    | nil => decide
    | cons s tail =>
      rintro c ⟨⟩
      decide
  have tails : ∀ tail : List (List Char),
      Calls (tail.flatMap ('#' :: ·)) name ↔ ∃ segment ∈ tail, Calls segment name := by
    intro tail
    induction tail with
    | nil => simpa using @quiet_of_not_mem [] List.not_mem_nil name
    | cons segment tail ih =>
      have spelled : (segment :: tail).flatMap ('#' :: ·) =
          ['#'] ++ (segment ++ tail.flatMap ('#' :: ·)) := by simp
      have quiet : ¬ Calls ['#'] name := quiet_of_not_mem (by decide) name
      rw [spelled, calls_append (.inl (by decide)), calls_append (.inr (slot tail)), ih,
        List.exists_mem_cons_iff, or_iff_right quiet]
  rw [toList_pattern, chars, calls_append (.inr (slot t.tail)), tails]

end Template

/-- The template keeps the code in its slots apart from its own text, which holds no blank and names
helpers of the library only. -/
structure Template.Tidy (t : Template) : Prop where
  closes : Closes t.lead
  separates : Separates t.tail
  noBlank : ' ' ∉ t.chars
  known : ∀ name ∈ helperCalls 0 t.chars, ∃ f ∈ helperDefinitions, f.name.toList = name

instance (t : Template) : Decidable t.Tidy :=
  decidable_of_iff (Closes t.lead ∧ Template.Separates t.tail ∧ ' ' ∉ t.chars ∧
    ∀ name ∈ helperCalls 0 t.chars, ∃ f ∈ helperDefinitions, f.name.toList = name)
    ⟨fun all => ⟨all.1, all.2.1, all.2.2.1, all.2.2.2⟩,
      fun tidy => ⟨tidy.closes, tidy.separates, tidy.noBlank, tidy.known⟩⟩

theorem Operator.template_tidy {op : Operator} {complexInput : Bool} {form : Form}
    (known : op.descriptor.form complexInput = some form) : form.template.Tidy := by
  cases op <;> cases complexInput <;> cases known <;> decide +kernel

theorem Builtin.template_tidy {fn : Builtin} {complexInput : Bool} {form : Form}
    (known : fn.descriptor.form complexInput = some form) : form.template.Tidy := by
  cases fn <;> cases complexInput <;> cases known <;> decide +kernel

namespace Node

/-- The template is the one that is filled for some node of the tree whose code is written. What
stands under `im` of a real value is not written. -/
inductive Selects : Node → Template → Prop
  | operator {c : Int} {t : ValueType} {op : Operator} {lhs rhs : Node} {form : Form} :
    op.descriptor.form (t ≠ .real) = some form →
      Selects (.binary c t op lhs rhs) form.template
  | left {c : Int} {t : ValueType} {op : Operator} {lhs rhs : Node} {template : Template} :
    Selects lhs template → Selects (.binary c t op lhs rhs) template
  | right {c : Int} {t : ValueType} {op : Operator} {lhs rhs : Node} {template : Template} :
    Selects rhs template → Selects (.binary c t op lhs rhs) template
  | function {c : Int} {t : ValueType} {complexInput : Bool} {fn : Builtin} {args : List Node}
      {form : Form} :
    fn.descriptor.form complexInput = some form →
      Selects (.call c t complexInput fn args) form.template
  | argument {c : Int} {t : ValueType} {complexInput : Bool} {fn : Builtin} {args : List Node}
      {arg : Node} {template : Template} :
    ¬ (fn = .im ∧ complexInput = false) → arg ∈ args → Selects arg template →
      Selects (.call c t complexInput fn args) template

/-- A template that is filled for the tree names the helper. -/
def Names (n : Node) (name : List Char) : Prop :=
  ∃ template, n.Selects template ∧ Calls template.pattern.toList name

variable {name : List Char}

theorem names_binary {c : Int} {t : ValueType} {op : Operator} {lhs rhs : Node} {form : Form}
    (known : op.descriptor.form (t ≠ .real) = some form) :
    (Node.binary c t op lhs rhs).Names name ↔
      Calls form.template.pattern.toList name ∨ lhs.Names name ∨ rhs.Names name := by
  constructor
  · rintro ⟨template, selects, call⟩
    cases selects with
    | operator known' =>
      rw [known] at known'
      cases known'
      exact .inl call
    | left selects => exact .inr (.inl ⟨template, selects, call⟩)
    | right selects => exact .inr (.inr ⟨template, selects, call⟩)
  · rintro (call | ⟨template, selects, call⟩ | ⟨template, selects, call⟩)
    · exact ⟨_, .operator known, call⟩
    · exact ⟨template, .left selects, call⟩
    · exact ⟨template, .right selects, call⟩

theorem names_call {c : Int} {t : ValueType} {complexInput : Bool} {fn : Builtin}
    {args : List Node} {form : Form} (known : fn.descriptor.form complexInput = some form) :
    (Node.call c t complexInput fn args).Names name ↔
      Calls form.template.pattern.toList name ∨
      ¬ (fn = .im ∧ complexInput = false) ∧ ∃ arg ∈ args, arg.Names name := by
  constructor
  · rintro ⟨template, selects, call⟩
    cases selects with
    | function known' =>
      rw [known] at known'
      cases known'
      exact .inl call
    | argument written mem selects => exact .inr ⟨written, _, mem, template, selects, call⟩
  · rintro (call | ⟨written, arg, mem, template, selects, call⟩)
    · exact ⟨_, .function known, call⟩
    · exact ⟨template, .argument written mem selects, call⟩

theorem Selects.tidy {n : Node} {template : Template} (selects : n.Selects template) :
    template.Tidy := by
  induction selects with
  | operator known => exact Operator.template_tidy known
  | function known => exact Builtin.template_tidy known
  | left _ ih | right _ ih | argument _ _ _ ih => exact ih

theorem Names.known {n : Node} (named : n.Names name) :
    ∃ f ∈ helperLibrary, f.name.toList = name := by
  obtain ⟨template, selects, call⟩ := named
  rw [Template.toList_pattern, ← mem_helperCalls_iff] at call
  rw [helperLibrary_eq]
  exact selects.tidy.known name call

/-! ### The code of a tree -/

/-- The code of a form calls what its template names and what the code in its slots calls. -/
theorem calls_fill {form : Form} {args : List String} {text : String} (fits : form.Fits args.length)
    (tidy : form.template.Tidy) (filled : Form.fill (some form) args = .ok text) :
    Calls text.toList name ↔ Calls form.template.pattern.toList name ∨
      ∃ arg ∈ args.take form.template.slots, Calls arg.toList name := by
  rw [Form.fill_ok fits] at filled
  cases filled
  rw [String.toList_append, String.toList_ofList, calls_append (.inl tidy.closes),
    Template.calls_weave tidy.separates fits.slots, Template.calls_pattern, or_assoc]
  rfl

theorem IsLiteral.marks {v : Literal} (literal : IsLiteral v) :
    '(' ∉ v.code.toList ∧ ' ' ∉ v.code.toList := by
  obtain ⟨⟨-, all⟩, -⟩ := literal.code
  refine ⟨fun mem => ?_, fun mem => ?_⟩
  · exact absurd (all _ mem) (by decide)
  · exact absurd (all _ mem) (by decide)

/-- The code of a typed tree calls exactly the helpers that its templates name. -/
theorem WellTyped.calls_iff {n : Node} {text : String} (typed : n.WellTyped)
    (plain : n.hasRaw = false) (compiled : n.code = .ok text) :
    Calls text.toList name ↔ n.Names name := by
  induction typed generalizing text with
  | real literal =>
    cases compiled
    refine iff_of_false (quiet_between literal.marks.1 (by decide) (by decide) name) ?_
    rintro ⟨_, ⟨⟩, _⟩
  | imaginary literal =>
    cases compiled
    refine iff_of_false (quiet_between literal.marks.1 (by decide) (by decide) name) ?_
    rintro ⟨_, ⟨⟩, _⟩
  | @complex c t re im determined reLiteral imLiteral =>
    rw [code, if_neg determined] at compiled
    cases compiled
    have regrouped : "vec2(" ++ re.code ++ "," ++ im.code ++ ")" =
        "vec2(" ++ re.code ++ ("," ++ im.code ++ ")") := by
      simp only [String.append_assoc]
    have opens : Opens ("," ++ im.code ++ ")").toList := by
      rw [String.toList_append, String.toList_append]
      rintro c ⟨⟩
      decide
    have quiet : Quiet ("vec2(" ++ re.code ++ ("," ++ im.code ++ ")")).toList :=
      quiet_between reLiteral.marks.1 (by decide)
        ⟨opens, quiet_between imLiteral.marks.1 (by decide) (by decide)⟩
    rw [regrouped]
    refine iff_of_false (quiet name) ?_
    rintro ⟨_, ⟨⟩, _⟩
  | z =>
    cases compiled
    refine iff_of_false (quiet_of_not_mem (by decide) name) ?_
    rintro ⟨_, ⟨⟩, _⟩
  | raw => cases plain
  | @binary c t op lhs rhs form determined known left right ihl ihr =>
    rw [hasRaw, Bool.or_eq_false_iff] at plain
    obtain ⟨l, leftCode⟩ := left.code_ok
    obtain ⟨r, rightCode⟩ := right.code_ok
    rw [code_binary determined leftCode rightCode, known] at compiled
    rw [calls_fill (Operator.form_fits known) (Operator.template_tidy known) compiled,
      Operator.slots_eq known, names_binary known, ← ihl plain.1 leftCode, ← ihr plain.2 rightCode]
    simp
  | @call c t complexInput fn args form determined known arity each ih =>
    rw [hasRaw, anyRaw_eq_any, List.any_eq_false] at plain
    obtain ⟨codes, all⟩ := exists_forall₂ fun a mem => (each a mem).code_ok
    rw [code_call determined all, known] at compiled
    have fits := Builtin.form_fits known
    rw [← arity, all.length_eq] at fits
    rw [calls_fill fits (Builtin.template_tidy known) compiled, Builtin.slots_eq known,
      names_call known]
    refine or_congr_right ?_
    by_cases unwritten : fn = .im ∧ complexInput = false
    · obtain ⟨rfl, rfl⟩ := unwritten
      simp
    · have slots : (if complexInput || fn ≠ .im then fn.descriptor.arity else 0) =
          codes.length := by
        rw [if_pos, ← arity, all.length_eq]
        cases complexInput <;> simp_all
      rw [slots, List.take_length, and_iff_right unwritten]
      constructor
      · rintro ⟨text, mem, call⟩
        obtain ⟨a, found, compiled⟩ := exists_of_mem all mem
        exact ⟨a, found, (ih a found (Bool.eq_false_iff.mpr (plain a found)) compiled).1 call⟩
      · rintro ⟨a, found, named⟩
        obtain ⟨text, mem, compiled⟩ := exists_of_mem (List.Forall₂.flip all) found
        exact ⟨text, mem, (ih a found (Bool.eq_false_iff.mpr (plain a found)) compiled).2 named⟩

/-! ### Blanks -/

theorem mem_weave {c : Char} {tail : List (List Char)} {args : List String}
    (mem : c ∈ (Template.weave tail args).toList) :
    (∃ segment ∈ tail, c ∈ segment) ∨ ∃ arg ∈ args, c ∈ arg.toList := by
  induction tail generalizing args with
  | nil => cases mem
  | cons segment tail ih =>
    cases args with
    | nil => cases mem
    | cons arg args =>
      simp only [Template.weave, String.toList_append, String.toList_ofList, List.mem_append] at mem
      rcases mem with (mem | mem) | mem
      · exact .inr ⟨arg, List.mem_cons_self, mem⟩
      · exact .inl ⟨segment, List.mem_cons_self, mem⟩
      · rcases ih mem with ⟨s, found, mem⟩ | ⟨a, found, mem⟩
        · exact .inl ⟨s, List.mem_cons_of_mem _ found, mem⟩
        · exact .inr ⟨a, List.mem_cons_of_mem _ found, mem⟩

theorem noBlank_fill {form : Form} {args : List String} {text : String}
    (fits : form.Fits args.length) (tidy : form.template.Tidy)
    (filled : Form.fill (some form) args = .ok text) (each : ∀ arg ∈ args, ' ' ∉ arg.toList) :
    ' ' ∉ text.toList := by
  have noBlank := tidy.noBlank
  rw [Template.chars, List.mem_append, not_or, List.mem_flatMap] at noBlank
  rw [Form.fill_ok fits] at filled
  cases filled
  rw [String.toList_append, String.toList_ofList, List.mem_append]
  rintro (mem | mem)
  · exact noBlank.1 mem
  · rcases mem_weave mem with ⟨segment, found, mem⟩ | ⟨arg, found, mem⟩
    · exact noBlank.2 ⟨segment, found, List.mem_cons_of_mem _ mem⟩
    · exact each arg found mem

theorem WellTyped.noBlank {n : Node} {text : String} (typed : n.WellTyped)
    (plain : n.hasRaw = false) (compiled : n.code = .ok text) : ' ' ∉ text.toList := by
  induction typed generalizing text with
  | real literal | imaginary literal =>
    cases compiled
    simp [literal.marks.2]
  | complex determined re im =>
    rw [code, if_neg determined] at compiled
    cases compiled
    simp [re.marks.2, im.marks.2]
  | z =>
    cases compiled
    decide
  | raw => cases plain
  | @binary c t op lhs rhs form determined known left right ihl ihr =>
    rw [hasRaw, Bool.or_eq_false_iff] at plain
    obtain ⟨l, leftCode⟩ := left.code_ok
    obtain ⟨r, rightCode⟩ := right.code_ok
    rw [code_binary determined leftCode rightCode, known] at compiled
    refine noBlank_fill (Operator.form_fits known) (Operator.template_tidy known) compiled ?_
    simp [ihl plain.1 leftCode, ihr plain.2 rightCode]
  | @call c t complexInput fn args form determined known arity each ih =>
    rw [hasRaw, anyRaw_eq_any, List.any_eq_false] at plain
    obtain ⟨codes, all⟩ := exists_forall₂ fun a mem => (each a mem).code_ok
    rw [code_call determined all, known] at compiled
    have fits := Builtin.form_fits known
    rw [← arity, all.length_eq] at fits
    refine noBlank_fill fits (Builtin.template_tidy known) compiled fun text mem blank => ?_
    obtain ⟨a, found, compiled⟩ := exists_of_mem all mem
    exact ih a found (Bool.eq_false_iff.mpr (plain a found)) compiled blank

end Node

end EscapeTime
