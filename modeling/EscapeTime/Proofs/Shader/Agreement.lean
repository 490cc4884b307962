import EscapeTime.Proofs.Formula.Safety
import EscapeTime.Proofs.Shader.Denotation

/-!
# Code and value agree

The shader code of a formula denotes the value of the formula. Each form of an operator or function
is checked once against the language: its template, filled with texts that denote its arguments,
denotes its meaning at those arguments.
-/

namespace EscapeTime

/-! ### Templates -/

namespace Template

/-- The pattern with texts in the places of its slots. -/
def splice : List Char → List (List Char) → List Char
  | [], _ => []
  | c :: pattern, args =>
    if c = '#' then
      match args with
      | [] => []
      | arg :: args => arg ++ splice pattern args
    else c :: splice pattern args

theorem splice_append {text : List Char} (plain : '#' ∉ text) (pattern : List Char)
    (args : List (List Char)) : splice (text ++ pattern) args = text ++ splice pattern args := by
  induction text with
  | nil => rfl
  | cons c text ih =>
    have other : c ≠ '#' := fun same => plain (same ▸ List.mem_cons_self)
    have rest := ih fun member => plain (List.mem_cons_of_mem c member)
    simp [splice, other, rest]

theorem toList_weave (pattern : List Char) (args : List String)
    (enough : (ofChars pattern).slots ≤ args.length) :
    (ofChars pattern).lead ++ (weave (ofChars pattern).tail args).toList =
      splice pattern (args.map String.toList) := by
  induction pattern generalizing args with
  | nil => rfl
  | cons c pattern ih =>
    by_cases slot : c = '#'
    · cases args with
      | nil => simp [ofChars, slot, slots] at enough
      | cons arg args =>
        have rest := ih args (by simpa [ofChars, slot, slots] using enough)
        simp [ofChars, slot, splice, weave, ← rest]
    · have rest := ih args (by simpa [ofChars, slot, slots] using enough)
      simp [ofChars, slot, splice, ← rest]

end Template

theorem Form.fill_ofPattern {pattern : String} {meaning : Meaning} {args : List String}
    (fits : (Form.mk (.ofPattern pattern) meaning).Fits args.length) :
    ∃ text, Form.fill (some ⟨.ofPattern pattern, meaning⟩) args = .ok text ∧
      text.toList = Template.splice pattern.toList (args.map String.toList) := by
  rw [Form.fill_ok fits]
  refine ⟨_, rfl, ?_⟩
  rw [String.toList_append, String.toList_ofList]
  exact Template.toList_weave pattern.toList args fits.slots

namespace Shader

/-! ### Forms -/

/-- Filled with texts that denote points, the template denotes the meaning at these points. -/
def Agrees (form : Form) : Prop :=
  ∀ (texts : List String) (points : List (Point → Point)), form.Fits texts.length →
    List.Forall₂ (fun text p => PointOf text.toList p) texts points →
    ∃ text p, Form.fill (some form) texts = .ok text ∧ Form.compose (some form) points = .ok p ∧
      PointOf text.toList p

theorem agrees_unary {pattern : String} {f : Point → Point}
    (denotes : ∀ text p, PointOf text p →
      PointOf (Template.splice pattern.toList [text]) fun z => f (p z)) :
    Agrees ⟨.ofPattern pattern, .unary f⟩ := by
  intro texts points fits all
  obtain ⟨text, filled, spelled⟩ := Form.fill_ofPattern fits
  have arity := fits.meaning
  match texts, points, all with
  | [a], [p], .cons first .nil =>
    refine ⟨text, fun z => f (p z), filled, rfl, ?_⟩
    rw [spelled]
    exact denotes _ p first

theorem agrees_binary {pattern : String} {f : Point → Point → Point}
    (denotes : ∀ s t p q, PointOf s p → PointOf t q →
      PointOf (Template.splice pattern.toList [s, t]) fun z => f (p z) (q z)) :
    Agrees ⟨.ofPattern pattern, .binary f⟩ := by
  intro texts points fits all
  obtain ⟨text, filled, spelled⟩ := Form.fill_ofPattern fits
  have arity := fits.meaning
  match texts, points, all with
  | [s, t], [p, q], .cons first (.cons second .nil) =>
    refine ⟨text, fun z => f (p z) (q z), filled, rfl, ?_⟩
    rw [spelled]
    exact denotes _ _ p q first second

theorem agrees_ternary {pattern : String} {f : Point → Point → Point → Point}
    (denotes : ∀ s t u p q r, PointOf s p → PointOf t q → PointOf u r →
      PointOf (Template.splice pattern.toList [s, t, u]) fun z => f (p z) (q z) (r z)) :
    Agrees ⟨.ofPattern pattern, .ternary f⟩ := by
  intro texts points fits all
  obtain ⟨text, filled, spelled⟩ := Form.fill_ofPattern fits
  have arity := fits.meaning
  match texts, points, all with
  | [s, t, u], [p, q, r], .cons first (.cons second (.cons third .nil)) =>
    refine ⟨text, fun z => f (p z) (q z) (r z), filled, rfl, ?_⟩
    rw [spelled]
    exact denotes _ _ _ p q r first second third

/-! ### Templates of one shape -/

theorem plain_of_isWord {word : List Char} (isWord : IsWord word) : '#' ∉ word := by
  intro member
  have isChar := List.all_eq_true.mp isWord.2 '#' member
  cases isChar

/-- The template `f(#)`. -/
theorem agrees_call (word : String) {pattern : String} {f : Point → Point}
    (spelled : pattern.toList = word.toList ++ ['(', '#', ')']) (isWord : IsWord word.toList)
    (known : ∀ p, callValue? word [.vector p] = some (.vector (f p))) :
    Agrees ⟨.ofPattern pattern, .unary f⟩ := by
  refine agrees_unary fun text p point => ?_
  rw [spelled, Template.splice_append (plain_of_isWord isWord)]
  exact point.chain.one.call isWord fun z => known (p z)

theorem agrees_call₂ (word : String) {pattern : String} {f : Point → Point → Point}
    (spelled : pattern.toList = word.toList ++ ['(', '#', ',', '#', ')'])
    (isWord : IsWord word.toList)
    (known : ∀ p q, callValue? word [.vector p, .vector q] = some (.vector (f p q))) :
    Agrees ⟨.ofPattern pattern, .binary f⟩ := by
  refine agrees_binary fun s t p q first second => ?_
  rw [spelled, Template.splice_append (plain_of_isWord isWord)]
  have called := (first.chain.cons second.chain.one).call isWord fun z => known (p z) (q z)
  simpa [Template.splice] using called

/-- The template `vec2(f((#).x),0.)`. -/
theorem agrees_scalar (word : String) {pattern : String} {f : Single → Single}
    (spelled : pattern.toList = "vec2(".toList ++ (word.toList ++ "((#).x),0.)".toList))
    (isWord : IsWord word.toList)
    (known : ∀ a, callValue? word [.scalar a] = some (.scalar (f a))) :
    Agrees ⟨.ofPattern pattern, .ofReal f⟩ := by
  refine agrees_unary fun text p point => ?_
  have called := (point.select .x).chain.one.call isWord fun z => known (p z).x
  have spliced : Template.splice "((#).x),0.)".toList [text] =
      '(' :: '(' :: (text ++ [')', '.', 'x', ')', ',', '0', '.', ')']) := rfl
  rw [spelled, Template.splice_append (by decide),
    Template.splice_append (plain_of_isWord isWord), spliced]
  simpa [Coordinate.letter] using pointOf_real called.chain

theorem agrees_scalar₂ (word : String) {pattern : String} {f : Single → Single → Single}
    (spelled : pattern.toList = "vec2(".toList ++ (word.toList ++ "((#).x,(#).x),0.)".toList))
    (isWord : IsWord word.toList)
    (known : ∀ a b, callValue? word [.scalar a, .scalar b] = some (.scalar (f a b))) :
    Agrees ⟨.ofPattern pattern, .ofReal₂ f⟩ := by
  refine agrees_binary fun s t p q first second => ?_
  have called := ((first.select .x).chain.cons (second.select .x).chain.one).call isWord
    fun z => known (p z).x (q z).x
  have spliced : Template.splice "((#).x,(#).x),0.)".toList [s, t] =
      '(' :: '(' :: (s ++ ')' :: '.' :: 'x' :: ',' :: '(' ::
        (t ++ [')', '.', 'x', ')', ',', '0', '.', ')'])) := rfl
  rw [spelled, Template.splice_append (by decide),
    Template.splice_append (plain_of_isWord isWord), spliced]
  simpa [Coordinate.letter] using pointOf_real called.chain

/-- The template `vec2((#).x,0.)`, or the same with the other coordinate. -/
theorem agrees_select {pattern : String} (coordinate : Coordinate)
    (spelled : pattern.toList = "vec2((#).".toList ++ coordinate.letter :: ",0.)".toList) :
    Agrees ⟨.ofPattern pattern, .unary fun z => Vec2.ofReal (coordinate.of z)⟩ := by
  refine agrees_unary fun text p point => ?_
  have spliced : Template.splice pattern.toList [text] = "vec2(".toList ++ '(' ::
      (text ++ [')', '.', coordinate.letter, ',', '0', '.', ')']) := by
    rw [spelled]
    cases coordinate <;> rfl
  rw [spliced]
  simpa using pointOf_real (point.select coordinate).chain

/-- The template `(#+#)`, or the same with another operator. -/
theorem agrees_arith {tier : Tier} {c : Char} {op : Arithmetic} {pattern : String}
    {f : Point → Point → Point} (operator : tier.operator? c = some op)
    (spelled : pattern.toList = ['(', '#', c, '#', ')'])
    (each : ∀ p q, op.eval (.vector p) (.vector q) = .vector (f p q)) :
    Agrees ⟨.ofPattern pattern, .binary f⟩ := by
  refine agrees_binary fun s t p q first second => ?_
  have other : c ≠ '#' := by
    rintro rfl
    cases tier <;> cases operator
  rw [spelled]
  have point := (first.arith operator second).paren
  simp only [each] at point
  simpa [Template.splice, other] using point

/-! ### Templates of their own -/

theorem agrees_mean : Agrees ⟨.ofPattern "((#+#)/2.)", .binary Vec2.mean⟩ := by
  refine agrees_binary fun s t p q first second => ?_
  have plus : Tier.sum.operator? '+' = some .add := rfl
  have slash : Tier.product.operator? '/' = some .div := rfl
  have sum : ChainOf _ fun z => .vector (Vec2.add (p z) (q z)) := first.arith plus second
  have mean : ChainOf _ fun z => .vector (Vec2.mean (p z) (q z)) :=
    sum.paren.arith slash factorOf_two
  simpa [Template.splice] using mean.paren

theorem agrees_quotient : Agrees ⟨.ofPattern "vec2((#).x/(#).x,0.)", .ofReal₂ (· / ·)⟩ := by
  refine agrees_binary fun s t p q first second => ?_
  have slash : Tier.product.operator? '/' = some .div := rfl
  have quotient : ChainOf _ fun z => .scalar ((p z).x / (q z).x) :=
    (first.select .x).arith slash (second.select .x)
  simpa [Template.splice, Coordinate.letter] using pointOf_real quotient

theorem agrees_length :
    Agrees ⟨.ofPattern "vec2(length(#),0.)", .unary fun z => Vec2.ofReal z.length⟩ := by
  refine agrees_unary fun text p point => ?_
  have isWord : IsWord "length".toList := by decide
  have length : FactorOf _ fun z => .scalar (p z).length :=
    point.chain.one.call isWord fun _ => rfl
  simpa [Template.splice] using pointOf_real length.chain

theorem agrees_clamp : Agrees ⟨.ofPattern "vec2(clamp((#).x,(#).x,(#).x),0.)",
    .ternary fun a lo hi => Vec2.ofReal (Single.min (Single.max a.x lo.x) hi.x)⟩ := by
  refine agrees_ternary fun s t u p q r first second third => ?_
  have isWord : IsWord "clamp".toList := by decide
  have list := (first.select .x).chain.cons
    ((second.select .x).chain.cons (third.select .x).chain.one)
  have clamp : FactorOf _ fun z =>
      .scalar (Single.min (Single.max (p z).x (q z).x) (r z).x) :=
    list.call isWord fun _ => rfl
  simpa [Template.splice, Coordinate.letter] using pointOf_real clamp.chain

theorem agrees_same : Agrees ⟨.ofPattern "#", .unary id⟩ := by
  refine agrees_unary fun text p point => ?_
  simpa [Template.splice] using point

theorem agrees_zero : Agrees ⟨.ofPattern "vec2(0.,0.)", .unary fun _ => Vec2.ofReal 0⟩ :=
  agrees_unary fun _ _ _ => pointOf_real factorOf_zero.chain

/-! ### Operators and functions -/

/-- Every form of the descriptor agrees with its template. -/
structure AllAgree (d : Descriptor) : Prop where
  real : Agrees d.real
  complex : ∀ form, d.complex = some form → Agrees form

theorem AllAgree.form {d : Descriptor} (all : AllAgree d) {complexInput : Bool} {form : Form}
    (known : d.form complexInput = some form) : Agrees form := by
  cases complexInput with
  | false =>
    cases known
    exact all.real
  | true => exact all.complex form known

theorem AllAgree.of_forms {id : String} {args : List Domain} {output : ResultRule}
    {real complex : Form} (onReal : Agrees real) (onComplex : Agrees complex) :
    AllAgree ⟨id, args, output, real, some complex⟩ :=
  ⟨onReal, fun _ known => Option.some.inj known ▸ onComplex⟩

theorem AllAgree.of_real {id : String} {args : List Domain} {output : ResultRule} {real : Form}
    (onReal : Agrees real) : AllAgree ⟨id, args, output, real, none⟩ :=
  ⟨onReal, nofun⟩

theorem allAgree_operator (op : Operator) : AllAgree op.descriptor := by
  have plus : Tier.sum.operator? '+' = some .add := rfl
  have minus : Tier.sum.operator? '-' = some .sub := rfl
  have times : Tier.product.operator? '*' = some .mul := rfl
  cases op with
  | add =>
    have sum : Agrees ⟨.ofPattern "(#+#)", .binary Vec2.add⟩ :=
      agrees_arith plus rfl fun _ _ => rfl
    exact .of_forms sum sum
  | sub =>
    have difference : Agrees ⟨.ofPattern "(#-#)", .binary Vec2.sub⟩ :=
      agrees_arith minus rfl fun _ _ => rfl
    exact .of_forms difference difference
  | mul =>
    exact .of_forms (agrees_arith times rfl fun _ _ => rfl)
      (agrees_call₂ "cMul" rfl (by decide) fun _ _ => rfl)
  | div =>
    exact .of_forms agrees_quotient
      (agrees_call₂ "cDiv" rfl (by decide) fun _ _ => rfl)
  | mod =>
    exact .of_real (agrees_scalar₂ "mod" rfl (by decide) fun _ _ => rfl)
  | pow =>
    exact .of_forms (agrees_scalar₂ "pow" rfl (by decide) fun _ _ => rfl)
      (agrees_call₂ "cPow" rfl (by decide) fun _ _ => rfl)

theorem isWord_name (fn : Builtin) : IsWord fn.name.toList := by
  cases fn <;> decide

/-- A function on the real line with a helper of its own for complex arguments. -/
theorem allAgree_transcendental {fn : Builtin} {helper : String} {real : Single → Single}
    {complex : Point → Point} (isWord : IsWord helper.toList)
    (known : ∀ a, callValue? fn.name [.scalar a] = some (.scalar (real a)))
    (knownHelper : ∀ p, callValue? helper [.vector p] = some (.vector (complex p))) :
    AllAgree (Builtin.transcendental fn helper real complex) := by
  refine .of_forms (agrees_scalar fn.name ?_ (isWord_name fn) known)
    (agrees_call helper ?_ isWord knownHelper)
  · rw [String.toList_append, String.toList_append, List.append_assoc]
  · rw [String.toList_append]
    rfl

theorem allAgree_builtin (fn : Builtin) : AllAgree fn.descriptor := by
  cases fn with
  | re => exact .of_forms agrees_same (agrees_select .x rfl)
  | im => exact .of_forms agrees_zero (agrees_select .y rfl)
  | abs => exact .of_forms (agrees_scalar "abs" rfl (by decide) fun _ => rfl) agrees_length
  | sgn => exact .of_real (agrees_scalar "sign" rfl (by decide) fun _ => rfl)
  | normalize =>
    exact .of_forms (agrees_scalar "sign" rfl (by decide) fun _ => rfl)
      (agrees_call "normalize" rfl (by decide) fun _ => rfl)
  | ceil => exact .of_real (agrees_scalar "ceil" rfl (by decide) fun _ => rfl)
  | floor => exact .of_real (agrees_scalar "floor" rfl (by decide) fun _ => rfl)
  | round => exact .of_real (agrees_call "round" rfl (by decide) fun _ => rfl)
  | fract => exact .of_real (agrees_call "fract" rfl (by decide) fun _ => rfl)
  | clamp => exact .of_real agrees_clamp
  | max => exact .of_real (agrees_scalar₂ "max" rfl (by decide) fun _ _ => rfl)
  | min => exact .of_real (agrees_scalar₂ "min" rfl (by decide) fun _ _ => rfl)
  | avg => exact .of_forms agrees_mean agrees_mean
  | ln =>
    exact .of_forms (agrees_scalar "log" rfl (by decide) fun _ => rfl)
      (agrees_call "cLog" rfl (by decide) fun _ => rfl)
  | sqrt =>
    exact .of_forms (agrees_call "sqrt" rfl (by decide) fun _ => rfl)
      (agrees_call "cSqrt" rfl (by decide) fun _ => rfl)
  | exp | cos | sin | tan | cosh | sinh | tanh | acos | asin | atan | acosh | asinh | atanh =>
    exact allAgree_transcendental (by decide) (fun _ => rfl) fun _ => rfl

/-! ### Trees -/

/-- A typed tree without raw code has code that denotes its value. -/
theorem code_denotes_value {n : Node} (typed : n.WellTyped) (plain : n.hasRaw = false) :
    ∃ text next, n.code = .ok text ∧ n.value = .ok next ∧ PointOf text.toList next := by
  have literal {v : Literal} (isLiteral : Node.IsLiteral v) :
      FactorOf v.code.toList fun _ => .scalar v.value := by
    obtain ⟨isNumeral, value⟩ := isLiteral.code
    rw [← value]
    exact factorOf_literal isNumeral
  induction typed with
  | real isLiteral =>
    refine ⟨_, _, rfl, rfl, ?_⟩
    simpa using pointOf_real (literal isLiteral).chain
  | imaginary isLiteral =>
    refine ⟨_, _, rfl, rfl, ?_⟩
    simpa using pointOf_vec2 factorOf_zero.chain (literal isLiteral).chain
  | complex determined isRe isIm =>
    refine ⟨_, _, by rw [Node.code, if_neg determined], rfl, ?_⟩
    simpa using pointOf_vec2 (literal isRe).chain (literal isIm).chain
  | z => exact ⟨_, _, rfl, rfl, pointOf_z⟩
  | raw => cases plain
  | @binary c t op lhs rhs form determined known _ _ ihl ihr =>
    rw [Node.hasRaw, Bool.or_eq_false_iff] at plain
    obtain ⟨l, p, leftCode, leftValue, left⟩ := ihl plain.1
    obtain ⟨r, q, rightCode, rightValue, right⟩ := ihr plain.2
    obtain ⟨text, next, filled, composed, point⟩ :=
      (allAgree_operator op).form known [l, r] [p, q] (Operator.form_fits known)
        (.cons left (.cons right .nil))
    exact ⟨text, next, by rw [Node.code_binary determined leftCode rightCode, known, filled],
      by rw [Node.value_binary leftValue rightValue, known, composed], point⟩
  | @call c t complexInput fn args form determined known arity _ ih =>
    rw [Node.hasRaw, Node.anyRaw_eq_any, List.any_eq_false] at plain
    choose! text next code value point using fun a member =>
      ih a member (Bool.eq_false_iff.mpr (plain a member))
    have codes : List.Forall₂ (fun a text => a.code = .ok text) args (args.map text) := by
      rwa [List.forall₂_map_right_iff, List.forall₂_same]
    have values : List.Forall₂ (fun a p => a.value = .ok p) args (args.map next) := by
      rwa [List.forall₂_map_right_iff, List.forall₂_same]
    have points : List.Forall₂ (fun text p => PointOf text.toList p) (args.map text)
        (args.map next) := by
      rwa [List.forall₂_map_left_iff, List.forall₂_map_right_iff, List.forall₂_same]
    have fits : form.Fits (args.map text).length := by
      rw [List.length_map, arity]
      exact Builtin.form_fits known
    obtain ⟨whole, p, filled, composed, denoted⟩ :=
      (allAgree_builtin fn).form known _ _ fits points
    exact ⟨whole, p, by rw [Node.code_call determined codes, known, filled],
      by rw [Node.value_call values, known, composed], denoted⟩

end Shader

/-- The shader code of a formula without raw code is read as an expression whose value at every `z`
is that of the formula. -/
theorem Formula.code_reads_as_value (source : String) (f : Formula)
    (parsed : Formula.parse source = .ok f) (plain : f.containsRawCode = false) :
    ∃ text e next, f.code = .ok text ∧ Shader.read text = some e ∧ f.root.value = .ok next ∧
      ∀ z, e.eval z = some (.vector (next z)) := by
  obtain ⟨typed, -⟩ := root_wellTyped parsed
  obtain ⟨text, next, code, value, e, isFactor, denoted⟩ := Shader.code_denotes_value typed plain
  exact ⟨text, e, next, code, isFactor.read, value, denoted⟩

/-- A power of complex numbers, less a quotient of real ones. -/
def Formula.sinSquared : Formula where
  source := "sin(z)^2-|z|/2"
  root := .binary 8 .complex .sub
    (.binary 6 .complex .pow (.call 0 .complex true .sin [.z 4]) (.ofReal 7 "2"))
    (.binary 12 .real .div (.call 9 .real true .abs [.z 10]) (.ofReal 13 "2"))

theorem Formula.sinSquared_code_reads :
    Formula.parse "sin(z)^2-|z|/2" = .ok sinSquared ∧ sinSquared.containsRawCode = false ∧
      ∃ text e next, sinSquared.code = .ok text ∧ Shader.read text = some e ∧
        sinSquared.root.value = .ok next ∧ ∀ z, e.eval z = some (.vector (next z)) := by
  have lexed : tokenize "sin(z)^2-|z|/2".toList = .ok
      [⟨.function, 0, "sin", false⟩, ⟨.parenOpen, 3, "", false⟩, ⟨.z, 4, "", false⟩,
        ⟨.parenClose, 5, "", false⟩, ⟨.op, 6, "^", false⟩, ⟨.number, 7, "2", false⟩,
        ⟨.op, 8, "-", false⟩, ⟨.function, 9, "abs", false⟩, ⟨.parenOpen, 9, "", false⟩,
        ⟨.z, 10, "", false⟩, ⟨.parenClose, 11, "", false⟩, ⟨.op, 12, "/", false⟩,
        ⟨.number, 13, "2", false⟩] := by
    decide +kernel
  have parsed : Formula.parse "sin(z)^2-|z|/2" = .ok sinSquared := by
    rw [Formula.parse, lexed]
    rfl
  exact ⟨parsed, rfl, Formula.code_reads_as_value _ _ parsed rfl⟩

end EscapeTime
