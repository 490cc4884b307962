import EscapeTime.Proofs.Formula.Safety

/-!
# Values on the real axis

Typing calls a node real when its values are to lie on the real axis. They do: their imaginary part
is a zero of either sign, in the tree of every formula and at every `z`. The one exception is
`normalize`, which has real results by its rule and leaves the axis with a complex argument.
-/

namespace EscapeTime

/-! ### Zeros -/

namespace Single

def zeros : List Single := [⟨0⟩, ⟨0x80000000⟩]

theorem mem_zeros {x : Single} (zero : x.isZero = true) : x ∈ zeros := by
  obtain ⟨bits⟩ := x
  have masked : bits &&& 0x7fffffff = 0 := eq_of_beq zero
  have magnitude : bits.toNat &&& 0x7fffffff = 0 := by
    rw [show 0x7fffffff = (0x7fffffff : UInt32).toNat from rfl, ← UInt32.toNat_and, masked]
    rfl
  have rest : bits.toNat % 0x80000000 = 0 :=
    (Nat.and_two_pow_sub_one_eq_mod bits.toNat 31).symm.trans magnitude
  have bound : bits.toNat < 0x100000000 := bits.toNat_lt
  have sign : bits = 0 ∨ bits = 0x80000000 := by
    rw [← UInt32.toNat_inj, ← UInt32.toNat_inj]
    show bits.toNat = 0 ∨ bits.toNat = 0x80000000
    omega
  rcases sign with rfl | rfl <;> decide

variable {x y : Single}

theorem isZero_map {f : Single → Single} (table : ∀ x ∈ zeros, (f x).isZero = true)
    (zero : x.isZero = true) : (f x).isZero = true :=
  table x (mem_zeros zero)

theorem isZero_map₂ {f : Single → Single → Single}
    (table : ∀ x ∈ zeros, ∀ y ∈ zeros, (f x y).isZero = true) (left : x.isZero = true)
    (right : y.isZero = true) : (f x y).isZero = true :=
  table x (mem_zeros left) y (mem_zeros right)

end Single

/-! ### Operators and functions -/

/-- The point lies on the real axis. -/
def Vec2.OnAxis (p : Point) : Prop :=
  p.y.isZero = true

open Vec2

theorem onAxis_ofReal (x : Single) : OnAxis (Vec2.ofReal x) := by
  show (0 : Single).isZero = true
  decide

namespace Meaning

/-- Whatever the arguments, the result is on the axis. -/
def ToAxis (m : Meaning) : Prop :=
  ∀ args p, m.eval? args = some p → OnAxis p

/-- With arguments on the axis the result is on it too. -/
def Axial (m : Meaning) : Prop :=
  ∀ args p, (∀ a ∈ args, OnAxis a) → m.eval? args = some p → OnAxis p

theorem ToAxis.axial {m : Meaning} (toAxis : m.ToAxis) : m.Axial :=
  fun args p _ => toAxis args p

theorem toAxis_unary (f : Point → Single) : ToAxis (.unary fun a => Vec2.ofReal (f a)) := by
  intro args p result
  match args, result with
  | [a], rfl => exact onAxis_ofReal _

theorem toAxis_binary (f : Point → Point → Single) :
    ToAxis (.binary fun a b => Vec2.ofReal (f a b)) := by
  intro args p result
  match args, result with
  | [a, b], rfl => exact onAxis_ofReal _

theorem toAxis_ternary (f : Point → Point → Point → Single) :
    ToAxis (.ternary fun a b c => Vec2.ofReal (f a b c)) := by
  intro args p result
  match args, result with
  | [a, b, c], rfl => exact onAxis_ofReal _

theorem axial_unary {f : Point → Point} (keeps : ∀ a, OnAxis a → OnAxis (f a)) :
    Axial (.unary f) := by
  intro args p onAxis result
  match args, result with
  | [a], rfl => exact keeps a (onAxis a (by simp))

theorem axial_binary {f : Point → Point → Point}
    (keeps : ∀ a b, OnAxis a → OnAxis b → OnAxis (f a b)) : Axial (.binary f) := by
  intro args p onAxis result
  match args, result with
  | [a, b], rfl => exact keeps a b (onAxis a (by simp)) (onAxis b (by simp))

theorem axial_each {f : Single → Single} (table : ∀ x ∈ Single.zeros, (f x).isZero = true) :
    Axial (.each f) :=
  axial_unary fun _ onAxis => Single.isZero_map table onAxis

theorem axial_mean : Axial (.binary Vec2.mean) := by
  refine axial_binary fun a b left right => ?_
  have sum : (a.y + b.y).isZero = true := Single.isZero_map₂ (by decide) left right
  exact Single.isZero_map (f := (· / 2)) (by decide) sum

end Meaning

open Meaning

/-- An operator has a real result if both operands are real, and keeps the axis then. -/
theorem Operator.axial {op : Operator} {complexInput : Bool}
    (real : op.descriptor.output.resolve complexInput = .real) :
    complexInput = false ∧ op.descriptor.real.meaning.Axial := by
  cases op with
  | add | sub | mul =>
    cases complexInput with
    | true => cases real
    | false =>
      exact ⟨rfl, axial_binary fun _ _ left right => Single.isZero_map₂ (by decide) left right⟩
  | div | mod =>
    cases complexInput with
    | true => cases real
    | false => exact ⟨rfl, (toAxis_binary _).axial⟩
  | pow => cases real

theorem Builtin.axial {fn : Builtin} (real : fn.descriptor.output.resolve false = .real) :
    fn.descriptor.real.meaning.Axial := by
  cases fn with
  | re => exact axial_unary fun _ onAxis => onAxis
  | round | fract => exact axial_each (by decide)
  | avg => exact axial_mean
  | clamp => exact (toAxis_ternary _).axial
  | max | min => exact (toAxis_binary _).axial
  | ln | sqrt => cases real
  | abs | acos | acosh | asin | asinh | atan | atanh | ceil | cos | cosh | exp | floor | im
  | normalize | sgn | sin | sinh | tan | tanh => exact (toAxis_unary _).axial

/-- A function with real results of complex arguments sends them to the axis, `normalize` apart. -/
theorem Builtin.toAxis {fn : Builtin} {form : Form}
    (real : fn.descriptor.output.resolve true = .real) (other : fn ≠ .normalize)
    (known : fn.descriptor.complex = some form) : form.meaning.ToAxis := by
  cases fn with
  | re | im | abs =>
    cases known
    exact toAxis_unary _
  | normalize => exact (other rfl).elim
  | ceil | clamp | floor | fract | max | min | round | sgn => cases known
  | acos | acosh | asin | asinh | atan | atanh | avg | cos | cosh | exp | ln | sin | sinh | sqrt
  | tan | tanh => cases real

/-! ### Nodes of a tree -/

namespace Node

/-- All nodes of the tree. -/
def nodes (n : Node) : List Node :=
  (n.walk 0).map Prod.snd

mutual

theorem walk_map_snd (depth : Nat) : (n : Node) → (n.walk depth).map Prod.snd = n.nodes
  | .binary c t op lhs rhs => by
    unfold nodes
    simp only [walk, List.map_cons, List.map_append, walk_map_snd (depth + 1) lhs,
      walk_map_snd (depth + 1) rhs, walk_map_snd 1 lhs, walk_map_snd 1 rhs]
  | .call c t complexInput fn args => by
    unfold nodes
    simp only [walk, List.map_cons, walkAll_map_snd]
  | .real _ _ | .imaginary _ _ | .complex _ _ _ _ | .z _ | .raw _ _ => rfl

theorem walkAll_map_snd (depth : Nat) : (ns : List Node) →
    (walkAll depth ns).map Prod.snd = ns.flatMap nodes
  | [] => rfl
  | n :: ns => by
    rw [walkAll, List.map_append, List.flatMap_cons, walk_map_snd depth n,
      walkAll_map_snd depth ns]

end

theorem nodes_binary (c : Int) (t : ValueType) (op : Operator) (lhs rhs : Node) :
    (Node.binary c t op lhs rhs).nodes = .binary c t op lhs rhs :: (lhs.nodes ++ rhs.nodes) := by
  rw [nodes, walk, List.map_cons, List.map_append, walk_map_snd, walk_map_snd]

theorem nodes_call (c : Int) (t : ValueType) (complexInput : Bool) (fn : Builtin)
    (args : List Node) :
    (Node.call c t complexInput fn args).nodes =
      .call c t complexInput fn args :: args.flatMap nodes := by
  rw [nodes, walk, List.map_cons, walkAll_map_snd]

theorem mem_nodes (n : Node) : n ∈ n.nodes := by
  cases n with
  | binary => simp [nodes_binary]
  | call => simp [nodes_call]
  | real | imaginary | complex | z | raw => simp [nodes, walk]

/-- The node is a call of `normalize` with a complex argument. -/
def NormalizesComplex : Node → Prop
  | .call _ _ _ fn args => fn = .normalize ∧ ∃ a ∈ args, a.type = .complex
  | _ => False

instance : DecidablePred NormalizesComplex
  | .call _ _ _ fn args =>
    inferInstanceAs (Decidable (fn = .normalize ∧ ∃ a ∈ args, a.type = .complex))
  | .real _ _ | .imaginary _ _ | .complex _ _ _ _ | .z _ | .raw _ _ | .binary _ _ _ _ _ =>
    inferInstanceAs (Decidable False)

/-! ### Values of nodes -/

theorem value_binary_ok {c : Int} {t : ValueType} {op : Operator} {lhs rhs : Node}
    {f : Point → Point} (done : (Node.binary c t op lhs rhs).value = .ok f) :
    ∃ l r, lhs.value = .ok l ∧ rhs.value = .ok r ∧
      Form.compose (op.descriptor.form (t ≠ .real)) [l, r] = .ok f := by
  rw [value] at done
  obtain ⟨l, left, afterLeft⟩ := bind_ok done
  obtain ⟨r, right, composed⟩ := bind_ok afterLeft
  exact ⟨l, r, left, right, composed⟩

theorem value_call_ok {c : Int} {t : ValueType} {complexInput : Bool} {fn : Builtin}
    {args : List Node} {f : Point → Point}
    (done : (Node.call c t complexInput fn args).value = .ok f) :
    ∃ functions, List.Forall₂ (fun a g => a.value = .ok g) args functions ∧
      Form.compose (fn.descriptor.form complexInput) functions = .ok f := by
  rw [value, valueAll_eq_mapM] at done
  obtain ⟨functions, all, composed⟩ := bind_ok done
  exact ⟨functions, mapM_ok_iff.mp all, composed⟩

end Node

theorem Form.compose_eval {form : Option Form} {functions : List (Point → Point)}
    {f : Point → Point} (composed : Form.compose form functions = .ok f) (z : Point) :
    ∃ known, form = some known ∧ known.meaning.eval? (functions.map (· z)) = some (f z) := by
  cases form with
  | none => cases composed
  | some known =>
    refine ⟨known, rfl, ?_⟩
    obtain ⟨template, meaning⟩ := known
    match meaning, functions, composed with
    | .unary g, [a], rfl => rfl
    | .binary g, [a, b], rfl => rfl
    | .ternary g, [a, b, c], rfl => rfl

namespace Node

/-- The node has values, and they lie on the axis if its type is real and no `normalize` below it
leaves the axis. -/
def Axial (n : Node) : Prop :=
  ∃ f, n.value = .ok f ∧
    (n.type = .real → (∀ m ∈ n.nodes, ¬m.NormalizesComplex) → ∀ z, OnAxis (f z))

theorem Axial.onAxis {n : Node} {f : Point → Point} (axial : n.Axial) (value : n.value = .ok f)
    (real : n.type = .real) (kept : ∀ m ∈ n.nodes, ¬m.NormalizesComplex) (z : Point) :
    OnAxis (f z) := by
  obtain ⟨g, value', onAxis⟩ := axial
  obtain rfl := Except.ok.inj (value.symm.trans value')
  exact onAxis real kept z

theorem resolve_eq_real {rule : ResultRule} {complexInput : Bool}
    (notComplex : rule.resolve complexInput ≠ .complex) : rule.resolve complexInput = .real := by
  cases rule with
  | real => rfl
  | complex => exact (notComplex rfl).elim
  | same =>
    cases complexInput with
    | true => exact (notComplex rfl).elim
    | false => rfl

/-- Only raw code, which has no value, is neither real nor complex after typing. -/
theorem Parsed.fix_type {n n' : Node} {f : Point → Point} (parsed : n.Parsed)
    (done : n.fix = (n', none)) (value : n'.value = .ok f) (notComplex : n'.type ≠ .complex) :
    n'.type = .real := by
  cases parsed with
  | real =>
    cases done
    rfl
  | imaginary | z =>
    cases done
    exact (notComplex rfl).elim
  | @complex _ im =>
    cases done
    cases zero : im.value.isZero with
    | true => simp [type]
    | false => simp [type, zero] at notComplex
  | raw =>
    cases done
    cases value
  | binary =>
    obtain ⟨l, r, -, -, -, -, rfl⟩ := fix_binary_ok done
    exact resolve_eq_real notComplex
  | call =>
    obtain ⟨found, args', -, rfl⟩ := fix_call_ok done
    exact resolve_eq_real notComplex

theorem axial_binary {c : Int} {op : Operator} {lhs rhs : Node} {f : Point → Point}
    (left : lhs.Axial) (right : rhs.Axial)
    (leftReal : lhs.type ≠ .complex → lhs.type = .real)
    (rightReal : rhs.type ≠ .complex → rhs.type = .real)
    (value : (Node.binary c (op.descriptor.output.resolve
      (decide (lhs.type = .complex) || decide (rhs.type = .complex))) op lhs rhs).value = .ok f) :
    (Node.binary c (op.descriptor.output.resolve
      (decide (lhs.type = .complex) || decide (rhs.type = .complex))) op lhs rhs).Axial := by
  refine ⟨f, value, fun real kept z => ?_⟩
  rw [nodes_binary] at kept
  simp only [List.mem_cons, List.mem_append] at kept
  obtain ⟨noneComplex, keeps⟩ := Operator.axial real
  rw [Bool.or_eq_false_iff, decide_eq_false_iff_not, decide_eq_false_iff_not] at noneComplex
  obtain ⟨l, r, leftValue, rightValue, composed⟩ := value_binary_ok value
  obtain ⟨form, known, result⟩ := Form.compose_eval composed z
  rw [show op.descriptor.output.resolve _ = .real from real] at known
  obtain rfl : op.descriptor.real = form := Option.some.inj known
  refine keeps _ _ ?_ result
  have first := left.onAxis leftValue (leftReal noneComplex.1)
    (fun m member => kept m (.inr (.inl member))) z
  have second := right.onAxis rightValue (rightReal noneComplex.2)
    (fun m member => kept m (.inr (.inr member))) z
  simp [first, second]

theorem axial_call {c : Int} {complexInput : Bool} {fn : Builtin} {args : List Node}
    {f : Point → Point} (each : ∀ a ∈ args, a.Axial)
    (real : ∀ a ∈ args, a.type ≠ .complex → a.type = .real)
    (input : complexInput = true ↔ ∃ a ∈ args, a.type = .complex)
    (value : (Node.call c (fn.descriptor.output.resolve complexInput) complexInput fn args).value =
      .ok f) :
    (Node.call c (fn.descriptor.output.resolve complexInput) complexInput fn args).Axial := by
  refine ⟨f, value, fun resultReal kept z => ?_⟩
  rw [nodes_call] at kept
  simp only [List.mem_cons, List.mem_flatMap] at kept
  obtain ⟨functions, all, composed⟩ := value_call_ok value
  obtain ⟨form, known, result⟩ := Form.compose_eval composed z
  cases complexInput with
  | true =>
    refine Builtin.toAxis resultReal ?_ known _ _ result
    rintro rfl
    exact kept _ (.inl rfl) ⟨rfl, input.mp rfl⟩
  | false =>
    obtain rfl : fn.descriptor.real = form := Option.some.inj known
    refine Builtin.axial resultReal _ _ ?_ result
    intro p member
    obtain ⟨g, there, rfl⟩ := List.mem_map.mp member
    obtain ⟨i, bound, rfl⟩ := List.mem_iff_getElem.mp there
    have bound' : i < args.length := by rwa [all.length_eq]
    have argument := List.getElem_mem bound'
    have notComplex : args[i].type ≠ .complex := fun complex =>
      Bool.false_ne_true (input.mpr ⟨_, argument, complex⟩)
    exact (each _ argument).onAxis (all.get bound' bound) (real _ argument notComplex)
      (fun m below => kept m (.inr ⟨_, argument, below⟩)) z

/-- What typing makes of a tree is axial at every node. -/
theorem Parsed.fix_axial {n n' : Node} {f : Point → Point} (parsed : n.Parsed)
    (done : n.fix = (n', none)) (value : n'.value = .ok f) : ∀ m ∈ n'.nodes, m.Axial := by
  induction parsed generalizing n' f with
  | real =>
    cases done
    rintro m (_ | ⟨_, ⟨⟩⟩)
    exact ⟨f, value, fun _ _ z => by cases value; exact onAxis_ofReal _⟩
  | imaginary | z =>
    cases done
    rintro m (_ | ⟨_, ⟨⟩⟩)
    exact ⟨f, value, nofun⟩
  | @complex _ im =>
    cases done
    rintro m (_ | ⟨_, ⟨⟩⟩)
    refine ⟨f, value, fun real _ z => ?_⟩
    cases value
    cases zero : im.value.isZero with
    | true => exact zero
    | false => simp [type, zero] at real
  | raw =>
    cases done
    cases value
  | binary parsedLeft parsedRight ihl ihr =>
    obtain ⟨l, r, left, right, -, -, rfl⟩ := fix_binary_ok done
    obtain ⟨_, _, leftValue, rightValue, -⟩ := value_binary_ok value
    have leftNodes := ihl left leftValue
    have rightNodes := ihr right rightValue
    intro m member
    rw [nodes_binary] at member
    simp only [List.mem_cons, List.mem_append] at member
    obtain rfl | member | member := member
    · exact axial_binary (leftNodes l l.mem_nodes) (rightNodes r r.mem_nodes)
        (parsedLeft.fix_type left leftValue) (parsedRight.fix_type right rightValue) value
    · exact leftNodes m member
    · exact rightNodes m member
  | @call _ fn args _ parsedArgs ih =>
    obtain ⟨found, args', fixed, rfl⟩ := fix_call_ok done
    obtain ⟨all, input, -⟩ := fixArgs_ok fixed
    obtain ⟨functions, values, -⟩ := value_call_ok value
    have each : ∀ a' ∈ args', ∃ a ∈ args, ∃ g, a.fix = (a', none) ∧ a'.value = .ok g := by
      intro a' member
      obtain ⟨i, bound, rfl⟩ := List.mem_iff_getElem.mp member
      have bound' : i < args.length := by rwa [all.length_eq]
      have bound'' : i < functions.length := by rwa [← values.length_eq]
      exact ⟨args[i], List.getElem_mem bound', functions[i], all.get bound' bound,
        values.get bound bound''⟩
    have below : ∀ a' ∈ args', ∀ m ∈ a'.nodes, m.Axial := by
      intro a' member
      obtain ⟨a, there, g, fixed, value⟩ := each a' member
      exact ih a there fixed value
    intro m member
    rw [nodes_call] at member
    simp only [List.mem_cons, List.mem_flatMap] at member
    obtain rfl | ⟨a, there, member⟩ := member
    · refine axial_call (fun a there => below a there a a.mem_nodes) ?_ ?_ value
      · intro a' there
        obtain ⟨a, there, g, fixed, value⟩ := each a' there
        exact (parsedArgs a there).fix_type fixed value
      · rw [input]
        simp
    · exact below a there m member

end Node

/-- All that is asked of the arithmetic: the point is at distance one, and one is neutral to it. -/
theorem Vec2.normalize_eq_self {α : Type} [Scalar α] {z : Vec2 α}
    (unit : Scalar.hypot z.x z.y = Scalar.one)
    (quotient : (Scalar.one / Scalar.one : α) = Scalar.one)
    (neutral : Scalar.one * z.x = z.x ∧ Scalar.one * z.y = z.y) : z.normalize = z := by
  rw [normalize, length, unit, quotient, scale, neutral.1, neutral.2]

namespace Formula

/-- In a formula without raw code every node of type real has its values on the real axis, as long
as no `normalize` at or below it has a complex argument. The condition is needed: `normalize(z)` is
of type real, and its value at `i` is `i`. -/
theorem real_nodes_on_axis :
    (∀ (source : String) (f : Formula), parse source = .ok f → f.containsRawCode = false →
      ∀ n ∈ f.root.nodes, n.type = .real → (∀ m ∈ n.nodes, ¬m.NormalizesComplex) →
        ∃ g, n.value = .ok g ∧ ∀ z, (g z).y.isZero = true) ∧
    ∃ f g, parse "normalize(z)" = .ok f ∧ f.containsRawCode = false ∧ f.root.type = .real ∧
      f.root.value = .ok g ∧ g ⟨0, 1⟩ = ⟨0, 1⟩ := by
  constructor
  · intro source f done plain n member real kept
    obtain ⟨typed, -⟩ := root_wellTyped done
    obtain ⟨tokens, tree, lexed, parsed, fixed, -⟩ := parse_ok done
    obtain ⟨g, value⟩ := typed.value_ok plain
    obtain ⟨h, nodeValue, onAxis⟩ := (tree_built lexed parsed).1.fix_axial fixed value n member
    exact ⟨h, nodeValue, onAxis real kept⟩
  · have lexed : tokenize "normalize(z)".toList = .ok [⟨.function, 0, "normalize", false⟩,
        ⟨.parenOpen, 9, "", false⟩, ⟨.z, 10, "", false⟩, ⟨.parenClose, 11, "", false⟩] := by
      decide +kernel
    refine ⟨⟨"normalize(z)", .call 0 .real true .normalize [.z 10]⟩, Vec2.normalize, ?_, rfl, rfl,
      rfl, ?_⟩
    · rw [parse, lexed]
      rfl
    · have unit : Single.hypot 0 1 = 1 := by decide +kernel
      have quotient : (1 : Single) / 1 = 1 := by decide +kernel
      have neutral : (1 : Single) * 0 = 0 ∧ (1 : Single) * 1 = 1 := by decide +kernel
      exact Vec2.normalize_eq_self unit quotient neutral

/-- A real root over complex operands. -/
def scaledBack : Formula where
  source := "|z|*round(0i)-re(2z)"
  root := .binary 13 .real .sub
    (.binary 3 .real .mul (.call 0 .real true .abs [.z 1])
      (.call 4 .real false .round [.complex 10 .real (.ofNumeral "0") (.ofNumeral "0")]))
    (.call 14 .real true .re [.binary 17 .complex .mul (.ofReal 17 "2") (.z 18)])

theorem scaledBack_on_axis :
    parse "|z|*round(0i)-re(2z)" = .ok scaledBack ∧ scaledBack.containsRawCode = false ∧
      scaledBack.root ∈ scaledBack.root.nodes ∧ scaledBack.root.type = .real ∧
      (∀ m ∈ scaledBack.root.nodes, ¬m.NormalizesComplex) ∧
      ∃ g, scaledBack.root.value = .ok g ∧ ∀ z, (g z).y.isZero = true := by
  have lexed : tokenize "|z|*round(0i)-re(2z)".toList = .ok
      [⟨.function, 0, "abs", false⟩, ⟨.parenOpen, 0, "", false⟩, ⟨.z, 1, "", false⟩,
        ⟨.parenClose, 2, "", false⟩, ⟨.op, 3, "*", false⟩, ⟨.function, 4, "round", false⟩,
        ⟨.parenOpen, 9, "", false⟩, ⟨.number, 10, "0", false⟩, ⟨.op, 10, "*", true⟩,
        ⟨.imaginary, 11, "", false⟩, ⟨.parenClose, 12, "", false⟩, ⟨.op, 13, "-", false⟩,
        ⟨.function, 14, "re", false⟩, ⟨.parenOpen, 16, "", false⟩, ⟨.number, 17, "2", false⟩,
        ⟨.op, 17, "*", true⟩, ⟨.z, 18, "", false⟩, ⟨.parenClose, 19, "", false⟩] := by
    decide +kernel
  have parsed : parse "|z|*round(0i)-re(2z)" = .ok scaledBack := by
    rw [parse, lexed]
    rfl
  have kept : ∀ m ∈ scaledBack.root.nodes, ¬m.NormalizesComplex := by decide
  have member := scaledBack.root.mem_nodes
  exact ⟨parsed, rfl, member, rfl, kept, real_nodes_on_axis.1 _ _ parsed rfl _ member rfl kept⟩

end Formula

end EscapeTime
