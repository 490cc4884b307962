import EscapeTime.Proofs.Number.Halving
import EscapeTime.Proofs.Shader.Definition
import EscapeTime.Proofs.Shader.Placement

/-!
# What the helpers compute

The definitions of the helper library, read and evaluated as the language says, give the complex
functions of the same names. Of the arithmetic it is used only that a quotient by two is a product
with one half.
-/

namespace EscapeTime.Shader

variable {α : Type}

/-! ### Complex functions -/

inductive ComplexFunction (α : Type) where
  | unary (f : Vec2 α → Vec2 α)
  | binary (f : Vec2 α → Vec2 α → Vec2 α)

def ComplexFunction.apply : ComplexFunction α → List (Quantity α) → Option (Quantity α)
  | unary f, [.vector z] => some (.vector (f z))
  | binary f, [.vector a, .vector b] => some (.vector (f a b))
  | _, _ => none

variable [Scalar α]

/-- The function that a helper stands for. -/
def complexFunction? : String → Option (ComplexFunction α)
  | "cMul" => some (.binary Vec2.mul)
  | "cDiv" => some (.binary Vec2.div)
  | "cExp" => some (.unary Vec2.exp)
  | "cLog" => some (.unary Vec2.log)
  | "cSqrt" => some (.unary Vec2.sqrt)
  | "cPow" => some (.binary Vec2.pow)
  | "cCos" => some (.unary Vec2.cos)
  | "cSin" => some (.unary Vec2.sin)
  | "cTan" => some (.unary Vec2.tan)
  | "cCosh" => some (.unary Vec2.cosh)
  | "cSinh" => some (.unary Vec2.sinh)
  | "cTanh" => some (.unary Vec2.tanh)
  | "cAsin" => some (.unary Vec2.asin)
  | "cAcos" => some (.unary Vec2.acos)
  | "cAtan" => some (.unary Vec2.atan)
  | "cAcosh" => some (.unary Vec2.acosh)
  | "cAsinh" => some (.unary Vec2.asinh)
  | "cAtanh" => some (.unary Vec2.atanh)
  | _ => none

/-- Every helper answered by its function. -/
def complexCall : Call α := fun name =>
  match complexFunction? name with
  | some f => f.apply
  | none => languageCall name

/-! ### Syntax of the library -/

section Syntax

instance : Add Term := ⟨.arith .add⟩

instance : Sub Term := ⟨.arith .sub⟩

instance : Mul Term := ⟨.arith .mul⟩

instance : Div Term := ⟨.arith .div⟩

instance : Neg Term := ⟨.negate⟩

def Term.x (e : Term) : Term := .select e .x

def Term.y (e : Term) : Term := .select e .y

def Term.vec2 (first second : Term) : Term := .apply₂ "vec2" first second

/-- A function of points with local points and a returned point. -/
def Definition.ofPoints (name : String) (parameters : List String) (locals : List (String × Term))
    (value : Term) : Definition where
  result := .vec2
  name := name
  parameters := parameters.map (⟨.vec2, ·⟩)
  locals := locals.map fun l => ⟨⟨.vec2, l.1⟩, l.2⟩
  value := value

open Term

def helperSyntax : List Definition :=
  let a := Term.name "a"
  let b := Term.name "b"
  let z := Term.name "z"
  let e := Term.name "e"
  let r := Term.name "r"
  let s := Term.name "s"
  let w := Term.name "w"
  let zero := Term.literal "0."
  let one := Term.literal "1."
  let two := Term.literal "2."
  let i : Term → Term := fun p => vec2 (-p.y) p.x
  let j : Term → Term := fun p => vec2 p.y (-p.x)
  let cExp := apply "cExp"
  let cLog := apply "cLog"
  let cSqrt := apply "cSqrt"
  let cMul := apply₂ "cMul"
  let cDiv := apply₂ "cDiv"
  [.ofPoints "cMul" ["a", "b"] [] (vec2 (a.x*b.x - a.y*b.y) (a.x*b.y + a.y*b.x)),
   .ofPoints "cDiv" ["a", "b"] []
     (vec2 (a.x*b.x + a.y*b.y) (a.y*b.x - a.x*b.y) / (b.x*b.x + b.y*b.y)),
   ⟨.vec2, "cExp", [⟨.vec2, "z"⟩], [⟨⟨.float, "r"⟩, apply "exp" z.x⟩],
     vec2 (r * apply "cos" z.y) (r * apply "sin" z.y)⟩,
   .ofPoints "cLog" ["z"] [] (vec2 (apply "log" (apply "length" z)) (apply₂ "atan" z.y z.x)),
   .ofPoints "cSqrt" ["z"] [] (cExp (cLog z / two)),
   .ofPoints "cPow" ["z", "e"] [] (cExp (cMul (cLog z) e)),
   .ofPoints "cCos" ["z"] [] ((cExp (i z) + cExp (j z)) / two),
   .ofPoints "cSin" ["z"] [] (cDiv (cExp (i z) - cExp (j z)) (vec2 zero two)),
   .ofPoints "cTan" ["z"] [] (cDiv (apply "cSin" z) (apply "cCos" z)),
   .ofPoints "cCosh" ["z"] [] ((cExp z + cExp (-z)) / two),
   .ofPoints "cSinh" ["z"] [] ((cExp z - cExp (-z)) / two),
   .ofPoints "cTanh" ["z"] [] (cDiv (apply "cSinh" z) (apply "cCosh" z)),
   .ofPoints "cAsin" ["z"] [("w", cLog (cSqrt (vec2 one zero - cMul z z) - j z))] (j w),
   .ofPoints "cAcos" ["z"]
     [("s", cSqrt (vec2 one zero - cMul z z)), ("w", cLog (z + i s))] (j w),
   .ofPoints "cAtan" ["z"]
     [("w", cLog (cDiv (vec2 (one - z.y) z.x) (vec2 (one + z.y) (-z.x))) / two)] (j w),
   .ofPoints "cAcosh" ["z"] [] (cLog (z + cSqrt (cMul z z - vec2 one zero))),
   .ofPoints "cAsinh" ["z"] [] (cLog (z + cSqrt (cMul z z + vec2 one zero))),
   .ofPoints "cAtanh" ["z"] [] (cLog (cDiv (vec2 one zero + z) (vec2 one zero - z)) / two)]

end Syntax

/-! ### Reading the library -/

theorem read_helper {name parameters : String} {statements : List String}
    {letters inputs : List Char} {lines : List (List Char)} {d : Definition}
    (first : String.ofList letters = name) (second : String.ofList inputs = parameters)
    (third : List.Forall₂ (fun s l => String.ofList l = s) statements lines)
    (reads : Definition.read (returnType ++ (letters ++ '(' :: (inputs ++
      ([')', ' ', '\x7b', '\n'] ++
        (lines.flatMap (fun l => '\t' :: (l ++ ['\n'])) ++ ['\x7d']))))) = some d) :
    Definition.read (helper name parameters statements).source.toList = some d := by
  rw [(defines_helper first second third).source]
  exact reads

theorem read_helperLibrary :
    List.Forall₂ (fun f d => Definition.read f.source.toList = some d) helperLibrary
      helperSyntax := by
  rw [helperLibrary_eq]
  unfold helperDefinitions helperSyntax
  iterate 18 refine .cons (read_helper rfl rfl (by repeat constructor) (by decide +kernel)) ?_
  exact .nil

/-! ### Single definitions -/

/-- The definition computes the complex function of its name where the helpers that it calls do. -/
def Definition.Computes (α : Type) [Scalar α] (d : Definition) : Prop :=
  ∃ f : ComplexFunction α, complexFunction? d.name = some f ∧
    ∀ args, d.run complexCall args = f.apply args

namespace Definition

theorem Computes.unary {d : Definition} {p : String} {f : Vec2 α → Vec2 α}
    (known : complexFunction? d.name = some (.unary f)) (one : d.parameters = [⟨.vec2, p⟩])
    (value : ∀ z, d.run complexCall [.vector z] = some (.vector (f z))) : d.Computes α := by
  refine ⟨_, known, fun args => ?_⟩
  rcases args with _ | ⟨a | z, _ | ⟨b, rest⟩⟩
  case cons.vector.nil => exact value z
  -- Any other arguments do not fit the parameter.
  all_goals
    rw [run, one]
    rfl

theorem Computes.binary {d : Definition} {p q : String} {f : Vec2 α → Vec2 α → Vec2 α}
    (known : complexFunction? d.name = some (.binary f))
    (two : d.parameters = [⟨.vec2, p⟩, ⟨.vec2, q⟩])
    (value : ∀ a b, d.run complexCall [.vector a, .vector b] = some (.vector (f a b))) :
    d.Computes α := by
  refine ⟨_, known, fun args => ?_⟩
  rcases args with _ | ⟨a | a, _ | ⟨b | b, _ | ⟨c, rest⟩⟩⟩
  case cons.vector.cons.vector.nil => exact value a b
  all_goals
    rw [run, two]
    rfl

end Definition

theorem scale_half (halving : ∀ x : α, x / Scalar.two = Scalar.half * x) (p : Vec2 α) :
    (⟨p.x / Scalar.two, p.y / Scalar.two⟩ : Vec2 α) = Vec2.scale Scalar.half p := by
  rw [halving, halving]
  rfl

theorem helperSyntax_computes (halving : ∀ x : α, x / Scalar.two = Scalar.half * x) :
    ∀ d ∈ helperSyntax, d.Computes α := by
  have half := scale_half halving
  unfold helperSyntax
  simp only [List.forall_mem_cons, List.not_mem_nil, false_implies, implies_true, and_true]
  refine ⟨.binary rfl rfl fun a b => rfl, .binary rfl rfl fun a b => rfl,
    .unary rfl rfl fun z => rfl, .unary rfl rfl fun z => rfl, .unary rfl rfl fun z => ?sqrt,
    .binary rfl rfl fun z e => rfl, .unary rfl rfl fun z => ?cos, .unary rfl rfl fun z => rfl,
    .unary rfl rfl fun z => rfl, .unary rfl rfl fun z => ?cosh, .unary rfl rfl fun z => ?sinh,
    .unary rfl rfl fun z => rfl, .unary rfl rfl fun z => rfl, .unary rfl rfl fun z => rfl,
    .unary rfl rfl fun z => ?atan, .unary rfl rfl fun z => rfl, .unary rfl rfl fun z => rfl,
    .unary rfl rfl fun z => ?atanh⟩
  case sqrt => exact congrArg (fun p => some (Quantity.vector (Vec2.exp p))) (half (Vec2.log z))
  case cos =>
    exact congrArg (fun p => some (Quantity.vector p))
      (half (Vec2.add (Vec2.exp (Vec2.rotate z)) (Vec2.exp (Vec2.rotateBack z))))
  case cosh =>
    exact congrArg (fun p => some (Quantity.vector p))
      (half (Vec2.add (Vec2.exp z) (Vec2.exp z.neg)))
  case sinh =>
    exact congrArg (fun p => some (Quantity.vector p))
      (half (Vec2.sub (Vec2.exp z) (Vec2.exp z.neg)))
  case atan =>
    exact congrArg (fun p => some (Quantity.vector (Vec2.rotateBack p)))
      (half (Vec2.log (Vec2.div ⟨Scalar.one - z.y, z.x⟩ ⟨Scalar.one + z.y, -z.x⟩)))
  case atanh =>
    exact congrArg (fun p => some (Quantity.vector p))
      (half (Vec2.log (Vec2.div (Vec2.add Vec2.one z) (Vec2.sub Vec2.one z))))

/-! ### The library -/

/-- Each definition, the latest first, calls the language or earlier definitions. -/
def callsEarlier (language : List String) : List Definition → Bool
  | [] => true
  | d :: earlier =>
    d.calls.all (fun name => language.contains name || (earlier.map (·.name)).contains name) &&
      callsEarlier language earlier

theorem callIn_eq {language : List String} {ds : List Definition}
    (outside : ∀ name ∈ language, (complexFunction? name : Option (ComplexFunction α)) = none)
    (computes : ∀ d ∈ ds, d.Computes α) (ordered : callsEarlier language ds = true) {name : String}
    (known : name ∈ language ∨ name ∈ ds.map (·.name)) :
    (Definition.callIn ds name : List (Quantity α) → Option (Quantity α)) = complexCall name := by
  induction ds generalizing name with
  | nil =>
    have own := outside name (known.resolve_right List.not_mem_nil)
    funext args
    unfold complexCall
    rw [own]
    rfl
  | cons d earlier ih =>
    rw [callsEarlier, Bool.and_eq_true, List.all_eq_true] at ordered
    obtain ⟨⟨f, mine, value⟩, others⟩ := List.forall_mem_cons.1 computes
    have same : ∀ name ∈ d.calls, Definition.callIn (α := α) earlier name = complexCall name := by
      intro called mem
      apply ih others ordered.2
      simpa using ordered.1 called mem
    funext args
    unfold Definition.callIn
    by_cases here : name = d.name
    · rw [if_pos here, Definition.run_congr args same, value, here, complexCall, mine]
    · rw [if_neg here, ih others ordered.2]
      rcases known with own | defined
      · exact .inl own
      · exact .inr ((List.mem_cons.1 defined).resolve_left here)

/-- The functions of the language that the library calls. -/
def languageNames : List String :=
  ["vec2", "length", "exp", "log", "cos", "sin", "atan"]

theorem languageNames_outside : ∀ name ∈ languageNames,
    (complexFunction? name : Option (ComplexFunction α)) = none := by
  simp only [languageNames, List.forall_mem_cons, List.not_mem_nil, false_implies, implies_true,
    and_true]
  exact ⟨rfl, rfl, rfl, rfl, rfl, rfl, rfl⟩

theorem helperSyntax_callsEarlier : callsEarlier languageNames helperSyntax.reverse = true := by
  decide +kernel

/-- Where a quotient by two is a product with one half, the text of each helper is a definition that
computes the complex function of its name, calling those before it. -/
theorem helpers_compute_functions (halving : ∀ x : α, x / Scalar.two = Scalar.half * x) :
    ∃ definitions : List Definition,
      List.Forall₂ (fun f d => Definition.read f.source.toList = some d) helperLibrary definitions ∧
      ∀ f ∈ helperLibrary, ∃ g : ComplexFunction α, complexFunction? f.name = some g ∧
        ∀ args, Definition.callIn definitions.reverse f.name args = g.apply args := by
  refine ⟨helperSyntax, read_helperLibrary, fun f mem => ?_⟩
  have computes := helperSyntax_computes halving
  have names : helperLibrary.map (·.name) = helperSyntax.map (·.name) := helperLibrary_names
  obtain ⟨d, defined, named⟩ : ∃ d ∈ helperSyntax, d.name = f.name :=
    List.mem_map.1 (names ▸ List.mem_map_of_mem mem)
  obtain ⟨g, known, -⟩ := computes d defined
  rw [named] at known
  refine ⟨g, known, fun args => ?_⟩
  have call := callIn_eq languageNames_outside (fun d mem => computes d (List.mem_reverse.1 mem))
    helperSyntax_callsEarlier
    (.inr (List.mem_map.2 ⟨d, List.mem_reverse.2 defined, named⟩))
  rw [call, complexCall, known]

theorem single_helpers_compute :
    (∀ x : Single, x / Scalar.two = Scalar.half * x) ∧
    ∃ definitions : List Definition,
      List.Forall₂ (fun f d => Definition.read f.source.toList = some d) helperLibrary definitions ∧
      ∀ f ∈ helperLibrary, ∃ g : ComplexFunction Single, complexFunction? f.name = some g ∧
        ∀ args, Definition.callIn definitions.reverse f.name args = g.apply args :=
  ⟨Single.div_two, helpers_compute_functions Single.div_two⟩

end EscapeTime.Shader
