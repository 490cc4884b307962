import EscapeTime.Formula.Typing
import EscapeTime.Proofs.Formula.Progress

/-!
# Columns and raw code

Parsing and typing copy columns and raw code and never look at them. So both commute with forgetting
the columns and renaming the raw code: of tokens that differ in nothing else, the trees differ in
nothing else, and the errors are the same but for their columns.
-/

namespace EscapeTime

/-! ### Forgetting columns -/

section Bare

variable (rename : String → String)

/-- The token without its column, its raw code renamed. -/
def Token.bare (t : Token) : Token :=
  ⟨t.kind, 0, if t.kind = .rawCode then rename t.text else t.text, t.implicit⟩

def Cause.bare : Cause → Cause
  | .trailingToken t => .trailingToken (t.bare rename)
  | cause => cause

def FormulaError.bare (e : FormulaError) : FormulaError :=
  ⟨e.stage, 0, e.cause.bare rename⟩

def Fault.bare : Fault → Fault
  | .undetermined _ => .undetermined 0
  | fault => fault

def Failure.bare : Failure → Failure
  | .rejected e => .rejected (e.bare rename)
  | .broken fault => .broken fault.bare

namespace Node

mutual

/-- The tree without its columns, its raw code renamed. -/
def bare : Node → Node
  | .real _ v => .real 0 v
  | .imaginary _ v => .imaginary 0 v
  | .complex _ t re im => .complex 0 t re im
  | .z _ => .z 0
  | .raw _ code => .raw 0 (rename code)
  | .binary _ t op lhs rhs => .binary 0 t op (bare lhs) (bare rhs)
  | .call _ t complexInput fn args => .call 0 t complexInput fn (bareAll args)

def bareAll : List Node → List Node
  | [] => []
  | n :: ns => bare n :: bareAll ns

end

theorem bareAll_eq_map (ns : List Node) : bareAll rename ns = ns.map (bare rename) := by
  induction ns with
  | nil => rfl
  | cons n ns ih => rw [bareAll, ih, List.map_cons]

end Node

end Bare

variable {rename : String → String}

@[simp]
theorem Token.bare_kind (t : Token) : (t.bare rename).kind = t.kind :=
  rfl

@[simp]
theorem Token.bare_column (t : Token) : (t.bare rename).column = 0 :=
  rfl

@[simp]
theorem Token.bare_implicit (t : Token) : (t.bare rename).implicit = t.implicit :=
  rfl

theorem Token.bare_text {t : Token} (kind : t.kind ≠ .rawCode) : (t.bare rename).text = t.text :=
  if_neg kind

@[simp]
theorem Token.bare_operator? (t : Token) : (t.bare rename).operator? = t.operator? := by
  unfold Token.operator?
  rw [bare_kind]
  by_cases kind : t.kind = .op
  · rw [bare_text (by simp [kind])]
  · simp only [kind, if_false]

@[simp]
theorem Token.bare_precedence (t : Token) : (t.bare rename).precedence = t.precedence := by
  unfold Token.precedence
  rw [bare_operator?]

/-! ### Parsing -/

namespace Parse

variable (rename) in
/-- What a function of the parser read, and the tokens after it, without columns. -/
def bareRead {α : Type} (f : α → α) (r : α × List Token) : α × List Token :=
  (f r.1, r.2.map (Token.bare rename))

theorem expect_bare (endCol : Int) (kinds : List TokenKind) (ts : List Token) :
    mapBoth (bareRead rename (Token.bare rename)) (Failure.bare rename) (expect endCol kinds ts) =
      expect 0 kinds (ts.map (Token.bare rename)) := by
  cases ts with
  | nil => rfl
  | cons t ts =>
    rw [List.map_cons, expect, expect, Token.bare_kind]
    split <;> rfl

theorem fusedFactor_bare (ts : List Token) :
    fusedFactor (ts.map (Token.bare rename)) =
      (fusedFactor ts).map (bareRead rename (Token.bare rename)) := by
  cases ts with
  | nil => rfl
  | cons t ts =>
    simp only [List.map_cons, fusedFactor, Token.bare_kind, Token.bare_implicit]
    by_cases factor : t.kind = .imaginary ∨ t.kind = .z
    · simp only [factor, if_true]
      rfl
    · simp only [factor, if_false]
      by_cases silent : t.kind = .op ∧ t.implicit = true
      · simp only [silent, and_self, if_true]
        cases ts with
        | nil => rfl
        | cons u us =>
          simp only [List.map_cons, Token.bare_kind]
          by_cases next : u.kind = .imaginary ∨ u.kind = .z
          · simp only [next, if_true]
            rfl
          · simp only [next, if_false, Option.map_none]
      · simp only [silent, if_false, Option.map_none]

theorem number_bare {t : Token} (kind : t.kind = .number) (ts : List Token) :
    number (t.bare rename) (ts.map (Token.bare rename)) =
      bareRead rename (Node.bare rename) (number t ts) := by
  have text : (t.bare rename).text = t.text := Token.bare_text (by simp [kind])
  unfold number
  rw [fusedFactor_bare, text]
  cases fusedFactor ts with
  | none => simp [bareRead, Node.ofReal, Node.bare]
  | some found =>
    obtain ⟨factor, rest⟩ := found
    by_cases isI : factor.kind = .imaginary
    · simp [bareRead, isI, Node.ofImaginaryPart, Node.bare]
    · simp [bareRead, isI, Node.apply₂, Node.ofReal, Node.bare]

/-! The four functions, given that the calls they make with less fuel commute. -/

section Functions

variable (rename) (endCol : Int) (fuel : Nat)

def ExpressionBare : Prop :=
  ∀ ts, mapBoth (bareRead rename (Node.bare rename)) (Failure.bare rename)
    (expression endCol fuel ts) = expression 0 fuel (ts.map (Token.bare rename))

def OperandBare : Prop :=
  ∀ ts, mapBoth (bareRead rename (Node.bare rename)) (Failure.bare rename)
    (operand endCol fuel ts) = operand 0 fuel (ts.map (Token.bare rename))

def ChainBare : Prop :=
  ∀ minPrec lhs ts, mapBoth (bareRead rename (Node.bare rename)) (Failure.bare rename)
    (chain endCol fuel minPrec lhs ts) =
      chain 0 fuel minPrec (lhs.bare rename) (ts.map (Token.bare rename))

def ArgumentsBare : Prop :=
  ∀ count ts, mapBoth (bareRead rename (List.map (Node.bare rename))) (Failure.bare rename)
    (arguments endCol fuel count ts) = arguments 0 fuel count (ts.map (Token.bare rename))

variable {rename endCol fuel}

theorem expression_bare (operands : OperandBare rename endCol fuel)
    (chains : ChainBare rename endCol fuel) : ExpressionBare rename endCol (fuel + 1) := by
  intro ts
  rw [expression, expression]
  exact mapBoth_bind (operands ts) fun r _ => chains 1 r.1 r.2

theorem arguments_bare (expressions : ExpressionBare rename endCol fuel)
    (lists : ArgumentsBare rename endCol fuel) : ArgumentsBare rename endCol (fuel + 1) := by
  intro count ts
  cases count with
  | zero => rfl
  | succ count =>
    rw [arguments, arguments]
    refine mapBoth_bind (expressions ts) fun r _ => ?_
    by_cases last : count = 0
    · simp only [last, if_true]
      rfl
    · simp only [last, if_false]
      refine mapBoth_bind (expect_bare endCol [.comma] r.2) fun comma _ => ?_
      exact mapBoth_bind (lists count comma.2) fun args _ => rfl

theorem rightSide_bare (operands : OperandBare rename endCol fuel)
    (chains : ChainBare rename endCol fuel) (op : Operator) (ts : List Token) :
    mapBoth (bareRead rename (Node.bare rename)) (Failure.bare rename)
      (rightSide endCol fuel op ts) = rightSide 0 fuel op (ts.map (Token.bare rename)) := by
  unfold rightSide
  refine mapBoth_bind (operands ts) fun r _ => ?_
  have head : (∃ t ∈ (r.2.map (Token.bare rename)).head?, op.precedence < t.precedence) ↔
      ∃ t ∈ r.2.head?, op.precedence < t.precedence := by
    cases r.2 with
    | nil => simp
    | cons t ts => simp
  simp only [bareRead, head]
  split
  · exact chains _ r.1 r.2
  · rfl

theorem chain_bare (operands : OperandBare rename endCol fuel)
    (chains : ChainBare rename endCol fuel) : ChainBare rename endCol (fuel + 1) := by
  intro minPrec lhs ts
  cases ts with
  | nil => rfl
  | cons t ts =>
    rw [chain_cons, List.map_cons, chain_cons]
    refine mapBoth_bind (expect_bare endCol followKinds (t :: ts)) fun _ _ => ?_
    rw [Token.bare_operator?]
    cases t.operator? with
    | none => rfl
    | some op =>
      dsimp only
      split
      · rfl
      · refine mapBoth_bind (rightSide_bare operands chains op ts) fun r _ => ?_
        rw [chains]
        rfl

theorem operand_bare (expressions : ExpressionBare rename endCol fuel)
    (operands : OperandBare rename endCol fuel) (chains : ChainBare rename endCol fuel)
    (lists : ArgumentsBare rename endCol fuel) : OperandBare rename endCol (fuel + 1) := by
  intro ts
  rw [operand, operand]
  refine mapBoth_bind (expect_bare endCol operandKinds ts) ?_
  rintro ⟨t, us⟩ read
  have found := expect_outcome endCol operandKinds ts
  rw [read] at found
  obtain ⟨rfl, start⟩ := found
  have text (kind : t.kind ≠ .rawCode) : (t.bare rename).text = t.text := Token.bare_text kind
  simp only [bareRead, Token.bare_kind]
  cases kind : t.kind with
  | parenOpen =>
    refine mapBoth_bind (expressions us) fun inner _ => ?_
    exact mapBoth_bind (expect_bare endCol [.parenClose] inner.2) fun close _ => rfl
  | op =>
    simp only [text (by simp [kind])]
    split
    · exact operands us
    · split
      · rw [chains]
        rfl
      · rfl
  | function =>
    simp only [text (by simp [kind])]
    refine mapBoth_bind (expect_bare endCol [.parenOpen] us) fun l _ => ?_
    cases Builtin.ofName? t.text with
    | none => rfl
    | some fn =>
      refine mapBoth_bind (lists fn.descriptor.arity l.2) fun args _ => ?_
      refine mapBoth_bind (expect_bare endCol [.parenClose] args.2) fun close _ => ?_
      show Except.ok _ = Except.ok _
      simp only [bareRead, Node.apply, Node.bare, Node.bareAll_eq_map]
      rfl
  | z => rfl
  | imaginary => rfl
  | rawCode =>
    show Except.ok _ = Except.ok _
    simp only [bareRead, Node.bare, Token.bare, kind, if_true]
    rfl
  | number =>
    show Except.ok _ = Except.ok _
    rw [number_bare kind]
  | comma | parenClose | other => simp [operandKinds, kind] at start

end Functions

theorem all_bare (rename : String → String) (endCol : Int) (fuel : Nat) :
    ExpressionBare rename endCol fuel ∧ OperandBare rename endCol fuel ∧
      ChainBare rename endCol fuel ∧ ArgumentsBare rename endCol fuel := by
  induction fuel with
  | zero => exact ⟨fun _ => rfl, fun _ => rfl, fun _ _ _ => rfl, fun _ _ => rfl⟩
  | succ fuel ih =>
    obtain ⟨expressions, operands, chains, lists⟩ := ih
    exact ⟨expression_bare operands chains, operand_bare expressions operands chains lists,
      chain_bare operands chains, arguments_bare expressions lists⟩

/-- Tokens that differ only in columns and raw code have trees, or errors, that do. -/
theorem formula_bare {ts us : List Token}
    (same : ts.map (Token.bare rename) = us.map (Token.bare rename)) :
    mapBoth (Node.bare rename) (Failure.bare rename) (formula ts) =
      mapBoth (Node.bare rename) (Failure.bare rename) (formula us) := by
  have commutes (ts : List Token) :
      mapBoth (Node.bare rename) (Failure.bare rename) (formula ts) =
        expression 0 (fuelFor ts) (ts.map (Token.bare rename)) >>= fun r =>
          r.2.head?.elim (.ok r.1) fun t => reject 0 (.trailingToken t) := by
    unfold formula
    refine mapBoth_bind ((all_bare rename _ _).1 ts) ?_
    rintro ⟨root, rest⟩ -
    cases rest with
    | nil => rfl
    | cons t rest => rfl
  have fuel : fuelFor ts = fuelFor us := by
    have length := congrArg List.length same
    rw [List.length_map, List.length_map] at length
    rw [fuelFor, fuelFor, length]
  rw [commutes, commutes, same, fuel]

end Parse

/-! ### Typing -/

namespace Node

theorem bare_type (n : Node) : (n.bare rename).type = n.type := by
  cases n <;> rfl

theorem bare_column (n : Node) : (n.bare rename).column = 0 := by
  cases n <;> rfl

theorem untyped?_bare (n : Node) :
    (n.bare rename).untyped? = n.untyped?.map (Failure.bare rename) := by
  unfold untyped?
  rw [bare_type, bare_column]
  split <;> rfl

variable (rename) in
theorem refused?_bare (d : Descriptor) (i : Nat) (cause : Cause)
    (same : cause.bare rename = cause) (n : Node) :
    (n.bare rename).refused? d i cause = (n.refused? d i cause).map (Failure.bare rename) := by
  unfold refused?
  rw [bare_type, bare_column]
  split
  · split
    · rfl
    · simp [Failure.bare, FormulaError.bare, same]
    · rfl
  · rfl

theorem operandFailure?_bare (op : Operator) (l r : Node) :
    operandFailure? op (l.bare rename) (r.bare rename) =
      (operandFailure? op l r).map (Failure.bare rename) := by
  have left := refused?_bare rename op.descriptor 0 (.complexOperand .left op) rfl l
  have right := refused?_bare rename op.descriptor 1 (.complexOperand .right op) rfl r
  simp only [operandFailure?, untyped?_bare, left, right, Option.orElse_eq_orElse,
    Option.orElse_eq_or, Option.map_or]

theorem argumentFailure?_bare (fn : Builtin) (i : Nat) (arg : Node) :
    argumentFailure? fn i (arg.bare rename) =
      (argumentFailure? fn i arg).map (Failure.bare rename) := by
  have refused := refused?_bare rename fn.descriptor i (.complexArgument i fn) rfl arg
  simp only [argumentFailure?, untyped?_bare, refused, Option.orElse_eq_orElse,
    Option.orElse_eq_or, Option.map_or]

mutual

theorem fix_bare : (n : Node) →
    (n.bare rename).fix = (n.fix.1.bare rename, n.fix.2.map (Failure.bare rename))
  | .binary c t op lhs rhs => by
    rw [bare, fix, fix, fix_bare lhs]
    cases lhs.fix with
    | mk l e =>
      cases e with
      | some e => rfl
      | none =>
        simp only [Option.map_none, fix_bare rhs]
        cases rhs.fix with
        | mk r e =>
          cases e with
          | some e => rfl
          | none =>
            simp only [Option.map_none, operandFailure?_bare, bare_type]
            cases operandFailure? op l r <;> rfl
  | .call c t complexInput fn args => by
    rw [bare, fix, fix, bareAll_eq_map, fixArgs_bare]
    cases fixArgs fn 0 complexInput args with
    | mk found rest =>
      obtain ⟨args', e⟩ := rest
      cases e with
      | some e => simp [bare, bareAll_eq_map]
      | none => simp [bare, bareAll_eq_map]
  | .complex c t re im => rfl
  | .real _ _ | .imaginary _ _ | .z _ | .raw _ _ => rfl

theorem fixArgs_bare (fn : Builtin) (index : Nat) (complexInput : Bool) : (ns : List Node) →
    fixArgs fn index complexInput (ns.map (bare rename)) =
      ((fixArgs fn index complexInput ns).1,
        (fixArgs fn index complexInput ns).2.1.map (bare rename),
        (fixArgs fn index complexInput ns).2.2.map (Failure.bare rename))
  | [] => rfl
  | n :: ns => by
    rw [List.map_cons, fixArgs, fixArgs, fix_bare n]
    cases n.fix with
    | mk a e =>
      cases e with
      | some e => simp
      | none =>
        simp only [Option.map_none, argumentFailure?_bare, bare_type]
        cases argumentFailure? fn index a with
        | some failure => rfl
        | none =>
          simp only [Option.map_none, fixArgs_bare]
          rfl

end

theorem typed_bare (n : Node) :
    (n.bare rename).typed = mapBoth (bare rename) (Failure.bare rename) n.typed := by
  unfold typed
  rw [fix_bare]
  cases n.fix with
  | mk n' e =>
    cases e with
    | none => rfl
    | some e => rfl

end Node

end EscapeTime
