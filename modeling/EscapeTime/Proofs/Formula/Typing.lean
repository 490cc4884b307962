import EscapeTime.Formula.Code
import EscapeTime.Formula.Typing
import EscapeTime.Formula.Value
import EscapeTime.Proofs.Outcome

/-!
# Typed trees

Typing turns a tree as the parser builds it into one in which every node has its type and every
operator and function has a form for its arguments. Such a tree has shader code, and without raw
code it has a value.
-/

namespace EscapeTime

/-! ### Descriptors -/

/-- How many values the function takes. -/
def Meaning.arity : Meaning → Nat
  | unary _ => 1
  | binary _ => 2
  | ternary _ => 3

/-- Code and meaning of the form are for this many arguments. -/
structure Form.Fits (form : Form) (arity : Nat) : Prop where
  slots : form.template.slots ≤ arity
  meaning : form.meaning.arity = arity

theorem Operator.slots_eq {op : Operator} {complexInput : Bool} {form : Form}
    (known : op.descriptor.form complexInput = some form) : form.template.slots = 2 := by
  cases op <;> cases complexInput <;> cases known <;> decide

/-- A form uses all its arguments, but for the real one of `im`. -/
theorem Builtin.slots_eq {fn : Builtin} {complexInput : Bool} {form : Form}
    (known : fn.descriptor.form complexInput = some form) :
    form.template.slots = if complexInput || fn ≠ .im then fn.descriptor.arity else 0 := by
  cases fn <;> cases complexInput <;> cases known <;> decide

theorem Operator.form_fits {op : Operator} {complexInput : Bool} {form : Form}
    (known : op.descriptor.form complexInput = some form) : form.Fits 2 := by
  refine ⟨Nat.le_of_eq (slots_eq known), ?_⟩
  cases op <;> cases complexInput <;> cases known <;> rfl

theorem Builtin.form_fits {fn : Builtin} {complexInput : Bool} {form : Form}
    (known : fn.descriptor.form complexInput = some form) : form.Fits fn.descriptor.arity := by
  constructor
  · rw [slots_eq known]
    split <;> omega
  · cases fn <;> cases complexInput <;> cases known <;> rfl

/-- An operator has a form for all operands that it takes. -/
theorem Operator.form_isSome (op : Operator) : ∀ left right : Bool,
    (left = true → op.descriptor.realOnly? 0 = some false) →
    (right = true → op.descriptor.realOnly? 1 = some false) →
    (op.descriptor.form (op.descriptor.output.resolve (left || right) ≠ .real)).isSome := by
  cases op <;> decide

/-- A function without a complex form takes real arguments only. -/
theorem Builtin.real_of_no_complex {fn : Builtin} (none : fn.descriptor.complex = none) :
    ∀ i < fn.descriptor.arity, fn.descriptor.realOnly? i = some true := by
  cases fn <;> cases none <;> decide

theorem Operator.arity_eq (op : Operator) : op.descriptor.arity = 2 := by
  cases op <;> rfl

theorem Descriptor.realOnly?_eq_none {d : Descriptor} {i : Nat} (none : d.realOnly? i = none) :
    d.arity ≤ i :=
  List.getElem?_eq_none_iff.mp (Option.map_eq_none_iff.mp none)

theorem ResultRule.resolve_ne_undetermined (rule : ResultRule) (complexInput : Bool) :
    rule.resolve complexInput ≠ .undetermined := by
  cases rule <;> cases complexInput <;> decide

theorem Form.fill_ok {form : Form} {args : List String} (fits : form.Fits args.length) :
    Form.fill (some form) args =
      .ok (String.ofList form.template.lead ++ Template.weave form.template.tail args) := by
  simp only [Form.fill, Template.fill?, Nat.not_lt.mpr fits.slots, if_false]

theorem Form.compose_ok {form : Form} {args : List (Point → Point)} (fits : form.Fits args.length) :
    ∃ f, Form.compose (some form) args = .ok f := by
  obtain ⟨template, meaning⟩ := form
  have arity := fits.meaning
  match meaning, args with
  | .unary f, [a] => exact ⟨_, rfl⟩
  | .binary f, [a, b] => exact ⟨_, rfl⟩
  | .ternary f, [a, b, c] => exact ⟨_, rfl⟩
  | .unary _, [] | .unary _, _ :: _ :: _ => simp [Meaning.arity] at arity
  | .binary _, [] | .binary _, [_] | .binary _, _ :: _ :: _ :: _ => simp [Meaning.arity] at arity
  | .ternary _, [] | .ternary _, [_] | .ternary _, [_, _] | .ternary _, _ :: _ :: _ :: _ :: _ =>
    simp [Meaning.arity] at arity

namespace Node

/-! ### Trees before and after typing -/

/-- A run of digits and points that is not a single point, which is what a number token holds. -/
def IsNumeral (numeral : String) : Prop :=
  (numeral ≠ "" ∧ numeral ≠ ".") ∧ ∀ c ∈ numeral.toList, '0' ≤ c ∧ c ≤ '9' ∨ c = '.'

-- The characters of the numeral are tried, not all characters there are.
instance (numeral : String) : Decidable (IsNumeral numeral) :=
  @instDecidableAnd _ _ inferInstance (List.decidableBAll _ numeral.toList)

/-- The literal is that of a numeral. -/
def IsLiteral (v : Literal) : Prop :=
  ∃ numeral, IsNumeral numeral ∧ v = .ofNumeral numeral

theorem isLiteral_zero : IsLiteral (.ofNumeral "0") :=
  ⟨"0", by decide, rfl⟩

theorem isLiteral_one : IsLiteral (.ofNumeral "1") :=
  ⟨"1", by decide, rfl⟩

/-- A tree as the parser builds it: no operation has a type, and each has all its arguments. -/
inductive Parsed : Node → Prop
  | real {c : Int} {v : Literal} : IsLiteral v → Parsed (.real c v)
  | imaginary {c : Int} : Parsed (.imaginary c (.ofNumeral "1"))
  | complex {c : Int} {im : Literal} :
    IsLiteral im → Parsed (.complex c .undetermined (.ofNumeral "0") im)
  | z {c : Int} : Parsed (.z c)
  | raw {c : Int} {text : String} : Parsed (.raw c text)
  | binary {c : Int} {op : Operator} {lhs rhs : Node} :
    Parsed lhs → Parsed rhs → Parsed (.binary c .undetermined op lhs rhs)
  | call {c : Int} {fn : Builtin} {args : List Node} :
    args.length = fn.descriptor.arity → (∀ a ∈ args, Parsed a) →
      Parsed (.call c .undetermined false fn args)

/-- A tree in which every node has its type, and every operation a form and all its arguments. -/
inductive WellTyped : Node → Prop
  | real {c : Int} {v : Literal} : IsLiteral v → WellTyped (.real c v)
  | imaginary {c : Int} {v : Literal} : IsLiteral v → WellTyped (.imaginary c v)
  | complex {c : Int} {t : ValueType} {re im : Literal} :
    t ≠ .undetermined → IsLiteral re → IsLiteral im → WellTyped (.complex c t re im)
  | z {c : Int} : WellTyped (.z c)
  | raw {c : Int} {text : String} : WellTyped (.raw c text)
  | binary {c : Int} {t : ValueType} {op : Operator} {lhs rhs : Node} {form : Form} :
    t ≠ .undetermined → op.descriptor.form (t ≠ .real) = some form → WellTyped lhs →
      WellTyped rhs → WellTyped (.binary c t op lhs rhs)
  | call {c : Int} {t : ValueType} {complexInput : Bool} {fn : Builtin} {args : List Node}
      {form : Form} :
    t ≠ .undetermined → fn.descriptor.form complexInput = some form →
      args.length = fn.descriptor.arity → (∀ a ∈ args, WellTyped a) →
      WellTyped (.call c t complexInput fn args)

/-! ### What stops typing -/

theorem untyped?_eq_none {n : Node} : n.untyped? = none ↔ n.type ≠ .undetermined := by
  unfold untyped?
  split <;> simp_all

theorem untyped?_some {n : Node} {failure : Failure} (stopped : n.untyped? = some failure) :
    n.type = .undetermined ∧ ∃ fault, failure = .broken fault := by
  unfold untyped? at stopped
  split at stopped
  · cases stopped
    exact ⟨‹_›, _, rfl⟩
  · cases stopped

theorem refused?_eq_none {d : Descriptor} {i : Nat} {cause : Cause} {n : Node} :
    n.refused? d i cause = none ↔ (n.type = .complex → d.realOnly? i = some false) := by
  unfold refused?
  split
  · rename_i complex
    cases rule : d.realOnly? i with
    | none => simp [complex]
    | some realOnly => cases realOnly <;> simp [complex]
  · rename_i real
    exact ⟨fun _ complex => absurd complex real, fun _ => rfl⟩

theorem refused?_some {d : Descriptor} {i : Nat} {cause : Cause} {n : Node} {failure : Failure}
    (stopped : n.refused? d i cause = some failure) :
    d.arity ≤ i ∧ (∃ fault, failure = .broken fault) ∨
      failure = .rejected ⟨.typing, n.column, cause⟩ := by
  unfold refused? at stopped
  split at stopped
  · cases rule : d.realOnly? i with
    | none =>
      rw [rule] at stopped
      cases stopped
      exact .inl ⟨Descriptor.realOnly?_eq_none rule, _, rfl⟩
    | some realOnly =>
      rw [rule] at stopped
      cases realOnly <;> cases stopped
      exact .inr rfl
  · cases stopped

theorem operandFailure?_eq_none {op : Operator} {l r : Node} :
    operandFailure? op l r = none ↔
      (l.type ≠ .undetermined ∧ r.type ≠ .undetermined) ∧
        (l.type = .complex → op.descriptor.realOnly? 0 = some false) ∧
        (r.type = .complex → op.descriptor.realOnly? 1 = some false) := by
  simp only [operandFailure?, Option.orElse_eq_orElse, Option.orElse_eq_or, Option.or_eq_none_iff,
    untyped?_eq_none, refused?_eq_none, and_assoc]

/-- Typed operands are refused for a cause. -/
theorem operandFailure?_some {op : Operator} {l r : Node} {failure : Failure}
    (stopped : operandFailure? op l r = some failure) :
    (l.type = .undetermined ∨ r.type = .undetermined) ∧ (∃ fault, failure = .broken fault) ∨
      ∃ side, failure = .rejected
        ⟨.typing, (if side = .left then l else r).column, .complexOperand side op⟩ := by
  have arity := op.arity_eq
  simp only [operandFailure?, Option.orElse_eq_orElse, Option.orElse_eq_or, Option.or_eq_some_iff]
    at stopped
  obtain stopped | ⟨-, stopped | ⟨-, stopped | ⟨-, stopped⟩⟩⟩ := stopped
  · obtain ⟨untyped, broken⟩ := untyped?_some stopped
    exact .inl ⟨.inl untyped, broken⟩
  · obtain ⟨untyped, broken⟩ := untyped?_some stopped
    exact .inl ⟨.inr untyped, broken⟩
  · obtain ⟨few, -⟩ | rejected := refused?_some stopped
    · omega
    · exact .inr ⟨.left, rejected⟩
  · obtain ⟨few, -⟩ | rejected := refused?_some stopped
    · omega
    · exact .inr ⟨.right, rejected⟩

theorem argumentFailure?_eq_none {fn : Builtin} {i : Nat} {arg : Node} :
    argumentFailure? fn i arg = none ↔
      arg.type ≠ .undetermined ∧ (arg.type = .complex → fn.descriptor.realOnly? i = some false) := by
  simp only [argumentFailure?, Option.orElse_eq_orElse, Option.orElse_eq_or, Option.or_eq_none_iff,
    untyped?_eq_none, refused?_eq_none]

/-- A typed argument that the function takes is refused for a cause. -/
theorem argumentFailure?_some {fn : Builtin} {i : Nat} {arg : Node} {failure : Failure}
    (stopped : argumentFailure? fn i arg = some failure) :
    (arg.type = .undetermined ∨ fn.descriptor.arity ≤ i) ∧ (∃ fault, failure = .broken fault) ∨
      failure = .rejected ⟨.typing, arg.column, .complexArgument i fn⟩ := by
  simp only [argumentFailure?, Option.orElse_eq_orElse, Option.orElse_eq_or, Option.or_eq_some_iff]
    at stopped
  obtain stopped | ⟨-, stopped⟩ := stopped
  · obtain ⟨untyped, broken⟩ := untyped?_some stopped
    exact .inl ⟨.inl untyped, broken⟩
  · obtain ⟨few, broken⟩ | rejected := refused?_some stopped
    · exact .inl ⟨.inr few, broken⟩
    · exact .inr rejected

/-! ### What typing did -/

theorem fix_binary_ok {c : Int} {t : ValueType} {op : Operator} {lhs rhs n : Node}
    (done : (Node.binary c t op lhs rhs).fix = (n, none)) :
    ∃ l r, lhs.fix = (l, none) ∧ rhs.fix = (r, none) ∧
      (l.type = .complex → op.descriptor.realOnly? 0 = some false) ∧
      (r.type = .complex → op.descriptor.realOnly? 1 = some false) ∧
      n = .binary c (op.descriptor.output.resolve
        (decide (l.type = .complex) || decide (r.type = .complex))) op l r := by
  rw [fix] at done
  split at done
  · cases done
  · rename_i l left
    split at done
    · cases done
    · rename_i r right
      split at done
      · cases done
      · rename_i taken
        cases done
        obtain ⟨-, leftReal, rightReal⟩ := operandFailure?_eq_none.mp taken
        exact ⟨l, r, left, right, leftReal, rightReal, rfl⟩

theorem fixArgs_ok {fn : Builtin} {index : Nat} {before after : Bool} {args args' : List Node}
    (done : fixArgs fn index before args = (after, args', none)) :
    List.Forall₂ (fun a a' => a.fix = (a', none)) args args' ∧
      (after = true ↔ before = true ∨ ∃ a ∈ args', a.type = .complex) ∧
      ∀ i a, args'[i]? = some a → a.type = .complex →
        fn.descriptor.realOnly? (index + i) = some false := by
  induction args generalizing index before args' with
  | nil =>
    cases done
    exact ⟨.nil, by simp, by simp⟩
  | cons arg args ih =>
    rw [fixArgs] at done
    split at done
    · cases done
    · rename_i a fixed
      split at done
      · cases done
      · rename_i taken
        obtain ⟨rest, known⟩ : ∃ rest,
            fixArgs fn (index + 1) (before || decide (a.type = .complex)) args =
              (after, rest, none) ∧ args' = a :: rest := by
          cases more : fixArgs fn (index + 1) (before || decide (a.type = .complex)) args with
          | mk after' pair =>
            rw [more] at done
            obtain ⟨rest, e⟩ := pair
            cases done
            exact ⟨rest, rfl, rfl⟩
        obtain ⟨more, rfl⟩ := known
        obtain ⟨all, input, places⟩ := ih more
        refine ⟨.cons fixed all, ?_, ?_⟩
        · rw [input]
          simp [or_assoc]
        · intro i b there complex
          cases i with
          | zero =>
            cases there
            exact (argumentFailure?_eq_none.mp taken).2 complex
          | succ i =>
            have place := places i b there complex
            rwa [Nat.add_right_comm, Nat.add_assoc] at place

theorem fix_call_ok {c : Int} {t : ValueType} {complexInput : Bool} {fn : Builtin}
    {args : List Node} {n : Node} (done : (Node.call c t complexInput fn args).fix = (n, none)) :
    ∃ found args', fixArgs fn 0 complexInput args = (found, args', none) ∧
      n = .call c (fn.descriptor.output.resolve found) found fn args' := by
  rw [fix] at done
  split at done
  · cases done
  · rename_i found args' fixed
    cases done
    exact ⟨found, args', fixed, rfl⟩

theorem Parsed.fix_wellTyped {n n' : Node} (parsed : n.Parsed) (done : n.fix = (n', none)) :
    n'.WellTyped := by
  induction parsed generalizing n' with
  | real literal =>
    cases done
    exact .real literal
  | imaginary =>
    cases done
    exact .imaginary isLiteral_one
  | @complex _ im literal =>
    cases done
    refine .complex ?_ isLiteral_zero literal
    cases im.value.isZero <;> decide
  | z =>
    cases done
    exact .z
  | raw =>
    cases done
    exact .raw
  | @binary _ op _ _ _ _ ihl ihr =>
    obtain ⟨l, r, left, right, leftReal, rightReal, rfl⟩ := fix_binary_ok done
    obtain ⟨form, known⟩ := Option.isSome_iff_exists.mp <|
      op.form_isSome (decide (l.type = .complex)) (decide (r.type = .complex))
        (fun complex => leftReal (of_decide_eq_true complex))
        (fun complex => rightReal (of_decide_eq_true complex))
    exact .binary (ResultRule.resolve_ne_undetermined _ _) known (ihl left) (ihr right)
  | @call _ fn args arity _ ih =>
    obtain ⟨found, args', fixed, rfl⟩ := fix_call_ok done
    obtain ⟨all, input, places⟩ := fixArgs_ok fixed
    have typed := fn.descriptor.output.resolve_ne_undetermined found
    have arity' : args'.length = fn.descriptor.arity := all.length_eq.symm.trans arity
    have each : ∀ a ∈ args', a.WellTyped := by
      intro a' member
      obtain ⟨i, bound, rfl⟩ := List.mem_iff_getElem.mp member
      have bound' : i < args.length := by rwa [all.length_eq]
      exact ih args[i] (List.getElem_mem bound') (all.get bound' bound)
    cases found with
    | false => exact .call typed rfl arity' each
    | true =>
      -- A complex argument stands where one may, so the function has a complex form.
      obtain ⟨a, member, complex⟩ := (input.mp rfl).resolve_left Bool.false_ne_true
      obtain ⟨i, bound, rfl⟩ := List.mem_iff_getElem.mp member
      have place := places i _ (List.getElem?_eq_getElem bound) complex
      cases form : fn.descriptor.complex with
      | some complexForm => exact .call typed form arity' each
      | none =>
        have real := Builtin.real_of_no_complex form i (arity' ▸ bound)
        rw [Nat.zero_add, real] at place
        cases place

/-! ### Where typing was stopped -/

theorem fix_binary_failed {c : Int} {t : ValueType} {op : Operator} {lhs rhs n : Node}
    {failure : Failure} (failed : (Node.binary c t op lhs rhs).fix = (n, some failure)) :
    ∃ l r, n = .binary c t op l r ∧
      (lhs.fix = (l, some failure) ∧ r = rhs ∨
        lhs.fix = (l, none) ∧ rhs.fix = (r, some failure) ∨
        lhs.fix = (l, none) ∧ rhs.fix = (r, none) ∧ operandFailure? op l r = some failure) := by
  rw [fix] at failed
  split at failed
  · rename_i l _ left
    cases failed
    exact ⟨l, rhs, rfl, .inl ⟨left, rfl⟩⟩
  · rename_i l left
    split at failed
    · rename_i r _ right
      cases failed
      exact ⟨l, r, rfl, .inr (.inl ⟨left, right⟩)⟩
    · rename_i r right
      split at failed
      · rename_i stopped
        cases failed
        exact ⟨l, r, rfl, .inr (.inr ⟨left, right, stopped⟩)⟩
      · cases failed

theorem fixArgs_failed {fn : Builtin} {index : Nat} {before after : Bool} {args args' : List Node}
    {failure : Failure} (failed : fixArgs fn index before args = (after, args', some failure)) :
    ∃ a ∈ args, a.fix.2 = some failure ∨ ∃ a', a.fix = (a', none) ∧
      ∃ i < index + args.length, argumentFailure? fn i a' = some failure := by
  induction args generalizing index before after args' with
  | nil => cases failed
  | cons arg args ih =>
    rw [fixArgs] at failed
    split at failed
    · rename_i a _ stopped
      cases failed
      exact ⟨arg, List.mem_cons_self, .inl (by rw [stopped])⟩
    · rename_i a fixed
      split at failed
      · rename_i stopped
        cases failed
        exact ⟨arg, List.mem_cons_self, .inr ⟨a, fixed, index, by simp, stopped⟩⟩
      · cases more : fixArgs fn (index + 1) (before || decide (a.type = .complex)) args with
        | mk after' pair =>
          obtain ⟨rest, stopped⟩ := pair
          rw [more] at failed
          cases failed
          obtain ⟨b, member, cause⟩ := ih more
          rw [Nat.add_right_comm] at cause
          exact ⟨b, List.mem_cons_of_mem arg member, cause⟩

theorem fix_call_failed {c : Int} {t : ValueType} {complexInput : Bool} {fn : Builtin}
    {args : List Node} {n : Node} {failure : Failure}
    (failed : (Node.call c t complexInput fn args).fix = (n, some failure)) :
    ∃ found args', fixArgs fn 0 complexInput args = (found, args', some failure) ∧
      n = .call c t found fn args' := by
  rw [fix] at failed
  split at failed
  · rename_i found args' _ stopped
    cases failed
    exact ⟨found, args', stopped, rfl⟩
  · cases failed

/-- Typing that gets through gives the root a type. -/
theorem fix_typed {n n' : Node} (done : n.fix = (n', none)) : n'.type ≠ .undetermined := by
  cases n with
  | real | imaginary | z | raw =>
    cases done
    intro same
    cases same
  | complex c t re im =>
    cases done
    show (if t = .undetermined then if im.value.isZero then .real else .complex else t) ≠
      ValueType.undetermined
    split
    · cases im.value.isZero <;> decide
    · assumption
  | binary c t op lhs rhs =>
    obtain ⟨l, r, -, -, -, -, rfl⟩ := fix_binary_ok done
    exact ResultRule.resolve_ne_undetermined _ _
  | call c t complexInput fn args =>
    obtain ⟨found, args', -, rfl⟩ := fix_call_ok done
    exact ResultRule.resolve_ne_undetermined _ _

/-- Every call has as many arguments as its function takes. -/
inductive Saturated : Node → Prop
  | real {c : Int} {v : Literal} : Saturated (.real c v)
  | imaginary {c : Int} {v : Literal} : Saturated (.imaginary c v)
  | complex {c : Int} {t : ValueType} {re im : Literal} : Saturated (.complex c t re im)
  | z {c : Int} : Saturated (.z c)
  | raw {c : Int} {text : String} : Saturated (.raw c text)
  | binary {c : Int} {t : ValueType} {op : Operator} {lhs rhs : Node} :
    Saturated lhs → Saturated rhs → Saturated (.binary c t op lhs rhs)
  | call {c : Int} {t : ValueType} {complexInput : Bool} {fn : Builtin} {args : List Node} :
    args.length = fn.descriptor.arity → (∀ a ∈ args, Saturated a) →
      Saturated (.call c t complexInput fn args)

theorem Parsed.saturated {n : Node} (parsed : n.Parsed) : n.Saturated := by
  induction parsed with
  | real => exact .real
  | imaginary => exact .imaginary
  | complex => exact .complex
  | z => exact .z
  | raw => exact .raw
  | binary _ _ left right => exact .binary left right
  | call arity _ each => exact .call arity each

/-- No precondition of typing is broken in such a tree, whatever types it has: it is rejected for a
cause. -/
theorem Saturated.fix_rejected {n n' : Node} {failure : Failure} (full : n.Saturated)
    (failed : n.fix = (n', some failure)) : ∃ e, failure = .rejected e := by
  induction full generalizing n' with
  | real | imaginary | complex | z | raw => cases failed
  | binary _ _ left right =>
    obtain ⟨l, r, -, ⟨stopped, -⟩ | ⟨-, stopped⟩ | ⟨fixedLeft, fixedRight, stopped⟩⟩ :=
      fix_binary_failed failed
    · exact left stopped
    · exact right stopped
    · obtain ⟨untyped | untyped, -⟩ | ⟨side, rejected⟩ := operandFailure?_some stopped
      · exact absurd untyped (fix_typed fixedLeft)
      · exact absurd untyped (fix_typed fixedRight)
      · exact ⟨_, rejected⟩
  | call arity _ each =>
    obtain ⟨found, args', stopped, -⟩ := fix_call_failed failed
    obtain ⟨a, there, stopped | ⟨a', fixed, i, below, stopped⟩⟩ := fixArgs_failed stopped
    · exact each a there (Prod.ext rfl stopped)
    · obtain ⟨untyped | beyond, -⟩ | rejected := argumentFailure?_some stopped
      · exact absurd untyped (fix_typed fixed)
      · omega
      · exact ⟨_, rejected⟩

/-! ### Code and value -/

theorem codeAll_eq_mapM (ns : List Node) : codeAll ns = ns.mapM code := by
  induction ns with
  | nil => rfl
  | cons n ns ih => rw [codeAll, ih, List.mapM_cons]

theorem valueAll_eq_mapM (ns : List Node) : valueAll ns = ns.mapM value := by
  induction ns with
  | nil => rfl
  | cons n ns ih => rw [valueAll, ih, List.mapM_cons]

theorem anyRaw_eq_any (ns : List Node) : anyRaw ns = ns.any hasRaw := by
  induction ns with
  | nil => rfl
  | cons n ns ih => rw [anyRaw, ih, List.any_cons]

theorem code_binary {c : Int} {t : ValueType} {op : Operator} {lhs rhs : Node} {l r : String}
    (typed : t ≠ .undetermined) (left : lhs.code = .ok l) (right : rhs.code = .ok r) :
    (Node.binary c t op lhs rhs).code = Form.fill (op.descriptor.form (t ≠ .real)) [l, r] := by
  rw [code, left, right]
  simp only [typed, if_false]
  rfl

theorem code_call {c : Int} {t : ValueType} {complexInput : Bool} {fn : Builtin}
    {args : List Node} {codes : List String} (typed : t ≠ .undetermined)
    (all : List.Forall₂ (fun n c => n.code = .ok c) args codes) :
    (Node.call c t complexInput fn args).code =
      Form.fill (fn.descriptor.form complexInput) codes := by
  rw [code, codeAll_eq_mapM, mapM_ok_iff.mpr all]
  simp only [typed, if_false]
  rfl

theorem value_binary {c : Int} {t : ValueType} {op : Operator} {lhs rhs : Node}
    {l r : Point → Point} (left : lhs.value = .ok l) (right : rhs.value = .ok r) :
    (Node.binary c t op lhs rhs).value =
      Form.compose (op.descriptor.form (t ≠ .real)) [l, r] := by
  rw [value, left, right]
  rfl

theorem value_call {c : Int} {t : ValueType} {complexInput : Bool} {fn : Builtin}
    {args : List Node} {functions : List (Point → Point)}
    (all : List.Forall₂ (fun n f => n.value = .ok f) args functions) :
    (Node.call c t complexInput fn args).value =
      Form.compose (fn.descriptor.form complexInput) functions := by
  rw [value, valueAll_eq_mapM, mapM_ok_iff.mpr all]
  rfl

theorem WellTyped.code_ok {n : Node} (typed : n.WellTyped) : ∃ text, n.code = .ok text := by
  induction typed with
  | real | imaginary | z | raw => exact ⟨_, rfl⟩
  | complex determined =>
    rw [code, if_neg determined]
    exact ⟨_, rfl⟩
  | binary determined known _ _ ihl ihr =>
    obtain ⟨l, left⟩ := ihl
    obtain ⟨r, right⟩ := ihr
    rw [code_binary determined left right, known, Form.fill_ok (Operator.form_fits known)]
    exact ⟨_, rfl⟩
  | call determined known arity _ ih =>
    obtain ⟨codes, all⟩ := exists_forall₂ ih
    have fits := Builtin.form_fits known
    rw [← arity, all.length_eq] at fits
    rw [code_call determined all, known, Form.fill_ok fits]
    exact ⟨_, rfl⟩

theorem WellTyped.value_ok {n : Node} (typed : n.WellTyped) (plain : n.hasRaw = false) :
    ∃ f, n.value = .ok f := by
  induction typed with
  | real | imaginary | z | complex => exact ⟨_, rfl⟩
  | raw => cases plain
  | binary determined known _ _ ihl ihr =>
    rw [hasRaw, Bool.or_eq_false_iff] at plain
    obtain ⟨l, left⟩ := ihl plain.1
    obtain ⟨r, right⟩ := ihr plain.2
    obtain ⟨f, composed⟩ := @Form.compose_ok _ [l, r] (Operator.form_fits known)
    exact ⟨f, by rw [value_binary left right, known, composed]⟩
  | call determined known arity _ ih =>
    rw [hasRaw, anyRaw_eq_any, List.any_eq_false] at plain
    obtain ⟨functions, all⟩ := exists_forall₂ fun a member =>
      ih a member (Bool.eq_false_iff.mpr (plain a member))
    have fits := Builtin.form_fits known
    rw [← arity, all.length_eq] at fits
    obtain ⟨f, composed⟩ := Form.compose_ok fits
    exact ⟨f, by rw [value_call all, known, composed]⟩

/-! ### Raw code -/

mutual

/-- The raw code of the tree, from left to right. -/
def rawCodes : Node → List String
  | .raw _ code => [code]
  | .binary _ _ _ lhs rhs => rawCodes lhs ++ rawCodes rhs
  | .call _ _ _ _ args => allRawCodes args
  | _ => []

def allRawCodes : List Node → List String
  | [] => []
  | n :: ns => rawCodes n ++ allRawCodes ns

end

theorem allRawCodes_eq_flatMap (ns : List Node) : allRawCodes ns = ns.flatMap rawCodes := by
  induction ns with
  | nil => rfl
  | cons n ns ih => rw [allRawCodes, ih, List.flatMap_cons]

mutual

theorem hasRaw_iff : (n : Node) → (n.hasRaw = true ↔ n.rawCodes ≠ [])
  | .binary _ _ _ lhs rhs => by
    rw [hasRaw, rawCodes, Bool.or_eq_true, hasRaw_iff lhs, hasRaw_iff rhs, Ne, Ne, Ne,
      List.append_eq_nil_iff, not_and_or]
  | .call _ _ _ _ args => by
    rw [hasRaw, rawCodes, anyRaw_iff args]
  | .raw _ _ | .real _ _ | .imaginary _ _ | .complex _ _ _ _ | .z _ => by simp [hasRaw, rawCodes]

theorem anyRaw_iff : (ns : List Node) → (anyRaw ns = true ↔ allRawCodes ns ≠ [])
  | [] => by simp [anyRaw, allRawCodes]
  | n :: ns => by
    rw [anyRaw, allRawCodes, Bool.or_eq_true, hasRaw_iff n, anyRaw_iff ns, Ne, Ne, Ne,
      List.append_eq_nil_iff, not_and_or]

end

/-- Typing does not touch raw code. -/
theorem Parsed.fix_rawCodes {n n' : Node} (parsed : n.Parsed) (done : n.fix = (n', none)) :
    n'.rawCodes = n.rawCodes := by
  induction parsed generalizing n' with
  | real | imaginary | complex | z | raw =>
    cases done
    rfl
  | binary _ _ ihl ihr =>
    obtain ⟨l, r, left, right, -, -, rfl⟩ := fix_binary_ok done
    rw [rawCodes, rawCodes, ihl left, ihr right]
  | @call _ _ args arity parsed ih =>
    obtain ⟨found, args', fixed, rfl⟩ := fix_call_ok done
    obtain ⟨all, -, -⟩ := fixArgs_ok fixed
    have each : ∀ a ∈ args, ∀ a', a.fix = (a', none) → a'.rawCodes = a.rawCodes :=
      fun a member a' => ih a member
    have both := (List.forall₂_and_left _ _).mpr ⟨each, all⟩
    rw [rawCodes, rawCodes, allRawCodes_eq_flatMap, allRawCodes_eq_flatMap]
    clear done fixed all each ih arity parsed
    induction both with
    | nil => rfl
    | cons first _ rest => rw [List.flatMap_cons, List.flatMap_cons, first.1 _ first.2, rest]

theorem Parsed.fix_hasRaw {n n' : Node} (parsed : n.Parsed) (done : n.fix = (n', none)) :
    n'.hasRaw = n.hasRaw := by
  rw [Bool.eq_iff_iff, hasRaw_iff, hasRaw_iff, parsed.fix_rawCodes done]

end Node

end EscapeTime
