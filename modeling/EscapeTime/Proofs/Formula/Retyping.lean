import EscapeTime.Proofs.Formula.Origin

/-!
# Typing twice

Typing retypes a tree as far as it gets. If it gets through, every node has a type; if it is
stopped, the root of a parsed tree has none. Either way the tree is one that typing leaves as it is,
whatever state it was in before: `fix_fix`.
-/

namespace EscapeTime

namespace Node

/-! ### Where typing was stopped -/

theorem fix_column (n : Node) : n.fix.1.column = n.column := by
  cases n with
  | real | imaginary | complex | z | raw => rfl
  | binary c t op lhs rhs =>
    rw [fix]
    split
    · rfl
    · split
      · rfl
      · split <;> rfl
  | call c t complexInput fn args =>
    rw [fix]
    split <;> rfl

/-- The root of a tree keeps its type when typing is stopped. -/
theorem fix_failed_type {n n' : Node} {failure : Failure} (failed : n.fix = (n', some failure)) :
    n'.type = n.type := by
  cases n with
  | real | imaginary | complex | z | raw => cases failed
  | binary c t op lhs rhs =>
    obtain ⟨l, r, rfl, -⟩ := fix_binary_failed failed
    rfl
  | call c t complexInput fn args =>
    obtain ⟨found, args', -, rfl⟩ := fix_call_failed failed
    rfl

/-- A tree is rejected for an operand or an argument somewhere in it. -/
theorem fix_failed {n n' : Node} {e : FormulaError} (failed : n.fix = (n', some (.rejected e))) :
    e.stage = .typing ∧ (∀ kinds, e.cause ≠ .endOfFormula kinds) ∧
      ∃ m ∈ n.nodes, e.column = m.column := by
  induction n using Node.induction generalizing n' with
  | real | imaginary | complex | z | raw => cases failed
  | binary c t op lhs rhs left right =>
    obtain ⟨l, r, -, cause⟩ := fix_binary_failed failed
    rw [nodes_binary]
    obtain ⟨stopped, -⟩ | ⟨-, stopped⟩ | ⟨fixedLeft, fixedRight, stopped⟩ := cause
    · obtain ⟨stage, other, m, member, column⟩ := left stopped
      exact ⟨stage, other, m, by simp [member], column⟩
    · obtain ⟨stage, other, m, member, column⟩ := right stopped
      exact ⟨stage, other, m, by simp [member], column⟩
    · obtain ⟨-, fault, broken⟩ | ⟨side, rejected⟩ := operandFailure?_some stopped
      · cases broken
      · cases rejected
        refine ⟨rfl, nofun, ?_⟩
        cases side with
        | left => exact ⟨lhs, by simp [mem_nodes], by rw [← fix_column lhs, fixedLeft]; rfl⟩
        | right => exact ⟨rhs, by simp [mem_nodes], by rw [← fix_column rhs, fixedRight]; rfl⟩
  | call c t complexInput fn args each =>
    obtain ⟨found, args', stopped, -⟩ := fix_call_failed failed
    rw [nodes_call]
    obtain ⟨a, there, stopped | ⟨a', fixed, i, -, stopped⟩⟩ := fixArgs_failed stopped
    · obtain ⟨stage, other, m, member, column⟩ := each a there (Prod.ext rfl stopped)
      refine ⟨stage, other, m, List.mem_cons_of_mem _ ?_, column⟩
      exact List.mem_flatMap.mpr ⟨a, there, member⟩
    · obtain ⟨-, fault, broken⟩ | rejected := argumentFailure?_some stopped
      · cases broken
      · cases rejected
        refine ⟨rfl, nofun, a, List.mem_cons_of_mem _ ?_, by rw [← fix_column a, fixed]⟩
        exact List.mem_flatMap.mpr ⟨a, there, a.mem_nodes⟩

/-! ### When typing got through -/

theorem fix_determined {n n' : Node} (done : n.fix = (n', none)) :
    ∀ m ∈ n'.nodes, m.type ≠ .undetermined := by
  induction n using Node.induction generalizing n' with
  | real | imaginary | complex | z | raw =>
    have typed := fix_typed done
    cases done
    rintro m (_ | ⟨_, ⟨⟩⟩)
    exact typed
  | binary c t op lhs rhs left right =>
    obtain ⟨l, r, fixedLeft, fixedRight, -, -, rfl⟩ := fix_binary_ok done
    intro m member
    rw [nodes_binary, List.mem_cons, List.mem_append] at member
    obtain rfl | member | member := member
    · exact ResultRule.resolve_ne_undetermined _ _
    · exact left fixedLeft m member
    · exact right fixedRight m member
  | call c t complexInput fn args each =>
    obtain ⟨found, args', fixed, rfl⟩ := fix_call_ok done
    obtain ⟨all, -, -⟩ := fixArgs_ok fixed
    intro m member
    rw [nodes_call, List.mem_cons, List.mem_flatMap] at member
    obtain rfl | ⟨a', there, member⟩ := member
    · exact ResultRule.resolve_ne_undetermined _ _
    · obtain ⟨a, member', fixed⟩ := exists_of_mem all there
      exact each a member' fixed m member

/-! ### Typing again -/

/-- The flag that typing starts with is only added to: it decides neither the arguments nor the
error. -/
theorem fixArgs_flag (fn : Builtin) (index : Nat) (before : Bool) (args : List Node) :
    fixArgs fn index before args =
      (before || (fixArgs fn index false args).1, (fixArgs fn index false args).2) := by
  induction args generalizing index before with
  | nil => simp [fixArgs]
  | cons arg args ih =>
    rw [fixArgs, fixArgs]
    split
    · simp
    · split
      · simp
      · rw [ih, ih (index + 1) (false || _)]
        simp [Bool.or_assoc]

theorem fixArgs_accepted {fn : Builtin} {index : Nat} {arg a : Node} (args : List Node)
    (fixed : arg.fix = (a, none))
    (accepted : argumentFailure? fn index a = none) :
    fixArgs fn index false (arg :: args) =
      (decide (a.type = .complex) || (fixArgs fn (index + 1) false args).1,
        a :: (fixArgs fn (index + 1) false args).2.1, (fixArgs fn (index + 1) false args).2.2) := by
  simp only [fixArgs, fixed, accepted]
  rw [fixArgs_flag, Bool.false_or]

theorem fixArgs_again (fn : Builtin) (index : Nat) {args : List Node}
    (each : ∀ a ∈ args, a.fix.1.fix = a.fix) :
    fixArgs fn index false (fixArgs fn index false args).2.1 = fixArgs fn index false args := by
  induction args generalizing index with
  | nil => rfl
  | cons arg args ih =>
    have again := each arg List.mem_cons_self
    have rest := ih (index + 1) fun a member => each a (List.mem_cons_of_mem arg member)
    cases fixed : arg.fix with
    | mk a stopped =>
      rw [fixed] at again
      cases stopped with
      | some e => simp only [fixArgs, fixed, again]
      | none =>
        cases checked : argumentFailure? fn index a with
        | some failure => simp only [fixArgs, fixed, again, checked]
        | none => rw [fixArgs_accepted args fixed checked, fixArgs_accepted _ again checked, rest]

theorem fix_fix (n : Node) : n.fix.1.fix = n.fix := by
  induction n using Node.induction with
  | real | imaginary | z | raw => rfl
  | complex c t re im =>
    by_cases fresh : t = .undetermined
    · cases zero : im.value.isZero <;> simp [fix, fresh, zero]
    · simp [fix, fresh]
  | binary c t op lhs rhs left right =>
    -- Typing ends at the left operand, at the right one, at the check of their types, or at the
    -- end. Wherever it did, what came before passes again.
    cases fixedLeft : lhs.fix with
    | mk l stopped =>
      rw [fixedLeft] at left
      cases stopped with
      | some e => simp only [fix, fixedLeft, left]
      | none =>
        cases fixedRight : rhs.fix with
        | mk r stopped =>
          rw [fixedRight] at right
          cases stopped with
          | some e => simp only [fix, fixedLeft, fixedRight, left, right]
          | none =>
            cases checked : operandFailure? op l r <;>
              simp only [fix, fixedLeft, fixedRight, left, right, checked]
  | call c t complexInput fn args each =>
    -- The first run may have set the mark of the call, and the second run starts with it.
    have again := fixArgs_again fn 0 each
    rw [fix, fixArgs_flag]
    cases fixed : fixArgs fn 0 false args with
    | mk found pair =>
      obtain ⟨args', stopped⟩ := pair
      rw [fixed] at again
      dsimp only at again
      cases stopped <;> simp [fix, fixArgs_flag fn 0 (complexInput || found), again]

/-! ### Parsed trees -/

theorem MadeOf.saturated {ts : List Token} {n : Node} (made : n.MadeOf ts) : n.Saturated := by
  induction made with
  | number | zero => exact .real
  | unit => exact .imaginary
  | imaginaryPart => exact .complex
  | z => exact .z
  | raw => exact .raw
  | binary _ _ _ left right => exact .binary left right
  | call _ arity _ each => exact .call arity each

theorem MadeOf.type_of_failed {ts : List Token} {n n' : Node} {failure : Failure}
    (made : n.MadeOf ts) (failed : n.fix = (n', some failure)) : n.type = .undetermined := by
  cases made with
  | number | zero | unit | imaginaryPart | z | raw => cases failed
  | binary | call => rfl

theorem code_undetermined {n : Node} (untyped : n.type = .undetermined) :
    n.code = .error (.undetermined n.column) := by
  cases n with
  | real | imaginary | z | raw => cases untyped
  | complex c t re im =>
    obtain rfl : t = .undetermined := untyped
    rfl
  | binary c t op lhs rhs =>
    obtain rfl : t = .undetermined := untyped
    rfl
  | call c t complexInput fn args =>
    obtain rfl : t = .undetermined := untyped
    rfl

end Node

/-- The tree of any tokens is typed as a whole or not at all: either typing gets through and every
node has a type, or the tree is rejected for a cause, and the root has neither type nor code. Typing
once more gives the same result and the same tree. -/
theorem typing_whole_and_final {ts : List Token} {tree : Node}
    (parsed : Parse.formula ts = .ok tree) :
    (tree.fix.2 = none ∧ (∀ m ∈ tree.fix.1.nodes, m.type ≠ .undetermined) ∨
      ∃ e, tree.fix.2 = some (.rejected e) ∧ e.stage = .typing ∧ tree.fix.1.type = .undetermined ∧
        tree.fix.1.code = .error (.undetermined tree.fix.1.column)) ∧
      tree.fix.1.fix = tree.fix := by
  refine ⟨?_, tree.fix_fix⟩
  cases outcome : tree.fix with
  | mk left stopped =>
    cases stopped with
    | none => exact .inl ⟨rfl, Node.fix_determined outcome⟩
    | some failure =>
      have made := Parse.formula_made parsed
      obtain ⟨e, rfl⟩ := made.saturated.fix_rejected outcome
      obtain ⟨stage, -⟩ := Node.fix_failed outcome
      have untyped : left.type = .undetermined :=
        (Node.fix_failed_type outcome).trans (made.type_of_failed outcome)
      exact .inr ⟨e, rfl, stage, untyped, Node.code_undetermined untyped⟩

/-- The tokens of `avg(z,z%i)`. -/
def meanWithRemainder : List Token :=
  [⟨.function, 0, "avg", false⟩, ⟨.parenOpen, 3, "", false⟩, ⟨.z, 4, "", false⟩,
    ⟨.comma, 5, "", false⟩, ⟨.z, 6, "", false⟩, ⟨.op, 7, "%", false⟩, ⟨.imaginary, 8, "", false⟩,
    ⟨.parenClose, 9, "", false⟩]

/-- Their tree, fresh or with the mark that an argument of `avg` is complex. The first argument sets
the mark, and the remainder in the second one stops typing. -/
def meanOfRemainder (complexInput : Bool) : Node :=
  .call 0 .undetermined complexInput .avg
    [.z 4, .binary 7 .undetermined .mod (.z 6) (.ofImaginary 8 "1")]

theorem meanWithRemainder_typing :
    Parse.formula meanWithRemainder = .ok (meanOfRemainder false) ∧
      (meanOfRemainder false).fix =
        (meanOfRemainder true, some (.rejected ⟨.typing, 6, .complexOperand .left .mod⟩)) ∧
      (meanOfRemainder true).type = .undetermined ∧
      (meanOfRemainder true).code = .error (.undetermined 0) ∧
      (meanOfRemainder true).fix =
        (meanOfRemainder true, some (.rejected ⟨.typing, 6, .complexOperand .left .mod⟩)) := by
  have parsed : Parse.formula meanWithRemainder = .ok (meanOfRemainder false) := rfl
  have stopped : (meanOfRemainder false).fix =
      (meanOfRemainder true, some (.rejected ⟨.typing, 6, .complexOperand .left .mod⟩)) := rfl
  obtain ⟨outcome, final⟩ := typing_whole_and_final parsed
  rw [stopped] at outcome final
  obtain ⟨through, -⟩ | ⟨-, -, -, untyped, noCode⟩ := outcome
  · cases through
  · exact ⟨parsed, stopped, untyped, noCode, final⟩

end EscapeTime
