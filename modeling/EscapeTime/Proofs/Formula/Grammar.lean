import EscapeTime.Formula.Parser

/-!
# The grammar of formulas

Which tokens make an expression, and its tree. A chain of operands is bracketed in the one way in
which `^` binds tighter than `*`, `/` and `%`, these bind tighter than `+` and `-`, and operators
that bind alike group to the left: `Bracketing.ext_of_chain` shows that there is no other way.
-/

namespace EscapeTime

theorem Operator.ofSymbol?_symbol (op : Operator) : ofSymbol? op.symbol = some op := by
  cases op <;> decide

theorem Builtin.ofName?_name (fn : Builtin) : ofName? fn.name = some fn := by
  cases fn <;> decide

/-- A token of the language: its operator or function is one, and an operator that was not typed is
a multiplication. -/
def Token.Known (t : Token) : Prop :=
  (t.kind = .op → (Operator.ofSymbol? t.text).isSome) ∧
    (t.kind = .function → (Builtin.ofName? t.text).isSome) ∧
    (t.kind = .op → t.implicit = true → t.text = "*")

instance (t : Token) : Decidable t.Known :=
  inferInstanceAs (Decidable (_ ∧ _ ∧ _))

/-- How tight an operator binds. -/
def Operator.tier : Operator → Nat
  | add | sub => 1
  | mul | div | mod => 2
  | pow => 3

theorem Operator.precedence_eq (op : Operator) : op.precedence = 10 * (op.tier + 1) := by
  cases op <;> rfl

namespace Grammar

/-! ### Chains of operands -/

/-- An operator of a chain, with its column, and the operand after it. -/
structure Link where
  column : Int
  op : Operator
  operand : Node

/-- A way to bracket a chain of operands. -/
inductive Bracketing where
  | operand (n : Node)
  | join (column : Int) (op : Operator) (lhs rhs : Bracketing)

namespace Bracketing

/-- The first operand of the chain. -/
def first : Bracketing → Node
  | operand n => n
  | join _ _ lhs _ => lhs.first

/-- The rest of the chain. -/
def links : Bracketing → List Link
  | operand _ => []
  | join column op lhs rhs => lhs.links ++ ⟨column, op, rhs.first⟩ :: rhs.links

/-- The tree that applies the operators as they are bracketed. -/
def tree : Bracketing → Node
  | operand n => n
  | join column op lhs rhs => .apply₂ column op lhs.tree rhs.tree

/-- No operator binds looser than `tier`, and each one has those that bind tighter on both its sides
and those that bind alike on its left. -/
def Binds (tier : Nat) : Bracketing → Prop
  | operand _ => True
  | join _ op lhs rhs => tier ≤ op.tier ∧ lhs.Binds op.tier ∧ rhs.Binds (op.tier + 1)

theorem Binds.links_ge {b : Bracketing} {m : Nat} (binds : b.Binds m) :
    ∀ l ∈ b.links, m ≤ l.op.tier := by
  induction b generalizing m with
  | operand => simp [links]
  | join column op lhs rhs ihl ihr =>
    obtain ⟨le, left, right⟩ := binds
    intro l member
    simp only [links, List.mem_append, List.mem_cons] at member
    obtain member | rfl | member := member
    · exact Nat.le_trans le (ihl left l member)
    · exact le
    · have := ihr right l member
      omega

/-- The root of one bracketing of a chain does not stand before that of another: seen from the first
root the second would bind tighter, and seen from the second it would not. -/
theorem root_not_before {l l' : Link} {rhs lhs' : Bracketing} {before between after : List Link}
    (right : rhs.Binds (l.op.tier + 1)) (left : lhs'.Binds l'.op.tier)
    (rightLinks : rhs.links = between ++ l' :: after)
    (leftLinks : lhs'.links = before ++ l :: between) : False := by
  have tighter := right.links_ge l' (by simp [rightLinks])
  have looser := left.links_ge l (by simp [leftLinks])
  omega

/-- The roots of two bracketings of one chain stand in the same place. -/
theorem root_eq {c c' : Int} {op op' : Operator} {lhs rhs lhs' rhs' : Bracketing} {m m' : Nat}
    (binds : (join c op lhs rhs).Binds m) (binds' : (join c' op' lhs' rhs').Binds m')
    (same : (join c op lhs rhs).links = (join c' op' lhs' rhs').links) :
    lhs.links = lhs'.links ∧ Link.mk c op rhs.first = ⟨c', op', rhs'.first⟩ ∧
      rhs.links = rhs'.links := by
  obtain ⟨-, left, right⟩ := binds
  obtain ⟨-, left', right'⟩ := binds'
  simp only [links] at same
  obtain ⟨between, before, after⟩ | ⟨between, before, after⟩ :=
    List.append_eq_append_iff.mp same
  · cases between with
    | nil =>
      simp only [List.append_nil, List.nil_append, List.cons.injEq] at before after
      exact ⟨before.symm, after⟩
    | cons l between =>
      simp only [List.cons_append, List.cons.injEq] at after
      obtain ⟨rfl, after⟩ := after
      exact (root_not_before right left' after before).elim
  · cases between with
    | nil =>
      simp only [List.append_nil, List.nil_append, List.cons.injEq] at before after
      exact ⟨before, after.1.symm, after.2.symm⟩
    | cons l between =>
      simp only [List.cons_append, List.cons.injEq] at after
      obtain ⟨rfl, after⟩ := after
      exact (root_not_before right' left after before).elim

/-- A chain is bracketed in one way only. -/
theorem ext_of_chain {a b : Bracketing} {m m' : Nat} (bindsA : a.Binds m) (bindsB : b.Binds m')
    (first : a.first = b.first) (same : a.links = b.links) : a = b := by
  induction a generalizing b m m' with
  | operand n =>
    cases b with
    | operand => exact congrArg operand first
    | join => simp [links] at same
  | join c op lhs rhs ihl ihr =>
    cases b with
    | operand => simp [links] at same
    | join c' op' lhs' rhs' =>
      obtain ⟨before, root, after⟩ := root_eq bindsA bindsB same
      simp only [Link.mk.injEq] at root
      obtain ⟨rfl, rfl, operands⟩ := root
      rw [ihl bindsA.2.1 bindsB.2.1 first before, ihr bindsA.2.2 bindsB.2.2 operands after]

end Bracketing

/-! ### Rules -/

/-- The token is the operator `op`. -/
def Sign (t : Token) (op : Operator) : Prop :=
  t.kind = .op ∧ t.text = op.symbol

/-- The tokens that may stand between a number and the factor it takes with it: none, or a
multiplication that was not typed. -/
def Silent (ts : List Token) : Prop :=
  ts = [] ∨ ∃ t, ts = [t] ∧ Sign t .mul ∧ t.implicit = true

/-- The tokens `us` do not take a number at the end of `ts` away from its factor. -/
def Apart (ts us : List Token) : Prop :=
  ∀ number times factor rest, ts.getLast? = some number → us = times :: factor :: rest →
    number.kind = .number → times.kind = .op → times.implicit = true →
      factor.kind ≠ .imaginary ∧ factor.kind ≠ .z

mutual

/-- A chain of operands with operators between them, properly bracketed. -/
inductive Expression : List Token → Node → Prop
  | greedy {ts : List Token} {n : Node} : Operand true ts n → Expression ts n
  | chain {ts us : List Token} {b : Bracketing} {last : Bool} :
    Operand false ts b.first → Apart ts us → Links last us b.links → b.Binds 1 →
      Expression (ts ++ us) b.tree

/-- An atom after plus signs, or after them a minus sign with the rest of the expression, which is
then the chain that goes on from zero. An operand of that second kind is the last of its chain. -/
inductive Operand : (last : Bool) → List Token → Node → Prop
  | atom {ts : List Token} {n : Node} : Atom ts n → Operand false ts n
  | plus {t : Token} {ts : List Token} {n : Node} {last : Bool} :
    Sign t .add → Operand last ts n → Operand last (t :: ts) n
  | minus {t : Token} {ts : List Token} {b : Bracketing} {last : Bool} :
    Sign t .sub → b.first = .ofReal t.column "0" → Links last (t :: ts) b.links → b.Binds 1 →
      Operand true (t :: ts) b.tree

/-- The operators of a chain and the operands after them. -/
inductive Links : (last : Bool) → List Token → List Link → Prop
  | nil : Links false [] []
  | last {t : Token} {op : Operator} {ts : List Token} {n : Node} :
    Sign t op → Operand true ts n → Links true (t :: ts) [⟨t.column, op, n⟩]
  | cons {t : Token} {op : Operator} {ts us : List Token} {n : Node} {ls : List Link}
      {last : Bool} :
    Sign t op → Operand false ts n → Apart ts us → Links last us ls →
      Links last (t :: (ts ++ us)) (⟨t.column, op, n⟩ :: ls)

inductive Atom : List Token → Node → Prop
  | z {t : Token} : t.kind = .z → Atom [t] (.z t.column)
  | imaginary {t : Token} : t.kind = .imaginary → Atom [t] (.ofImaginary t.column "1")
  | raw {t : Token} : t.kind = .rawCode → Atom [t] (.raw t.column t.text)
  | number {t : Token} : t.kind = .number → Atom [t] (.ofReal t.column t.text)
  | numberI {t i : Token} {ts : List Token} :
    t.kind = .number → Silent ts → i.kind = .imaginary →
      Atom (t :: (ts ++ [i])) (.ofImaginaryPart t.column t.text)
  | numberZ {t z : Token} {ts : List Token} :
    t.kind = .number → Silent ts → z.kind = .z →
      Atom (t :: (ts ++ [z]))
        (.apply₂ t.column .mul (.ofReal t.column t.text) (.z z.column))
  | parens {l r : Token} {ts : List Token} {n : Node} :
    l.kind = .parenOpen → Expression ts n → r.kind = .parenClose → Atom (l :: (ts ++ [r])) n
  | call {t l r : Token} {fn : Builtin} {ts : List Token} {args : List Node} :
    t.kind = .function → t.text = fn.name → l.kind = .parenOpen →
      Arguments fn.descriptor.arity ts args → r.kind = .parenClose →
        Atom (t :: l :: (ts ++ [r])) (.apply t.column fn args)

/-- As many expressions as the number says, with commas between them. -/
inductive Arguments : Nat → List Token → List Node → Prop
  | one {ts : List Token} {n : Node} : Expression ts n → Arguments 1 ts [n]
  | cons {t : Token} {k : Nat} {ts us : List Token} {n : Node} {ns : List Node} :
    Expression ts n → t.kind = .comma → Arguments (k + 1) us ns →
      Arguments (k + 2) (ts ++ t :: us) (n :: ns)

end

end Grammar

end EscapeTime
