import EscapeTime.Proofs.Formula.Grammar
import EscapeTime.Proofs.Formula.Progress

/-!
# Parsed trees are derived

What the parser reads, the grammar derives: a tree that `Parse.expression` returns for the first
tokens of a list is a tree of these tokens, and the tokens it leaves begin with the end of the
expression.
-/

namespace EscapeTime

namespace Grammar

theorem sign_iff {t : Token} {op : Operator} : Sign t op ↔ t.operator? = some op := by
  constructor
  · rintro ⟨kind, text⟩
    simp only [Token.operator?, kind, text, if_true, Operator.ofSymbol?_symbol]
  · intro operator
    unfold Token.operator? at operator
    split at operator
    · rename_i kind
      have text := List.find?_some operator
      exact ⟨kind, (eq_of_beq text).symm⟩
    · cases operator

theorem name_of_ofName? {t : Token} {fn : Builtin} (known : Builtin.ofName? t.text = some fn) :
    t.text = fn.name := by
  have found := List.find?_some known
  exact (eq_of_beq found).symm

/-! ### Cuts -/

theorem Apart.mono {ts us rest : List Token} (apart : Apart ts (us ++ rest)) : Apart ts us := by
  intro number times factor more last rfl
  exact apart number times factor (more ++ rest) last (by simp)

theorem apart_nil (ts : List Token) : Apart ts [] := by
  intro _ _ _ _ _ none
  cases none

theorem nil_apart (us : List Token) : Apart [] us := by
  intro _ _ _ _ none
  cases none

theorem apart_concat {t : Token} (ts us : List Token) (kind : t.kind ≠ .number) :
    Apart (ts ++ [t]) us := by
  intro number times factor rest last _ isNumber
  simp only [List.getLast?_append, List.getLast?_singleton, Option.some_or,
    Option.some.injEq] at last
  rw [last] at kind
  exact absurd isNumber kind

theorem Apart.cons {t : Token} {ts us : List Token} (kind : t.kind ≠ .number)
    (apart : Apart ts us) : Apart (t :: ts) us := by
  cases ts with
  | nil => exact apart_concat [] us kind
  | cons u ts =>
    intro number times factor rest last
    rw [List.getLast?_cons_cons] at last
    exact apart number times factor rest last

/-- The last token of two lists is that of the second, unless this is empty. -/
theorem Apart.append {ts us rest : List Token} (second : Apart us rest)
    (first : us = [] → Apart ts rest) : Apart (ts ++ us) rest := by
  cases us with
  | nil =>
    rw [List.append_nil]
    exact first rfl
  | cons u us =>
    intro number times factor more last
    rw [List.getLast?_append, List.getLast?_cons, Option.some_or] at last
    exact second number times factor more (by rw [List.getLast?_cons, last])

/-- What follows `us` matters only if `us` is shorter than an operator with its operand. -/
theorem Apart.extend {ts us rest : List Token} (apart : Apart ts us) (size : us.length ≠ 1)
    (next : us = [] → Apart ts rest) : Apart ts (us ++ rest) := by
  match us with
  | [] => exact next rfl
  | [_] => simp at size
  | u :: v :: us =>
    intro number times factor more last same
    simp only [List.cons_append, List.cons.injEq] at same
    exact apart number times factor us last (by rw [same.1, same.2.1])

/-! ### Tokens of a chain -/

theorem Atom.ne_nil {ts : List Token} {n : Node} (atom : Atom ts n) : ts ≠ [] := by
  cases atom <;> simp

theorem Operand.ne_nil {last : Bool} {ts : List Token} {n : Node} (operand : Operand last ts n) :
    ts ≠ [] := by
  cases operand with
  | atom atom => exact atom.ne_nil
  | plus => simp
  | minus => simp

theorem Links.length_ne_one {last : Bool} {ts : List Token} {ls : List Link}
    (links : Links last ts ls) : ts.length ≠ 1 := by
  cases links with
  | nil => simp
  | last _ operand => simpa using operand.ne_nil
  | cons _ operand => simp [operand.ne_nil]

/-- A chain that does not end in a greedy operand goes on with the links of another. -/
theorem Links.append {last : Bool} {us vs : List Token} {ls ls' : List Link} :
    Links false us ls → Apart us vs → Links last vs ls' → Links last (us ++ vs) (ls ++ ls')
  | .nil, _, links => links
  | @Links.cons t op ts us n ls _ sign operand apart more, cut, links => by
    have kind : t.kind ≠ .number := by simp [sign.1]
    have cutMore : Apart us vs := by
      intro number times factor rest last
      refine cut number times factor rest ?_
      rw [List.getLast?_cons, List.getLast?_append, last]
      rfl
    have cutHere : us = [] → Apart ts vs := by
      rintro rfl number times factor rest last
      refine cut number times factor rest ?_
      rw [List.append_nil, List.getLast?_cons, last]
      rfl
    have joined := Links.cons sign operand (apart.extend more.length_ne_one cutHere)
      (more.append cutMore links)
    simpa using joined

end Grammar

namespace Parse

open Grammar

/-! ### What a successful call did -/

theorem expect_ok_iff {endCol : Int} {kinds : List TokenKind} {ts rest : List Token} {t : Token} :
    expect endCol kinds ts = .ok (t, rest) ↔ ts = t :: rest ∧ t.kind ∈ kinds := by
  constructor
  · intro done
    have outcome := expect_outcome endCol kinds ts
    rw [done] at outcome
    exact outcome
  · rintro ⟨rfl, member⟩
    simp only [expect, member, if_true]

theorem expression_ok_iff {endCol : Int} {fuel : Nat} {ts rest : List Token} {n : Node} :
    expression endCol (fuel + 1) ts = .ok (n, rest) ↔
      ∃ lhs us, operand endCol fuel ts = .ok (lhs, us) ∧
        chain endCol fuel 1 lhs us = .ok (n, rest) := by
  rw [expression]
  constructor
  · intro done
    obtain ⟨⟨lhs, us⟩, first, done⟩ := bind_ok done
    exact ⟨lhs, us, first, done⟩
  · rintro ⟨lhs, us, first, done⟩
    rw [first]
    exact done

/-- What an operator of a chain takes as its right-hand side. -/
theorem rightSide_ok_iff {endCol : Int} {fuel : Nat} {op : Operator} {ts rest : List Token}
    {n : Node} :
    rightSide endCol fuel op ts = .ok (n, rest) ↔
      ∃ m us, operand endCol fuel ts = .ok (m, us) ∧
        ((¬ ∃ t ∈ us.head?, op.precedence < t.precedence) ∧ n = m ∧ rest = us ∨
          (∃ t ∈ us.head?, op.precedence < t.precedence) ∧
            chain endCol fuel (op.precedence + 1) m us = .ok (n, rest)) := by
  unfold rightSide
  constructor
  · intro done
    obtain ⟨⟨m, us⟩, first, done⟩ := bind_ok done
    refine ⟨m, us, first, ?_⟩
    split at done
    · rename_i tighter
      exact .inr ⟨tighter, done⟩
    · rename_i looser
      cases done
      exact .inl ⟨looser, rfl, rfl⟩
  · rintro ⟨m, us, first, ⟨looser, rfl, rfl⟩ | ⟨tighter, done⟩⟩
    · rw [first]
      exact if_neg looser
    · rw [first]
      exact (if_pos tighter).trans done

/-- What a chain does with the next token: stop before it, or go on with the operator that it is. -/
theorem chain_ok_iff {endCol : Int} {fuel minPrec : Nat} {lhs n : Node} {t : Token}
    {ts rest : List Token} :
    chain endCol (fuel + 1) minPrec lhs (t :: ts) = .ok (n, rest) ↔ t.kind ∈ followKinds ∧
      ((∀ op, t.operator? = some op → op.precedence < minPrec) ∧ n = lhs ∧ rest = t :: ts ∨
        ∃ op rhs us, t.operator? = some op ∧ minPrec ≤ op.precedence ∧
          rightSide endCol fuel op ts = .ok (rhs, us) ∧
          chain endCol fuel minPrec (.apply₂ t.column op lhs rhs) us = .ok (n, rest)) := by
  rw [chain_cons]
  constructor
  · intro done
    obtain ⟨⟨u, us⟩, follows, done⟩ := bind_ok done
    obtain ⟨⟨⟩, kind⟩ := expect_ok_iff.mp follows
    refine ⟨kind, ?_⟩
    cases operator : t.operator? with
    | none =>
      simp only [operator] at done
      cases done
      exact .inl ⟨nofun, rfl, rfl⟩
    | some op =>
      simp only [operator] at done
      split at done
      · rename_i loose
        cases done
        refine .inl ⟨?_, rfl, rfl⟩
        rintro _ ⟨⟩
        exact loose
      · rename_i tight
        obtain ⟨⟨rhs, us⟩, right, done⟩ := bind_ok done
        exact .inr ⟨op, rhs, us, rfl, Nat.le_of_not_lt tight, right, done⟩
  · rintro ⟨kind, stop⟩
    rw [expect_ok_iff.mpr ⟨rfl, kind⟩]
    obtain ⟨loose, rfl, rfl⟩ | ⟨op, rhs, us, operator, tight, right, done⟩ := stop
    · cases operator : t.operator? with
      | none => rfl
      | some op => exact if_pos (loose op operator)
    · simp only [operator]
      refine (if_neg (Nat.not_lt.mpr tight)).trans ?_
      rw [right]
      exact done

/-- What reading an operand can do, by the first token. -/
inductive OperandStep (endCol : Int) (fuel : Nat) : List Token → Node → List Token → Prop
  | parens {l r : Token} {us rest : List Token} {n : Node} :
    l.kind = .parenOpen → expression endCol fuel us = .ok (n, r :: rest) → r.kind = .parenClose →
      OperandStep endCol fuel (l :: us) n rest
  | plus {t : Token} {us rest : List Token} {n : Node} :
    Sign t .add → operand endCol fuel us = .ok (n, rest) → OperandStep endCol fuel (t :: us) n rest
  | minus {t : Token} {us rest : List Token} {n : Node} :
    Sign t .sub → chain endCol fuel 1 (.ofReal t.column "0") (t :: us) = .ok (n, rest) →
      OperandStep endCol fuel (t :: us) n rest
  | call {t l r : Token} {us rest : List Token} {fn : Builtin} {args : List Node} :
    t.kind = .function → Builtin.ofName? t.text = some fn → l.kind = .parenOpen →
      arguments endCol fuel fn.descriptor.arity us = .ok (args, r :: rest) →
      r.kind = .parenClose → OperandStep endCol fuel (t :: l :: us) (.apply t.column fn args) rest
  | z {t : Token} {us : List Token} :
    t.kind = .z → OperandStep endCol fuel (t :: us) (.z t.column) us
  | imaginary {t : Token} {us : List Token} :
    t.kind = .imaginary → OperandStep endCol fuel (t :: us) (.ofImaginary t.column "1") us
  | raw {t : Token} {us : List Token} :
    t.kind = .rawCode → OperandStep endCol fuel (t :: us) (.raw t.column t.text) us
  | number {t : Token} {us : List Token} :
    t.kind = .number → OperandStep endCol fuel (t :: us) (number t us).1 (number t us).2

theorem operand_ok_iff {endCol : Int} {fuel : Nat} {ts rest : List Token} {n : Node} :
    operand endCol (fuel + 1) ts = .ok (n, rest) ↔ OperandStep endCol fuel ts n rest := by
  rw [operand]
  constructor
  · intro done
    obtain ⟨⟨t, us⟩, start, done⟩ := bind_ok done
    obtain ⟨rfl, member⟩ := expect_ok_iff.mp start
    dsimp only at done
    split at done
    · rename_i kind
      obtain ⟨⟨n, vs⟩, inner, done⟩ := bind_ok done
      obtain ⟨⟨r, vs⟩, close, done⟩ := bind_ok done
      obtain ⟨rfl, isClose⟩ := expect_ok_iff.mp close
      cases done
      exact .parens kind inner (by simpa using isClose)
    · rename_i kind
      split at done
      · rename_i text
        exact .plus ⟨kind, text⟩ done
      · split at done
        · rename_i text
          exact .minus ⟨kind, text⟩ done
        · cases done
    · rename_i kind
      obtain ⟨⟨l, vs⟩, opening, called⟩ := bind_ok done
      obtain ⟨rfl, isOpen⟩ := expect_ok_iff.mp opening
      cases known : Builtin.ofName? t.text with
      | none =>
        simp only [known] at called
        cases called
      | some fn =>
        simp only [known] at called
        obtain ⟨⟨args, vs⟩, list, called⟩ := bind_ok called
        obtain ⟨⟨r, vs⟩, close, called⟩ := bind_ok called
        obtain ⟨rfl, isClose⟩ := expect_ok_iff.mp close
        cases called
        exact .call kind known (by simpa using isOpen) list (by simpa using isClose)
    · rename_i kind
      cases done
      exact .z kind
    · rename_i kind
      cases done
      exact .imaginary kind
    · rename_i kind
      cases done
      exact .raw kind
    · have kind : t.kind = .number := by
        simp only [operandKinds, List.mem_cons, List.not_mem_nil, or_false] at member
        rcases member with k | k | k | k | k | k | k <;> simp_all
      have same : number t us = (n, rest) := Except.ok.inj done
      have step := @OperandStep.number endCol fuel t us kind
      rwa [same] at step
  · intro step
    cases step with
    | parens kind inner isClose =>
      rw [expect_ok_iff.mpr ⟨rfl, by simp [operandKinds, kind]⟩]
      simp only [kind, Except.bind, bind, inner]
      simp only [expect, isClose, List.mem_singleton, if_true]
      rfl
    | plus sign inner =>
      rw [expect_ok_iff.mpr ⟨rfl, by simp [operandKinds, sign.1]⟩]
      simp only [sign.1, sign.2, Except.bind, bind, Operator.symbol, if_true]
      exact inner
    | minus sign inner =>
      rw [expect_ok_iff.mpr ⟨rfl, by simp [operandKinds, sign.1]⟩]
      simp only [sign.1, sign.2, Except.bind, bind, Operator.symbol]
      simpa using inner
    | call kind known isOpen list isClose =>
      rw [expect_ok_iff.mpr ⟨rfl, by simp [operandKinds, kind]⟩]
      simp only [kind, Except.bind, bind, expect, isOpen, List.mem_singleton, if_true, known, list,
        isClose]
      rfl
    | z kind | imaginary kind | raw kind | number kind =>
      rw [expect_ok_iff.mpr ⟨rfl, by simp [operandKinds, kind]⟩]
      simp only [kind, Except.bind, bind]
      rfl

/-! ### Where an operand, a chain or an expression ends -/

/-- The expression ends before these tokens. -/
def Ends (ts : List Token) : Prop :=
  ∀ t ∈ ts.head?, t.kind = .comma ∨ t.kind = .parenClose

/-- An operand may end before these tokens. -/
def Follows (ts : List Token) : Prop :=
  ∀ t ∈ ts.head?, t.kind ∈ followKinds

/-- These tokens do not begin with an operator from `tier` on. -/
def Below (tier : Nat) (ts : List Token) : Prop :=
  ∀ t ∈ ts.head?, ∀ op, t.operator? = some op → op.tier < tier

/-- The tokens `ts` can be cut into `us` and `rest`: after a greedy operand the expression ends, and
after another no number is cut from its factor. -/
structure Cut (ts us rest : List Token) (last : Bool) : Prop where
  tokens : ts = us ++ rest
  ends : last = true → Ends rest
  apart : last = false → Apart us rest

theorem follows_nil : Follows [] := by
  simp [Follows]

theorem below_nil (tier : Nat) : Below tier [] := by
  simp [Below]

theorem cut_nil (ts : List Token) : Cut ts [] ts false :=
  ⟨rfl, nofun, fun _ => nil_apart ts⟩

theorem Ends.no_operator {ts : List Token} (ends : Ends ts) {t : Token} (head : t ∈ ts.head?) :
    t.operator? = none := by
  have kind : t.kind ≠ .op := by
    rcases ends t head with kind | kind <;> simp [kind]
  simp [Token.operator?, kind]

theorem Ends.below {ts : List Token} (ends : Ends ts) (tier : Nat) : Below tier ts := by
  intro t head op operator
  rw [ends.no_operator head] at operator
  cases operator

/-- Every operator is in some tier, so a chain of all tiers ends where the expression does. -/
theorem Follows.ends {ts : List Token} (follows : Follows ts) (below : Below 1 ts)
    (known : ∀ t ∈ ts, t.Known) : Ends ts := by
  intro t head
  have kind := follows t head
  simp only [followKinds, List.mem_cons, List.not_mem_nil, or_false] at kind
  rcases kind with kind | kind | kind
  · obtain ⟨op, symbol⟩ := Option.isSome_iff_exists.mp
      ((known t (List.mem_of_mem_head? head)).1 kind)
    have operator : t.operator? = some op := by simp [Token.operator?, kind, symbol]
    have := below t head op operator
    cases op <;> simp [Operator.tier] at this
  · exact .inl kind
  · exact .inr kind

theorem Cut.cons {t : Token} {ts us rest : List Token} {last : Bool} (kind : t.kind ≠ .number)
    (cut : Cut ts us rest last) : Cut (t :: ts) (t :: us) rest last where
  tokens := by rw [cut.tokens, List.cons_append]
  ends := cut.ends
  apart done := (cut.apart done).cons kind

theorem cut_concat {t : Token} (ts rest : List Token) (kind : t.kind ≠ .number) :
    Cut (ts ++ t :: rest) (ts ++ [t]) rest false :=
  ⟨by simp, nofun, fun _ => apart_concat ts rest kind⟩

theorem Cut.append {ts us mid vs rest : List Token} {last : Bool} (first : Cut ts us mid false)
    (second : Cut mid vs rest last) : Cut ts (us ++ vs) rest last where
  tokens := by rw [first.tokens, second.tokens, List.append_assoc]
  ends := second.ends
  apart done := (second.apart done).append fun empty => by
    have apart := first.apart rfl
    rwa [second.tokens, empty] at apart

theorem Cut.apart_next {ts us mid vs rest : List Token} {last : Bool} (first : Cut ts us mid false)
    (second : Cut mid vs rest last) : Apart us vs := by
  have apart := first.apart rfl
  rw [second.tokens] at apart
  exact apart.mono

/-- Below the first tier there is nothing left of a chain. -/
theorem links_below_one {last : Bool} {us rest : List Token} {ls : List Link}
    (links : Links last us ls) (below : Below 1 (us ++ rest)) : us = [] ∧ ls = [] := by
  have absurd {t : Token} {op : Operator} {ts : List Token} (sign : Sign t op)
      (below : Below 1 (t :: ts)) : False := by
    have := below t rfl op (sign_iff.mp sign)
    cases op <;> simp [Operator.tier] at this
  cases links with
  | nil => exact ⟨rfl, rfl⟩
  | last sign => exact (absurd sign below).elim
  | cons sign => exact (absurd sign below).elim

/-- Two parts of a chain make one. -/
theorem links_join {last last' : Bool} {ts us mid vs rest : List Token} {ls ls' : List Link}
    (first : Cut ts us mid last) (second : Cut mid vs rest last') (links : Links last us ls)
    (links' : Links last' vs ls') :
    ∃ last, Cut ts (us ++ vs) rest last ∧ Links last (us ++ vs) (ls ++ ls') := by
  cases last with
  | true =>
    have ends := first.ends rfl
    rw [second.tokens] at ends
    obtain ⟨rfl, rfl⟩ := links_below_one links' (ends.below 1)
    obtain rfl : mid = rest := second.tokens
    rw [List.append_nil, List.append_nil]
    exact ⟨true, first, links⟩
  | false => exact ⟨last', first.append second, links.append (first.apart_next second) links'⟩

theorem links_single {last : Bool} {t : Token} {op : Operator} {ts : List Token} {n : Node}
    (sign : Sign t op) (operand : Operand last ts n) :
    Links last (t :: ts) [⟨t.column, op, n⟩] := by
  cases last with
  | true => exact .last sign operand
  | false =>
    have links := Links.cons sign operand (apart_nil ts) .nil
    rwa [List.append_nil] at links

/-! ### Derivations of what was read -/

/-- The operators that bind at least as tight as `minPrec` are those from `tier` on. -/
def Matches (minPrec tier : Nat) : Prop :=
  ∀ op : Operator, minPrec ≤ op.precedence ↔ tier ≤ op.tier

theorem matches_one : Matches 1 1 := by
  intro op
  cases op <;> decide

theorem matches_succ (op : Operator) : Matches (op.precedence + 1) (op.tier + 1) := by
  intro op'
  rw [op.precedence_eq, op'.precedence_eq]
  omega

theorem tighter_iff {t : Token} {op : Operator} :
    op.precedence < t.precedence ↔ ∃ op', t.operator? = some op' ∧ op.tier < op'.tier := by
  unfold Token.precedence
  cases t.operator? with
  | none => simp
  | some op' =>
    simp only [Option.some.injEq, exists_eq_left']
    exact matches_succ op op'

section Derivations

variable (endCol : Int) (fuel : Nat)

def ExpressionDerived : Prop :=
  ∀ ts n rest, (∀ t ∈ ts, t.Known) → expression endCol fuel ts = .ok (n, rest) →
    ∃ us, ts = us ++ rest ∧ Expression us n ∧ Ends rest

def OperandDerived : Prop :=
  ∀ ts n rest, (∀ t ∈ ts, t.Known) → operand endCol fuel ts = .ok (n, rest) →
    ∃ us last, Cut ts us rest last ∧ Operand last us n

/-- The chain goes on bracketing from the bracketing `b` of its left-hand side. -/
def ChainDerived : Prop :=
  ∀ minPrec tier (b : Bracketing) ts n rest, Matches minPrec tier → (∀ t ∈ ts, t.Known) →
    b.Binds tier →
    (∀ t ∈ ts.head?, ∀ op, t.operator? = some op → tier ≤ op.tier → b.Binds op.tier) →
    chain endCol fuel minPrec b.tree ts = .ok (n, rest) →
    ∃ us last ls, Cut ts us rest last ∧ Links last us ls ∧ Follows rest ∧ Below tier rest ∧
      ∃ b' : Bracketing, b'.tree = n ∧ b'.first = b.first ∧ b'.links = b.links ++ ls ∧
        b'.Binds tier

def ArgumentsDerived : Prop :=
  ∀ count ts ns rest, (∀ t ∈ ts, t.Known) →
    arguments endCol fuel (count + 1) ts = .ok (ns, rest) →
    ∃ us, ts = us ++ rest ∧ Arguments (count + 1) us ns

variable {endCol fuel}

/-- The right-hand side of an operator is a bracketing of operators that bind tighter. -/
theorem rightSide_derived (operands : OperandDerived endCol fuel)
    (chains : ChainDerived endCol fuel) {t : Token} {op : Operator} {ts rest : List Token}
    {n : Node} (sign : Sign t op)
    (known : ∀ t ∈ ts, t.Known) (done : rightSide endCol fuel op ts = .ok (n, rest)) :
    ∃ us last, Cut ts us rest last ∧ Below (op.tier + 1) rest ∧
      ∃ b : Bracketing, b.tree = n ∧ b.Binds (op.tier + 1) ∧
        Links last (t :: us) (⟨t.column, op, b.first⟩ :: b.links) := by
  obtain ⟨m, mid, first, ⟨looser, rfl, rfl⟩ | ⟨⟨t', head, tighter⟩, more⟩⟩ :=
    rightSide_ok_iff.mp done
  · obtain ⟨us, last, cut, derived⟩ := operands ts n rest known first
    refine ⟨us, last, cut, ?_, .operand n, rfl, trivial, links_single sign derived⟩
    intro t' head op' operator
    exact Nat.lt_succ_of_le <| Nat.le_of_not_lt fun tight =>
      looser ⟨t', head, tighter_iff.mpr ⟨op', operator, tight⟩⟩
  · obtain ⟨us, last, cut, derived⟩ := operands ts m mid known first
    have notLast : last = false := by
      cases last with
      | false => rfl
      | true =>
        obtain ⟨op', operator, -⟩ := tighter_iff.mp tighter
        rw [(cut.ends rfl).no_operator head] at operator
        cases operator
    subst notLast
    have knownMid : ∀ t ∈ mid, t.Known := fun t member => known t (by simp [cut.tokens, member])
    obtain ⟨vs, last, ls, cut', links, -, below, b, tree, hfirst, hlinks, binds⟩ :=
      chains _ _ (.operand m) mid n rest (matches_succ op) knownMid trivial
        (fun _ _ _ _ _ => trivial) more
    refine ⟨us ++ vs, last, cut.append cut', below, b, tree, binds, ?_⟩
    have joined := Links.cons sign derived (cut.apart_next cut') links
    rw [hfirst, hlinks]
    exact joined

theorem chain_derived (operands : OperandDerived endCol fuel) (chains : ChainDerived endCol fuel) :
    ChainDerived endCol (fuel + 1) := by
  intro minPrec tier b ts n rest precedence known binds head done
  have stop (stops : n = b.tree ∧ rest = ts) (follows : Follows ts) (below : Below tier ts) :
      ∃ us last ls, Cut ts us rest last ∧ Links last us ls ∧ Follows rest ∧ Below tier rest ∧
        ∃ b' : Bracketing, b'.tree = n ∧ b'.first = b.first ∧ b'.links = b.links ++ ls ∧
          b'.Binds tier := by
    obtain ⟨rfl, rfl⟩ := stops
    exact ⟨[], false, [], cut_nil rest, .nil, follows, below, b, rfl, rfl,
      (List.append_nil _).symm, binds⟩
  cases ts with
  | nil =>
    rw [chain] at done
    cases done
    exact stop ⟨rfl, rfl⟩ follows_nil (below_nil tier)
  | cons t ts =>
    obtain ⟨kind, ⟨loose, stops⟩ | ⟨op, rhs, mid, operator, tight, right, more⟩⟩ :=
      chain_ok_iff.mp done
    · refine stop stops ?_ ?_
      · rintro _ ⟨⟩
        exact kind
      · rintro _ ⟨⟩ op operator
        exact Nat.lt_of_not_le fun le =>
          Nat.not_le_of_lt (loose op operator) ((precedence op).mpr le)
    · have tiers : tier ≤ op.tier := (precedence op).mp tight
      have sign : Sign t op := sign_iff.mpr operator
      have knownTail : ∀ u ∈ ts, u.Known := fun u member => known u (List.mem_cons_of_mem t member)
      obtain ⟨us, last, cut, below, b₁, rfl, binds₁, links⟩ :=
        rightSide_derived operands chains sign knownTail right
      have knownMid : ∀ u ∈ mid, u.Known := fun u member =>
        knownTail u (by simp [cut.tokens, member])
      have bindsJoin (tier : Nat) (le : tier ≤ op.tier) :
          (Bracketing.join t.column op b b₁).Binds tier :=
        ⟨le, head t rfl op operator tiers, binds₁⟩
      obtain ⟨vs, last', ls, cut', links', follows, below', b', tree, hfirst, hlinks, binds'⟩ :=
        chains minPrec tier (.join t.column op b b₁) mid n rest precedence knownMid
          (bindsJoin tier tiers)
          (fun u headMid op' operator' _ =>
            bindsJoin op'.tier (Nat.le_of_lt_succ (below u headMid op' operator')))
          more
      have cutHere := cut.cons (t := t) (by simp [sign.1])
      obtain ⟨last'', cutAll, linksAll⟩ := links_join cutHere cut' links links'
      refine ⟨_, last'', _, cutAll, linksAll, follows, below', b', tree, hfirst, ?_, binds'⟩
      rw [hlinks, Bracketing.links, List.append_assoc]

theorem expression_derived (operands : OperandDerived endCol fuel)
    (chains : ChainDerived endCol fuel) : ExpressionDerived endCol (fuel + 1) := by
  intro ts n rest known done
  obtain ⟨lhs, mid, first, more⟩ := expression_ok_iff.mp done
  obtain ⟨us, last, cut, derived⟩ := operands ts lhs mid known first
  have knownMid : ∀ t ∈ mid, t.Known := fun t member => known t (by simp [cut.tokens, member])
  obtain ⟨vs, last', ls, cut', links, follows, below, b, rfl, hfirst, hlinks, binds⟩ :=
    chains 1 1 (.operand lhs) mid n rest matches_one knownMid trivial (fun _ _ _ _ _ => trivial)
      more
  have ends : Ends rest := follows.ends below fun t member =>
    knownMid t (by simp [cut'.tokens, member])
  have split : ts = us ++ vs ++ rest := by rw [cut.tokens, cut'.tokens, List.append_assoc]
  refine ⟨us ++ vs, split, ?_, ends⟩
  cases last with
  | false =>
    obtain rfl : b.links = ls := hlinks
    exact .chain (hfirst ▸ derived) (cut.apart_next cut') links binds
  | true =>
    have endsMid := cut.ends rfl
    rw [cut'.tokens] at endsMid
    obtain ⟨rfl, rfl⟩ := links_below_one links (endsMid.below 1)
    have alone : (Bracketing.operand lhs).Binds 1 := trivial
    rw [List.append_nil, Bracketing.ext_of_chain binds alone hfirst hlinks]
    exact .greedy derived

theorem arguments_derived (expressions : ExpressionDerived endCol fuel)
    (lists : ArgumentsDerived endCol fuel) : ArgumentsDerived endCol (fuel + 1) := by
  intro count ts ns rest known done
  rw [arguments] at done
  obtain ⟨⟨arg, mid⟩, first, afterFirst⟩ := bind_ok done
  obtain ⟨us, rfl, derived, -⟩ := expressions ts arg mid known first
  cases count with
  | zero =>
    cases afterFirst
    exact ⟨us, rfl, .one derived⟩
  | succ count =>
    obtain ⟨⟨t, mid'⟩, comma, afterComma⟩ := bind_ok afterFirst
    obtain ⟨rfl, isComma⟩ := expect_ok_iff.mp comma
    obtain ⟨⟨args, rest'⟩, list, afterList⟩ := bind_ok afterComma
    cases afterList
    obtain ⟨vs, rfl, derived'⟩ := lists count mid' args rest
      (fun u member => known u (by simp [member])) list
    refine ⟨us ++ t :: vs, by simp, ?_⟩
    exact .cons derived (by simpa using isComma) derived'

theorem apart_of_fusedFactor {t : Token} {ts : List Token} (alone : fusedFactor ts = none) :
    Apart [t] ts := by
  rintro _ times factor rest - rfl - kind implicit
  simp only [fusedFactor, kind, implicit] at alone
  simpa using alone

theorem number_derived {t : Token} {ts : List Token} (kind : t.kind = .number)
    (known : ∀ u ∈ ts, u.Known) :
    ∃ us, Cut (t :: ts) us (number t ts).2 false ∧ Atom us (number t ts).1 := by
  unfold number
  cases fused : fusedFactor ts with
  | none => exact ⟨[t], ⟨rfl, nofun, fun _ => apart_of_fusedFactor fused⟩, .number kind⟩
  | some pair =>
    obtain ⟨factor, rest⟩ := pair
    obtain ⟨isFactor, place⟩ := fusedFactor_some fused
    have notNumber : factor.kind ≠ .number := by
      rcases isFactor with isFactor | isFactor <;> simp [isFactor]
    obtain ⟨between, rfl, silent⟩ : ∃ between, ts = between ++ factor :: rest ∧ Silent between := by
      obtain rfl | ⟨times, rfl, isOp, implicit⟩ := place
      · exact ⟨[], rfl, .inl rfl⟩
      · have text := (known times (by simp)).2.2 isOp implicit
        exact ⟨[times], rfl, .inr ⟨times, rfl, ⟨isOp, text⟩, implicit⟩⟩
    have cut := cut_concat (t :: between) rest notNumber
    dsimp only
    split
    · rename_i isI
      exact ⟨_, cut, .numberI kind silent isI⟩
    · rename_i notI
      exact ⟨_, cut, .numberZ kind silent (isFactor.resolve_left notI)⟩

theorem operand_derived (expressions : ExpressionDerived endCol fuel)
    (operands : OperandDerived endCol fuel) (chains : ChainDerived endCol fuel)
    (lists : ArgumentsDerived endCol fuel) : OperandDerived endCol (fuel + 1) := by
  intro ts n rest known done
  have step := operand_ok_iff.mp done
  cases step with
  | @parens l r us _ _ kind inner isClose =>
    obtain ⟨vs, rfl, derived, -⟩ := expressions us n _ (fun u member => known u (by simp [member]))
      inner
    exact ⟨l :: (vs ++ [r]), false, cut_concat (l :: vs) rest (by simp [isClose]),
      .atom (.parens kind derived isClose)⟩
  | @plus t us _ _ sign inner =>
    obtain ⟨vs, last, cut, derived⟩ := operands us n rest
      (fun u member => known u (by simp [member])) inner
    exact ⟨t :: vs, last, cut.cons (by simp [sign.1]), .plus sign derived⟩
  | @minus t us _ _ sign inner =>
    obtain ⟨vs, last, ls, cut, links, follows, below, b, rfl, hfirst, hlinks, binds⟩ :=
      chains 1 1 (.operand (.ofReal t.column "0")) _ n rest matches_one known trivial
        (fun _ _ _ _ _ => trivial) inner
    have knownRest : ∀ u ∈ rest, u.Known := fun u member => known u (by simp [cut.tokens, member])
    cases vs with
    | nil =>
      -- The chain goes on at least with the minus sign itself.
      have same : t :: us = rest := cut.tokens
      exact (Nat.lt_irrefl 1 (below t (by simp [← same]) .sub (sign_iff.mp sign))).elim
    | cons t' vs =>
      obtain ⟨rfl, rfl⟩ : t = t' ∧ us = vs ++ rest := by simpa using cut.tokens
      obtain rfl : b.links = ls := hlinks
      exact ⟨t :: vs, true, ⟨rfl, fun _ => follows.ends below knownRest, nofun⟩,
        .minus sign hfirst links binds⟩
  | @call t l r us _ fn args kind name isOpen list isClose =>
    obtain ⟨k, arity⟩ : ∃ k, fn.descriptor.arity = k + 1 := by
      cases fn <;> exact ⟨_, rfl⟩
    rw [arity] at list
    obtain ⟨vs, rfl, derived⟩ := lists k us args _ (fun u member => known u (by simp [member]))
      list
    rw [← arity] at derived
    exact ⟨t :: l :: (vs ++ [r]), false, cut_concat (t :: l :: vs) rest (by simp [isClose]),
      .atom (.call kind (name_of_ofName? name) isOpen derived isClose)⟩
  | @z t _ kind =>
    exact ⟨[t], false, cut_concat [] rest (by simp [kind]), .atom (.z kind)⟩
  | @imaginary t _ kind =>
    exact ⟨[t], false, cut_concat [] rest (by simp [kind]), .atom (.imaginary kind)⟩
  | @raw t _ kind =>
    exact ⟨[t], false, cut_concat [] rest (by simp [kind]), .atom (.raw kind)⟩
  | @number t us kind =>
    have knownTail : ∀ u ∈ us, u.Known := fun u member => known u (by simp [member])
    obtain ⟨vs, cut, derived⟩ := number_derived kind knownTail
    exact ⟨vs, false, cut, .atom derived⟩

end Derivations

theorem all_derived (endCol : Int) (fuel : Nat) :
    ExpressionDerived endCol fuel ∧ OperandDerived endCol fuel ∧ ChainDerived endCol fuel ∧
      ArgumentsDerived endCol fuel := by
  induction fuel with
  | zero =>
    refine ⟨?_, ?_, ?_, ?_⟩
    · intro _ _ _ _ done
      cases done
    · intro _ _ _ _ done
      cases done
    · intro _ _ _ _ _ _ _ _ _ _ done
      cases done
    · intro _ _ _ _ _ done
      cases done
  | succ fuel ih =>
    obtain ⟨expressions, operands, chains, lists⟩ := ih
    exact ⟨expression_derived operands chains,
      operand_derived expressions operands chains lists, chain_derived operands chains,
      arguments_derived expressions lists⟩

/-- The tree of a whole formula is the one its tokens derive. -/
theorem formula_derived {ts : List Token} {n : Node} (known : ∀ t ∈ ts, t.Known)
    (done : formula ts = .ok n) : Expression ts n := by
  unfold formula at done
  obtain ⟨⟨root, rest⟩, whole, atEnd⟩ := bind_ok done
  obtain ⟨us, rfl, derived, -⟩ := (all_derived _ _).1 ts root rest known whole
  cases rest with
  | nil =>
    cases atEnd
    rwa [List.append_nil]
  | cons t rest => cases atEnd

end Parse

end EscapeTime
