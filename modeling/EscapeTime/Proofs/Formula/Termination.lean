import EscapeTime.Proofs.Formula.Progress

/-!
# The parser terminates

Fuel only bounds how deep the calls of the parser nest. `parser_terminates`: for every list of
tokens there is a fuel from which on each function of the parser gives one and the same answer, and
running out of fuel is not that answer.
-/

namespace EscapeTime

variable {α β : Type}

/-! ### More fuel -/

/-- The first answer is the second, unless the fuel ran out. -/
def Approximates (x y : Except Failure α) : Prop :=
  x = .error (.broken .outOfFuel) ∨ x = y

namespace Approximates

theorem refl (x : Except Failure α) : Approximates x x :=
  .inr rfl

theorem bind {x y : Except Failure α} {f g : α → Except Failure β} (first : Approximates x y)
    (next : ∀ a, Approximates (f a) (g a)) : Approximates (x >>= f) (y >>= g) := by
  obtain rfl | rfl := first
  · exact .inl rfl
  · cases x with
    | error e => exact .inr rfl
    | ok a => exact next a

end Approximates

/-- From the fuel `need` on there is one answer: a good result, or a failure that is explained. -/
def Halts (need : Nat) (good : α → Prop) (bad : Failure → Prop) (run : Nat → Except Failure α) :
    Prop :=
  ∃ answer, (∀ fuel, need ≤ fuel → run fuel = answer) ∧ Outcome good bad answer

namespace Halts

variable {need : Nat} {good good' : α → Prop} {bad : Failure → Prop}
  {run run' : Nat → Except Failure α}

theorem imp (halts : Halts need good bad run) (weaker : ∀ a, good a → good' a) :
    Halts need good' bad run := by
  obtain ⟨answer, settled, outcome⟩ := halts
  refine ⟨answer, settled, ?_⟩
  cases answer with
  | ok a => exact weaker a outcome
  | error e => exact outcome

/-- A call that the other makes at once, with one less fuel. -/
theorem called (halts : Halts (need + 1) good bad run)
    (calls : ∀ fuel, run (fuel + 1) = run' fuel) : Halts need good bad run' := by
  obtain ⟨answer, settled, outcome⟩ := halts
  refine ⟨answer, fun fuel enough => ?_, outcome⟩
  rw [← calls fuel]
  exact settled (fuel + 1) (Nat.succ_le_succ enough)

end Halts

namespace Parse

/-! ### Parts of the functions -/

/-- The operand that a sign starts. -/
def signOperand (endCol : Int) (fuel : Nat) (t : Token) (rest : List Token) :
    Except Failure (Node × List Token) :=
  if t.text = "+" then operand endCol fuel rest
  else if t.text = "-" then chain endCol fuel 1 (.ofReal t.column "0") (t :: rest)
  else reject t.column (.notUnary t.text)

/-- The operand that the name of a function starts. -/
def callOperand (endCol : Int) (fuel : Nat) (t : Token) (rest : List Token) :
    Except Failure (Node × List Token) := do
  let (_, rest) ← expect endCol [.parenOpen] rest
  match Builtin.ofName? t.text with
  | none => .error (.broken .noMeaning)
  | some fn =>
    let (args, rest) ← arguments endCol fuel fn.descriptor.arity rest
    let (_, rest) ← expect endCol [.parenClose] rest
    return (.apply t.column fn args, rest)

section Operands

variable (endCol : Int) (fuel : Nat) {t : Token} (ts : List Token)

theorem operand_parens (kind : t.kind = .parenOpen) :
    operand endCol (fuel + 1) (t :: ts) = (do
      let inner ← expression endCol fuel ts
      let close ← expect endCol [.parenClose] inner.2
      return (inner.1, close.2)) := by
  have starts : t.kind ∈ operandKinds := by rw [kind]; decide
  rw [operand, expect, if_pos starts]
  simp only [bind, Except.bind, kind]

theorem operand_sign (kind : t.kind = .op) :
    operand endCol (fuel + 1) (t :: ts) = signOperand endCol fuel t ts := by
  have starts : t.kind ∈ operandKinds := by rw [kind]; decide
  rw [operand, expect, if_pos starts]
  simp only [bind, Except.bind, kind]
  rfl

theorem operand_call (kind : t.kind = .function) :
    operand endCol (fuel + 1) (t :: ts) = callOperand endCol fuel t ts := by
  have starts : t.kind ∈ operandKinds := by rw [kind]; decide
  rw [operand, expect, if_pos starts]
  simp only [bind, Except.bind, kind]
  rfl

/-- All other operands are read without another call. -/
theorem operand_atom (notParens : t.kind ≠ .parenOpen) (notSign : t.kind ≠ .op)
    (notCall : t.kind ≠ .function) :
    operand endCol (fuel + 1) (t :: ts) = operand endCol 1 (t :: ts) := by
  rw [operand, operand, expect]
  by_cases starts : t.kind ∈ operandKinds
  · rw [if_pos starts]
    simp only [bind, Except.bind]
    cases kind : t.kind <;> first | contradiction | rfl
  · rw [if_neg starts]
    rfl

end Operands

/-! ### One more unit of fuel

Each function, given that the calls it makes with less fuel keep their answers. -/

section Functions

variable (endCol : Int) (fuel : Nat)

def ExpressionKeeps : Prop :=
  ∀ ts, Approximates (expression endCol fuel ts) (expression endCol (fuel + 1) ts)

def OperandKeeps : Prop :=
  ∀ ts, Approximates (operand endCol fuel ts) (operand endCol (fuel + 1) ts)

def ChainKeeps : Prop :=
  ∀ minPrec lhs ts,
    Approximates (chain endCol fuel minPrec lhs ts) (chain endCol (fuel + 1) minPrec lhs ts)

def ArgumentsKeep : Prop :=
  ∀ count ts, Approximates (arguments endCol fuel count ts) (arguments endCol (fuel + 1) count ts)

variable {endCol fuel}

theorem expression_keeps (operands : OperandKeeps endCol fuel) (chains : ChainKeeps endCol fuel) :
    ExpressionKeeps endCol (fuel + 1) := by
  intro ts
  rw [expression, expression]
  exact (operands ts).bind fun r => chains 1 r.1 r.2

theorem arguments_keep (expressions : ExpressionKeeps endCol fuel)
    (lists : ArgumentsKeep endCol fuel) : ArgumentsKeep endCol (fuel + 1) := by
  intro count ts
  cases count with
  | zero => exact .refl _
  | succ count =>
    rw [arguments, arguments]
    refine (expressions ts).bind fun r => ?_
    by_cases last : count = 0
    · simp only [last, if_true]
      exact .refl _
    · simp only [last, if_false]
      refine (Approximates.refl _).bind fun comma => ?_
      exact (lists count comma.2).bind fun _ => .refl _

theorem rightSide_keeps (operands : OperandKeeps endCol fuel) (chains : ChainKeeps endCol fuel)
    (op : Operator) (ts : List Token) :
    Approximates (rightSide endCol fuel op ts) (rightSide endCol (fuel + 1) op ts) := by
  unfold rightSide
  refine (operands ts).bind fun r => ?_
  split
  · exact chains _ r.1 r.2
  · exact .refl _

theorem chain_keeps (operands : OperandKeeps endCol fuel) (chains : ChainKeeps endCol fuel) :
    ChainKeeps endCol (fuel + 1) := by
  intro minPrec lhs ts
  cases ts with
  | nil => exact .refl _
  | cons t ts =>
    rw [chain_cons, chain_cons]
    refine (Approximates.refl _).bind fun _ => ?_
    cases t.operator? with
    | none => exact .refl _
    | some op =>
      dsimp only
      split
      · exact .refl _
      · exact (rightSide_keeps operands chains op ts).bind fun r => chains minPrec _ r.2

theorem signOperand_keeps (operands : OperandKeeps endCol fuel) (chains : ChainKeeps endCol fuel)
    (t : Token) (ts : List Token) :
    Approximates (signOperand endCol fuel t ts) (signOperand endCol (fuel + 1) t ts) := by
  unfold signOperand
  split
  · exact operands ts
  · split
    · exact chains 1 _ (t :: ts)
    · exact .refl _

theorem callOperand_keeps (lists : ArgumentsKeep endCol fuel) (t : Token) (ts : List Token) :
    Approximates (callOperand endCol fuel t ts) (callOperand endCol (fuel + 1) t ts) := by
  unfold callOperand
  refine (Approximates.refl _).bind fun l => ?_
  cases Builtin.ofName? t.text with
  | none => exact .refl _
  | some fn => exact (lists fn.descriptor.arity l.2).bind fun _ => .refl _

theorem operand_keeps (expressions : ExpressionKeeps endCol fuel)
    (operands : OperandKeeps endCol fuel) (chains : ChainKeeps endCol fuel)
    (lists : ArgumentsKeep endCol fuel) : OperandKeeps endCol (fuel + 1) := by
  intro ts
  cases ts with
  | nil => exact .inr rfl
  | cons t ts =>
    cases kind : t.kind with
    | parenOpen =>
      rw [operand_parens endCol fuel ts kind, operand_parens endCol (fuel + 1) ts kind]
      exact (expressions ts).bind fun _ => .refl _
    | op =>
      rw [operand_sign endCol fuel ts kind, operand_sign endCol (fuel + 1) ts kind]
      exact signOperand_keeps operands chains t ts
    | function =>
      rw [operand_call endCol fuel ts kind, operand_call endCol (fuel + 1) ts kind]
      exact callOperand_keeps lists t ts
    | _ =>
      rw [operand_atom endCol fuel ts (by simp [kind]) (by simp [kind]) (by simp [kind]),
        operand_atom endCol (fuel + 1) ts (by simp [kind]) (by simp [kind]) (by simp [kind])]
      exact .refl _

end Functions

theorem all_keep (endCol : Int) (fuel : Nat) :
    ExpressionKeeps endCol fuel ∧ OperandKeeps endCol fuel ∧ ChainKeeps endCol fuel ∧
      ArgumentsKeep endCol fuel := by
  induction fuel with
  | zero => exact ⟨fun _ => .inl rfl, fun _ => .inl rfl, fun _ _ _ => .inl rfl, fun _ _ => .inl rfl⟩
  | succ fuel ih =>
    obtain ⟨expressions, operands, chains, lists⟩ := ih
    exact ⟨expression_keeps operands chains, operand_keeps expressions operands chains lists,
      chain_keeps operands chains, arguments_keep expressions lists⟩

/-! ### Enough fuel -/

/-- With enough fuel the answer is none for lack of fuel, so more fuel keeps it. -/
theorem halts_of_ends {need : Nat} {good : α → Prop} {endCol : Int} {ts : List Token}
    {run : Nat → Except Failure α} (keeps : ∀ fuel, Approximates (run fuel) (run (fuel + 1)))
    (ends : ∀ fuel, need ≤ fuel → Outcome good (Blames endCol ts) (run fuel)) :
    Halts need good (Explains ts) run := by
  refine ⟨run need, fun fuel enough => ?_, ?_⟩
  · induction enough with
    | refl => rfl
    | @step fuel enough ih =>
      obtain exhausted | same := keeps fuel
      · have outcome := ends fuel enough
        rw [exhausted] at outcome
        cases outcome.1.1
      · exact same.symm.trans ih
  · have outcome := ends need (Nat.le_refl need)
    cases answer : run need with
    | ok a =>
      rw [answer] at outcome
      exact outcome
    | error e =>
      rw [answer] at outcome
      exact outcome.1

theorem expression_halts (endCol : Int) (ts : List Token) :
    Halts (2 * ts.length + 3) (fun r => Shorter ts r.2) (Explains ts) (expression endCol · ts) :=
  halts_of_ends (fun fuel => (all_keep endCol fuel).1 ts)
    fun fuel enough => (all_end endCol fuel).1 ts enough

theorem operand_halts (endCol : Int) (ts : List Token) :
    Halts (2 * ts.length + 2) (fun r => Shorter ts r.2) (Explains ts) (operand endCol · ts) :=
  halts_of_ends (fun fuel => (all_keep endCol fuel).2.1 ts)
    fun fuel enough => (all_end endCol fuel).2.1 ts enough

theorem chain_halts (endCol : Int) (minPrec : Nat) (lhs : Node) (ts : List Token) :
    Halts (2 * ts.length + 1)
      (fun r => r.2 <:+ ts ∧ ∀ t us op, ts = t :: us → t.operator? = some op →
        minPrec ≤ op.precedence → Shorter ts r.2)
      (Explains ts) (chain endCol · minPrec lhs ts) :=
  halts_of_ends (fun fuel => (all_keep endCol fuel).2.2.1 minPrec lhs ts)
    fun fuel enough => (all_end endCol fuel).2.2.1 minPrec lhs ts enough

theorem arguments_halt (endCol : Int) (count : Nat) (ts : List Token) :
    Halts (2 * ts.length + 4) (fun r => r.2 <:+ ts) (Explains ts) (arguments endCol · count ts) :=
  halts_of_ends (fun fuel => (all_keep endCol fuel).2.2.2 count ts)
    fun fuel enough => (all_end endCol fuel).2.2.2 count ts enough

/-! ### Rounds of a chain -/

theorem operator_of_lt_precedence {t : Token} {k : Nat} (tight : k < t.precedence) :
    ∃ op, t.operator? = some op ∧ op.precedence = t.precedence := by
  unfold Token.precedence at tight ⊢
  cases operator : t.operator? with
  | none =>
    rw [operator] at tight
    exact absurd tight (Nat.not_lt_zero k)
  | some op => exact ⟨op, rfl, rfl⟩

/-- The symbol of an operator has an operation. -/
theorem ofSymbol_of_operator {t : Token} {op : Operator} (operator : t.operator? = some op)
    (column : Int) (lhs rhs : Node) :
    Node.ofSymbol column t.text lhs rhs = .ok (.apply₂ column op lhs rhs) := by
  unfold Token.operator? at operator
  split at operator
  · rw [Node.ofSymbol, operator]
  · cases operator

/-- The operand after an operator of precedence `prec`, with the operators behind it that bind
tighter. -/
def tightSide (endCol : Int) (fuel prec : Nat) (ts : List Token) :
    Except Failure (Node × List Token) := do
  let r ← operand endCol fuel ts
  if ∃ next ∈ r.2.head?, prec < next.precedence then chain endCol fuel (prec + 1) r.1 r.2
  else return r

/-- One round over the operators, by the precedence and the symbol of the next token. -/
def chainRound (endCol : Int) (fuel minPrec : Nat) (lhs : Node) (t : Token) (ts : List Token) :
    Except Failure (Node × List Token) := do
  let _ ← expect endCol followKinds (t :: ts)
  if t.precedence < minPrec then return (lhs, t :: ts)
  else
    let r ← tightSide endCol fuel t.precedence ts
    let joined ← (Node.ofSymbol t.column t.text lhs r.1).mapError .broken
    chain endCol fuel minPrec joined r.2

/-- A token that is no operator has precedence zero, which is less than any chain asks for. -/
theorem chain_eq_round (endCol : Int) (fuel : Nat) {minPrec : Nat} (positive : 1 ≤ minPrec)
    (lhs : Node) (t : Token) (ts : List Token) :
    chain endCol (fuel + 1) minPrec lhs (t :: ts) = chainRound endCol fuel minPrec lhs t ts := by
  rw [chain_cons, chainRound]
  congr 1
  funext _
  cases operator : t.operator? with
  | none =>
    have zero : t.precedence = 0 := by rw [Token.precedence, operator]
    rw [if_pos (by omega)]
  | some op =>
    have same : t.precedence = op.precedence := by rw [Token.precedence, operator]
    have side : rightSide endCol fuel op ts = tightSide endCol fuel op.precedence ts := rfl
    simp only [same, side, ofSymbol_of_operator operator]
    rfl

/-- A chain whose next operator binds tighter than `prec` takes it. -/
theorem nested_chain_halts (endCol : Int) (prec : Nat) (lhs : Node) {ts : List Token}
    (tighter : ∃ next ∈ ts.head?, prec < next.precedence) :
    Halts (2 * ts.length + 1) (fun r => Shorter ts r.2) (Explains ts)
      (chain endCol · (prec + 1) lhs ts) := by
  refine (chain_halts endCol (prec + 1) lhs ts).imp fun r done => ?_
  obtain ⟨t, head, tight⟩ := tighter
  obtain ⟨us, rfl⟩ := List.head?_eq_some_iff.mp head
  obtain ⟨op, operator, same⟩ := operator_of_lt_precedence tight
  exact done.2 t us op rfl operator (by omega)

/-- The chain behind a minus sign starts with the sign itself. -/
theorem signOperand_minus (endCol : Int) (fuel : Nat) {t : Token} (ts : List Token)
    (kind : t.kind = .op) (minus : t.text = "-") :
    signOperand endCol (fuel + 1) t ts = (do
      let r ← tightSide endCol fuel Operator.sub.precedence ts
      chain endCol fuel 1 (.apply₂ t.column .sub (.ofReal t.column "0") r.1) r.2) := by
  have operator : t.operator? = some .sub := by
    simp only [Token.operator?, kind, minus, if_true]
    decide
  have follows : expect endCol followKinds (t :: ts) = .ok (t, ts) :=
    if_pos (by rw [kind]; decide)
  have other : t.text ≠ "+" := by rw [minus]; decide
  rw [signOperand, if_neg other, if_pos minus, chain_cons, follows, operator]
  rfl

/-! ### All calls -/

/-- What the functions of the parser do on the tokens `ts`, however these came about. -/
structure Terminates (endCol : Int) (ts : List Token) : Prop where
  expressions : Halts (2 * ts.length + 3) (fun r => Shorter ts r.2) (Explains ts)
    (expression endCol · ts)
  operands : Halts (2 * ts.length + 2) (fun r => Shorter ts r.2) (Explains ts)
    (operand endCol · ts)
  signs : ∀ t us, ts = t :: us → t.kind = .op →
    Halts (2 * ts.length + 1) (fun r => Shorter ts r.2) (Explains ts) (signOperand endCol · t us)
  calls : ∀ t us, ts = t :: us → t.kind = .function →
    Halts (2 * ts.length + 1) (fun r => Shorter ts r.2) (Explains ts) (callOperand endCol · t us)
  numbers : ∀ t us, ts = t :: us → Shorter ts (number t us).2
  lists : ∀ count, Halts (2 * ts.length + 4) (fun r => r.2 <:+ ts) (Explains ts)
    (arguments endCol · count ts)
  chains : ∀ minPrec lhs, Halts (2 * ts.length + 1) (fun r => r.2 <:+ ts) (Explains ts)
    (chain endCol · minPrec lhs ts)
  /-- A chain within a chain takes at least one token. -/
  nested : ∀ prec lhs, (∃ next ∈ ts.head?, prec < next.precedence) →
    Halts (2 * ts.length + 1) (fun r => Shorter ts r.2) (Explains ts)
      (chain endCol · (prec + 1) lhs ts)
  /-- A minus sign is handed on, and the chain that gets it reads on behind it. -/
  minus : ∀ t us, ts = t :: us → t.kind = .op → t.text = "-" → ∀ fuel,
    signOperand endCol (fuel + 1) t us = (do
      let r ← tightSide endCol fuel Operator.sub.precedence us
      chain endCol fuel 1 (.apply₂ t.column .sub (.ofReal t.column "0") r.1) r.2)
  rounds : ∀ t us, ts = t :: us → ∀ fuel minPrec lhs, 1 ≤ minPrec →
    chain endCol (fuel + 1) minPrec lhs ts = chainRound endCol fuel minPrec lhs t us
  /-- A round that does not stop finds the operation of its symbol. -/
  joins : ∀ t us, ts = t :: us → ∀ minPrec, 1 ≤ minPrec → ¬ t.precedence < minPrec →
    ∀ lhs rhs, ∃ n, Node.ofSymbol t.column t.text lhs rhs = .ok n

/-- On every list of tokens each function of the parser comes to one answer, whatever the fuel from
little more than twice the length of the list on: a tree, a rejected formula, or the call of a
function that does not exist. An operand takes at least one token, and so does every chain within a
chain; the chain behind a minus sign takes the sign first; and no operation is looked up by a symbol
that has none. -/
theorem parser_terminates (ts : List Token) :
    (∀ endCol, Terminates endCol ts) ∧ Outcome (fun _ => True) (Explains ts) (formula ts) := by
  refine ⟨fun endCol => ?_, formula_outcome ts⟩
  exact {
    expressions := expression_halts endCol ts
    operands := operand_halts endCol ts
    signs := by
      rintro t us rfl kind
      exact (operand_halts endCol (t :: us)).called fun fuel => operand_sign endCol fuel us kind
    calls := by
      rintro t us rfl kind
      exact (operand_halts endCol (t :: us)).called fun fuel => operand_call endCol fuel us kind
    numbers := by
      rintro t us rfl
      exact (shorter_cons t us).trans (number_suffix t us)
    lists := fun count => arguments_halt endCol count ts
    chains := fun minPrec lhs => (chain_halts endCol minPrec lhs ts).imp fun _ done => done.1
    nested := fun prec lhs tighter => nested_chain_halts endCol prec lhs tighter
    minus := fun t us _ kind minus fuel => signOperand_minus endCol fuel us kind minus
    rounds := by
      rintro t us rfl fuel minPrec lhs positive
      exact chain_eq_round endCol fuel positive lhs t us
    joins := by
      intro t us _ minPrec positive goesOn lhs rhs
      obtain ⟨op, operator, -⟩ := operator_of_lt_precedence (by omega : 0 < t.precedence)
      exact ⟨_, ofSymbol_of_operator operator t.column lhs rhs⟩ }

end Parse

end EscapeTime
