import EscapeTime.Formula.Parser
import EscapeTime.Proofs.Outcome

/-!
# Parsing comes to an end

Every call of the parser that succeeds leaves fewer tokens than it was given, and the fuel that
`Parse.formula` starts with is enough for every list of tokens. What is left of the ways to fail is
a rejected formula, with the column of a token or of the end, or the call of a function that does
not exist.
-/

namespace EscapeTime

namespace Parse

/-- The operand after the operator `op`, with the operators behind it that bind tighter. -/
def rightSide (endCol : Int) (fuel : Nat) (op : Operator) (ts : List Token) :
    Except Failure (Node × List Token) := do
  let r ← operand endCol fuel ts
  if ∃ t ∈ r.2.head?, op.precedence < t.precedence then
    chain endCol fuel (op.precedence + 1) r.1 r.2
  else return r

theorem chain_cons (endCol : Int) (fuel minPrec : Nat) (lhs : Node) (t : Token) (ts : List Token) :
    chain endCol (fuel + 1) minPrec lhs (t :: ts) = (do
      let _ ← expect endCol followKinds (t :: ts)
      match t.operator? with
      | none => return (lhs, t :: ts)
      | some op =>
        if op.precedence < minPrec then return (lhs, t :: ts)
        else do
          let r ← rightSide endCol fuel op ts
          chain endCol fuel minPrec (.apply₂ t.column op lhs r.1) r.2) := by
  rw [chain]
  congr 1
  funext _
  cases t.operator? with
  | none => rfl
  | some op =>
    dsimp only
    congr 1
    unfold rightSide
    cases operand endCol fuel ts with
    | error e => rfl
    | ok r =>
      obtain ⟨n, rest⟩ := r
      cases rest with
      | nil => rfl
      | cons next rest =>
        by_cases tighter : op.precedence < next.precedence
        · simp [bind, Except.bind, tighter]
        · simp [bind, Except.bind, tighter, pure, Except.pure]

/-! ### Why the parser fails -/

/-- A function that does not exist is called. -/
def UnknownCall (ts : List Token) : Prop :=
  ∃ t l rest, t :: l :: rest <:+ ts ∧ t.kind = .function ∧ Builtin.ofName? t.text = none ∧
    l.kind = .parenOpen

/-- The error is at a token, or at the end of the formula if it has come to its end. -/
def Located (endCol : Int) (ts : List Token) (e : FormulaError) : Prop :=
  (∃ t ∈ ts, e.column = t.column) ∧ (∀ kinds, e.cause ≠ .endOfFormula kinds) ∨
    e.column = endCol ∧ ∃ kinds, e.cause = .endOfFormula kinds

/-- The formula is rejected while it is parsed, or it calls a function that does not exist. -/
def Explains (ts : List Token) : Failure → Prop
  | .rejected e => e.stage = .parsing
  | .broken fault => fault = .noMeaning ∧ UnknownCall ts

/-- The failure is explained, and a rejected formula is rejected at a column of its own. -/
def Blames (endCol : Int) (ts : List Token) (failure : Failure) : Prop :=
  Explains ts failure ∧ ∀ e, failure = .rejected e → Located endCol ts e

theorem blames_token {endCol : Int} {ts : List Token} {t : Token} (member : t ∈ ts)
    {cause : Cause} (other : ∀ kinds, cause ≠ .endOfFormula kinds) :
    Blames endCol ts (.rejected ⟨.parsing, t.column, cause⟩) := by
  refine ⟨rfl, ?_⟩
  rintro e ⟨⟩
  exact .inl ⟨⟨t, member, rfl⟩, other⟩

theorem Explains.of_suffix {ts us : List Token} {e : Failure} (suffix : us <:+ ts)
    (explained : Explains us e) : Explains ts e := by
  cases e with
  | rejected => exact explained
  | broken =>
    obtain ⟨fault, t, l, rest, there, call⟩ := explained
    exact ⟨fault, t, l, rest, there.trans suffix, call⟩

theorem Blames.of_suffix {endCol : Int} {ts us : List Token} {e : Failure} (suffix : us <:+ ts)
    (blamed : Blames endCol us e) : Blames endCol ts e := by
  obtain ⟨explained, located⟩ := blamed
  refine ⟨explained.of_suffix suffix, fun e' rejected => ?_⟩
  obtain ⟨⟨t, member, column⟩, other⟩ | atEnd := located e' rejected
  · exact .inl ⟨⟨t, suffix.subset member, column⟩, other⟩
  · exact .inr atEnd

end Parse

section Outcome

open Parse

variable {α β : Type} {good : α → Prop} {endCol : Int} {ts us : List Token}

/-- A call on the last tokens `us` of `ts`, at the end of a computation. -/
theorem Outcome.of_suffix {x : Except Failure α} {good' : α → Prop} (suffix : us <:+ ts)
    (outcome : Outcome good (Blames endCol us) x) (result : ∀ a, good a → good' a) :
    Outcome good' (Blames endCol ts) x := by
  cases x with
  | ok a => exact result a outcome
  | error e => exact Blames.of_suffix suffix outcome

/-- A call on the last tokens `us` of `ts`, with more calls after it. -/
theorem Outcome.bind {x : Except Failure α} {f : α → Except Failure β} {good' : β → Prop}
    (suffix : us <:+ ts) (first : Outcome good (Blames endCol us) x)
    (next : ∀ a, good a → Outcome good' (Blames endCol ts) (f a)) :
    Outcome good' (Blames endCol ts) (x >>= f) := by
  cases x with
  | ok a => exact next a first
  | error e => exact Blames.of_suffix suffix first

end Outcome

namespace Parse

/-- What a call leaves: the end of the tokens, and fewer of them. -/
def Shorter (ts rest : List Token) : Prop :=
  rest <:+ ts ∧ rest.length < ts.length

theorem Shorter.trans {ts us rest : List Token} (first : Shorter ts us) (next : rest <:+ us) :
    Shorter ts rest :=
  ⟨next.trans first.1, Nat.lt_of_le_of_lt next.length_le first.2⟩

theorem shorter_cons (t : Token) (ts : List Token) : Shorter (t :: ts) ts :=
  ⟨List.suffix_cons t ts, by simp⟩

theorem expect_outcome (endCol : Int) (kinds : List TokenKind) (ts : List Token) :
    Outcome (fun r => ts = r.1 :: r.2 ∧ r.1.kind ∈ kinds) (Blames endCol ts)
      (expect endCol kinds ts) := by
  cases ts with
  | nil =>
    refine ⟨rfl, ?_⟩
    rintro e ⟨⟩
    exact .inr ⟨rfl, kinds, rfl⟩
  | cons t ts =>
    rw [expect]
    split
    · rename_i member
      exact ⟨rfl, member⟩
    · exact blames_token List.mem_cons_self nofun

theorem suffix_of_eq_cons {ts rest : List Token} {t : Token} (there : ts = t :: rest) :
    rest <:+ ts := by
  rw [there]
  exact List.suffix_cons t rest

/-- The factor that a number takes with it comes next, or after a multiplication that was not
typed. -/
theorem fusedFactor_some {ts rest : List Token} {f : Token}
    (fused : fusedFactor ts = some (f, rest)) :
    (f.kind = .imaginary ∨ f.kind = .z) ∧
      (ts = f :: rest ∨ ∃ t, ts = t :: f :: rest ∧ t.kind = .op ∧ t.implicit = true) := by
  fun_cases fusedFactor ts <;> simp_all [fusedFactor]

theorem fusedFactor_suffix {ts rest : List Token} {f : Token}
    (fused : fusedFactor ts = some (f, rest)) : rest <:+ ts := by
  obtain ⟨-, rfl | ⟨t, rfl, -⟩⟩ := fusedFactor_some fused
  · exact List.suffix_cons f rest
  · exact (List.suffix_cons f rest).trans (List.suffix_cons t (f :: rest))

theorem number_suffix (t : Token) (ts : List Token) : (number t ts).2 <:+ ts := by
  unfold number
  split
  · exact List.suffix_refl ts
  · rename_i factor rest fused
    have suffix := fusedFactor_suffix fused
    split
    · exact suffix
    · exact suffix

/-! ### The four functions

Each with the fuel that it needs, given that the calls it makes with less fuel end. -/

section Functions

variable (endCol : Int) (fuel : Nat)

def ExpressionEnds : Prop :=
  ∀ ts, 2 * ts.length + 3 ≤ fuel →
    Outcome (fun r => Shorter ts r.2) (Blames endCol ts) (expression endCol fuel ts)

def OperandEnds : Prop :=
  ∀ ts, 2 * ts.length + 2 ≤ fuel →
    Outcome (fun r => Shorter ts r.2) (Blames endCol ts) (operand endCol fuel ts)

/-- A chain may take no token, but not when an operator that binds tight enough comes first. -/
def ChainEnds : Prop :=
  ∀ minPrec lhs ts, 2 * ts.length + 1 ≤ fuel →
    Outcome (fun r => r.2 <:+ ts ∧ ∀ t us op, ts = t :: us → t.operator? = some op →
      minPrec ≤ op.precedence → Shorter ts r.2)
      (Blames endCol ts) (chain endCol fuel minPrec lhs ts)

def ArgumentsEnd : Prop :=
  ∀ count ts, 2 * ts.length + 4 ≤ fuel →
    Outcome (fun r => r.2 <:+ ts) (Blames endCol ts) (arguments endCol fuel count ts)

variable {endCol fuel}

theorem expression_ends (operands : OperandEnds endCol fuel) (chains : ChainEnds endCol fuel) :
    ExpressionEnds endCol (fuel + 1) := by
  intro ts enough
  rw [expression]
  refine (operands ts (by omega)).bind (List.suffix_refl ts) fun r shorter => ?_
  have length := shorter.2
  exact (chains 1 r.1 r.2 (by omega)).of_suffix shorter.1 fun _ done => shorter.trans done.1

theorem arguments_end (expressions : ExpressionEnds endCol fuel)
    (lists : ArgumentsEnd endCol fuel) : ArgumentsEnd endCol (fuel + 1) := by
  intro count ts enough
  cases count with
  | zero => exact List.suffix_refl ts
  | succ count =>
    rw [arguments]
    refine (expressions ts (by omega)).bind (List.suffix_refl ts) fun r shorter => ?_
    have length := shorter.2
    by_cases last : count = 0
    · simp only [last, if_true]
      exact shorter.1
    · simp only [last, if_false]
      refine (expect_outcome endCol [.comma] r.2).bind shorter.1 fun comma there => ?_
      have rest : Shorter ts comma.2 := shorter.trans (suffix_of_eq_cons there.1)
      have lengthRest := rest.2
      exact (lists count comma.2 (by omega)).bind rest.1 fun _ done => done.trans rest.1

theorem rightSide_ends (operands : OperandEnds endCol fuel) (chains : ChainEnds endCol fuel)
    (op : Operator) (ts : List Token) (enough : 2 * ts.length + 2 ≤ fuel) :
    Outcome (fun r => Shorter ts r.2) (Blames endCol ts) (rightSide endCol fuel op ts) := by
  unfold rightSide
  refine (operands ts enough).bind (List.suffix_refl ts) fun r shorter => ?_
  have length := shorter.2
  split
  · exact (chains _ r.1 r.2 (by omega)).of_suffix shorter.1 fun _ done => shorter.trans done.1
  · exact shorter

theorem chain_ends (operands : OperandEnds endCol fuel) (chains : ChainEnds endCol fuel) :
    ChainEnds endCol (fuel + 1) := by
  intro minPrec lhs ts enough
  cases ts with
  | nil => exact ⟨List.suffix_refl [], by simp⟩
  | cons t ts =>
    rw [chain_cons]
    refine (expect_outcome endCol followKinds (t :: ts)).bind (List.suffix_refl _) fun _ _ => ?_
    simp only [List.length_cons] at enough
    split
    · rename_i unknown
      refine ⟨List.suffix_refl _, ?_⟩
      rintro _ _ op ⟨⟩ known
      cases unknown.symm.trans known
    · rename_i op operator
      split
      · refine ⟨List.suffix_refl _, ?_⟩
        rintro _ _ op' ⟨⟩ known tight
        cases operator.symm.trans known
        omega
      · have tail := shorter_cons t ts
        refine (rightSide_ends operands chains op ts (by omega)).bind tail.1 fun r shorter => ?_
        have length := shorter.2
        have rest : Shorter (t :: ts) r.2 := tail.trans shorter.1
        exact (chains minPrec _ r.2 (by omega)).of_suffix rest.1 fun _ done =>
          ⟨done.1.trans rest.1, fun _ _ _ _ _ _ => rest.trans done.1⟩

theorem operand_ends (expressions : ExpressionEnds endCol fuel) (operands : OperandEnds endCol fuel)
    (chains : ChainEnds endCol fuel) (lists : ArgumentsEnd endCol fuel) :
    OperandEnds endCol (fuel + 1) := by
  intro ts enough
  rw [operand]
  refine (expect_outcome endCol operandKinds ts).bind (List.suffix_refl ts) ?_
  rintro ⟨t, us⟩ ⟨rfl, start⟩
  simp only [List.length_cons] at enough
  have tail := shorter_cons t us
  dsimp only
  split
  · refine (expressions us (by omega)).bind tail.1 fun r shorter => ?_
    refine (expect_outcome endCol [.parenClose] r.2).bind (shorter.1.trans tail.1)
      fun r' there => ?_
    have rest : r'.2 <:+ us := (suffix_of_eq_cons there.1).trans shorter.1
    exact tail.trans rest
  · rename_i isOp
    split
    · exact (operands us (by omega)).of_suffix tail.1 fun _ shorter => tail.trans shorter.1
    · split
      · rename_i minus
        have operator : t.operator? = some .sub := by
          simp only [Token.operator?, isOp, minus, if_true]
          decide
        have length : 2 * (t :: us).length + 1 ≤ fuel := by
          simp only [List.length_cons]
          omega
        exact (chains 1 _ (t :: us) length).of_suffix (List.suffix_refl _) fun _ done =>
          done.2 t us .sub rfl operator (by decide)
      · exact blames_token List.mem_cons_self nofun
  · rename_i isFunction
    refine (expect_outcome endCol [.parenOpen] us).bind tail.1 ?_
    rintro ⟨l, vs⟩ ⟨rfl, isOpen⟩
    simp only [List.length_cons] at enough
    have tail' := tail.trans (List.suffix_cons l vs)
    dsimp only at isOpen ⊢
    split
    · rename_i unknown
      exact ⟨⟨rfl, t, l, vs, List.suffix_refl _, isFunction, unknown, by simpa using isOpen⟩, nofun⟩
    · rename_i fn known
      refine (lists fn.descriptor.arity vs (by omega)).bind tail'.1 fun r suffix => ?_
      refine (expect_outcome endCol [.parenClose] r.2).bind (suffix.trans tail'.1)
        fun r' there => ?_
      have rest : r'.2 <:+ vs := (suffix_of_eq_cons there.1).trans suffix
      exact tail'.trans rest
  · exact tail
  · exact tail
  · exact tail
  · exact tail.trans (number_suffix t us)

end Functions

/-- With the fuel that it needs, no function of the parser runs out of it. -/
theorem all_end (endCol : Int) (fuel : Nat) :
    ExpressionEnds endCol fuel ∧ OperandEnds endCol fuel ∧ ChainEnds endCol fuel ∧
      ArgumentsEnd endCol fuel := by
  induction fuel with
  | zero => exact ⟨nofun, nofun, nofun, nofun⟩
  | succ fuel ih =>
    obtain ⟨expressions, operands, chains, lists⟩ := ih
    exact ⟨expression_ends operands chains, operand_ends expressions operands chains lists,
      chain_ends operands chains, arguments_end expressions lists⟩

theorem formula_blames (ts : List Token) :
    Outcome (fun _ => True) (Blames (endColumn ts) ts) (formula ts) := by
  unfold formula fuelFor
  refine ((all_end (endColumn ts) _).1 ts (by omega)).bind (List.suffix_refl ts) fun r shorter => ?_
  obtain ⟨root, rest⟩ := r
  cases rest with
  | nil => trivial
  | cons t rest => exact blames_token (shorter.1.subset List.mem_cons_self) nofun

/-- A list of tokens has a tree, or is rejected, or calls a function that does not exist. -/
theorem formula_outcome (ts : List Token) : Outcome (fun _ => True) (Explains ts) (formula ts) := by
  have outcome := formula_blames ts
  cases result : formula ts with
  | ok => trivial
  | error failure =>
    rw [result] at outcome
    exact outcome.1

end Parse

end EscapeTime
