import EscapeTime.Proofs.Formula.Derivation

/-!
# The parser recognises its grammar

Every list of tokens that derives a tree is read as that tree. With the derivations of what was read
this makes the parser a decision procedure for the grammar, which is therefore unambiguous.
-/

namespace EscapeTime.Parse

open Grammar

/-! ### What follows an operand -/

theorem Ends.follows {ts : List Token} (ends : Ends ts) : Follows ts := by
  intro t head
  rcases ends t head with kind | kind <;> simp [followKinds, kind]

/-- No factor follows where the expression ends. -/
theorem Ends.apart {rest : List Token} (ends : Ends rest) (ts : List Token) : Apart ts rest := by
  rintro _ times _ _ - rfl - kind -
  rcases ends times rfl with other | other <;> simp [kind] at other

theorem ends_cons {t : Token} (ts : List Token) (kind : t.kind = .comma ∨ t.kind = .parenClose) :
    Ends (t :: ts) := by
  rintro _ ⟨⟩
  exact kind

/-- The links of a chain begin with the sign of the first, which an operand can stand before. -/
theorem links_follow {last : Bool} {us rest : List Token} {ls : List Link}
    (links : Links last us ls) (ends : Ends rest) : Follows (us ++ rest) := by
  have start {t : Token} {op : Operator} (ts : List Token) (sign : Sign t op) :
      Follows (t :: ts) := by
    rintro _ ⟨⟩
    simp [followKinds, sign.1]
  cases links with
  | nil => exact ends.follows
  | last sign => exact start _ sign
  | cons sign => exact start _ sign

theorem fusedFactor_of_apart {t : Token} {ts : List Token} (kind : t.kind = .number)
    (apart : Apart [t] ts) (follows : Follows ts) : fusedFactor ts = none := by
  cases ts with
  | nil => rfl
  | cons u us =>
    have notFactor : ¬(u.kind = .imaginary ∨ u.kind = .z) := by
      have := follows u rfl
      rintro (factor | factor) <;> simp [followKinds, factor] at this
    cases us with
    | nil => simp [fusedFactor, notFactor]
    | cons v us =>
      have loose := apart t u v us rfl rfl kind
      simp only [fusedFactor, notFactor, if_false]
      split
      · rename_i implicit
        have free := loose implicit.1 implicit.2
        simp [free.1, free.2]
      · rfl

theorem fusedFactor_of_silent {ts rest : List Token} {factor : Token} (silent : Silent ts)
    (kind : factor.kind = .imaginary ∨ factor.kind = .z) :
    fusedFactor (ts ++ factor :: rest) = some (factor, rest) := by
  obtain rfl | ⟨times, rfl, sign, implicit⟩ := silent
  · simp [fusedFactor, kind]
  · simp [fusedFactor, sign.1, implicit, kind]

/-! ### The four functions

Each with the fuel that it needs, given that the calls it makes with less fuel recognise what they
read. -/

section Recognition

variable (endCol : Int) (fuel : Nat)

def ExpressionRecognised : Prop :=
  ∀ us n rest, Expression us n → Ends rest → 2 * (us ++ rest).length + 3 ≤ fuel →
    expression endCol fuel (us ++ rest) = .ok (n, rest)

def OperandRecognised : Prop :=
  ∀ last us n rest, Operand last us n → (last = true → Ends rest) → Apart us rest →
    Follows rest → 2 * (us ++ rest).length + 2 ≤ fuel →
    operand endCol fuel (us ++ rest) = .ok (n, rest)

/-- Of the links of a chain, those before the first that is below `tier` are bracketed. -/
def ChainRecognised : Prop :=
  ∀ minPrec tier (b : Bracketing) last us ls rest, Matches minPrec tier → Links last us ls →
    Ends rest → b.Binds tier →
    (∀ t ∈ (us ++ rest).head?, ∀ op, t.operator? = some op → tier ≤ op.tier → b.Binds op.tier) →
    2 * (us ++ rest).length + 1 ≤ fuel →
    ∃ (b' : Bracketing) (last' : Bool) (us' : List Token) (done left : List Link),
      chain endCol fuel minPrec b.tree (us ++ rest) = .ok (b'.tree, us' ++ rest) ∧ us' <:+ us ∧
        Links last' us' left ∧ ls = done ++ left ∧ Below tier (us' ++ rest) ∧
        b'.first = b.first ∧ b'.links = b.links ++ done ∧ b'.Binds tier

def ArgumentsRecognised : Prop :=
  ∀ count us ns rest, Arguments count us ns → Ends rest → 2 * (us ++ rest).length + 4 ≤ fuel →
    arguments endCol fuel count (us ++ rest) = .ok (ns, rest)

variable {endCol fuel}

/-- The whole chain is bracketed when every operator binds tight enough. -/
theorem ChainRecognised.whole (chains : ChainRecognised endCol fuel) {b : Bracketing} {last : Bool}
    {us rest : List Token} (links : Links last us b.links) (binds : b.Binds 1) (ends : Ends rest)
    (enough : 2 * (us ++ rest).length + 1 ≤ fuel) :
    chain endCol fuel 1 b.first (us ++ rest) = .ok (b.tree, rest) := by
  obtain ⟨b', last', us', done, left, run, -, links', split, below, first, same, binds'⟩ :=
    chains 1 1 (.operand b.first) last us b.links rest matches_one links ends trivial
      (fun _ _ _ _ _ => trivial) enough
  obtain ⟨rfl, rfl⟩ := links_below_one links' below
  have whole : b'.links = b.links := by
    rw [same, split, List.append_nil]
    rfl
  rw [Bracketing.ext_of_chain binds' binds first whole] at run
  exact run

theorem expression_recognised (operands : OperandRecognised endCol fuel)
    (chains : ChainRecognised endCol fuel) : ExpressionRecognised endCol (fuel + 1) := by
  intro us n rest derived ends enough
  refine expression_ok_iff.mpr ?_
  cases derived with
  | greedy operand =>
    have first := operands true us n rest operand (fun _ => ends) (ends.apart us) ends.follows
      (by omega)
    have stop := chains.whole (b := .operand n) .nil trivial ends (by simp at enough ⊢; omega)
    exact ⟨n, rest, first, stop⟩
  | @chain ts us b last operand apart links binds =>
    have cut : Apart ts (us ++ rest) := apart.extend links.length_ne_one fun _ => ends.apart ts
    simp only [List.append_assoc, List.length_append] at enough ⊢
    have first := operands false ts b.first (us ++ rest) operand nofun cut (links_follow links ends)
      (by simp only [List.length_append]; omega)
    have more := chains.whole links binds ends (by simp only [List.length_append]; omega)
    exact ⟨b.first, us ++ rest, first, more⟩

/-- The right-hand side of an operator takes the links that bind tighter. -/
theorem rightSide_recognised (operands : OperandRecognised endCol fuel)
    (chains : ChainRecognised endCol fuel) {t : Token} {op : Operator} {last : Bool}
    {us rest : List Token} {n : Node} {ls : List Link}
    (links : Links last (t :: us) (⟨t.column, op, n⟩ :: ls)) (ends : Ends rest)
    (enough : 2 * (us ++ rest).length + 2 ≤ fuel) :
    ∃ (b : Bracketing) (last' : Bool) (us' : List Token) (left : List Link),
      rightSide endCol fuel op (us ++ rest) = .ok (b.tree, us' ++ rest) ∧ us' <:+ us ∧
        Links last' us' left ∧ ls = b.links ++ left ∧ Below (op.tier + 1) (us' ++ rest) ∧
        b.first = n ∧ b.Binds (op.tier + 1) := by
  have notTighter {ts : List Token} (below : Below (op.tier + 1) ts) :
      ¬∃ t ∈ ts.head?, op.precedence < t.precedence := by
    rintro ⟨t, head, tighter⟩
    obtain ⟨op', operator, tight⟩ := tighter_iff.mp tighter
    have := below t head op' operator
    omega
  cases links with
  | last _ operand =>
    have first :=
      operands true us n rest operand (fun _ => ends) (ends.apart us) ends.follows enough
    have below := ends.below (op.tier + 1)
    exact ⟨.operand n, false, [], [],
      rightSide_ok_iff.mpr ⟨n, rest, first, .inl ⟨notTighter below, rfl, rfl⟩⟩,
      List.nil_suffix, .nil, rfl, below, rfl, trivial⟩
  | @cons _ _ ts us _ _ _ _ operand apart more =>
    have cut : Apart ts (us ++ rest) := apart.extend more.length_ne_one fun _ => ends.apart ts
    simp only [List.append_assoc] at enough ⊢
    have first := operands false ts n (us ++ rest) operand nofun cut (links_follow more ends) enough
    by_cases tighter : ∃ t ∈ (us ++ rest).head?, op.precedence < t.precedence
    · have enoughMore : 2 * (us ++ rest).length + 1 ≤ fuel := by
        simp only [List.length_append] at enough ⊢
        omega
      obtain ⟨b, last', us', done, left, run, suffix, links', split, below, hfirst, hlinks,
        binds⟩ :=
        chains _ _ (.operand n) last us ls rest (matches_succ op) more ends trivial
          (fun _ _ _ _ _ => trivial) enoughMore
      obtain rfl : b.links = done := hlinks
      exact ⟨b, last', us', left,
        rightSide_ok_iff.mpr ⟨n, us ++ rest, first, .inr ⟨tighter, run⟩⟩,
        suffix.trans (List.suffix_append ts us), links', split, below, hfirst, binds⟩
    · have below : Below (op.tier + 1) (us ++ rest) := fun t head op' operator =>
        Nat.lt_succ_of_le <| Nat.le_of_not_lt fun tight =>
          tighter ⟨t, head, tighter_iff.mpr ⟨op', operator, tight⟩⟩
      exact ⟨.operand n, last, us, ls,
        rightSide_ok_iff.mpr ⟨n, us ++ rest, first, .inl ⟨tighter, rfl, rfl⟩⟩,
        List.suffix_append ts us, more, rfl, below, rfl, trivial⟩

theorem links_cons_of_ne_nil {last : Bool} {us : List Token} {ls : List Link}
    (links : Links last us ls) :
    us = [] ∧ ls = [] ∨ ∃ t op vs n ls', us = t :: vs ∧ ls = ⟨t.column, op, n⟩ :: ls' ∧
      Sign t op := by
  cases links with
  | nil => exact .inl ⟨rfl, rfl⟩
  | last sign => exact .inr ⟨_, _, _, _, _, rfl, rfl, sign⟩
  | cons sign => exact .inr ⟨_, _, _, _, _, rfl, rfl, sign⟩

theorem chain_recognised (operands : OperandRecognised endCol fuel)
    (chains : ChainRecognised endCol fuel) : ChainRecognised endCol (fuel + 1) := by
  intro minPrec tier b last us ls rest precedence links ends binds head enough
  obtain ⟨rfl, rfl⟩ | ⟨t, op, vs, n, ls, rfl, rfl, sign⟩ := links_cons_of_ne_nil links
  · have stop : chain endCol (fuel + 1) minPrec b.tree rest = .ok (b.tree, rest) := by
      cases rest with
      | nil => rfl
      | cons t rest =>
        refine chain_ok_iff.mpr ⟨ends.follows t rfl, .inl ⟨?_, rfl, rfl⟩⟩
        intro op operator
        rw [ends.no_operator rfl] at operator
        cases operator
    exact ⟨b, false, [], [], [], stop, List.suffix_refl [], .nil, rfl, ends.below tier, rfl,
      (List.append_nil _).symm, binds⟩
  have operator := sign_iff.mp sign
  have kind : t.kind ∈ followKinds := by simp [followKinds, sign.1]
  by_cases tiers : tier ≤ op.tier
  · simp only [List.cons_append, List.length_cons] at enough
    obtain ⟨b₁, last₁, us₁, left₁, right, suffix, links₁, rfl, below, hfirst, binds₁⟩ :=
      rightSide_recognised operands chains links ends (by omega)
    have bindsJoin (tier : Nat) (le : tier ≤ op.tier) :
        (Bracketing.join t.column op b b₁).Binds tier :=
      ⟨le, head t rfl op operator tiers, binds₁⟩
    have enoughMore : 2 * (us₁ ++ rest).length + 1 ≤ fuel := by
      have := suffix.length_le
      simp only [List.length_append] at enough ⊢
      omega
    obtain ⟨b', last', us', done, left, run, suffix', links', rfl, below', first, same, binds'⟩ :=
      chains minPrec tier (.join t.column op b b₁) last₁ us₁ left₁ rest precedence links₁ ends
        (bindsJoin tier tiers)
        (fun u headMid op' operator' _ =>
          bindsJoin op'.tier (Nat.le_of_lt_succ (below u headMid op' operator')))
        enoughMore
    refine ⟨b', last', us', ⟨t.column, op, n⟩ :: b₁.links ++ done, left,
      chain_ok_iff.mpr ⟨kind, .inr ⟨op, b₁.tree, us₁ ++ rest, operator, (precedence op).mpr tiers,
        right, run⟩⟩,
      (suffix'.trans suffix).trans (List.suffix_cons t vs), links', by simp, below', first, ?_,
      binds'⟩
    rw [same, Bracketing.links, hfirst, List.append_assoc]
  · refine ⟨b, last, t :: vs, [], ⟨t.column, op, n⟩ :: ls,
      chain_ok_iff.mpr ⟨kind, .inl ⟨?_, rfl, rfl⟩⟩, List.suffix_refl _, links, rfl, ?_, rfl,
      (List.append_nil _).symm, binds⟩
    · intro op' operator'
      cases operator.symm.trans operator'
      exact Nat.lt_of_not_le fun le => tiers ((precedence op).mp le)
    · rintro _ ⟨⟩ op' operator'
      cases operator.symm.trans operator'
      exact Nat.lt_of_not_le tiers

theorem arguments_recognised (expressions : ExpressionRecognised endCol fuel)
    (lists : ArgumentsRecognised endCol fuel) : ArgumentsRecognised endCol (fuel + 1) := by
  intro count us ns rest derived ends enough
  cases derived with
  | @one _ n first =>
    rw [arguments, expressions us n rest first ends (by omega)]
    rfl
  | @cons t k ts us n ns first comma list =>
    simp only [List.append_assoc, List.cons_append, List.length_append, List.length_cons]
      at enough ⊢
    have read := expressions ts n (t :: (us ++ rest)) first (ends_cons _ (.inl comma))
      (by simp only [List.length_append, List.length_cons]; omega)
    have readMore := lists (k + 1) us ns rest list ends (by simp only [List.length_append]; omega)
    rw [arguments, read]
    simp only [bind, Except.bind, Nat.add_one_ne_zero, if_false, expect, comma, List.mem_singleton,
      if_true, readMore]
    rfl

theorem atom_recognised (expressions : ExpressionRecognised endCol fuel)
    (lists : ArgumentsRecognised endCol fuel) {us rest : List Token} {n : Node} (atom : Atom us n)
    (apart : Apart us rest) (follows : Follows rest)
    (enough : 2 * (us ++ rest).length + 2 ≤ fuel + 1) :
    operand endCol (fuel + 1) (us ++ rest) = .ok (n, rest) := by
  refine operand_ok_iff.mpr ?_
  have number {t : Token} {ts : List Token} (kind : t.kind = .number) :
      OperandStep endCol fuel (t :: ts) (number t ts).1 (number t ts).2 := .number kind
  cases atom with
  | z kind => exact .z kind
  | imaginary kind => exact .imaginary kind
  | raw kind => exact .raw kind
  | @number t kind =>
    have step := @number t rest kind
    rwa [Parse.number, fusedFactor_of_apart kind apart follows] at step
  | @numberI t i ts kind silent isI =>
    have step := @number t (ts ++ i :: rest) kind
    rw [Parse.number, fusedFactor_of_silent silent (.inl isI)] at step
    simpa [isI] using step
  | @numberZ t z ts kind silent isZ =>
    have step := @number t (ts ++ z :: rest) kind
    rw [Parse.number, fusedFactor_of_silent silent (.inr isZ)] at step
    simpa [isZ] using step
  | @parens l r ts _ isOpen inner isClose =>
    simp only [List.cons_append, List.append_assoc, List.nil_append, List.length_cons,
      List.length_append] at enough ⊢
    exact .parens isOpen (expressions ts n (r :: rest) inner (ends_cons rest (.inr isClose))
      (by simp only [List.length_append, List.length_cons]; omega)) isClose
  | @call t l r fn ts args kind name isOpen list isClose =>
    simp only [List.cons_append, List.append_assoc, List.nil_append, List.length_cons,
      List.length_append] at enough ⊢
    exact .call kind (name ▸ fn.ofName?_name) isOpen (lists _ ts args (r :: rest) list
      (ends_cons rest (.inr isClose)) (by simp only [List.length_append, List.length_cons]; omega))
      isClose

theorem operand_recognised (expressions : ExpressionRecognised endCol fuel)
    (operands : OperandRecognised endCol fuel) (chains : ChainRecognised endCol fuel)
    (lists : ArgumentsRecognised endCol fuel) : OperandRecognised endCol (fuel + 1) := by
  intro last us n rest derived ends apart follows enough
  cases derived with
  | atom atom => exact atom_recognised expressions lists atom apart follows enough
  | @plus t ts _ _ sign operand =>
    have cut : Apart ts rest := by
      intro number times factor more last
      refine apart number times factor more ?_
      rw [List.getLast?_cons, last]
      rfl
    simp only [List.cons_append, List.length_cons] at enough
    exact operand_ok_iff.mpr (.plus sign
      (operands last ts n rest operand ends cut follows (by omega)))
  | minus sign first links binds =>
    have run := chains.whole links binds (ends rfl) (by omega)
    rw [first] at run
    exact operand_ok_iff.mpr (.minus sign run)

end Recognition

theorem all_recognised (endCol : Int) (fuel : Nat) :
    ExpressionRecognised endCol fuel ∧ OperandRecognised endCol fuel ∧
      ChainRecognised endCol fuel ∧ ArgumentsRecognised endCol fuel := by
  induction fuel with
  | zero =>
    refine ⟨?_, ?_, ?_, ?_⟩
    · intro _ _ _ _ _ enough
      omega
    · intro _ _ _ _ _ _ _ _ enough
      omega
    · intro _ _ _ _ _ _ _ _ _ _ _ _ enough
      omega
    · intro _ _ _ _ _ _ enough
      omega
  | succ fuel ih =>
    obtain ⟨expressions, operands, chains, lists⟩ := ih
    exact ⟨expression_recognised operands chains,
      operand_recognised expressions operands chains lists, chain_recognised operands chains,
      arguments_recognised expressions lists⟩

theorem formula_recognised {ts : List Token} {n : Node} (derived : Expression ts n) :
    formula ts = .ok n := by
  have run := (all_recognised (endColumn ts) (fuelFor ts)).1 ts n [] derived nofun (by
    simp only [List.append_nil, fuelFor]
    omega)
  rw [List.append_nil] at run
  rw [formula, run]
  rfl

/-- No list of tokens derives two trees. -/
theorem expression_unique {ts : List Token} {n m : Node} (first : Expression ts n)
    (second : Expression ts m) : n = m :=
  Except.ok.inj ((formula_recognised first).symm.trans (formula_recognised second))

/-- A known function is not one that does not exist. -/
theorem not_unknownCall {ts : List Token} (known : ∀ t ∈ ts, t.Known) : ¬UnknownCall ts := by
  rintro ⟨t, l, rest, suffix, kind, unknown, -⟩
  have call := (known t (suffix.mem (by simp))).2.1 kind
  rw [unknown] at call
  cases call

/-- The parser accepts exactly what the grammar derives, with the grammar's tree, which is the only
one, and it rejects everything else. -/
theorem formula_decides_grammar (tokens : List Token) (known : ∀ t ∈ tokens, t.Known) :
    (∀ n, formula tokens = .ok n ↔ Expression tokens n) ∧
      (∀ n m, Expression tokens n → Expression tokens m → n = m) ∧
      ((¬∃ n, Expression tokens n) →
        ∃ e : FormulaError, formula tokens = .error (.rejected e) ∧ e.stage = .parsing) := by
  refine ⟨fun n => ⟨formula_derived known, formula_recognised⟩, fun n m => expression_unique, ?_⟩
  intro underivable
  have outcome := formula_outcome tokens
  cases result : formula tokens with
  | ok n => exact (underivable ⟨n, formula_derived known result⟩).elim
  | error failure =>
    rw [result] at outcome
    cases failure with
    | rejected e => exact ⟨e, rfl, outcome⟩
    | broken fault => exact (not_unknownCall known outcome.2).elim

/-- The tokens of `-2z^2`. -/
def minusTwiceSquared : List Token :=
  [⟨.op, 0, "-", false⟩, ⟨.number, 1, "2", false⟩, ⟨.op, 1, "*", true⟩, ⟨.z, 2, "z", false⟩,
    ⟨.op, 3, "^", false⟩, ⟨.number, 4, "2", false⟩]

/-- The number takes its factor before the power is applied, and the sign comes last. -/
theorem minusTwiceSquared_derived :
    (∀ t ∈ minusTwiceSquared, t.Known) ∧
      Expression minusTwiceSquared (.apply₂ 0 .sub (.ofReal 0 "0")
        (.apply₂ 3 .pow (.apply₂ 1 .mul (.ofReal 1 "2") (.z 2)) (.ofReal 4 "2"))) := by
  have known : ∀ t ∈ minusTwiceSquared, t.Known := by decide
  exact ⟨known, ((formula_decides_grammar minusTwiceSquared known).1 _).mp rfl⟩

end EscapeTime.Parse
