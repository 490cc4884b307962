import EscapeTime.Proofs.Formula.RealAxis

/-!
# Trees and the tokens they come from

Whatever the tokens, a tree that the parser returns is made of them: each node stands at the column
of a token, each literal is that of a number token or of an implied zero or one, and no operation
has a type yet.
-/

namespace EscapeTime

namespace Node

/-- Induction over a tree, with the hypothesis for each argument of a call. -/
theorem induction {P : Node → Prop} (real : ∀ c v, P (.real c v))
    (imaginary : ∀ c v, P (.imaginary c v)) (complex : ∀ c t re im, P (.complex c t re im))
    (z : ∀ c, P (.z c)) (raw : ∀ c code, P (.raw c code))
    (binary : ∀ c t op lhs rhs, P lhs → P rhs → P (.binary c t op lhs rhs))
    (call : ∀ c t complexInput fn args, (∀ a ∈ args, P a) → P (.call c t complexInput fn args))
    (n : Node) : P n :=
  @Node.rec P (fun args => ∀ a ∈ args, P a) real imaginary complex z raw binary call
    (fun _ none => by cases none)
    (fun _ _ first rest => List.forall_mem_cons.mpr ⟨first, rest⟩) n

/-- A tree made of the tokens `ts`. -/
inductive MadeOf (ts : List Token) : Node → Prop
  | number {t : Token} : t ∈ ts → t.kind = .number → MadeOf ts (.ofReal t.column t.text)
  | zero {t : Token} : t ∈ ts → MadeOf ts (.ofReal t.column "0")
  | unit {t : Token} : t ∈ ts → MadeOf ts (.ofImaginary t.column "1")
  | imaginaryPart {t : Token} :
    t ∈ ts → t.kind = .number → MadeOf ts (.ofImaginaryPart t.column t.text)
  | z {t : Token} : t ∈ ts → MadeOf ts (.z t.column)
  | raw {t : Token} : t ∈ ts → MadeOf ts (.raw t.column t.text)
  | binary {t : Token} {op : Operator} {lhs rhs : Node} :
    t ∈ ts → MadeOf ts lhs → MadeOf ts rhs → MadeOf ts (.apply₂ t.column op lhs rhs)
  | call {t : Token} {fn : Builtin} {args : List Node} :
    t ∈ ts → args.length = fn.descriptor.arity → (∀ a ∈ args, MadeOf ts a) →
      MadeOf ts (.apply t.column fn args)

theorem MadeOf.mono {ts us : List Token} {n : Node} (made : n.MadeOf us) (subset : us ⊆ ts) :
    n.MadeOf ts := by
  induction made with
  | number member kind => exact .number (subset member) kind
  | zero member => exact .zero (subset member)
  | unit member => exact .unit (subset member)
  | imaginaryPart member kind => exact .imaginaryPart (subset member) kind
  | z member => exact .z (subset member)
  | raw member => exact .raw (subset member)
  | binary member _ _ left right => exact .binary (subset member) left right
  | call member arity _ args => exact .call (subset member) arity args

theorem MadeOf.column {ts : List Token} {n : Node} (made : n.MadeOf ts) :
    ∀ m ∈ n.nodes, ∃ t ∈ ts, m.column = t.column := by
  induction made with
  | number member | zero member | unit member | imaginaryPart member | z member | raw member =>
    rintro m (_ | ⟨_, ⟨⟩⟩)
    exact ⟨_, member, rfl⟩
  | @binary t op lhs rhs member _ _ left right =>
    intro m there
    rw [apply₂, nodes_binary] at there
    simp only [List.mem_cons, List.mem_append] at there
    obtain rfl | there | there := there
    · exact ⟨t, member, rfl⟩
    · exact left m there
    · exact right m there
  | @call t fn args member _ _ ih =>
    intro m there
    rw [apply, nodes_call] at there
    simp only [List.mem_cons, List.mem_flatMap] at there
    obtain rfl | ⟨a, argument, there⟩ := there
    · exact ⟨t, member, rfl⟩
    · exact ih a argument m there

end Node

namespace Parse

open Grammar

/-! ### The four functions -/

theorem number_made (t : Token) (us : List Token) (kind : t.kind = .number) :
    (number t us).1.MadeOf (t :: us) := by
  unfold number
  split
  · exact .number List.mem_cons_self kind
  · rename_i factor rest fused
    have there : factor ∈ t :: us := by
      obtain ⟨-, rfl | ⟨times, rfl, -⟩⟩ := fusedFactor_some fused <;> simp
    split
    · exact .imaginaryPart List.mem_cons_self kind
    · exact .binary List.mem_cons_self (.number List.mem_cons_self kind) (.z there)

section Functions

variable (endCol : Int) (fuel : Nat)

def ExpressionMakes : Prop :=
  ∀ ts n rest, expression endCol fuel ts = .ok (n, rest) → rest <:+ ts ∧ n.MadeOf ts

def OperandMakes : Prop :=
  ∀ ts n rest, operand endCol fuel ts = .ok (n, rest) → rest <:+ ts ∧ n.MadeOf ts

/-- The left-hand side of a chain was made of tokens before those that the chain is given. -/
def ChainMakes : Prop :=
  ∀ minPrec lhs all ts n rest, ts <:+ all → lhs.MadeOf all →
    chain endCol fuel minPrec lhs ts = .ok (n, rest) → rest <:+ ts ∧ n.MadeOf all

def ArgumentsMake : Prop :=
  ∀ count ts ns rest, arguments endCol fuel count ts = .ok (ns, rest) →
    rest <:+ ts ∧ ns.length = count ∧ ∀ n ∈ ns, n.MadeOf ts

variable {endCol fuel}

theorem expression_makes (operands : OperandMakes endCol fuel) (chains : ChainMakes endCol fuel) :
    ExpressionMakes endCol (fuel + 1) := by
  intro ts n rest done
  obtain ⟨lhs, us, first, more⟩ := expression_ok_iff.mp done
  obtain ⟨suffix, made⟩ := operands ts lhs us first
  obtain ⟨shorter, made'⟩ := chains 1 lhs ts us n rest suffix made more
  exact ⟨shorter.trans suffix, made'⟩

theorem arguments_make (expressions : ExpressionMakes endCol fuel)
    (lists : ArgumentsMake endCol fuel) : ArgumentsMake endCol (fuel + 1) := by
  intro count ts ns rest done
  cases count with
  | zero =>
    cases done
    exact ⟨List.suffix_refl ts, rfl, by simp⟩
  | succ count =>
    rw [arguments] at done
    obtain ⟨⟨arg, us⟩, first, done⟩ := bind_ok done
    obtain ⟨suffix, made⟩ := expressions ts arg us first
    dsimp only at done
    split at done
    · rename_i last
      cases done
      exact ⟨suffix, by rw [last]; rfl, by simpa using made⟩
    · obtain ⟨⟨comma, vs⟩, found, done⟩ := bind_ok done
      obtain ⟨⟨args, vs'⟩, list, done⟩ := bind_ok done
      cases done
      obtain ⟨rfl, -⟩ := expect_ok_iff.mp found
      have tail : vs <:+ ts := (List.suffix_cons comma vs).trans suffix
      obtain ⟨shorter, length, others⟩ := lists count vs args vs' list
      refine ⟨shorter.trans tail, congrArg (· + 1) length, List.forall_mem_cons.mpr ⟨made, ?_⟩⟩
      intro a member
      exact (others a member).mono tail.subset

theorem rightSide_makes (operands : OperandMakes endCol fuel) (chains : ChainMakes endCol fuel)
    {op : Operator} {ts rest : List Token} {n : Node}
    (done : rightSide endCol fuel op ts = .ok (n, rest)) : rest <:+ ts ∧ n.MadeOf ts := by
  obtain ⟨m, us, first, ⟨-, rfl, rfl⟩ | ⟨-, more⟩⟩ := rightSide_ok_iff.mp done
  · exact operands ts n rest first
  · obtain ⟨suffix, made⟩ := operands ts m us first
    obtain ⟨shorter, made'⟩ := chains _ m ts us n rest suffix made more
    exact ⟨shorter.trans suffix, made'⟩

theorem chain_makes (operands : OperandMakes endCol fuel) (chains : ChainMakes endCol fuel) :
    ChainMakes endCol (fuel + 1) := by
  intro minPrec lhs all ts n rest suffix made done
  cases ts with
  | nil =>
    cases done
    exact ⟨List.suffix_refl [], made⟩
  | cons t ts =>
    obtain ⟨-, ⟨-, rfl, rfl⟩ | ⟨op, rhs, us, -, -, right, more⟩⟩ := chain_ok_iff.mp done
    · exact ⟨List.suffix_refl _, made⟩
    · -- The tree so far comes from `all`, of which `t :: ts` is only the end.
      have tail : ts <:+ t :: ts := List.suffix_cons t ts
      obtain ⟨shorter, madeRight⟩ := rightSide_makes operands chains right
      have joined : (Node.apply₂ t.column op lhs rhs).MadeOf all :=
        .binary (suffix.subset List.mem_cons_self) made
          (madeRight.mono (tail.trans suffix).subset)
      have rest' : us <:+ t :: ts := shorter.trans tail
      obtain ⟨shorter', made'⟩ := chains minPrec _ all us n rest (rest'.trans suffix) joined more
      exact ⟨shorter'.trans rest', made'⟩

theorem operand_makes (expressions : ExpressionMakes endCol fuel)
    (operands : OperandMakes endCol fuel) (chains : ChainMakes endCol fuel)
    (lists : ArgumentsMake endCol fuel) : OperandMakes endCol (fuel + 1) := by
  intro ts n rest done
  cases operand_ok_iff.mp done with
  | @parens l r us _ _ _ inner =>
    obtain ⟨suffix, made⟩ := expressions us n (r :: rest) inner
    have tail : us <:+ l :: us := List.suffix_cons l us
    exact ⟨((List.suffix_cons r rest).trans suffix).trans tail, made.mono tail.subset⟩
  | @plus t us _ _ _ inner =>
    obtain ⟨suffix, made⟩ := operands us n rest inner
    have tail : us <:+ t :: us := List.suffix_cons t us
    exact ⟨suffix.trans tail, made.mono tail.subset⟩
  | @minus t us _ _ _ inner =>
    exact chains 1 _ (t :: us) (t :: us) n rest (List.suffix_refl _) (.zero List.mem_cons_self)
      inner
  | @call t l r us _ fn args _ _ _ list =>
    obtain ⟨suffix, length, made⟩ := lists fn.descriptor.arity us args (r :: rest) list
    have tail : us <:+ t :: l :: us := (List.suffix_cons l us).trans (List.suffix_cons t _)
    refine ⟨((List.suffix_cons r rest).trans suffix).trans tail, .call List.mem_cons_self length ?_⟩
    intro a member
    exact (made a member).mono tail.subset
  | z => exact ⟨List.suffix_cons _ _, .z List.mem_cons_self⟩
  | imaginary => exact ⟨List.suffix_cons _ _, .unit List.mem_cons_self⟩
  | raw => exact ⟨List.suffix_cons _ _, .raw List.mem_cons_self⟩
  | @number t us kind =>
    exact ⟨(number_suffix t us).trans (List.suffix_cons t us), number_made t us kind⟩

end Functions

theorem all_make (endCol : Int) (fuel : Nat) :
    ExpressionMakes endCol fuel ∧ OperandMakes endCol fuel ∧ ChainMakes endCol fuel ∧
      ArgumentsMake endCol fuel := by
  induction fuel with
  | zero => exact ⟨nofun, nofun, nofun, nofun⟩
  | succ fuel ih =>
    obtain ⟨expressions, operands, chains, lists⟩ := ih
    exact ⟨expression_makes operands chains, operand_makes expressions operands chains lists,
      chain_makes operands chains, arguments_make expressions lists⟩

theorem formula_made {ts : List Token} {tree : Node} (parsed : formula ts = .ok tree) :
    tree.MadeOf ts := by
  unfold formula at parsed
  obtain ⟨⟨root, rest⟩, done, parsed⟩ := bind_ok parsed
  cases rest with
  | nil =>
    cases parsed
    exact ((all_make _ _).1 ts tree [] done).2
  | cons t rest => cases parsed

end Parse

end EscapeTime
