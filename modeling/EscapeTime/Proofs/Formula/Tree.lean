import EscapeTime.Proofs.Formula.Grammar
import EscapeTime.Proofs.Formula.Typing

/-!
# Trees of tokens

The tree that tokens derive is one that typing can start from, and it holds raw code if and only if
a token does.
-/

namespace EscapeTime.Grammar

open Node

/-- Number tokens hold numerals. -/
def Numerals (ts : List Token) : Prop :=
  ∀ t ∈ ts, t.kind = .number → IsNumeral t.text

/-- The raw code among the tokens. -/
def rawTexts (ts : List Token) : List String :=
  (ts.filter fun t => t.kind = .rawCode).map Token.text

theorem rawTexts_append (ts us : List Token) :
    rawTexts (ts ++ us) = rawTexts ts ++ rawTexts us := by
  rw [rawTexts, List.filter_append, List.map_append, rawTexts, rawTexts]

/-- Whether a token is raw code. -/
def holdsRaw (ts : List Token) : Bool :=
  ts.any fun t => t.kind = .rawCode

theorem holdsRaw_append (ts us : List Token) :
    holdsRaw (ts ++ us) = (holdsRaw ts || holdsRaw us) :=
  List.any_append

theorem holdsRaw_iff (ts : List Token) : holdsRaw ts = true ↔ rawTexts ts ≠ [] := by
  simp [holdsRaw, rawTexts]

/-- The nodes `ns` are built from the tokens `ts`. -/
structure Built (ts : List Token) (ns : List Node) : Prop where
  parsed : Numerals ts → ∀ n ∈ ns, n.Parsed
  codes : ns.flatMap rawCodes = rawTexts ts

theorem Built.raw {ts : List Token} {ns : List Node} (built : Built ts ns) :
    ns.any hasRaw = holdsRaw ts := by
  rw [Bool.eq_iff_iff, holdsRaw_iff, ← built.codes]
  simp [hasRaw_iff]

theorem built_nil : Built [] [] :=
  ⟨by simp, rfl⟩

/-- A token of which no node is made. -/
theorem built_mark {t : Token} (kind : t.kind ≠ .rawCode) : Built [t] [] :=
  ⟨by simp, by simp [rawTexts, kind]⟩

theorem Built.append {ts us : List Token} {ns ms : List Node} (first : Built ts ns)
    (second : Built us ms) : Built (ts ++ us) (ns ++ ms) where
  parsed numerals n member := by
    rcases List.mem_append.mp member with member | member
    · exact first.parsed (fun t there => numerals t (List.mem_append_left us there)) n member
    · exact second.parsed (fun t there => numerals t (List.mem_append_right ts there)) n member
  codes := by rw [List.flatMap_append, first.codes, second.codes, rawTexts_append]

/-- A token of which no node is made, before those of other nodes. -/
theorem Built.cons {t : Token} {ts : List Token} {ns : List Node} (built : Built ts ns)
    (kind : t.kind ≠ .rawCode) : Built (t :: ts) ns :=
  (built_mark kind).append built

theorem built_one {ts : List Token} {n : Node} (parsed : Numerals ts → n.Parsed)
    (codes : n.rawCodes = rawTexts ts) : Built ts [n] := by
  refine ⟨fun numerals m member => ?_, ?_⟩
  · obtain rfl := List.mem_singleton.mp member
    exact parsed numerals
  · rw [List.flatMap_singleton, codes]

theorem Built.apply₂ {ts : List Token} {c : Int} {op : Operator} {lhs rhs : Node}
    (built : Built ts [lhs, rhs]) : Built ts [.apply₂ c op lhs rhs] := by
  refine built_one (fun numerals => ?_) ?_
  · have each := built.parsed numerals
    exact .binary (each lhs (by simp)) (each rhs (by simp))
  · rw [← built.codes]
    simp [Node.apply₂, rawCodes]

theorem Built.apply {ts : List Token} {c : Int} {fn : Builtin} {args : List Node}
    (built : Built ts args) (arity : args.length = fn.descriptor.arity) :
    Built ts [.apply c fn args] := by
  refine built_one (fun numerals => .call arity (built.parsed numerals)) ?_
  rw [← built.codes, Node.apply, rawCodes, allRawCodes_eq_flatMap]

theorem Silent.built {ts : List Token} (silent : Silent ts) : Built ts [] := by
  obtain rfl | ⟨t, rfl, sign, -⟩ := silent
  · exact built_nil
  · exact built_mark (by simp [sign.1])

theorem Numerals.isLiteral {t : Token} (numerals : Numerals [t]) (kind : t.kind = .number) :
    IsLiteral (.ofNumeral t.text) :=
  ⟨t.text, numerals t (List.mem_singleton.mpr rfl) kind, rfl⟩

/-- The operands of a chain are the leaves of its bracketing. -/
theorem Bracketing.tree_parsed {b : Bracketing} (first : b.first.Parsed)
    (links : ∀ l ∈ b.links, l.operand.Parsed) : b.tree.Parsed := by
  induction b with
  | operand => exact first
  | join c op lhs rhs ihl ihr =>
    simp only [Bracketing.links, List.mem_append, List.mem_cons] at links
    refine .binary (ihl first fun l member => links l (.inl member)) (ihr ?_ ?_)
    · exact links ⟨c, op, rhs.first⟩ (.inr (.inl rfl))
    · exact fun l member => links l (.inr (.inr member))

theorem Bracketing.tree_rawCodes (b : Bracketing) :
    b.tree.rawCodes = b.first.rawCodes ++ b.links.flatMap (·.operand.rawCodes) := by
  induction b with
  | operand => simp [tree, first, links]
  | join c op lhs rhs ihl ihr =>
    simp [tree, first, links, Node.apply₂, rawCodes, ihl, ihr, List.append_assoc]

theorem Built.tree {ts us : List Token} {b : Bracketing} (first : Built ts [b.first])
    (links : Built us (b.links.map Link.operand)) : Built (ts ++ us) [b.tree] := by
  have built := first.append links
  refine built_one (fun numerals => ?_) ?_
  · have each := built.parsed numerals
    refine Bracketing.tree_parsed (each _ (by simp)) fun l there => each _ ?_
    exact List.mem_append_right _ (List.mem_map_of_mem there)
  · rw [← built.codes]
    simp [b.tree_rawCodes, List.flatMap_map]

theorem built_z {t : Token} (kind : t.kind = .z) : Built [t] [.z t.column] :=
  built_one (fun _ => .z) (by simp [rawTexts, kind, rawCodes])

theorem built_number {t : Token} (kind : t.kind = .number) :
    Built [t] [.ofReal t.column t.text] :=
  built_one (fun numerals => .real (numerals.isLiteral kind))
    (by simp [rawTexts, kind, rawCodes, ofReal])

theorem Arguments.length_eq {k : Nat} {ts : List Token} {ns : List Node} :
    Arguments k ts ns → ns.length = k
  | .one _ => rfl
  | .cons _ _ list => congrArg (· + 1) list.length_eq

mutual

theorem Expression.built {ts : List Token} {n : Node} : Expression ts n → Built ts [n]
  | .greedy operand => operand.built
  | .chain operand _ links _ => operand.built.tree links.built

theorem Operand.built {last : Bool} {ts : List Token} {n : Node} :
    Operand last ts n → Built ts [n]
  | .atom atom => atom.built
  | .plus sign operand => operand.built.cons (by simp [sign.1])
  | @Operand.minus t ts b last sign first links _ => by
    have zero : Built [] [b.first] := by
      rw [first]
      exact built_one (fun _ => .real isLiteral_zero) rfl
    exact zero.tree links.built

theorem Links.built {last : Bool} {us : List Token} {ls : List Link} :
    Links last us ls → Built us (ls.map Link.operand)
  | .nil => built_nil
  | .last sign operand => operand.built.cons (by simp [sign.1])
  | .cons sign operand _ links => (operand.built.append links.built).cons (by simp [sign.1])

theorem Atom.built {ts : List Token} {n : Node} : Atom ts n → Built ts [n]
  | .z kind => built_z kind
  | .imaginary kind => built_one (fun _ => .imaginary)
      (by simp [rawTexts, kind, rawCodes, ofImaginary])
  | .raw kind => built_one (fun _ => .raw) (by simp [rawTexts, kind, rawCodes])
  | .number kind => built_number kind
  | @Atom.numberI t i ts kind silent isI => by
    have number : Built [t] [.ofImaginaryPart t.column t.text] := built_one
      (fun numerals => .complex (numerals.isLiteral kind))
      (by simp [rawTexts, kind, rawCodes, ofImaginaryPart])
    exact number.append (silent.built.append (built_mark (by simp [isI])))
  | @Atom.numberZ t factor ts kind silent isZ => by
    have factors := (built_number kind).append (silent.built.append (built_z isZ))
    exact factors.apply₂
  | @Atom.parens l r ts n isOpen inner isClose => by
    have closed := inner.built.append (built_mark (t := r) (by simp [isClose]))
    exact closed.cons (by simp [isOpen])
  | @Atom.call t l r fn ts args kind _ isOpen list isClose => by
    have closed := list.built.append (built_mark (t := r) (by simp [isClose]))
    rw [List.append_nil] at closed
    exact ((closed.cons (by simp [isOpen])).cons (by simp [kind])).apply list.length_eq

theorem Arguments.built {k : Nat} {ts : List Token} {ns : List Node} :
    Arguments k ts ns → Built ts ns
  | .one expression => expression.built
  | .cons expression comma list => expression.built.append (list.built.cons (by simp [comma]))

end

end EscapeTime.Grammar
