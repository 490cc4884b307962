import EscapeTime.Proofs.Formula.Layout
import EscapeTime.Proofs.Formula.Printer
import Mathlib.Data.List.Infix

/-!
# Parsing undoes printing

The text of a printed tree has no abbreviation that normalisation would write out, and at no place
where two tokens meet do their characters join. So it is read token by token, and the tokens are
those that derive the tree.
-/

namespace EscapeTime

open Glyph Grammar Node

/-- Tokens that can be read back from their text. `ended` says whether they follow an operand. -/
inductive Legible : (ended : Bool) → List Token → Prop
  | nil : Legible true []
  | op {ts : List Token} (op : Operator) :
    Legible false ts → Legible true (.mark .op op.symbol :: ts)
  | comma {ts : List Token} : Legible false ts → Legible true (.mark .comma "" :: ts)
  | parenClose {ts : List Token} : Legible true ts → Legible true (.mark .parenClose "" :: ts)
  | parenOpen {ts : List Token} : Legible false ts → Legible false (.mark .parenOpen "" :: ts)
  | function {ts : List Token} (fn : Builtin) :
    Legible false ts → Legible false (.mark .function fn.name :: .mark .parenOpen "" :: ts)
  | z {ts : List Token} : Legible true ts → Legible false (.mark .z "" :: ts)
  | imaginary {ts : List Token} : Legible true ts → Legible false (.mark .imaginary "" :: ts)
  | raw {ts : List Token} {code : String} :
    '"' ∉ code.toList → Legible true ts → Legible false (.mark .rawCode code :: ts)
  | number {ts : List Token} {numeral : String} :
    IsNumeral numeral → Legible true ts → Legible false (.mark .number numeral :: ts)
  | numberI {ts : List Token} {numeral : String} :
    IsNumeral numeral → Legible true ts →
      Legible false (.mark .number numeral :: .times 0 :: .mark .imaginary "" :: ts)

theorem legible_args {args : List Node} (nonempty : args ≠ [])
    (each : ∀ a ∈ args, ∀ rest, Legible true rest → Legible false (a.tokens ++ rest))
    {rest : List Token} (after : Legible true rest) :
    Legible false (tokensArgs args ++ rest) := by
  induction args with
  | nil => exact (nonempty rfl).elim
  | cons n ns ih =>
    rw [List.forall_mem_cons] at each
    cases ns with
    | nil => exact each.1 rest after
    | cons m ns =>
      rw [tokensArgs, List.append_assoc]
      exact each.1 _ (.comma (ih (List.cons_ne_nil m ns) each.2))

theorem Node.Parsed.legible {n : Node} (parsed : n.Parsed)
    (plain : ∀ code ∈ n.rawCodes, '"' ∉ code.toList) (rest : List Token)
    (after : Legible true rest) : Legible false (n.tokens ++ rest) := by
  induction parsed generalizing rest with
  | real literal => exact .number literal.code.1 after
  | imaginary => exact .imaginary after
  | complex literal => exact .numberI literal.code.1 after
  | z => exact .z after
  | @raw _ text => exact .raw (plain text (by simp [rawCodes])) after
  | @binary _ op lhs rhs _ _ left right =>
    simp only [rawCodes, List.mem_append] at plain
    simp only [tokens, List.cons_append, List.append_assoc, List.nil_append]
    refine .parenOpen (left (fun code member => plain code (.inl member)) _ (.op op ?_))
    exact right (fun code member => plain code (.inr member)) _ (.parenClose after)
  | @call _ fn args arity _ each =>
    simp only [rawCodes, allRawCodes_eq_flatMap, List.mem_flatMap] at plain
    simp only [tokens, List.cons_append, List.append_assoc, List.nil_append]
    refine .function fn (legible_args (args_ne_nil arity) ?_ (.parenClose after))
    intro a member rest after
    exact each a member (fun code there => plain code ⟨a, member, there⟩) rest after

/-! ### The text of tokens -/

/-- The characters of the token as normalisation leaves them. -/
def Token.ink (t : Token) : List Glyph :=
  match t.kind with
  | .z => spread ['z'] 0
  | .imaginary => spread ['i'] 0
  | .op => if t.implicit then [] else spread t.text.toList 0
  | .function | .number => spread t.text.toList 0
  | .comma => spread [','] 0
  | .parenOpen => spread ['('] 0
  | .parenClose => spread [')'] 0
  | .rawCode =>
    ⟨'"', 0, false⟩ :: (t.text.toList.map (⟨·, 0, true⟩) ++ [⟨'"', 0, false⟩])
  | .other _ => []

def ink (ts : List Token) : List Glyph :=
  ts.flatMap Token.ink

theorem ink_cons (t : Token) (ts : List Token) : ink (t :: ts) = t.ink ++ ink ts :=
  List.flatMap_cons

theorem ink_append (ts us : List Token) : ink (ts ++ us) = ink ts ++ ink us :=
  List.flatMap_append

theorem ink_raw (code : String) (ts : List Token) :
    ink (.mark .rawCode code :: ts) =
      ⟨'"', 0, false⟩ :: (code.toList.map (⟨·, 0, true⟩) ++ ⟨'"', 0, false⟩ :: ink ts) := by
  simp [ink_cons, Token.ink, Token.mark]

/-- Spelling keeps the character, and it is no bar. -/
def isSettled (c : Char) : Bool :=
  c != '"' && !Text.isBlank c && Text.lowerCase c == c && c != '|'

theorem isSettled_symbol (op : Operator) : op.symbol.toList.all isSettled := by
  cases op <;> decide

theorem isSettled_name (fn : Builtin) : fn.name.toList.all isSettled := by
  cases fn <;> decide

theorem isSettled_numeral {numeral : String} (isNumeral : IsNumeral numeral) :
    numeral.toList.all isSettled := by
  rw [List.all_eq_true]
  intro c member
  have isChar : Number.IsNumeralChar c := isNumeral.2 c member
  obtain ⟨low, high⟩ := isChar.range
  have noQuote : c ≠ '"' := isChar.ne (by decide)
  have noBar : c ≠ '|' := isChar.ne (by decide)
  have lower : Text.lowerCase c = c := by
    rw [Text.lowerCase, if_pos (by omega), Number.toLower_of_isNumeralChar isChar]
  simp only [isSettled, Text.isBlank_eq_false (show 0x21 ≤ c.toNat by omega) (by omega), lower,
    bne_iff_ne.mpr noQuote, bne_iff_ne.mpr noBar, beq_self_eq_true, Bool.not_false, Bool.and_self]

/-- The text `cs` is spelled with the characters `hs`, columns aside. -/
def Spells (cs : List Char) (hs : List Glyph) : Prop :=
  ∃ spans : Spans, (∀ p ∈ spans, p.1 = p.2) ∧ ∀ i, Alike spans (spell false i cs) hs

theorem spells_nil : Spells [] [] :=
  ⟨[], nofun, fun _ => .nil⟩

theorem Spells.char {c : Char} {cs : List Char} {hs : List Glyph} (rest : Spells cs hs)
    (settled : isSettled c) : Spells (c :: cs) (⟨c, 0, false⟩ :: hs) := by
  simp only [isSettled, Bool.and_eq_true, bne_iff_ne, Bool.not_eq_true', beq_iff_eq] at settled
  obtain ⟨⟨⟨quote, solid⟩, lower⟩, -⟩ := settled
  obtain ⟨spans, same, alike⟩ := rest
  refine ⟨spans, same, fun i => ?_⟩
  rw [spell, if_neg quote, if_neg Bool.false_ne_true, solid, if_neg Bool.false_ne_true, lower]
  exact .plain i 0 quote (alike (i + 1))

theorem Spells.word {word cs : List Char} {hs : List Glyph} (rest : Spells cs hs)
    (settled : word.all isSettled) : Spells (word ++ cs) (spread word 0 ++ hs) := by
  induction word with
  | nil => exact rest
  | cons c word ih =>
    rw [List.all_cons, Bool.and_eq_true] at settled
    exact (ih settled.2).char settled.1

theorem Spells.blank {cs : List Char} {hs : List Glyph} (rest : Spells cs hs) :
    Spells (' ' :: cs) hs := by
  obtain ⟨spans, same, alike⟩ := rest
  exact ⟨spans, same, fun i => alike (i + 1)⟩

theorem Spells.quoted {code cs : List Char} {hs : List Glyph} (rest : Spells cs hs)
    (plain : '"' ∉ code) :
    Spells ('"' :: (code ++ '"' :: cs))
      (⟨'"', 0, false⟩ :: (code.map (⟨·, 0, true⟩) ++ ⟨'"', 0, false⟩ :: hs)) := by
  obtain ⟨spans, same, alike⟩ := rest
  refine ⟨(code, code) :: spans, List.forall_mem_cons.mpr ⟨rfl, same⟩, fun i => ?_⟩
  obtain ⟨run, chars, raw, spelled⟩ := spell_quoted plain (i + 1)
  have chars' : (code.map fun c => Glyph.mk c 0 true).map Glyph.char = code := by
    rw [List.map_map]
    exact List.map_id code
  have raw' : ∀ g ∈ code.map fun c => Glyph.mk c 0 true, g.raw := by simp
  have span := Alike.quoted i 0 (i + 1 + code.length) 0 raw raw' (alike (i + 1 + code.length + 1))
  rw [chars, chars'] at span
  rw [spell, if_pos rfl, Bool.not_false, spelled, spell, if_pos rfl]
  exact span

theorem spells_args {args : List Node} (nonempty : args ≠ [])
    (each : ∀ a ∈ args, ∀ cs hs, Spells cs hs → Spells (a.print.toList ++ cs) (ink a.tokens ++ hs))
    {cs : List Char} {hs : List Glyph} (rest : Spells cs hs) :
    Spells ((printArgs args).toList ++ cs) (ink (tokensArgs args) ++ hs) := by
  induction args with
  | nil => exact (nonempty rfl).elim
  | cons n ns ih =>
    rw [List.forall_mem_cons] at each
    cases ns with
    | nil => exact each.1 cs hs rest
    | cons m ns =>
      have others := ih (List.cons_ne_nil m ns) each.2
      have whole := each.1 _ _ (others.char (c := ',') (by decide))
      simpa [printArgs, tokensArgs, ink_append, ink_cons, Token.ink, Token.mark, spread] using whole

theorem Node.Parsed.spells {n : Node} (parsed : n.Parsed)
    (plain : ∀ code ∈ n.rawCodes, '"' ∉ code.toList) (cs : List Char) (hs : List Glyph)
    (rest : Spells cs hs) : Spells (n.print.toList ++ cs) (ink n.tokens ++ hs) := by
  induction parsed generalizing cs hs with
  | real literal =>
    have whole := rest.word (isSettled_numeral literal.code.1)
    simpa [print, tokens, ink, Token.ink, Token.mark] using whole
  | imaginary =>
    have whole := rest.char (c := 'i') (by decide)
    simpa [print, tokens, ink, Token.ink, Token.mark, spread] using whole
  | complex literal =>
    have factor := rest.char (c := 'i') (by decide)
    have whole := factor.word (isSettled_numeral literal.code.1)
    simpa [print, tokens, ink, Token.ink, Token.mark, Token.times, spread] using whole
  | z =>
    have whole := rest.char (c := 'z') (by decide)
    simpa [print, tokens, ink, Token.ink, Token.mark, spread] using whole
  | @raw _ text =>
    have whole := rest.quoted (plain text (by simp [rawCodes]))
    simpa [print, tokens, ink, Token.ink, Token.mark] using whole
  | @binary _ op lhs rhs _ _ left right =>
    simp only [rawCodes, List.mem_append] at plain
    have close := rest.char (c := ')') (by decide)
    have second := right (fun code member => plain code (.inr member)) _ _ close
    have sign := (second.blank.word (isSettled_symbol op)).blank
    have first := left (fun code member => plain code (.inl member)) _ _ sign
    have whole := first.char (c := '(') (by decide)
    simpa [print, tokens, ink_append, ink_cons, ink, Token.ink, Token.mark, spread] using whole
  | @call _ fn args arity _ each =>
    simp only [rawCodes, allRawCodes_eq_flatMap, List.mem_flatMap] at plain
    have close := rest.char (c := ')') (by decide)
    have inner := spells_args (args_ne_nil arity)
      (fun a member => each a member fun code there => plain code ⟨a, member, there⟩) close
    have whole := (inner.char (c := '(') (by decide)).word (isSettled_name fn)
    simpa [print, tokens, ink_append, ink_cons, ink, Token.ink, Token.mark, spread] using whole

/-! ### Normalisation -/

/-- The abbreviations that normalisation writes out. -/
def abbreviations : List (List Char) :=
  ["log".toList, "**".toList, "pi".toList, "π".toList]

theorem abbreviation_plain : ∀ old ∈ abbreviations, old ≠ [] ∧ '"' ∉ old ∧ '(' ∉ old := by
  decide

theorem abbreviation_head (old : List Char) (member : old ∈ abbreviations) :
    ∃ d rest, old = d :: rest ∧ ¬Number.IsNumeralChar d := by
  simp only [abbreviations, List.mem_cons, List.not_mem_nil, or_false] at member
  obtain rfl | rfl | rfl | rfl := member
  all_goals exact ⟨_, _, rfl, by decide⟩

theorem startsWith_other {c d : Char} (other : c ≠ d) (old : List Char) (i : Nat)
    (gs : List Glyph) : startsWith (d :: old) (⟨c, i, false⟩ :: gs) = false := by
  have differ : (c == d) = false := beq_eq_false_iff_ne.mpr other
  simp only [startsWith, differ, Bool.and_false, Bool.false_and]

/-- Text in which no abbreviation starts is left alone. -/
theorem substitute_spread {old : List Char} (new : List Char) {word : List Char} {gs : List Glyph}
    (miss : ∀ s, s <:+ word → s ≠ [] → startsWith old (spread s 0 ++ gs) = false) :
    substitute old new 0 (spread word 0 ++ gs) = spread word 0 ++ substitute old new 0 gs := by
  induction word with
  | nil => rfl
  | cons c word ih =>
    have here := miss (c :: word) List.suffix_rfl (List.cons_ne_nil c word)
    have rest := ih fun s suffix => miss s (suffix.trans (List.suffix_cons c word))
    show substitute old new 0 (⟨c, 0, false⟩ :: (spread word 0 ++ gs)) = _
    rw [substitute, show startsWith old (⟨c, 0, false⟩ :: (spread word 0 ++ gs)) = false from here,
      if_neg Bool.false_ne_true, rest]
    rfl

/-- A character in no abbreviation stands after the word. -/
theorem startsWith_spread {old : List Char} {c : Char} (apart : c ∉ old) (word : List Char)
    (gs : List Glyph) :
    startsWith old (spread word 0 ++ ⟨c, 0, false⟩ :: gs) = old.isPrefixOf word := by
  induction old generalizing word with
  | nil => cases word <;> simp [startsWith]
  | cons d old ih =>
    simp only [List.mem_cons, not_or] at apart
    cases word with
    | nil =>
      have differ : (c == d) = false := beq_eq_false_iff_ne.mpr apart.1
      simp [spread, startsWith, differ]
    | cons e word =>
      have rest := ih apart.2 word
      simp only [spread] at rest
      simp [spread, startsWith, rest, List.isPrefixOf, Bool.beq_comm]

theorem name_no_abbreviation (fn : Builtin) :
    ∀ old ∈ abbreviations, ¬old <:+: fn.name.toList := by
  cases fn <;> decide

/-- No abbreviation starts with the character. -/
def isHarmless (c : Char) : Bool :=
  abbreviations.all fun old => old.head? != some c

theorem substitute_harmless {old : List Char} (member : old ∈ abbreviations) (new : List Char)
    {word : List Char} (harmless : word.all isHarmless) (gs : List Glyph) :
    substitute old new 0 (spread word 0 ++ gs) = spread word 0 ++ substitute old new 0 gs := by
  obtain ⟨d, old, rfl, -⟩ := abbreviation_head old member
  refine substitute_spread new fun s suffix some => ?_
  obtain ⟨c, s, rfl⟩ := List.exists_cons_of_ne_nil some
  have isHarmless := List.all_eq_true.mp harmless c (suffix.subset List.mem_cons_self)
  have other : d ≠ c := by simpa using List.all_eq_true.mp isHarmless _ member
  exact startsWith_other (Ne.symm other) old 0 (spread s 0 ++ gs)

theorem substitute_name {old : List Char} (member : old ∈ abbreviations) (new : List Char)
    (fn : Builtin) (gs : List Glyph) :
    substitute old new 0 (spread fn.name.toList 0 ++ ⟨'(', 0, false⟩ :: gs) =
      spread fn.name.toList 0 ++ substitute old new 0 (⟨'(', 0, false⟩ :: gs) := by
  refine substitute_spread new fun s suffix _ => ?_
  rw [startsWith_spread (abbreviation_plain old member).2.2, Bool.eq_false_iff]
  intro starts
  have found := (List.isPrefixOf_iff_prefix.mp starts).isInfix.trans suffix.isInfix
  exact name_no_abbreviation fn old member found

theorem isHarmless_numeral {numeral : String} (isNumeral : IsNumeral numeral) :
    numeral.toList.all isHarmless := by
  rw [List.all_eq_true]
  intro c member
  have isChar : Number.IsNumeralChar c := isNumeral.2 c member
  rw [isHarmless, List.all_eq_true]
  intro old abbreviation
  obtain ⟨d, rest, rfl, other⟩ := abbreviation_head old abbreviation
  exact bne_iff_ne.mpr fun same => isChar.ne other (Option.some.inj same).symm

/-- An operand does not start with the sign of a product. -/
theorem Legible.startsWith_star {ts : List Token} (legible : Legible false ts) :
    startsWith ['*'] (ink ts) = false := by
  have numeral {numeral : String} (isNumeral : IsNumeral numeral) (gs : List Glyph) :
      startsWith ['*'] (spread numeral.toList 0 ++ gs) = false := by
    obtain ⟨c, cs, chars⟩ := List.exists_cons_of_ne_nil
      (show numeral.toList ≠ [] by simpa using isNumeral.1.1)
    have isChar : Number.IsNumeralChar c := isNumeral.2 c (by simp [chars])
    have other : c ≠ '*' := isChar.ne (by decide)
    rw [chars]
    exact startsWith_other other [] 0 _
  cases legible with
  | parenOpen | z | imaginary | raw => rfl
  | function fn => cases fn <;> rfl
  | number isNumeral => exact numeral isNumeral _
  | numberI isNumeral => exact numeral isNumeral _

theorem Legible.substitute {ended : Bool} {ts : List Token} (legible : Legible ended ts)
    {old : List Char} (member : old ∈ abbreviations) (new : List Char) :
    substitute old new 0 (ink ts) = ink ts := by
  have harmless {gs : List Glyph} (ih : Glyph.substitute old new 0 gs = gs) (word : List Char)
      (harmless : word.all isHarmless) :
      Glyph.substitute old new 0 (spread word 0 ++ gs) = spread word 0 ++ gs := by
    rw [substitute_harmless member new harmless, ih]
  induction legible with
  | nil => rfl
  | @op ts op rest ih =>
    cases op with
    | add | sub | div | mod | pow => exact harmless ih _ (by decide)
    | mul =>
      -- The one sign that an abbreviation starts with; an operand follows it, not a second one.
      have miss : startsWith old (⟨'*', 0, false⟩ :: ink ts) = false := by
        simp only [abbreviations, List.mem_cons, List.not_mem_nil, or_false] at member
        obtain rfl | rfl | rfl | rfl := member
        · rfl
        · exact rest.startsWith_star
        · rfl
        · rfl
      show Glyph.substitute old new 0 (⟨'*', 0, false⟩ :: ink ts) = ⟨'*', 0, false⟩ :: ink ts
      rw [Glyph.substitute, miss, if_neg Bool.false_ne_true, ih]
  | comma _ ih | parenClose _ ih | parenOpen _ ih | z _ ih | imaginary _ ih =>
    exact harmless ih _ (by decide)
  | @function ts fn _ ih =>
    have inner := harmless ih ['('] (by decide)
    show Glyph.substitute old new 0 (spread fn.name.toList 0 ++ ⟨'(', 0, false⟩ :: ink ts) = _
    rw [substitute_name member]
    exact congrArg _ inner
  | @raw ts code _ _ ih =>
    obtain ⟨nonempty, plain, -⟩ := abbreviation_plain old member
    have raw : ∀ g ∈ code.toList.map fun c => Glyph.mk c 0 true, g.raw := by simp
    rw [ink_raw, substitute_quote nonempty plain, substitute_raw nonempty new raw,
      substitute_quote nonempty plain, ih]
  | number isNumeral _ ih => exact harmless ih _ (isHarmless_numeral isNumeral)
  | numberI isNumeral _ ih =>
    have factor := harmless ih ['i'] (by decide)
    exact harmless factor _ (isHarmless_numeral isNumeral)

theorem countP_spread {word : List Char} (settled : word.all isSettled) :
    (spread word 0).countP isBar = 0 := by
  rw [List.countP_eq_zero]
  intro g there
  obtain ⟨c, member, rfl⟩ := List.mem_map.mp there
  have noBar := List.all_eq_true.mp settled c member
  simp only [isSettled, Bool.and_eq_true, bne_iff_ne] at noBar
  simp [isBar, noBar.2]

theorem Legible.countP_isBar {ended : Bool} {ts : List Token} (legible : Legible ended ts) :
    (ink ts).countP isBar = 0 := by
  have settled {gs : List Glyph} (ih : gs.countP isBar = 0) (word : List Char)
      (settled : word.all isSettled) : (spread word 0 ++ gs).countP isBar = 0 := by
    rw [List.countP_append, countP_spread settled, ih]
  induction legible with
  | nil => rfl
  | op op _ ih => exact settled ih _ (isSettled_symbol op)
  | comma _ ih | parenClose _ ih | parenOpen _ ih | z _ ih | imaginary _ ih =>
    exact settled ih _ (by decide)
  | function fn _ ih => exact settled (settled ih ['('] (by decide)) _ (isSettled_name fn)
  | raw _ _ ih =>
    rw [ink_raw, List.countP_cons, List.countP_append, List.countP_cons, ih,
      List.countP_eq_zero.mpr (by simp [isBar])]
    rfl
  | number isNumeral _ ih => exact settled ih _ (isSettled_numeral isNumeral)
  | numberI isNumeral _ ih =>
    exact settled (settled ih ['i'] (by decide)) _ (isSettled_numeral isNumeral)

/-- Normalisation leaves the text of tokens alone. -/
theorem Legible.expand_ink {ended : Bool} {ts : List Token} (legible : Legible ended ts) :
    expand (ink ts) = ink ts := by
  have kept (old new : String) (member : old.toList ∈ abbreviations) :
      replace old new (ink ts) = ink ts := legible.substitute member new.toList
  have bars : absBars (ink ts) = ink ts := by
    rw [absBars, legible.countP_isBar]
    cases ink ts <;> rfl
  rw [expand, kept "log" "ln" (by decide), kept "**" "^" (by decide), bars,
    kept "pi" piNumeral (by decide), kept "π" piNumeral (by decide)]

/-! ### Scanning -/

theorem scan_lexeme {g : Glyph} {gs : List Glyph} {ts us : List Token} {used : Nat}
    (first : lexeme g gs = .ok (ts, used)) (rest : scan 0 (gs.drop used) = .ok us) :
    scan 0 (g :: gs) = .ok (ts ++ us) := by
  rw [scan, first]
  show (scan used gs >>= fun more => pure (ts ++ more)) = _
  rw [scan_skip, rest]
  rfl

/-- The characters that are tokens by themselves, and the quote. -/
def marks : List Char :=
  ['+', '-', '*', '/', '%', '^', ',', '(', ')', '"']

theorem ofSymbol?_none {c : Char} (other : c ∉ ['+', '-', '*', '/', '%', '^']) :
    Operator.ofSymbol? (toString c) = none := by
  rw [Operator.ofSymbol?, List.find?_eq_none]
  intro op _ same
  have chars : op.symbol.toList = [c] := by
    rw [eq_of_beq same]
    exact String.toList_singleton c
  have listed : op.symbol.toList ⊆ ['+', '-', '*', '/', '%', '^'] := by cases op <;> decide
  exact other (listed (by simp [chars]))

theorem lexeme_op {c : Char} {op : Operator} (symbol : Operator.ofSymbol? (toString c) = some op)
    (gs : List Glyph) : lexeme ⟨c, 0, false⟩ gs = .ok ([.mark .op op.symbol], 0) := by
  unfold lexeme
  dsimp only
  rw [symbol]
  rfl

theorem lexeme_comma (gs : List Glyph) :
    lexeme ⟨',', 0, false⟩ gs = .ok ([.mark .comma ""], 0) := by
  unfold lexeme
  dsimp only
  rw [ofSymbol?_none (by decide)]
  rfl

theorem lexeme_parenOpen (gs : List Glyph) :
    lexeme ⟨'(', 0, false⟩ gs = .ok ([.mark .parenOpen ""], 0) := by
  unfold lexeme
  dsimp only
  rw [ofSymbol?_none (by decide)]
  rfl

theorem lexeme_parenClose (gs : List Glyph) :
    lexeme ⟨')', 0, false⟩ gs = .ok (.mark .parenClose "" :: timesBefore 0 gs, 0) := by
  unfold lexeme
  dsimp only
  rw [ofSymbol?_none (by decide)]
  rfl

theorem not_mem_marks {p : Glyph → Bool} (none : marks.all fun d => !p ⟨d, 0, false⟩) {c : Char}
    (holds : p ⟨c, 0, false⟩) : c ∉ marks := by
  intro member
  have fails := List.all_eq_true.mp none c member
  rw [holds] at fails
  cases fails

theorem not_isDigit_of_isLetter {g : Glyph} (letter : g.isLetter) : g.isDigit = false := by
  simp only [isLetter, Bool.and_eq_true, decide_eq_true_eq] at letter
  have low : 0x61 ≤ g.char.toNat := letter.1
  rw [Bool.eq_false_iff]
  intro digit
  have isChar : Number.IsNumeralChar g.char := by
    simpa [isDigit, Number.IsNumeralChar] using digit
  have high := isChar.range.2
  omega

theorem lexeme_letter {c : Char} (letter : isLetter ⟨c, 0, false⟩) (gs : List Glyph) :
    lexeme ⟨c, 0, false⟩ gs =
      word ⟨c, 0, false⟩ (⟨c, 0, false⟩ :: gs.takeWhile isLetter) >>= fun ts =>
        .ok (ts, (gs.takeWhile isLetter).length) := by
  have other := not_mem_marks (by decide) letter
  simp only [marks, List.mem_cons, List.not_mem_nil, or_false, not_or] at other
  unfold lexeme
  dsimp only
  rw [ofSymbol?_none (by simp [other])]
  simp only [other, if_false, not_isDigit_of_isLetter letter, Bool.false_eq_true, letter, if_true]
  rfl

theorem lexeme_digit {c : Char} (digit : isDigit ⟨c, 0, false⟩) (gs : List Glyph)
    (notPoint : (⟨c, 0, false⟩ :: gs.takeWhile isDigit).map char ≠ ['.']) :
    lexeme ⟨c, 0, false⟩ gs =
      .ok (.mark .number (text (⟨c, 0, false⟩ :: gs.takeWhile isDigit)) ::
        timesBefore ((⟨c, 0, false⟩ :: gs.takeWhile isDigit).getLastD ⟨c, 0, false⟩).column
          (gs.dropWhile isDigit), (gs.takeWhile isDigit).length) := by
  have other := not_mem_marks (by decide) digit
  simp only [marks, List.mem_cons, List.not_mem_nil, or_false, not_or] at other
  unfold lexeme
  dsimp only
  rw [ofSymbol?_none (by simp [other])]
  simp only [other, if_false, digit, if_true, notPoint]
  rfl

/-- What follows an operand goes on with no number and no word, and starts no factor. -/
theorem Legible.ends {ts : List Token} (legible : Legible true ts) :
    (∀ g ∈ (ink ts).head?, isLetter g = false) ∧ (∀ g ∈ (ink ts).head?, isDigit g = false) ∧
      ∀ i, timesBefore i (ink ts) = [] := by
  have mark {c : Char} (gs : List Glyph) (letter : isLetter ⟨c, 0, false⟩ = false)
      (digit : isDigit ⟨c, 0, false⟩ = false) (paren : (c == '(') = false) :
      (∀ g ∈ (⟨c, 0, false⟩ :: gs).head?, isLetter g = false) ∧
        (∀ g ∈ (⟨c, 0, false⟩ :: gs).head?, isDigit g = false) ∧
          ∀ i, timesBefore i (⟨c, 0, false⟩ :: gs) = [] := by
    refine ⟨?_, ?_, fun i => ?_⟩
    · rintro _ ⟨⟩
      exact letter
    · rintro _ ⟨⟩
      exact digit
    · rw [timesBefore, startsFactor, letter, paren]
      rfl
  cases legible with
  | nil => exact ⟨nofun, nofun, fun _ => rfl⟩
  | op op => cases op <;> exact mark _ rfl rfl rfl
  | comma | parenClose => exact mark _ rfl rfl rfl

theorem text_map_mk (word : String) (raw : Bool) :
    text (word.toList.map (⟨·, 0, raw⟩)) = word := by
  have chars : (word.toList.map fun c => Glyph.mk c 0 raw).map char = word.toList := by
    rw [List.map_map]
    exact List.map_id _
  rw [text, chars, String.ofList_toList]

theorem spread_cons (c : Char) (cs : List Char) :
    spread (c :: cs) 0 = ⟨c, 0, false⟩ :: spread cs 0 := rfl

theorem column_getLastD_spread (word : List Char) (c : Char) :
    ((spread word 0).getLastD ⟨c, 0, false⟩).column = 0 := by
  induction word generalizing c with
  | nil => rfl
  | cons d word ih =>
    rw [spread_cons, List.getLastD_cons]
    exact ih d

theorem scan_word (c : Char) (cs : List Char) {rest : List Glyph} {ts us : List Token}
    (letters : (c :: cs).all fun d => isLetter ⟨d, 0, false⟩)
    (stop : ∀ g ∈ rest.head?, isLetter g = false)
    (read : word ⟨c, 0, false⟩ (spread (c :: cs) 0) = .ok ts) (after : scan 0 rest = .ok us) :
    scan 0 (spread (c :: cs) 0 ++ rest) = .ok (ts ++ us) := by
  rw [List.all_cons, Bool.and_eq_true, List.all_eq_true] at letters
  have run : (spread cs 0 ++ rest).takeWhile isLetter = spread cs 0 :=
    (takeWhile_before rest (List.forall_mem_map.mpr letters.2) stop).1
  have first : lexeme ⟨c, 0, false⟩ (spread cs 0 ++ rest) = .ok (ts, (spread cs 0).length) := by
    rw [lexeme_letter letters.1, run]
    exact congrArg (· >>= _) read
  have left : scan 0 ((spread cs 0 ++ rest).drop (spread cs 0).length) = .ok us := by
    rw [List.drop_left, after]
  exact scan_lexeme first left

theorem name_ne_nil (fn : Builtin) : fn.name.toList ≠ [] := by
  cases fn <;> decide

theorem isLetter_name (fn : Builtin) :
    fn.name.toList.all fun c => isLetter ⟨c, 0, false⟩ := by
  cases fn <;> decide

theorem word_name (g : Glyph) (fn : Builtin) :
    word g (spread fn.name.toList 0) = .ok [⟨.function, g.column, fn.name, false⟩] := by
  rw [word, if_neg (by cases fn <;> decide), spread, text_map_mk, fn.ofName?_name]

theorem scan_numeral {numeral : String} (isNumeral : IsNumeral numeral) {rest : List Glyph}
    {us : List Token} (stop : ∀ g ∈ rest.head?, isDigit g = false) (after : scan 0 rest = .ok us) :
    scan 0 (spread numeral.toList 0 ++ rest) =
      .ok (.mark .number numeral :: timesBefore 0 rest ++ us) := by
  obtain ⟨⟨nonempty, notPoint⟩, isChar⟩ := isNumeral
  obtain ⟨c, cs, chars⟩ := List.exists_cons_of_ne_nil (String.toList_eq_nil_iff.not.mpr nonempty)
  have isDigits : ∀ g ∈ spread numeral.toList 0, isDigit g := by
    refine List.forall_mem_map.mpr fun d member => ?_
    simpa [isDigit] using isChar d member
  have whole : text (spread numeral.toList 0) = numeral := text_map_mk numeral false
  have several : (spread numeral.toList 0).map char ≠ ['.'] := by
    intro lone
    rw [text, lone] at whole
    exact notPoint whole.symm
  have last := column_getLastD_spread numeral.toList c
  rw [chars, spread_cons] at isDigits whole several last
  rw [chars, spread_cons]
  obtain ⟨digit, digits⟩ := List.forall_mem_cons.mp isDigits
  obtain ⟨run, left⟩ := takeWhile_before rest digits stop
  have first : lexeme ⟨c, 0, false⟩ (spread cs 0 ++ rest) =
      .ok (.mark .number numeral :: timesBefore 0 rest, (spread cs 0).length) := by
    rw [lexeme_digit digit _ (run.symm ▸ several), run, left, whole, last]
  have left : scan 0 ((spread cs 0 ++ rest).drop (spread cs 0).length) = .ok us := by
    rw [List.drop_left, after]
  exact scan_lexeme first left

/-- The text of the tokens is read back as the tokens. -/
theorem Legible.scan_ink {ended : Bool} {ts : List Token} (legible : Legible ended ts) :
    scan 0 (ink ts) = .ok ts := by
  induction legible with
  | nil => rfl
  | op op _ ih => cases op <;> exact scan_lexeme (lexeme_op (by decide) _) ih
  | comma _ ih => exact scan_lexeme (lexeme_comma _) ih
  | parenOpen _ ih => exact scan_lexeme (lexeme_parenOpen _) ih
  | @parenClose ts rest ih =>
    have first := lexeme_parenClose (ink ts)
    rw [rest.ends.2.2 0] at first
    exact scan_lexeme first ih
  | @function ts fn _ ih =>
    -- The parenthesis ends the run of letters.
    obtain ⟨c, cs, chars⟩ := List.exists_cons_of_ne_nil (name_ne_nil fn)
    have letters := isLetter_name fn
    have read := word_name ⟨c, 0, false⟩ fn
    have opened : scan 0 (⟨'(', 0, false⟩ :: ink ts) = .ok (.mark .parenOpen "" :: ts) :=
      scan_lexeme (lexeme_parenOpen _) ih
    show scan 0 (spread fn.name.toList 0 ++ ⟨'(', 0, false⟩ :: ink ts) = _
    rw [chars] at letters read ⊢
    exact scan_word c cs letters (by rintro _ ⟨⟩; rfl) read opened
  | z rest ih => exact scan_word 'z' [] (by decide) rest.ends.1 rfl ih
  | imaginary rest ih => exact scan_word 'i' [] (by decide) rest.ends.1 rfl ih
  | @raw ts code _ _ ih =>
    have raw : ∀ g ∈ code.toList.map fun c => Glyph.mk c 0 true, g.raw := by simp
    have first := lexeme_quoted raw 0 0 (ink ts)
    rw [text_map_mk] at first
    rw [ink_raw]
    refine scan_lexeme first ?_
    rw [List.drop_length_add_append]
    exact ih
  | @number ts numeral isNumeral rest ih =>
    have read := scan_numeral isNumeral rest.ends.2.1 ih
    rw [rest.ends.2.2] at read
    exact read
  | @numberI ts numeral isNumeral rest ih =>
    -- The scanner puts the silent product between the number and its `i`.
    have factor : scan 0 (spread ['i'] 0 ++ ink ts) = .ok (.mark .imaginary "" :: ts) :=
      scan_word 'i' [] (by decide) rest.ends.1 rfl ih
    exact scan_numeral isNumeral (by rintro _ ⟨⟩; rfl) factor

/-! ### Formulas -/

theorem Legible.tokenize_ok {cs : List Char} {ts : List Token} (legible : Legible false ts)
    (spells : Spells cs (ink ts)) :
    ∃ us, tokenize cs = .ok us ∧ us.map (Token.bare id) = ts.map (Token.bare id) := by
  obtain ⟨spans, same, alike⟩ := spells
  have normalized := (alike 0).expand
  rw [← normalize_eq_expand, legible.expand_ink] at normalized
  have agree := normalized.scan
  rw [legible.scan_ink] at agree
  unfold tokenize
  cases text : normalize cs with
  | nil =>
    rw [text] at agree
    cases agree with
    | ok read =>
      cases read
      cases legible
  | cons g gs =>
    rw [text] at agree
    dsimp only
    generalize scan 0 (g :: gs) = outcome at agree
    cases agree with
    | ok read => exact ⟨_, rfl, read.bare_eq fun p member => by rw [same p member]⟩

theorem rawTexts_plain {formula : List Char} {ts : List Token} (lexed : tokenize formula = .ok ts) :
    ∀ code ∈ rawTexts ts, '"' ∉ code.toList := by
  obtain ⟨spans, plain, alike⟩ := alike_condense formula
  have agree := tokenize_alike (alike 0 0)
  rw [lexed] at agree
  generalize tokenize (Text.condense false formula) = outcome at agree
  cases agree with
  | ok read =>
    rw [read.rawTexts_eq, List.forall_mem_map]
    intro p member
    rw [String.toList_ofList]
    exact (plain p member).2

namespace Formula

/-- Parsing undoes printing: the text of a parsed tree is accepted, and its tree is the same one,
columns aside. -/
theorem parse_print {formula : List Char} {tokens : List Token} {tree : Node}
    (lexed : tokenize formula = .ok tokens) (parsed : Parse.formula tokens = .ok tree) :
    ∃ tokens' tree', tokenize tree.print.toList = .ok tokens' ∧
      Parse.formula tokens' = .ok tree' ∧ tree'.bare id = tree.bare id := by
  have shape := (tree_built lexed parsed).1
  have codes := (Parse.formula_derived (tokens_known lexed) parsed).built.codes
  rw [List.flatMap_singleton] at codes
  have plain : ∀ code ∈ tree.rawCodes, '"' ∉ code.toList := by
    rw [codes]
    exact rawTexts_plain lexed
  have legible := shape.legible plain [] .nil
  have spells := shape.spells plain [] [] spells_nil
  rw [List.append_nil] at legible
  rw [List.append_nil, List.append_nil] at spells
  obtain ⟨tokens', printed, same⟩ := legible.tokenize_ok spells
  have trees := Parse.formula_bare same
  rw [Parse.formula_recognised shape.atom.expression] at trees
  cases again : Parse.formula tokens' with
  | ok tree' =>
    rw [again] at trees
    exact ⟨tokens', tree', printed, again, (Except.ok.inj trees).trans (bare_bare id id tree)⟩
  | error failure =>
    rw [again] at trees
    cases trees

/-- The tree of `2z+"a B"*MAX(1,.5)-3i`. -/
def mixedSum : Node :=
  .apply₂ 18 .sub
    (.apply₂ 2 .add (.apply₂ 0 .mul (.ofReal 0 "2") (.z 1))
      (.apply₂ 8 .mul (.raw 3 "a B")
        (.call 9 .undetermined false .max [.ofReal 13 "1", .ofReal 15 ".5"])))
    (.ofImaginaryPart 19 "3")

theorem mixedSum_parse_print :
    ∃ tokens, tokenize "2z+\"a B\"*MAX(1,.5)-3i".toList = .ok tokens ∧
      Parse.formula tokens = .ok mixedSum ∧
      mixedSum.print = "(((2. * z) + (\"a B\" * max(1.,.5))) - 3.i)" ∧
      ∃ tokens' tree', tokenize mixedSum.print.toList = .ok tokens' ∧
        Parse.formula tokens' = .ok tree' ∧ tree'.bare id = mixedSum.bare id := by
  have lexed : tokenize "2z+\"a B\"*MAX(1,.5)-3i".toList = .ok
      [⟨.number, 0, "2", false⟩, ⟨.op, 0, "*", true⟩, ⟨.z, 1, "", false⟩, ⟨.op, 2, "+", false⟩,
        ⟨.rawCode, 3, "a B", false⟩, ⟨.op, 8, "*", false⟩, ⟨.function, 9, "max", false⟩,
        ⟨.parenOpen, 12, "", false⟩, ⟨.number, 13, "1", false⟩, ⟨.comma, 14, "", false⟩,
        ⟨.number, 15, ".5", false⟩, ⟨.parenClose, 17, "", false⟩, ⟨.op, 18, "-", false⟩,
        ⟨.number, 19, "3", false⟩, ⟨.op, 19, "*", true⟩, ⟨.imaginary, 20, "", false⟩] := by
    decide +kernel
  exact ⟨_, lexed, rfl, rfl, parse_print lexed rfl⟩

end Formula

end EscapeTime
