import EscapeTime.Formula.Basic
import EscapeTime.Proofs.Formula.Quotes
import EscapeTime.Proofs.Formula.Renaming

/-!
# Texts alike

Two texts are alike if they differ in columns and in what stands between quotes only. Every pass of
normalisation keeps alike texts alike, and scanning reads them alike: the same tokens but for their
columns and raw code, or an error for the same cause. With what parsing and typing do to such
tokens, formulas alike are accepted with trees of one shape, or rejected for the same cause.
-/

namespace EscapeTime

/-! ### Errors but for their columns -/

/-- Results that are related, or errors that differ in their columns only. -/
inductive Agree {α β : Type} (R : α → β → Prop) :
    Except FormulaError α → Except FormulaError β → Prop
  | ok {a : α} {b : β} : R a b → Agree R (.ok a) (.ok b)
  | error (stage : Stage) (i j : Int) (cause : Cause) :
    Agree R (.error ⟨stage, i, cause⟩) (.error ⟨stage, j, cause⟩)

theorem Agree.bind {α β γ δ : Type} {R : α → β → Prop} {S : γ → δ → Prop}
    {x : Except FormulaError α} {y : Except FormulaError β} {f : α → Except FormulaError γ}
    {g : β → Except FormulaError δ} (first : Agree R x y)
    (next : ∀ a b, R a b → Agree S (f a) (g b)) : Agree S (x >>= f) (y >>= g) := by
  cases first with
  | ok related => exact next _ _ related
  | error stage i j cause => exact .error stage i j cause

/-- The contents of the quoted spans of two texts, in order. -/
abbrev Spans := List (List Char × List Char)

/-- Tokens that differ in columns only, but for the raw code of the spans. -/
inductive Read : Spans → List Token → List Token → Prop
  | nil : Read [] [] []
  | token {spans : Spans} {ts us : List Token} {kind : TokenKind} (i j : Nat) (text : String)
      (implicit : Bool) :
    kind ≠ .rawCode → Read spans ts us →
      Read spans (⟨kind, i, text, implicit⟩ :: ts) (⟨kind, j, text, implicit⟩ :: us)
  | raw {spans : Spans} {ts us : List Token} (i j : Nat) (a b : List Char) :
    Read spans ts us →
      Read ((a, b) :: spans) (⟨.rawCode, i, String.ofList a, false⟩ :: ts)
        (⟨.rawCode, j, String.ofList b, false⟩ :: us)

theorem Read.append {spans spans' : Spans} {ts us ts' us' : List Token} (first : Read spans ts us)
    (second : Read spans' ts' us') : Read (spans ++ spans') (ts ++ ts') (us ++ us') := by
  induction first with
  | nil => exact second
  | token i j text implicit kind _ ih => exact .token i j text implicit kind ih
  | raw i j a b _ ih => exact .raw i j a b ih

/-- A renaming that makes the contents of the spans equal makes the tokens equal. -/
theorem Read.bare_eq {spans : Spans} {ts us : List Token} {rename : String → String}
    (read : Read spans ts us)
    (same : ∀ p ∈ spans, rename (String.ofList p.1) = rename (String.ofList p.2)) :
    ts.map (Token.bare rename) = us.map (Token.bare rename) := by
  induction read with
  | nil => rfl
  | token i j text implicit kind _ ih =>
    rw [List.map_cons, List.map_cons, ih same]
    simp [Token.bare, kind]
  | raw i j a b _ ih =>
    obtain ⟨first, others⟩ := List.forall_mem_cons.mp same
    rw [List.map_cons, List.map_cons, ih others]
    simp only [Token.bare, if_true, first]

theorem Read.rawTexts_eq {spans : Spans} {ts us : List Token} (read : Read spans ts us) :
    Grammar.rawTexts ts = spans.map fun p => String.ofList p.1 := by
  induction read with
  | nil => rfl
  | token i j text implicit kind _ ih =>
    rw [← List.singleton_append, Grammar.rawTexts_append, ih]
    simp [Grammar.rawTexts, kind]
  | raw i j a b _ ih =>
    rw [← List.singleton_append, Grammar.rawTexts_append, ih]
    rfl

namespace Glyph

/-- Texts with the same characters outside quotes. -/
inductive Alike : Spans → List Glyph → List Glyph → Prop
  | nil : Alike [] [] []
  | plain {spans : Spans} {gs hs : List Glyph} {c : Char} (i j : Nat) :
    c ≠ '"' → Alike spans gs hs → Alike spans (⟨c, i, false⟩ :: gs) (⟨c, j, false⟩ :: hs)
  | quoted {spans : Spans} {gs hs as bs : List Glyph} (i j i' j' : Nat) :
    (∀ g ∈ as, g.raw) → (∀ g ∈ bs, g.raw) → Alike spans gs hs →
      Alike ((as.map char, bs.map char) :: spans)
        (⟨'"', i, false⟩ :: (as ++ ⟨'"', i', false⟩ :: gs))
        (⟨'"', j, false⟩ :: (bs ++ ⟨'"', j', false⟩ :: hs))
  | unclosed {as bs : List Glyph} (i j : Nat) :
    (∀ g ∈ as, g.raw) → (∀ g ∈ bs, g.raw) →
      Alike [] (⟨'"', i, false⟩ :: as) (⟨'"', j, false⟩ :: bs)

/-! ### Spelling -/

/-- Quoted text is spelled as it is. -/
theorem spell_quoted {code : List Char} (plain : '"' ∉ code) (i : Nat) :
    ∃ run : List Glyph, run.map char = code ∧ (∀ g ∈ run, g.raw) ∧
      ∀ cs, spell true i (code ++ cs) = run ++ spell true (i + code.length) cs := by
  induction code generalizing i with
  | nil => exact ⟨[], rfl, nofun, fun _ => rfl⟩
  | cons c code ih =>
    simp only [List.mem_cons, not_or] at plain
    obtain ⟨run, chars, raw, spelled⟩ := ih plain.2 (i + 1)
    refine ⟨⟨c, i, true⟩ :: run, by rw [List.map_cons, chars], by simpa using raw, fun cs => ?_⟩
    rw [List.cons_append, spell, if_neg (Ne.symm plain.1), if_pos rfl, spelled, List.length_cons,
      Nat.add_right_comm, Nat.add_assoc]
    rfl

theorem alike_lead {spans : Spans} {lead cs ds : List Char} (plain : '"' ∉ lead)
    (rest : ∀ i j, Alike spans (spell false i cs) (spell false j ds)) (i j : Nat) :
    Alike spans (spell false i (lead ++ cs)) (spell false j (lead ++ ds)) := by
  induction lead generalizing i j with
  | nil => exact rest i j
  | cons c lead ih =>
    simp only [List.mem_cons, not_or] at plain
    have other : Text.lowerCase c ≠ '"' := fun quote =>
      plain.1 (Text.quote_of_lowerCase quote).symm
    rw [List.cons_append, List.cons_append, spell, spell]
    simp only [Ne.symm plain.1, Bool.false_eq_true, if_false]
    split
    · exact ih plain.2 (i + 1) (j + 1)
    · exact .plain i j other (ih plain.2 (i + 1) (j + 1))

theorem alike_span {spans : Spans} {a b cs ds : List Char} (plain : '"' ∉ a) (plain' : '"' ∉ b)
    (rest : ∀ i j, Alike spans (spell false i cs) (spell false j ds)) (i j : Nat) :
    Alike ((a, b) :: spans) (spell false i ('"' :: (a ++ '"' :: cs)))
      (spell false j ('"' :: (b ++ '"' :: ds))) := by
  obtain ⟨left, charsLeft, rawLeft, spelledLeft⟩ := spell_quoted plain (i + 1)
  obtain ⟨right, charsRight, rawRight, spelledRight⟩ := spell_quoted plain' (j + 1)
  rw [spell, spell, if_pos rfl, if_pos rfl, Bool.not_false, spelledLeft, spelledRight, spell, spell,
    if_pos rfl, if_pos rfl, ← charsLeft, ← charsRight]
  exact .quoted i j _ _ rawLeft rawRight (rest _ _)

theorem alike_unclosed {a b : List Char} (plain : '"' ∉ a) (plain' : '"' ∉ b) (i j : Nat) :
    Alike [] (spell false i ('"' :: a)) (spell false j ('"' :: b)) := by
  obtain ⟨left, -, rawLeft, spelledLeft⟩ := spell_quoted plain (i + 1)
  obtain ⟨right, -, rawRight, spelledRight⟩ := spell_quoted plain' (j + 1)
  have left := spelledLeft []
  have right := spelledRight []
  simp only [List.append_nil, spell] at left right
  rw [spell, spell, if_pos rfl, if_pos rfl, Bool.not_false, left, right]
  exact .unclosed i j rawLeft rawRight

/-! ### Normalisation -/

theorem Alike.spread {spans : Spans} {gs hs : List Glyph} {word : List Char} (plain : '"' ∉ word)
    (i j : Nat) (rest : Alike spans gs hs) :
    Alike spans (spread word i ++ gs) (spread word j ++ hs) := by
  induction word with
  | nil => exact rest
  | cons c word ih =>
    simp only [List.mem_cons, not_or] at plain
    exact .plain i j (Ne.symm plain.1) (ih plain.2)

theorem startsWith_quote {word : List Char} (nonempty : word ≠ []) (plain : '"' ∉ word) (i : Nat)
    (gs : List Glyph) : startsWith word (⟨'"', i, false⟩ :: gs) = false := by
  obtain ⟨c, word, rfl⟩ := List.exists_cons_of_ne_nil nonempty
  have other : ('"' == c) = false := by
    rw [beq_eq_false_iff_ne]
    exact fun same => plain (same ▸ List.mem_cons_self)
  simp only [startsWith, other, Bool.and_false, Bool.false_and]

theorem Alike.startsWith_eq {spans : Spans} {gs hs : List Glyph} (alike : Alike spans gs hs)
    {word : List Char} (plain : '"' ∉ word) : startsWith word gs = startsWith word hs := by
  induction word generalizing gs hs with
  | nil => cases gs <;> cases hs <;> rfl
  | cons c word ih =>
    cases alike with
    | nil => rfl
    | plain i j other rest =>
      simp only [startsWith, ih rest (List.not_mem_of_not_mem_cons plain)]
    | quoted | unclosed =>
      rw [startsWith_quote (List.cons_ne_nil c word) plain,
        startsWith_quote (List.cons_ne_nil c word) plain]

/-- What starts with a word is alike after it. -/
theorem Alike.drop_word {spans : Spans} {gs hs : List Glyph} (alike : Alike spans gs hs)
    {word : List Char} (plain : '"' ∉ word) (starts : startsWith word gs) :
    Alike spans (gs.drop word.length) (hs.drop word.length) := by
  induction word generalizing gs hs with
  | nil => exact alike
  | cons c word ih =>
    cases alike with
    | nil => cases starts
    | plain i j other rest =>
      simp only [startsWith, Bool.and_eq_true] at starts
      exact ih rest (List.not_mem_of_not_mem_cons plain) starts.2
    | quoted | unclosed =>
      rw [startsWith_quote (List.cons_ne_nil c word) plain] at starts
      cases starts

theorem substitute_skip (old new : List Char) (skip : Nat) (gs : List Glyph) :
    substitute old new skip gs = substitute old new 0 (gs.drop skip) := by
  induction gs generalizing skip with
  | nil => simp [substitute]
  | cons g gs ih =>
    cases skip with
    | zero => rfl
    | succ skip => exact ih skip

theorem substitute_raw {old : List Char} (nonempty : old ≠ []) (new : List Char) {as : List Glyph}
    (raw : ∀ g ∈ as, g.raw) (gs : List Glyph) :
    substitute old new 0 (as ++ gs) = as ++ substitute old new 0 gs := by
  obtain ⟨c, word, rfl⟩ := List.exists_cons_of_ne_nil nonempty
  induction as with
  | nil => rfl
  | cons g as ih =>
    obtain ⟨first, others⟩ := List.forall_mem_cons.mp raw
    simp [substitute, startsWith, first, ih others]

theorem substitute_quote {old : List Char} (nonempty : old ≠ []) (plain : '"' ∉ old)
    (new : List Char) (i : Nat) (gs : List Glyph) :
    substitute old new 0 (⟨'"', i, false⟩ :: gs) = ⟨'"', i, false⟩ :: substitute old new 0 gs := by
  rw [substitute, startsWith_quote nonempty plain]
  rfl

theorem Alike.substitute {spans : Spans} {gs hs : List Glyph} {old new : List Char}
    (nonempty : old ≠ []) (plainOld : '"' ∉ old) (plainNew : '"' ∉ new)
    (alike : Alike spans gs hs) :
    Alike spans (substitute old new 0 gs) (substitute old new 0 hs) := by
  induction size : gs.length using Nat.strong_induction_on generalizing spans gs hs with
  | _ n ih =>
    cases alike with
    | nil => exact .nil
    | @plain _ gs hs c i j other rest =>
      have whole : Alike spans (⟨c, i, false⟩ :: gs) (⟨c, j, false⟩ :: hs) := .plain i j other rest
      rw [Glyph.substitute, Glyph.substitute, ← whole.startsWith_eq plainOld]
      split
      · rename_i starts
        obtain ⟨m, length⟩ : ∃ m, old.length = m + 1 :=
          Nat.exists_eq_succ_of_ne_zero (by simpa using nonempty)
        have after := whole.drop_word plainOld starts
        rw [length, List.drop_succ_cons, List.drop_succ_cons] at after
        rw [substitute_skip, substitute_skip _ _ _ hs, length, Nat.add_sub_cancel]
        refine .spread plainNew i j (ih _ ?_ after rfl)
        rw [← size, List.length_drop, List.length_cons]
        omega
      · exact .plain i j other (ih _ (by simp [← size]) rest rfl)
    | @quoted _ gs hs as bs i j i' j' left right rest =>
      rw [substitute_quote nonempty plainOld, substitute_quote nonempty plainOld,
        substitute_raw nonempty new left, substitute_raw nonempty new right,
        substitute_quote nonempty plainOld, substitute_quote nonempty plainOld]
      refine .quoted i j i' j' left right (ih _ ?_ rest rfl)
      rw [← size, List.length_cons, List.length_append, List.length_cons]
      omega
    | @unclosed as bs i j left right =>
      have kept {as : List Glyph} (raw : ∀ g ∈ as, g.raw) : Glyph.substitute old new 0 as = as := by
        simpa [Glyph.substitute] using substitute_raw nonempty new raw []
      rw [substitute_quote nonempty plainOld, substitute_quote nonempty plainOld, kept left,
        kept right]
      exact .unclosed i j left right

theorem not_isBar_of_raw {g : Glyph} (raw : g.raw) : g.isBar = false := by
  simp [isBar, raw]

theorem Alike.countP_isBar {spans : Spans} {gs hs : List Glyph} (alike : Alike spans gs hs) :
    gs.countP isBar = hs.countP isBar := by
  have quote (i : Nat) : isBar ⟨'"', i, false⟩ = false := rfl
  have raw {as : List Glyph} (raw : ∀ g ∈ as, g.raw) : as.countP isBar = 0 :=
    List.countP_eq_zero.mpr fun g member => by simp [not_isBar_of_raw (raw g member)]
  induction alike with
  | nil => rfl
  | plain i j _ _ ih =>
    rw [List.countP_cons, List.countP_cons, ih]
    rfl
  | quoted i j i' j' left right _ ih =>
    simp only [List.countP_cons, List.countP_append, raw left, raw right, quote, ih]
  | unclosed i j left right => simp only [List.countP_cons, raw left, raw right, quote]

theorem pairBars_raw (paired : Nat) {as : List Glyph} (raw : ∀ g ∈ as, g.raw) (gs : List Glyph) :
    pairBars paired (as ++ gs) = as ++ pairBars paired gs := by
  induction as with
  | nil => rfl
  | cons g as ih =>
    obtain ⟨first, others⟩ := List.forall_mem_cons.mp raw
    cases paired with
    | zero => cases gs <;> rfl
    | succ paired =>
      rw [List.cons_append, pairBars, not_isBar_of_raw first, ih others]
      rfl

theorem pairBars_quote (paired i : Nat) (gs : List Glyph) :
    pairBars paired (⟨'"', i, false⟩ :: gs) = ⟨'"', i, false⟩ :: pairBars paired gs := by
  cases paired with
  | zero => cases gs <;> rfl
  | succ paired => rfl

theorem Alike.pairBars {spans : Spans} {gs hs : List Glyph} (alike : Alike spans gs hs)
    (paired : Nat) : Alike spans (pairBars paired gs) (pairBars paired hs) := by
  induction alike generalizing paired with
  | nil => simpa [Glyph.pairBars] using Alike.nil
  | @plain _ gs hs c i j other rest ih =>
    cases paired with
    | zero => exact .plain i j other rest
    | succ paired =>
      rw [Glyph.pairBars, Glyph.pairBars]
      by_cases bar : c = '|'
      · have plain : '"' ∉ (if paired % 2 = 1 then "abs(".toList else [')']) := by
          split <;> decide
        simp only [isBar, bar, Bool.not_false, beq_self_eq_true, Bool.and_self, if_true]
        exact .spread plain i j (ih paired)
      · simp only [isBar, bar, beq_iff_eq, Bool.not_false, Bool.true_and, if_false]
        exact .plain i j other (ih (paired + 1))
  | quoted i j i' j' left right _ ih =>
    rw [pairBars_quote, pairBars_quote, pairBars_raw paired left, pairBars_raw paired right,
      pairBars_quote, pairBars_quote]
    exact .quoted i j i' j' left right (ih paired)
  | unclosed i j left right =>
    have kept {as : List Glyph} (raw : ∀ g ∈ as, g.raw) : Glyph.pairBars paired as = as := by
      simpa [Glyph.pairBars] using pairBars_raw paired raw []
    rw [pairBars_quote, pairBars_quote, kept left, kept right]
    exact .unclosed i j left right

theorem Alike.absBars {spans : Spans} {gs hs : List Glyph} (alike : Alike spans gs hs) :
    Alike spans (absBars gs) (absBars hs) := by
  unfold Glyph.absBars
  rw [alike.countP_isBar]
  exact alike.pairBars _

/-- The passes of normalisation after spelling. -/
def expand (gs : List Glyph) : List Glyph :=
  replace "π" piNumeral
    (replace "pi" piNumeral (absBars (replace "**" "^" (replace "log" "ln" gs))))

theorem normalize_eq_expand (formula : List Char) :
    normalize formula = expand (spell false 0 formula) :=
  rfl

theorem Alike.expand {spans : Spans} {gs hs : List Glyph} (alike : Alike spans gs hs) :
    Alike spans (expand gs) (expand hs) := by
  have replaced (old new : String) {gs hs : List Glyph} (nonempty : old.toList ≠ [])
      (plainOld : '"' ∉ old.toList) (plainNew : '"' ∉ new.toList) (alike : Alike spans gs hs) :
      Alike spans (replace old new gs) (replace old new hs) :=
    alike.substitute nonempty plainOld plainNew
  have logs := replaced "log" "ln" (by decide) (by decide) (by decide) alike
  have powers := replaced "**" "^" (by decide) (by decide) (by decide) logs
  have pis := replaced "pi" piNumeral (by decide) (by decide) (by decide) powers.absBars
  exact replaced "π" piNumeral (by decide) (by decide) (by decide) pis

/-! ### Scanning -/

theorem drop_takeWhile_length (p : Glyph → Bool) (gs : List Glyph) :
    gs.drop (gs.takeWhile p).length = gs.dropWhile p := by
  induction gs with
  | nil => rfl
  | cons g gs ih => by_cases taken : p g <;> simp [taken, ih]

section Run

variable {p : Glyph → Bool} (chars : ∀ c i j, p ⟨c, i, false⟩ = p ⟨c, j, false⟩)
  (quote : ∀ i, p ⟨'"', i, false⟩ = false)

include chars quote

theorem Alike.takeWhile {spans : Spans} {gs hs : List Glyph} (alike : Alike spans gs hs) :
    (gs.takeWhile p).map char = (hs.takeWhile p).map char := by
  induction alike with
  | nil => rfl
  | @plain _ _ _ c i j _ _ ih =>
    rw [List.takeWhile_cons, List.takeWhile_cons, chars c j i]
    split
    · rw [List.map_cons, List.map_cons, ih]
    · rfl
  | quoted | unclosed =>
    rw [List.takeWhile_cons, List.takeWhile_cons, quote, quote]
    rfl

theorem Alike.dropWhile {spans : Spans} {gs hs : List Glyph} (alike : Alike spans gs hs) :
    Alike spans (gs.dropWhile p) (hs.dropWhile p) := by
  induction alike with
  | nil => exact .nil
  | @plain _ _ _ c i j other rest ih =>
    rw [List.dropWhile_cons, List.dropWhile_cons, chars c j i]
    split
    · exact ih
    · exact .plain i j other rest
  | quoted i j i' j' left right rest =>
    rw [List.dropWhile_cons, List.dropWhile_cons, quote, quote]
    exact .quoted i j i' j' left right rest
  | unclosed i j left right =>
    rw [List.dropWhile_cons, List.dropWhile_cons, quote, quote]
    exact .unclosed i j left right

end Run

theorem Alike.startsFactor_eq {spans : Spans} {gs hs : List Glyph} (alike : Alike spans gs hs) :
    startsFactor gs = startsFactor hs := by
  cases alike <;> rfl

theorem Alike.timesBefore {spans : Spans} {gs hs : List Glyph} (alike : Alike spans gs hs)
    (i j : Nat) : Read [] (timesBefore i gs) (timesBefore j hs) := by
  unfold Glyph.timesBefore
  rw [alike.startsFactor_eq]
  split
  · exact .token i j "*" true (by decide) .nil
  · exact .nil

theorem read_products {gs hs : List Glyph} (same : gs.map char = hs.map char) :
    Read [] (products gs) (products hs) := by
  have letter (c : Char) : (if c = 'i' then TokenKind.imaginary else .z) ≠ .rawCode := by
    split <;> decide
  cases gs with
  | nil =>
    cases hs with
    | nil => exact .nil
    | cons h hs => cases same
  | cons g gs =>
    cases hs with
    | nil => cases same
    | cons h hs =>
      obtain ⟨first, others⟩ := List.cons.inj same
      rw [products, products, first]
      refine .token g.column h.column "" false (letter h.char) ?_
      clear same first
      induction gs generalizing hs with
      | nil =>
        obtain rfl := List.map_eq_nil_iff.mp others.symm
        exact .nil
      | cons g gs ih =>
        cases hs with
        | nil => cases others
        | cons h hs =>
          obtain ⟨first, others⟩ := List.cons.inj others
          rw [List.flatMap_cons, List.flatMap_cons, first]
          exact .token g.column h.column "*" true (by decide)
            (.token g.column h.column "" false (letter h.char) (ih hs others))

/-- The tokens of a lexeme are read alike, and what follows it is alike. -/
def ReadFirst (spans : Spans) (gs hs : List Glyph) (x y : List Token × Nat) : Prop :=
  Read [] x.1 y.1 ∧ Alike spans (gs.drop x.2) (hs.drop y.2)

theorem Alike.word {spans : Spans} {gs hs : List Glyph} (alike : Alike spans gs hs)
    (c : Char) (i j : Nat) :
    Agree (Read []) (word ⟨c, i, false⟩ (⟨c, i, false⟩ :: gs.takeWhile isLetter))
      (word ⟨c, j, false⟩ (⟨c, j, false⟩ :: hs.takeWhile isLetter)) := by
  have run : (⟨c, i, false⟩ :: gs.takeWhile isLetter).map char =
      (⟨c, j, false⟩ :: hs.takeWhile isLetter).map char := by
    rw [List.map_cons, List.map_cons, alike.takeWhile (fun _ _ _ => rfl) (fun _ => rfl)]
  have all (gs : List Glyph) : (gs.all fun g => g.char == 'i' || g.char == 'z') =
      (gs.map char).all fun c => c == 'i' || c == 'z' := by
    rw [List.all_map]
    rfl
  unfold Glyph.word text
  rw [all, all, run]
  split
  · exact .ok (read_products run)
  · split
    · exact .ok (.token i j _ false (by decide) .nil)
    · exact .error _ _ _ _

theorem Alike.lexeme {spans : Spans} {gs hs : List Glyph} {c : Char} (other : c ≠ '"')
    (alike : Alike spans gs hs) (i j : Nat) :
    Agree (ReadFirst spans gs hs) (lexeme ⟨c, i, false⟩ gs) (lexeme ⟨c, j, false⟩ hs) := by
  have single (kind : TokenKind) (text : String) (notRaw : kind ≠ .rawCode) :
      ReadFirst spans gs hs ([⟨kind, i, text, false⟩], 0) ([⟨kind, j, text, false⟩], 0) :=
    ⟨.token i j text false notRaw .nil, alike⟩
  unfold Glyph.lexeme
  dsimp only
  cases Operator.ofSymbol? (toString c) with
  | some op => exact .ok (single .op op.symbol (by decide))
  | none =>
    dsimp only
    by_cases comma : c = ','
    · simp only [comma, if_true]
      exact .ok (single .comma "" (by decide))
    by_cases parenOpen : c = '('
    · simp only [parenOpen, if_true]
      exact .ok (single .parenOpen "" (by decide))
    by_cases parenClose : c = ')'
    · simp only [parenClose, if_true]
      exact .ok ⟨.token i j "" false (by decide) (alike.timesBefore i j), alike⟩
    simp only [comma, parenOpen, parenClose, other, if_false]
    have same : isDigit ⟨c, i, false⟩ = isDigit ⟨c, j, false⟩ := rfl
    by_cases digit : isDigit ⟨c, j, false⟩
    · have run : (⟨c, i, false⟩ :: gs.takeWhile isDigit).map char =
          (⟨c, j, false⟩ :: hs.takeWhile isDigit).map char := by
        rw [List.map_cons, List.map_cons, alike.takeWhile (fun _ _ _ => rfl) (fun _ => rfl)]
      simp only [same, digit, if_true, text, run]
      split
      · exact .error _ _ _ _
      · refine .ok ⟨.token i j _ false (by decide) ?_, ?_⟩
        · exact (alike.dropWhile (fun _ _ _ => rfl) (fun _ => rfl)).timesBefore _ _
        · simp only [List.length_cons, Nat.add_sub_cancel, drop_takeWhile_length]
          exact alike.dropWhile (fun _ _ _ => rfl) (fun _ => rfl)
    · simp only [same, digit]
      have same : isLetter ⟨c, i, false⟩ = isLetter ⟨c, j, false⟩ := rfl
      rw [same]
      by_cases letter : isLetter ⟨c, j, false⟩
      · simp only [letter, if_true]
        refine (alike.word c i j).bind fun ts us read => .ok ⟨read, ?_⟩
        simp only [List.length_cons, Nat.add_sub_cancel, drop_takeWhile_length]
        exact alike.dropWhile (fun _ _ _ => rfl) (fun _ => rfl)
      · simp only [letter]
        exact .error _ _ _ _

theorem takeWhile_raw {as : List Glyph} (raw : ∀ g ∈ as, g.raw) (i : Nat) (gs : List Glyph) :
    (as ++ ⟨'"', i, false⟩ :: gs).takeWhile Glyph.raw = as := by
  rw [List.takeWhile_append_of_pos raw, List.takeWhile_cons_of_neg (by simp), List.append_nil]

theorem lexeme_quote (i : Nat) (gs : List Glyph) :
    lexeme ⟨'"', i, false⟩ gs =
      if (gs.takeWhile Glyph.raw).length = gs.length then
        .error ⟨.parsing, i, .unclosedQuote⟩
      else
        .ok ([⟨.rawCode, i, text (gs.takeWhile Glyph.raw), false⟩],
          (gs.takeWhile Glyph.raw).length + 1) := by
  have noOperator : Operator.ofSymbol? (toString '"') = none := by decide
  unfold lexeme
  dsimp only
  rw [noOperator]
  rfl

theorem lexeme_quoted {as : List Glyph} (raw : ∀ g ∈ as, g.raw) (i i' : Nat) (gs : List Glyph) :
    lexeme ⟨'"', i, false⟩ (as ++ ⟨'"', i', false⟩ :: gs) =
      .ok ([⟨.rawCode, i, text as, false⟩], as.length + 1) := by
  rw [lexeme_quote, takeWhile_raw raw, if_neg]
  simp

theorem lexeme_unclosed {as : List Glyph} (raw : ∀ g ∈ as, g.raw) (i : Nat) :
    lexeme ⟨'"', i, false⟩ as = .error ⟨.parsing, i, .unclosedQuote⟩ := by
  rw [lexeme_quote, List.takeWhile_eq_self_iff.mpr raw, if_pos rfl]

theorem scan_skip (skip : Nat) (gs : List Glyph) : scan skip gs = scan 0 (gs.drop skip) := by
  induction gs generalizing skip with
  | nil => simp [scan]
  | cons g gs ih =>
    cases skip with
    | zero => rfl
    | succ skip => exact ih skip

theorem Alike.scan {spans : Spans} {gs hs : List Glyph} (alike : Alike spans gs hs) :
    Agree (Read spans) (scan 0 gs) (scan 0 hs) := by
  -- A lexeme takes as many characters as it likes, so the induction is on the length.
  induction size : gs.length using Nat.strong_induction_on generalizing spans gs hs with
  | _ n ih =>
    cases alike with
    | nil => exact .ok .nil
    | @plain _ gs hs c i j other rest =>
      rw [Glyph.scan, Glyph.scan]
      refine (rest.lexeme other i j).bind ?_
      rintro ⟨ts, used⟩ ⟨us, used'⟩ ⟨first, after⟩
      dsimp only
      rw [scan_skip, scan_skip used']
      have shorter : (gs.drop used).length < n := by
        rw [← size, List.length_drop, List.length_cons]
        omega
      exact (ih _ shorter after rfl).bind fun ts us read => .ok (first.append read)
    | @quoted _ gs hs as bs i j i' j' left right rest =>
      rw [Glyph.scan, Glyph.scan, lexeme_quoted left, lexeme_quoted right]
      show Agree _ (Glyph.scan _ _ >>= _) (Glyph.scan _ _ >>= _)
      rw [scan_skip, scan_skip (bs.length + 1), List.drop_length_add_append,
        List.drop_length_add_append]
      have shorter : gs.length < n := by
        rw [← size, List.length_cons, List.length_append, List.length_cons]
        omega
      exact (ih _ shorter rest rfl).bind fun ts us read => .ok (.raw i j _ _ read)
    | unclosed i j left right =>
      rw [Glyph.scan, Glyph.scan, lexeme_unclosed left, lexeme_unclosed right]
      exact .error _ _ _ _

end Glyph

open Glyph (Alike spell)

/-! ### Formulas -/

theorem tokenize_normalized {spans : Spans} {formula formula' : List Char}
    (alike : Alike spans (Glyph.normalize formula) (Glyph.normalize formula')) :
    Agree (Read spans) (tokenize formula) (tokenize formula') := by
  unfold tokenize
  cases left : Glyph.normalize formula with
  | nil =>
    rw [left] at alike
    cases right : Glyph.normalize formula' with
    | nil => exact .error _ _ _ _
    | cons h hs =>
      rw [right] at alike
      cases alike
  | cons g gs =>
    rw [left] at alike
    cases right : Glyph.normalize formula' with
    | nil =>
      rw [right] at alike
      cases alike
    | cons h hs =>
      rw [right] at alike
      exact alike.scan

theorem tokenize_alike {spans : Spans} {formula formula' : List Char}
    (alike : Alike spans (spell false 0 formula) (spell false 0 formula')) :
    Agree (Read spans) (tokenize formula) (tokenize formula') := by
  have normalized := alike.expand
  rw [← Glyph.normalize_eq_expand, ← Glyph.normalize_eq_expand] at normalized
  exact tokenize_normalized normalized

theorem Formula.parse_alike {spans : Spans} {source source' : String} {rename : String → String}
    (alike : Alike spans (spell false 0 source.toList) (spell false 0 source'.toList))
    (same : ∀ p ∈ spans, rename (String.ofList p.1) = rename (String.ofList p.2)) :
    mapBoth (fun f => f.root.bare rename) (Failure.bare rename) (parse source) =
      mapBoth (fun f => f.root.bare rename) (Failure.bare rename) (parse source') := by
  have typing (source : String) (tree : Node) :
      mapBoth (fun f : Formula => f.root.bare rename) (Failure.bare rename)
        (tree.typed >>= fun root => pure ⟨source, root⟩) = (tree.bare rename).typed := by
    rw [Node.typed_bare]
    cases tree.typed with
    | ok root => rfl
    | error e => rfl
  have trees (source : String) (ts : List Token) :
      mapBoth (fun f : Formula => f.root.bare rename) (Failure.bare rename)
        (Parse.formula ts >>= fun tree => tree.typed >>= fun root => pure ⟨source, root⟩) =
        mapBoth (Node.bare rename) (Failure.bare rename) (Parse.formula ts) >>= Node.typed :=
    mapBoth_bind rfl fun tree _ => typing source tree
  have agree := tokenize_alike alike
  unfold parse
  generalize tokenize source.toList = left at agree
  generalize tokenize source'.toList = right at agree
  cases agree with
  | @ok ts us read =>
    have parsed := trees source ts
    rw [Parse.formula_bare (read.bare_eq same)] at parsed
    exact parsed.trans (trees source' us).symm
  | error stage i j cause => rfl

end EscapeTime
