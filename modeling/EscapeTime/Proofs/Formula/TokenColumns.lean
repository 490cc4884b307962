import EscapeTime.Proofs.Formula.Columns

/-!
# Columns of tokens

The columns of a formula's tokens never go back, and each typed token stands where the formula has
its first character. Where normalisation wrote a word, the formula has the start of the one that was
replaced: `*` for a power, `|` for a call of `abs` and its parentheses, `p` or `π` for a number.
-/

namespace EscapeTime

open Glyph

namespace Glyph

/-! ### Order -/

/-- The columns never go back. -/
def InOrder (gs : List Glyph) : Prop :=
  gs.Pairwise fun g h => g.column ≤ h.column

theorem le_column_spell {inQuote : Bool} {i : Nat} {cs : List Char} :
    ∀ g ∈ spell inQuote i cs, i ≤ g.column := by
  intro g member
  induction cs generalizing inQuote i with
  | nil => cases member
  | cons c cs ih =>
    have next {x : Glyph} {inQuote : Bool} (here : x.column = i)
        (member : g ∈ x :: spell inQuote (i + 1) cs) : i ≤ g.column := by
      rcases List.mem_cons.mp member with rfl | member
      · exact here.ge
      · exact Nat.le_of_succ_le (ih member)
    rw [spell] at member
    split_ifs at member
    · exact next rfl member
    · exact next rfl member
    · exact Nat.le_of_succ_le (ih member)
    · exact next rfl member

theorem inOrder_spell (inQuote : Bool) (i : Nat) (cs : List Char) :
    InOrder (spell inQuote i cs) := by
  induction cs generalizing inQuote i with
  | nil => exact .nil
  | cons c cs ih =>
    have next (x : Glyph) (inQuote : Bool) (here : x.column = i) :
        InOrder (x :: spell inQuote (i + 1) cs) := by
      refine List.pairwise_cons.mpr ⟨fun g member => ?_, ih _ _⟩
      rw [here]
      exact Nat.le_of_succ_le (le_column_spell g member)
    rw [spell]
    split_ifs
    · exact next _ _ rfl
    · exact next _ _ rfl
    · exact ih _ _
    · exact next _ _ rfl

theorem Rewritten.inOrder {rules : List (List Char × List Char)} {gs hs : List Glyph}
    (rewritten : Rewritten rules gs hs) (order : InOrder gs) : InOrder hs := by
  induction rewritten with
  | nil => exact .nil
  | @keep gs hs g rest ih =>
    obtain ⟨first, others⟩ := List.pairwise_cons.mp order
    refine List.pairwise_cons.mpr ⟨fun h member => ?_, ih others⟩
    obtain ⟨x, there, column⟩ := rest.column h member
    rw [column]
    exact first x there
  | @word g run gs hs new rule rest ih =>
    obtain ⟨first, others⟩ := List.pairwise_cons.mp order
    refine List.pairwise_append.mpr
      ⟨?_, ih (List.pairwise_append.mp others).2.1, fun x written h member => ?_⟩
    · rw [spread, List.pairwise_map]
      exact List.pairwise_of_forall fun _ _ => Nat.le_refl _
    · obtain ⟨c, -, rfl⟩ := mem_spread.mp written
      obtain ⟨y, there, column⟩ := rest.column h member
      rw [column]
      exact first y (List.mem_append_right run there)

theorem inOrder_normalize (formula : List Char) : InOrder (normalize formula) := by
  obtain ⟨logs, powers, bars, pis, first, second, third, fourth, fifth⟩ :=
    rewritten_normalize formula
  have spelled := inOrder_spell false 0 formula
  exact fifth.inOrder (fourth.inOrder (third.inOrder (second.inOrder (first.inOrder spelled))))

theorem products_inOrder {gs : List Glyph} (order : InOrder gs) :
    (products gs).Pairwise fun t u => t.column ≤ u.column := by
  cases gs with
  | nil => exact .nil
  | cons g gs =>
    induction gs generalizing g with
    | nil => exact List.pairwise_singleton _ _
    | cons h gs ih =>
      obtain ⟨first, others⟩ := List.pairwise_cons.mp order
      have later : ∀ t ∈ products (h :: gs), h.column ≤ t.column := by
        intro t member
        obtain ⟨-, x, there, column⟩ := products_size member
        rw [column]
        rcases List.mem_cons.mp there with rfl | there
        · exact Nat.le_refl _
        · exact (List.pairwise_cons.mp others).1 x there
      have step : g.column ≤ h.column := first h List.mem_cons_self
      rw [products_cons]
      refine List.pairwise_cons.mpr ⟨?_, List.pairwise_cons.mpr ⟨later, ih h others⟩⟩
      intro t member
      rcases List.mem_cons.mp member with rfl | member
      · exact step
      · exact Nat.le_trans step (later t member)

theorem pairwise_timesBefore {t : Token} {column : Nat} (le : t.column ≤ column) (gs : List Glyph) :
    (t :: timesBefore column gs).Pairwise fun t u => t.column ≤ u.column := by
  refine List.pairwise_cons.mpr ⟨fun u times => ?_, ?_⟩
  · rw [mem_timesBefore times]
    exact le
  · unfold timesBefore
    split
    · exact List.pairwise_singleton _ _
    · exact .nil

theorem Lexeme.inOrder {g : Glyph} {rest : List Glyph} {ts : List Token} {used : Nat}
    (lexeme : Lexeme g rest ts used) (order : InOrder (g :: rest)) :
    ts.Pairwise fun t u => t.column ≤ u.column := by
  have run (p : Glyph → Bool) : InOrder (g :: rest.takeWhile p) :=
    order.sublist (( List.takeWhile_sublist p).cons_cons g)
  cases lexeme with
  | op | comma | parenOpen | quoted | function => exact List.pairwise_singleton _ _
  | parenClose => exact pairwise_timesBefore (Nat.le_refl g.column) rest
  | number =>
    refine pairwise_timesBefore ?_ _
    rw [List.getLastD_cons]
    have last : (rest.takeWhile isDigit).getLastD g ∈ g :: rest.takeWhile isDigit :=
      List.getLastD_mem_cons
    rcases List.mem_cons.mp last with same | there
    · rw [same]
    · exact (List.pairwise_cons.mp (run isDigit)).1 _ there
  | products => exact products_inOrder (run isLetter)

theorem Lexemes.inOrder {gs : List Glyph} {ts : List Token} (lexemes : Lexemes gs ts)
    (order : InOrder gs) : ts.Pairwise fun t u => t.column ≤ u.column := by
  induction lexemes with
  | nil => exact .nil
  | @cons g rest ts us used lexeme more ih =>
    have parts : InOrder (g :: rest.take used ++ rest.drop used) := by
      rwa [List.cons_append, List.take_append_drop]
    obtain ⟨-, after, across⟩ := List.pairwise_append.mp parts
    refine List.pairwise_append.mpr ⟨lexeme.inOrder order, ih after, fun t here u there => ?_⟩
    obtain ⟨x, taken, columnHere⟩ := lexeme.column t here
    obtain ⟨y, left, columnThere⟩ := more.column u there
    rw [columnHere, columnThere]
    exact across x taken y left

/-! ### Sources -/

section

variable {formula : List Char} {rules words : List (List Char × List Char)} {g : Glyph}
  {gs hs : List Glyph}

/-- The character in a column of the formula, in lower case. -/
def sourceChar? (formula : List Char) (column : Nat) : Option Char :=
  formula[column]?.map Text.lowerCase

/-- The character is the one that the formula has in its column. -/
def Faithful (formula : List Char) (g : Glyph) : Prop :=
  (if g.raw then formula[g.column]? else sourceChar? formula g.column) = some g.char

/-- The text in pieces: a character of the formula, or a word that was written where the formula has
the first character of another one. -/
inductive Sourced (formula : List Char) (words : List (List Char × List Char)) :
    List Glyph → Prop
  | nil : Sourced formula words []
  | kept {g : Glyph} {gs : List Glyph} :
    Faithful formula g → Sourced formula words gs → Sourced formula words (g :: gs)
  | word {old new : List Char} {column : Nat} {gs : List Glyph} :
    (old, new) ∈ words → sourceChar? formula column = old.head? → Sourced formula words gs →
      Sourced formula words (spread new column ++ gs)

theorem Sourced.mono {words' : List (List Char × List Char)} (sourced : Sourced formula words gs)
    (subset : words ⊆ words') : Sourced formula words' gs := by
  induction sourced with
  | nil => exact .nil
  | kept faithful _ ih => exact .kept faithful ih
  | word rule source _ ih => exact .word (subset rule) source ih

theorem sourced_spell (inQuote : Bool) {i : Nat} {cs : List Char} (rest : formula.drop i = cs) :
    Sourced formula [] (spell inQuote i cs) := by
  induction cs generalizing inQuote i with
  | nil => exact .nil
  | cons c cs ih =>
    have here : formula[i]? = some c := by
      rw [← List.head?_drop, rest, List.head?_cons]
    have after : formula.drop (i + 1) = cs := by
      rw [← List.drop_drop, rest, List.drop_one, List.tail_cons]
    have quote : Text.lowerCase '"' = '"' := by decide
    rw [spell]
    split_ifs with isQuote raw blank
    · refine .kept ?_ (ih _ after)
      simp [Faithful, sourceChar?, here, isQuote, quote]
    · refine .kept ?_ (ih _ after)
      simp [Faithful, here]
    · exact ih _ after
    · refine .kept ?_ (ih _ after)
      simp [Faithful, sourceChar?, here]

/-! ### Passes -/

theorem Rewritten.cons_cases (rewritten : Rewritten rules (g :: gs) hs) :
    (∃ rest, hs = g :: rest ∧ Rewritten rules gs rest) ∨
      ∃ run after rest new, gs = run ++ after ∧ ((g :: run).map char, new) ∈ rules ∧
        hs = spread new g.column ++ rest ∧ Rewritten rules after rest := by
  cases rewritten with
  | keep _ rest => exact .inl ⟨_, rfl, rest⟩
  | word rule rest => exact .inr ⟨_, _, _, _, rfl, rule, rfl, rest⟩

/-- What holds no character of an old word stays. -/
theorem Rewritten.front_kept {front : List Glyph} (rewritten : Rewritten rules (front ++ gs) hs)
    (apart : ∀ g ∈ front, ∀ r ∈ rules, g.char ∉ r.1) :
    ∃ rest, hs = front ++ rest ∧ Rewritten rules gs rest := by
  induction front generalizing hs with
  | nil => exact ⟨hs, rfl, rewritten⟩
  | cons g front ih =>
    obtain ⟨first, others⟩ := List.forall_mem_cons.mp apart
    obtain ⟨rest, rfl, tail⟩ | ⟨run, -, -, new, -, rule, -⟩ := rewritten.cons_cases
    · obtain ⟨rest, rfl, more⟩ := ih tail others
      exact ⟨rest, rfl, more⟩
    · exact absurd (List.mem_map_of_mem List.mem_cons_self) (first _ rule)

theorem Faithful.sourceChar {formula : List Char} {g : Glyph} (faithful : Faithful formula g)
    (lower : Text.lowerCase g.char = g.char) : sourceChar? formula g.column = some g.char := by
  unfold Faithful at faithful
  split at faithful
  · rw [sourceChar?, faithful, Option.map_some, lower]
  · exact faithful

/-- A pass keeps the text in pieces, if its old words share no character with the words written
before and begin with a character in lower case. The pass may leave off a run of characters of an
old word. -/
theorem Sourced.rewritten {run after : List Glyph} (sourced : Sourced formula words (run ++ after))
    (replaced : ∀ x ∈ run, ∃ r ∈ rules, x.char ∈ r.1) (pass : Rewritten rules after hs)
    (apart : ∀ r ∈ rules, ∀ w ∈ words, ∀ c ∈ w.2, c ∉ r.1)
    (lower : ∀ r ∈ rules, ∀ c ∈ r.1.head?, Text.lowerCase c = c) :
    Sourced formula (words ++ rules) hs := by
  generalize whole : run ++ after = gs at sourced
  induction sourced generalizing run after hs with
  | nil =>
    obtain ⟨-, rfl⟩ := List.append_eq_nil_iff.mp whole
    cases pass
    exact .nil
  | @kept g gs faithful _ ih =>
    cases run with
    | cons x run =>
      obtain ⟨rfl, rfl⟩ := List.cons.inj whole
      exact ih (List.forall_mem_cons.mp replaced).2 pass rfl
    | nil =>
      obtain rfl : after = g :: gs := whole
      obtain ⟨rest, rfl, tail⟩ | ⟨run, after, rest, new, rfl, rule, rfl, tail⟩ := pass.cons_cases
      · exact .kept faithful (@ih rest [] gs nofun tail rfl)
      · refine .word (List.mem_append_right words rule) ?_ (ih ?_ tail rfl)
        · exact faithful.sourceChar (lower _ rule g.char rfl)
        · intro x member
          exact ⟨_, rule, List.mem_map_of_mem (List.mem_cons_of_mem g member)⟩
  | @word old new column gs rule source _ ih =>
    have other : ∀ x ∈ spread new column, ∀ r ∈ rules, x.char ∉ r.1 := by
      intro x written r member
      obtain ⟨c, there, rfl⟩ := mem_spread.mp written
      exact apart r member _ rule c there
    cases run with
    | nil =>
      obtain rfl : after = spread new column ++ gs := whole
      obtain ⟨rest, rfl, tail⟩ := pass.front_kept other
      exact .word (List.mem_append_left rules rule) source (@ih rest [] gs nofun tail rfl)
    | cons x run =>
      -- The run cannot begin with a word that was written before.
      cases new with
      | nil => exact ih replaced pass whole
      | cons c new =>
        obtain ⟨rfl, -⟩ := List.cons.inj whole
        obtain ⟨r, member, there⟩ := replaced _ List.mem_cons_self
        exact absurd there (other _ List.mem_cons_self r member)

theorem Sourced.pass (sourced : Sourced formula words gs) (pass : Rewritten rules gs hs)
    (apart : rules.all fun r => words.all fun w => w.2.all fun c => !r.1.contains c)
    (lower : rules.all fun r => r.1.head?.all fun c => Text.lowerCase c == c) :
    Sourced formula (words ++ rules) hs := by
  refine @Sourced.rewritten formula rules words hs [] gs sourced nofun pass ?_ ?_
  · simpa using apart
  · simpa [Option.all_eq_true] using lower

/-- The words that normalisation writes. The parenthesis after `abs` also counts as one. -/
def writtenWords : List (List Char × List Char) :=
  [(['l', 'o', 'g'], ['l', 'n']), (['*', '*'], ['^']), (['|'], ['a', 'b', 's', '(']),
    (['|'], [')']), (['p', 'i'], piNumeral.toList), (['π'], piNumeral.toList), (['|'], ['('])]

theorem sourced_normalize (formula : List Char) :
    Sourced formula writtenWords (normalize formula) := by
  obtain ⟨logs, powers, bars, pis, first, second, third, fourth, fifth⟩ :=
    rewritten_normalize formula
  have spelled : Sourced formula [] (spell false 0 formula) := sourced_spell false rfl
  have afterLogs := spelled.pass first (by decide) (by decide)
  have afterPowers := afterLogs.pass second (by decide) (by decide)
  have afterBars := afterPowers.pass third (by decide) (by decide)
  have afterPis := afterBars.pass fourth (by decide) (by decide)
  have all := afterPis.pass fifth (by decide) (by decide)
  exact all.mono (by decide)

/-! ### The start of a lexeme -/

/-- A text starts with a character of the formula or with a word that was written. -/
theorem Sourced.cons_cases (sourced : Sourced formula words (g :: gs))
    (nonempty : ∀ w ∈ words, w.2 ≠ []) :
    Faithful formula g ∧ Sourced formula words gs ∨
      ∃ old new after, (old, g.char :: new) ∈ words ∧ sourceChar? formula g.column = old.head? ∧
        gs = spread new g.column ++ after ∧ Sourced formula words after := by
  generalize whole : g :: gs = all at sourced
  cases sourced with
  | nil => cases whole
  | kept faithful rest =>
    obtain ⟨rfl, rfl⟩ := List.cons.inj whole
    exact .inl ⟨faithful, rest⟩
  | @word old new column after rule source rest =>
    cases new with
    | nil => exact absurd rfl (nonempty _ rule)
    | cons c new =>
      obtain ⟨rfl, rfl⟩ := List.cons.inj whole
      exact .inr ⟨old, new, after, rule, source, rfl, rest⟩

theorem Sourced.faithful (sourced : Sourced formula words gs) (member : g ∈ gs)
    (other : ∀ w ∈ words, g.char ∉ w.2) : Faithful formula g := by
  induction sourced with
  | nil => cases member
  | kept faithful _ ih =>
    rcases List.mem_cons.mp member with rfl | member
    · exact faithful
    · exact ih member
  | word rule _ _ ih =>
    rcases List.mem_append.mp member with written | member
    · obtain ⟨c, there, rfl⟩ := mem_spread.mp written
      exact absurd there (other _ rule)
    · exact ih member

/-- Leaving off the characters of one kind at the start of a text leaves it in pieces, if it leaves
each word empty or makes it another one. -/
theorem Sourced.dropWhile {p : Glyph → Bool} {q : Char → Bool}
    (plain : ∀ c i, p ⟨c, i, false⟩ = q c)
    (closed : ∀ w ∈ words, w.2.dropWhile q = [] ∨ (w.1, w.2.dropWhile q) ∈ words)
    (sourced : Sourced formula words gs) : Sourced formula words (gs.dropWhile p) := by
  induction sourced with
  | nil => exact .nil
  | @kept g gs faithful rest ih =>
    rw [List.dropWhile_cons]
    split
    · exact ih
    · exact .kept faithful rest
  | @word old new column gs rule source rest ih =>
    have written : (spread new column).dropWhile p = spread (new.dropWhile q) column := by
      rw [spread, List.dropWhile_map]
      congr 2
      funext c
      exact plain c column
    rw [List.dropWhile_append, written]
    rcases closed _ rule with none | word
    · rw [none]
      exact ih
    · split
      · exact ih
      · exact .word word source rest

end

end Glyph

/-- The characters, in lower case, that a typed token may stand for: the first one of its own, and
those that normalisation replaces. -/
def Token.StandsFor (t : Token) (c : Char) : Prop :=
  t.ink.head?.map Glyph.char = some c ∨
    t.kind = .op ∧ t.text = "^" ∧ c = '*' ∨
    t.kind = .function ∧ t.text = "abs" ∧ c = '|' ∨
    (t.kind = .parenOpen ∨ t.kind = .parenClose) ∧ c = '|' ∨
    t.kind = .number ∧ (c = 'p' ∨ c = 'π')

namespace Glyph

variable {formula : List Char} {g : Glyph} {gs hs rest : List Glyph} {ts : List Token} {used : Nat}

/-- The characters of the formula, in lower case, that a lexeme may start at. -/
inductive Start (g : Glyph) (rest : List Glyph) : Char → Prop
  | own : Start g rest g.char
  | power : g.char = '^' → Start g rest '*'
  | opening : g.char = '(' → Start g rest '|'
  | closing : g.char = ')' → Start g rest '|'
  | abs (after : List Glyph) :
    g.char = 'a' → rest = spread ['b', 's', '('] g.column ++ after → Start g rest '|'
  | pi {c : Char} : g.isDigit → c = 'p' ∨ c = 'π' → Start g rest c

theorem isDigit_piNumeral {c : Char} (member : c ∈ piNumeral.toList) (g : Glyph)
    (same : g.char = c) :
    g.isDigit := by
  have digits : piNumeral.toList.all fun c => isDigit ⟨c, 0, false⟩ := by decide
  have digit := List.all_eq_true.mp digits c member
  rwa [← same] at digit

theorem Sourced.start (sourced : Sourced formula writtenWords (g :: rest)) (plain : g.raw = false) :
    ∃ c ∈ sourceChar? formula g.column, Start g rest c := by
  obtain ⟨faithful, -⟩ | ⟨old, new, after, rule, source, rfl, -⟩ := sourced.cons_cases (by decide)
  · refine ⟨g.char, ?_, .own⟩
    rwa [Faithful, plain, if_neg Bool.false_ne_true] at faithful
  · have pi (numeral : g.char :: new = piNumeral.toList) : g.isDigit :=
      isDigit_piNumeral (numeral ▸ List.mem_cons_self) g rfl
    simp only [writtenWords, List.mem_cons, Prod.mk.injEq, List.cons.injEq, List.not_mem_nil,
      or_false] at rule
    rcases rule with ⟨rfl, char, -⟩ | ⟨rfl, char, -⟩ | ⟨rfl, char, rfl⟩ | ⟨rfl, char, -⟩ |
      ⟨rfl, numeral⟩ | ⟨rfl, numeral⟩ | ⟨rfl, char, -⟩
    · exact ⟨'l', source, char ▸ .own⟩
    · exact ⟨'*', source, .power char⟩
    · exact ⟨'|', source, .abs after char rfl⟩
    · exact ⟨'|', source, .closing char⟩
    · exact ⟨'p', source, .pi (pi numeral) (.inl rfl)⟩
    · exact ⟨'π', source, .pi (pi numeral) (.inr rfl)⟩
    · exact ⟨'|', source, .opening char⟩

theorem products_typed {t : Token} (member : t ∈ products gs) (typed : t.implicit = false) :
    ∃ h ∈ gs, t = ⟨if h.char = 'i' then .imaginary else .z, h.column, "", false⟩ := by
  cases gs with
  | nil => cases member
  | cons g gs =>
    simp only [products, List.mem_cons, List.mem_flatMap, List.not_mem_nil, or_false] at member
    obtain rfl | ⟨h, there, rfl | rfl⟩ := member
    · exact ⟨g, List.mem_cons_self, rfl⟩
    · cases typed
    · exact ⟨h, List.mem_cons_of_mem g there, rfl⟩

/-- The letters of a product stand for themselves: no word that is written has them. -/
theorem Sourced.standsFor_unit (sourced : Sourced formula writtenWords gs) {h : Glyph}
    (member : h ∈ gs) (unit : h.char = 'i' ∨ h.char = 'z') :
    ∃ c ∈ sourceChar? formula h.column,
      Token.StandsFor ⟨if h.char = 'i' then .imaginary else .z, h.column, "", false⟩ c := by
  refine ⟨h.char, (sourced.faithful member ?_).sourceChar ?_, .inl ?_⟩
  · rcases unit with char | char <;> rw [char] <;> decide
  · rcases unit with char | char <;> rw [char] <;> decide
  · rcases unit with char | char <;> rw [char] <;> rfl

/-- Each typed token of a lexeme stands for the character of the formula in its column. -/
theorem Lexeme.standsFor (lexeme : Lexeme g rest ts used) (plain : g.raw = false)
    (sourced : Sourced formula writtenWords (g :: rest)) :
    ∀ t ∈ ts, t.implicit = false → ∃ c ∈ sourceChar? formula t.column, t.StandsFor c := by
  obtain ⟨c, source, start⟩ := sourced.start plain
  have noTimes {t : Token} {column : Nat} {gs : List Glyph} (times : t ∈ timesBefore column gs)
      (typed : t.implicit = false) : False := by
    rw [mem_timesBefore times] at typed
    cases typed
  intro t member typed
  cases lexeme with
  | @op op symbol =>
    obtain rfl := List.mem_singleton.mp member
    have chars : op.symbol.toList = [g.char] := by
      rw [← symbol_of_ofSymbol? symbol]
      exact String.toList_singleton g.char
    have listed := char_mem_of_symbol symbol
    refine ⟨c, source, ?_⟩
    cases start with
    | own => exact .inl (by simp [Token.ink, spread, chars])
    | power char =>
      refine .inr (.inl ⟨rfl, ?_, rfl⟩)
      rw [← String.toList_inj, chars, char]
      rfl
    | opening char | closing char | abs _ char => simp [char] at listed
    | pi digit =>
      have mark : g.char ∈ marks := List.mem_append_left [',', '(', ')', '"'] listed
      exact (not_mem_marks (p := isDigit) (by decide) digit mark).elim
  | comma char =>
    obtain rfl := List.mem_singleton.mp member
    refine ⟨c, source, ?_⟩
    cases start with
    | own => exact .inl (by simp [Token.ink, spread, char])
    | power other | opening other | closing other | abs _ other => simp [char] at other
    | pi digit => simp [isDigit, char] at digit
  | parenOpen char =>
    obtain rfl := List.mem_singleton.mp member
    refine ⟨c, source, ?_⟩
    cases start with
    | own => exact .inl (by simp [Token.ink, spread, char])
    | opening => exact .inr (.inr (.inr (.inl ⟨.inl rfl, rfl⟩)))
    | power other | closing other | abs _ other => simp [char] at other
    | pi digit => simp [isDigit, char] at digit
  | parenClose char =>
    obtain rfl | times := List.mem_cons.mp member
    · refine ⟨c, source, ?_⟩
      cases start with
      | own => exact .inl (by simp [Token.ink, spread, char])
      | closing => exact .inr (.inr (.inr (.inl ⟨.inr rfl, rfl⟩)))
      | power other | opening other | abs _ other => simp [char] at other
      | pi digit => simp [isDigit, char] at digit
    · exact (noTimes times typed).elim
  | quoted char =>
    obtain rfl := List.mem_singleton.mp member
    refine ⟨c, source, ?_⟩
    cases start with
    | own => exact .inl (by simp [Token.ink, char])
    | power other | opening other | closing other | abs _ other => simp [char] at other
    | pi digit => simp [isDigit, char] at digit
  | number digit =>
    obtain rfl | times := List.mem_cons.mp member
    · refine ⟨c, source, ?_⟩
      cases start with
      | own => exact .inl (by simp [Token.ink, spread, text])
      | pi _ source => exact .inr (.inr (.inr (.inr ⟨rfl, source⟩)))
      | power other | opening other | closing other | abs _ other => simp [isDigit, other] at digit
    · exact (noTimes times typed).elim
  | products letter units =>
    obtain ⟨h, there, rfl⟩ := products_typed member typed
    have inside : h ∈ g :: rest :=
      List.cons_subset_cons g ( List.takeWhile_prefix isLetter).subset there
    exact sourced.standsFor_unit inside (by simpa using List.all_eq_true.mp units h there)
  | @function fn letter known =>
    obtain rfl := List.mem_singleton.mp member
    have found := List.find?_some known
    have name : fn.name = text (g :: rest.takeWhile isLetter) := eq_of_beq found
    refine ⟨c, source, ?_⟩
    cases start with
    | own => exact .inl (by simp [Token.ink, spread, name, text])
    | abs after char split =>
      refine .inr (.inr (.inl ⟨rfl, ?_, rfl⟩))
      rw [name, split]
      simp [text, char, spread, isLetter]
    | power other | opening other | closing other => simp [isLetter, other] at letter
    | pi digit =>
      rw [not_isDigit_of_isLetter letter] at digit
      cases digit

/-- A character that is a token by itself is a piece by itself. -/
theorem Sourced.tail_of_mark (sourced : Sourced formula writtenWords (g :: rest))
    (mark : g.char ∈ marks) : Sourced formula writtenWords rest := by
  have single : writtenWords.all fun w =>
      w.2.head?.all fun c => !marks.contains c || w.2 == [c] := by
    decide
  obtain ⟨-, tail⟩ | ⟨old, new, after, rule, -, rfl, tail⟩ := sourced.cons_cases (by decide)
  · exact tail
  · obtain rfl : new = [] := by simpa [mark] using List.all_eq_true.mp single _ rule
    exact tail

/-- What a lexeme leaves is in pieces. -/
theorem Lexeme.sourced_rest {spans : Spans} (lexeme : Lexeme g rest ts used)
    (alike : Alike spans (g :: rest) hs) (sourced : Sourced formula writtenWords (g :: rest)) :
    Sourced formula writtenWords (rest.drop used) := by
  have run {p : Glyph → Bool} (first : p g) (same : ∀ c i, p ⟨c, i, false⟩ = p ⟨c, 0, false⟩)
      (closed : ∀ w ∈ writtenWords, w.2.dropWhile (fun c => p ⟨c, 0, false⟩) = [] ∨
        (w.1, w.2.dropWhile fun c => p ⟨c, 0, false⟩) ∈ writtenWords) :
      Sourced formula writtenWords (rest.drop (rest.takeWhile p).length) := by
    have dropped := sourced.dropWhile same closed
    rwa [List.dropWhile_cons, if_pos first, ← drop_takeWhile_length] at dropped
  cases lexeme with
  | op symbol =>
    exact sourced.tail_of_mark (List.mem_append_left [',', '(', ')', '"'] (char_mem_of_symbol symbol))
  | comma char | parenOpen char | parenClose char =>
    exact sourced.tail_of_mark (by simp [char, marks])
  | quoted quote closed =>
    have inner := sourced.tail_of_mark (by simp [quote, marks])
    obtain ⟨code, j, after, -, rfl, raw⟩ := alike.closed_quote quote closed
    have behind := inner.dropWhile (p := Glyph.raw) (q := fun _ => false) (fun _ _ => rfl) (by decide)
    rw [List.dropWhile_append_of_pos raw] at behind
    rw [takeWhile_raw raw, List.drop_length_add_append]
    exact behind.tail_of_mark (g := ⟨'"', j, false⟩) (by simp [marks])
  | number digit => exact run digit (fun _ _ => rfl) (by decide)
  | products letter => exact run letter (fun _ _ => rfl) (by decide)
  | function letter => exact run letter (fun _ _ => rfl) (by decide)

theorem Lexemes.standsFor {spans : Spans} (lexemes : Lexemes gs ts) (alike : Alike spans gs hs)
    (sourced : Sourced formula writtenWords gs) :
    ∀ t ∈ ts, t.implicit = false → ∃ c ∈ sourceChar? formula t.column, t.StandsFor c := by
  induction lexemes generalizing spans hs with
  | nil => nofun
  | cons lexeme _ ih =>
    obtain ⟨plain, -, spans', hs', after⟩ := lexeme.step alike
    intro t member
    rcases List.mem_append.mp member with member | member
    · exact lexeme.standsFor plain sourced t member
    · exact ih after (lexeme.sourced_rest alike sourced) t member

end Glyph

/-- The columns of tokens never go back and lie in the formula. In the column of a typed token the
formula has, up to case, a character that the token stands for. -/
theorem tokens_point_at_source {formula : List Char} {ts : List Token}
    (lexed : tokenize formula = .ok ts) :
    (ts.Pairwise fun t u => t.column ≤ u.column) ∧ (∀ t ∈ ts, t.column < formula.length) ∧
      ∀ t ∈ ts, t.implicit = false → ∃ c ∈ formula[t.column]?, t.StandsFor (Text.lowerCase c) := by
  have lexemes := tokenize_ok lexed
  obtain ⟨spans, -, alike⟩ := alike_condense formula
  have normalized := (alike 0 0).expand
  rw [← normalize_eq_expand] at normalized
  refine ⟨lexemes.inOrder (inOrder_normalize formula), fun t member => ?_, fun t member typed => ?_⟩
  · obtain ⟨g, there, column⟩ := lexemes.column t member
    rw [column]
    exact normalize_column there
  · obtain ⟨c, source, stands⟩ :=
      lexemes.standsFor normalized (sourced_normalize formula) t member typed
    obtain ⟨d, there, rfl⟩ := Option.map_eq_some_iff.mp source
    exact ⟨d, there, stands⟩

/-- The tokens of `|Z| ** Log(PI)z`. -/
def powerOfLog : List Token :=
  [⟨.function, 0, "abs", false⟩, ⟨.parenOpen, 0, "", false⟩, ⟨.z, 1, "", false⟩,
    ⟨.parenClose, 2, "", false⟩, ⟨.op, 4, "^", false⟩, ⟨.function, 7, "ln", false⟩,
    ⟨.parenOpen, 10, "", false⟩, ⟨.number, 11, piNumeral, false⟩, ⟨.parenClose, 13, "", false⟩,
    .times 13, ⟨.z, 14, "", false⟩]

theorem powerOfLog_points_at_source :
    tokenize "|Z| ** Log(PI)z".toList = .ok powerOfLog ∧
      (powerOfLog.Pairwise fun t u => t.column ≤ u.column) ∧
      (∀ t ∈ powerOfLog, t.column < "|Z| ** Log(PI)z".toList.length) ∧
      Token.StandsFor ⟨.number, 11, piNumeral, false⟩ 'p' := by
  have lexed : tokenize "|Z| ** Log(PI)z".toList = .ok powerOfLog := by decide +kernel
  obtain ⟨order, inside, points⟩ := tokens_point_at_source lexed
  obtain ⟨c, source, stands⟩ := points ⟨.number, 11, piNumeral, false⟩ (by simp [powerOfLog]) rfl
  have letter : "|Z| ** Log(PI)z".toList[11]? = some 'P' := by decide +kernel
  obtain rfl : 'P' = c := Option.some.inj (letter.symm.trans source)
  exact ⟨lexed, order, inside, stands⟩

end EscapeTime
