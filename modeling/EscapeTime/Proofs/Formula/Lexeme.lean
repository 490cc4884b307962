import EscapeTime.Formula.Lexeme
import EscapeTime.Proofs.Formula.Tree
import Mathlib.Data.List.TakeWhile

/-!
# Lexemes of a text

What the lexeme at the start of a text can be, and so what the tokens of a whole text are made of:
known operators and functions, numerals, and raw code where there is a quote.
-/

namespace EscapeTime

open Grammar

theorem takeWhile_before {α : Type} {p : α → Bool} {text : List α} (rest : List α)
    (all : ∀ c ∈ text, p c) (stop : ∀ c ∈ rest.head?, p c = false) :
    (text ++ rest).takeWhile p = text ∧ (text ++ rest).dropWhile p = rest := by
  have none : rest.takeWhile p = [] ∧ rest.dropWhile p = rest := by
    cases rest with
    | nil => exact ⟨rfl, rfl⟩
    | cons c rest => simp [stop c rfl]
  rw [List.takeWhile_append_of_pos all, List.dropWhile_append_of_pos all, none.1, none.2,
    List.append_nil]
  exact ⟨rfl, rfl⟩

namespace Glyph

/-- The tokens of the lexeme that `g` starts, and how many of the characters after it they take. -/
inductive Lexeme (g : Glyph) (rest : List Glyph) : List Token → Nat → Prop
  | op {op : Operator} :
    Operator.ofSymbol? (toString g.char) = some op →
      Lexeme g rest [⟨.op, g.column, op.symbol, false⟩] 0
  | comma : g.char = ',' → Lexeme g rest [⟨.comma, g.column, "", false⟩] 0
  | parenOpen : g.char = '(' → Lexeme g rest [⟨.parenOpen, g.column, "", false⟩] 0
  | parenClose :
    g.char = ')' →
      Lexeme g rest (⟨.parenClose, g.column, "", false⟩ :: timesBefore g.column rest) 0
  | quoted :
    g.char = '"' → (rest.takeWhile raw).length ≠ rest.length →
      Lexeme g rest [⟨.rawCode, g.column, text (rest.takeWhile raw), false⟩]
        ((rest.takeWhile raw).length + 1)
  | number :
    g.isDigit → (g :: rest.takeWhile isDigit).map char ≠ ['.'] →
      Lexeme g rest
        (⟨.number, g.column, text (g :: rest.takeWhile isDigit), false⟩ ::
          timesBefore ((g :: rest.takeWhile isDigit).getLastD g).column (rest.dropWhile isDigit))
        (rest.takeWhile isDigit).length
  | products :
    g.isLetter → ((g :: rest.takeWhile isLetter).all fun h => h.char == 'i' || h.char == 'z') →
      Lexeme g rest (products (g :: rest.takeWhile isLetter)) (rest.takeWhile isLetter).length
  | function {fn : Builtin} :
    g.isLetter → Builtin.ofName? (text (g :: rest.takeWhile isLetter)) = some fn →
      Lexeme g rest [⟨.function, g.column, fn.name, false⟩] (rest.takeWhile isLetter).length

theorem lexeme_ok {g : Glyph} {rest : List Glyph} {ts : List Token} {used : Nat}
    (done : lexeme g rest = .ok (ts, used)) : Lexeme g rest ts used := by
  unfold lexeme at done
  dsimp only at done
  split at done
  · rename_i op symbol
    cases done
    exact .op symbol
  · split at done
    · rename_i char
      cases done
      exact .comma char
    · split at done
      · rename_i char
        cases done
        exact .parenOpen char
      · split at done
        · rename_i char
          cases done
          exact .parenClose char
        · split at done
          · rename_i char
            split at done
            · cases done
            · rename_i closed
              cases done
              exact .quoted char closed
          · split at done
            · rename_i digit
              split at done
              · cases done
              · rename_i notPoint
                cases done
                exact .number digit notPoint
            · split at done
              · rename_i letter
                obtain ⟨tokens, read, done⟩ := bind_ok done
                unfold word at read
                split at read
                · rename_i factors
                  cases read
                  cases done
                  exact .products letter factors
                · split at read
                  · rename_i fn known
                    cases read
                    cases done
                    exact .function letter known
                  · cases read
              · cases done

/-- The tokens of a text, lexeme by lexeme. -/
inductive Lexemes : List Glyph → List Token → Prop
  | nil : Lexemes [] []
  | cons {g : Glyph} {rest : List Glyph} {ts us : List Token} {used : Nat} :
    Lexeme g rest ts used → Lexemes (rest.drop used) us → Lexemes (g :: rest) (ts ++ us)

theorem scan_ok {skip : Nat} {gs : List Glyph} {ts : List Token} (done : scan skip gs = .ok ts) :
    Lexemes (gs.drop skip) ts := by
  induction gs generalizing skip ts with
  | nil =>
    cases done
    rw [List.drop_nil]
    exact .nil
  | cons g gs ih =>
    cases skip with
    | succ skip => exact ih done
    | zero =>
      obtain ⟨⟨tokens, used⟩, first, afterFirst⟩ := bind_ok done
      obtain ⟨more, rest, afterRest⟩ := bind_ok afterFirst
      cases afterRest
      exact .cons (lexeme_ok first) (ih rest)

/-! ### Tokens of the language -/

theorem mem_timesBefore {column : Nat} {gs : List Glyph} {t : Token}
    (member : t ∈ timesBefore column gs) : t = .times column := by
  unfold timesBefore at member
  split at member
  · exact List.mem_singleton.mp member
  · cases member

theorem mem_products {gs : List Glyph} {t : Token} (member : t ∈ products gs) :
    t.kind = .imaginary ∨ t.kind = .z ∨ ∃ column, t = .times column := by
  have letter (c : Char) : (if c = 'i' then TokenKind.imaginary else .z) = .imaginary ∨
      (if c = 'i' then TokenKind.imaginary else .z) = .z := by
    split <;> simp
  cases gs with
  | nil => cases member
  | cons g gs =>
    simp only [products, List.mem_cons, List.mem_flatMap, List.not_mem_nil, or_false] at member
    obtain rfl | ⟨h, -, rfl | rfl⟩ := member
    · exact (letter g.char).imp_right .inl
    · exact .inr (.inr ⟨h.column, rfl⟩)
    · exact (letter h.char).imp_right .inl

/-- A known token, and a numeral if it is a number. -/
def Sound (t : Token) : Prop :=
  t.Known ∧ (t.kind = .number → Node.IsNumeral t.text)

theorem times_sound (column : Nat) : Sound (.times column) := by
  have symbol : Operator.ofSymbol? "*" = some .mul := Operator.mul.ofSymbol?_symbol
  exact ⟨⟨fun _ => by simp [Token.times, symbol], nofun, fun _ _ => rfl⟩, nofun⟩

theorem sound_of_kind {t : Token} (op : t.kind ≠ .op) (function : t.kind ≠ .function)
    (number : t.kind ≠ .number) : Sound t :=
  ⟨⟨fun kind => (op kind).elim, fun kind => (function kind).elim, fun kind => (op kind).elim⟩,
    fun kind => (number kind).elim⟩

theorem isNumeral_digits {g : Glyph} {rest : List Glyph} (digit : g.isDigit)
    (notPoint : (g :: rest.takeWhile isDigit).map char ≠ ['.']) :
    Node.IsNumeral (text (g :: rest.takeWhile isDigit)) := by
  refine ⟨⟨by simp [text], fun point => notPoint ?_⟩, ?_⟩
  · rw [← String.toList_inj, text, String.toList_ofList] at point
    exact point
  · intro c member
    simp only [text, String.toList_ofList, List.map_cons, List.mem_cons, List.mem_map] at member
    have isDigit_iff (h : Glyph) (digit : h.isDigit) :
        '0' ≤ h.char ∧ h.char ≤ '9' ∨ h.char = '.' := by
      simpa [Glyph.isDigit] using digit
    obtain rfl | ⟨h, there, rfl⟩ := member
    · exact isDigit_iff g digit
    · exact isDigit_iff h (List.mem_takeWhile_imp there)

theorem Lexeme.sound {g : Glyph} {rest : List Glyph} {ts : List Token} {used : Nat}
    (lexeme : Lexeme g rest ts used) : ∀ t ∈ ts, Sound t := by
  intro t member
  cases lexeme with
  | @op op symbol =>
    obtain rfl := List.mem_singleton.mp member
    exact ⟨⟨fun _ => by simp [op.ofSymbol?_symbol], nofun, nofun⟩, nofun⟩
  | comma | parenOpen | quoted =>
    obtain rfl := List.mem_singleton.mp member
    exact sound_of_kind nofun nofun nofun
  | parenClose =>
    obtain rfl | times := List.mem_cons.mp member
    · exact sound_of_kind nofun nofun nofun
    · rw [mem_timesBefore times]
      exact times_sound _
  | number digit notPoint =>
    obtain rfl | times := List.mem_cons.mp member
    · exact ⟨⟨nofun, nofun, nofun⟩, fun _ => isNumeral_digits digit notPoint⟩
    · rw [mem_timesBefore times]
      exact times_sound _
  | products =>
    obtain kind | kind | ⟨column, rfl⟩ := mem_products member
    · exact sound_of_kind (by simp [kind]) (by simp [kind]) (by simp [kind])
    · exact sound_of_kind (by simp [kind]) (by simp [kind]) (by simp [kind])
    · exact times_sound column
  | @function fn =>
    obtain rfl := List.mem_singleton.mp member
    exact ⟨⟨nofun, fun _ => by simp [fn.ofName?_name], nofun⟩, nofun⟩

theorem Lexemes.sound {gs : List Glyph} {ts : List Token} (lexemes : Lexemes gs ts) :
    ∀ t ∈ ts, Sound t := by
  induction lexemes with
  | nil => nofun
  | cons lexeme _ ih =>
    intro t member
    rcases List.mem_append.mp member with member | member
    · exact lexeme.sound t member
    · exact ih t member

/-! ### Quotes -/

def hasQuote (gs : List Glyph) : Bool :=
  gs.any fun g => g.char = '"'

theorem hasQuote_cons (g : Glyph) (gs : List Glyph) :
    hasQuote (g :: gs) = (decide (g.char = '"') || hasQuote gs) :=
  rfl

theorem hasQuote_append (gs hs : List Glyph) :
    hasQuote (gs ++ hs) = (hasQuote gs || hasQuote hs) :=
  List.any_append

theorem ne_quote_of_isDigit {g : Glyph} (digit : g.isDigit) : g.char ≠ '"' := by
  intro quote
  simp [isDigit, quote] at digit

theorem ne_quote_of_isLetter {g : Glyph} (letter : g.isLetter) : g.char ≠ '"' := by
  intro quote
  simp [isLetter, quote] at letter

/-- Only a quote starts raw code. -/
theorem Lexeme.holdsRaw_eq {g : Glyph} {rest : List Glyph} {ts : List Token} {used : Nat}
    (lexeme : Lexeme g rest ts used) : holdsRaw ts = decide (g.char = '"') := by
  have plain (other : g.char ≠ '"') (kinds : ∀ t ∈ ts, t.kind ≠ .rawCode) :
      holdsRaw ts = decide (g.char = '"') := by
    rw [decide_eq_false other]
    simpa [holdsRaw] using kinds
  have notTimes {column : Nat} {gs : List Glyph} (t : Token) (times : t ∈ timesBefore column gs) :
      t.kind ≠ .rawCode := by
    rw [mem_timesBefore times]
    intro same
    cases same
  cases lexeme with
  | op symbol =>
    have noOperator : Operator.ofSymbol? (toString '"') = none := by decide
    refine plain (fun quote => ?_) (by simp)
    rw [quote, noOperator] at symbol
    cases symbol
  | comma char => exact plain (by simp [char]) (by simp)
  | parenOpen char => exact plain (by simp [char]) (by simp)
  | parenClose char =>
    refine plain (by simp [char]) ?_
    rintro t (_ | ⟨_, times⟩)
    · intro same
      cases same
    · exact notTimes t times
  | quoted char => simp [holdsRaw, char]
  | number digit =>
    refine plain (ne_quote_of_isDigit digit) ?_
    rintro t (_ | ⟨_, times⟩)
    · intro same
      cases same
    · exact notTimes t times
  | products letter =>
    refine plain (ne_quote_of_isLetter letter) fun t member => ?_
    obtain kind | kind | ⟨column, rfl⟩ := mem_products member
    · simp [kind]
    · simp [kind]
    · intro same
      cases same
  | function letter => exact plain (ne_quote_of_isLetter letter) (by simp)

theorem hasQuote_takeWhile {p : Glyph → Bool} (apart : ∀ g, p g → g.char ≠ '"')
    (gs : List Glyph) : hasQuote (gs.takeWhile p) = false := by
  simp only [hasQuote, List.any_eq_false, decide_eq_true_eq]
  exact fun g member => apart g (List.mem_takeWhile_imp member)

theorem take_takeWhile_length (p : Glyph → Bool) (gs : List Glyph) :
    gs.take (gs.takeWhile p).length = gs.takeWhile p :=
  (List.prefix_iff_eq_take.mp ( List.takeWhile_prefix p)).symm

/-- A lexeme other than raw code takes no quote. -/
theorem Lexeme.no_quote_used {g : Glyph} {rest : List Glyph} {ts : List Token} {used : Nat}
    (lexeme : Lexeme g rest ts used) (other : g.char ≠ '"') :
    hasQuote (rest.take used) = false := by
  cases lexeme with
  | op | comma | parenOpen | parenClose => rfl
  | quoted char => exact (other char).elim
  | number =>
    rw [take_takeWhile_length]
    exact hasQuote_takeWhile (fun _ => ne_quote_of_isDigit) rest
  | products | function =>
    rw [take_takeWhile_length]
    exact hasQuote_takeWhile (fun _ => ne_quote_of_isLetter) rest

/-- A text has raw code among its tokens if and only if there is a quote in it. -/
theorem Lexemes.holdsRaw_eq {gs : List Glyph} {ts : List Token} (lexemes : Lexemes gs ts) :
    holdsRaw ts = hasQuote gs := by
  induction lexemes with
  | nil => rfl
  | @cons g rest ts us used lexeme _ ih =>
    have split : hasQuote rest = (hasQuote (rest.take used) || hasQuote (rest.drop used)) := by
      rw [← hasQuote_append, List.take_append_drop]
    rw [holdsRaw_append, lexeme.holdsRaw_eq, ih, hasQuote_cons, split]
    by_cases quote : g.char = '"'
    · simp [quote]
    · rw [lexeme.no_quote_used quote, Bool.false_or]

end Glyph

theorem tokenize_ok {formula : List Char} {ts : List Token} (done : tokenize formula = .ok ts) :
    Glyph.Lexemes (Glyph.normalize formula) ts := by
  unfold tokenize at done
  split at done
  · cases done
  · exact Glyph.scan_ok done

end EscapeTime
