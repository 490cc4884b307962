import EscapeTime.Proofs.Formula.RoundTrip

/-!
# Tokens and the text they spell

Scanning loses, repeats and invents nothing: the typed tokens of a formula spell its normalised
text, character by character. A multiplication that was not typed stands where two factors meet and
nowhere else.
-/

namespace EscapeTime

open Glyph Grammar

/-! ### Where factors meet -/

def unitKinds : List TokenKind :=
  [.z, .imaginary]

def factorKinds : List TokenKind :=
  [.z, .imaginary, .function, .parenOpen]

/-- Tokens of these kinds, one right after the other, are multiplied. -/
def Juxtaposed (a b : TokenKind) : Prop :=
  a ∈ [.number, .parenClose] ∧ b ∈ factorKinds ∨ a ∈ unitKinds ∧ b ∈ unitKinds

/-- Typed tokens with a multiplication between those that are juxtaposed, and between no others. -/
inductive Joined : List Token → Prop
  | nil : Joined []
  | last {t : Token} : t.implicit = false → Joined [t]
  | next {a b : Token} {ts : List Token} :
    a.implicit = false → ¬Juxtaposed a.kind b.kind → Joined (b :: ts) → Joined (a :: b :: ts)
  | times {a b : Token} {ts : List Token} (column : Nat) :
    a.implicit = false → Juxtaposed a.kind b.kind → Joined (b :: ts) →
      Joined (a :: .times column :: b :: ts)

namespace Joined

theorem head {t : Token} {ts : List Token} (joined : Joined (t :: ts)) : t.implicit = false := by
  cases joined with
  | last typed => exact typed
  | next typed => exact typed
  | times _ typed => exact typed

theorem getLast {ts : List Token} (joined : Joined ts) :
    ∀ t ∈ ts.getLast?, t.implicit = false := by
  induction joined with
  | nil => nofun
  | last typed =>
    rintro t ⟨⟩
    exact typed
  | next _ _ _ ih => exact ih
  | times column _ _ _ ih => exact ih

/-- A token that multiplies nothing after it goes before any others. -/
theorem after {a : Token} {ts : List Token} (joined : Joined ts) (typed : a.implicit = false)
    (apart : ∀ b ∈ ts.head?, ¬Juxtaposed a.kind b.kind) : Joined (a :: ts) := by
  cases ts with
  | nil => exact .last typed
  | cons b ts => exact .next typed (apart b rfl) joined

/-- Tokens are joined from each typed one on. -/
theorem suffix {ts before rest : List Token} {a : Token} (joined : Joined ts)
    (split : ts = before ++ a :: rest) (typed : a.implicit = false) : Joined (a :: rest) := by
  induction joined generalizing before with
  | nil => simp at split
  | last first =>
    cases before with
    | nil =>
      cases split
      exact .last first
    | cons x before => simp at split
  | next first apart joined ih =>
    cases before with
    | nil =>
      cases split
      exact .next first apart joined
    | cons x before => exact ih (List.cons.inj split).2
  | times column first meet joined ih =>
    -- The typed token `a` is not the multiplication, so it is the first one or after both.
    rcases before with _ | ⟨x, _ | ⟨y, before⟩⟩
    · cases split
      exact .times column first meet joined
    · cases split
      cases typed
    · exact ih (List.cons.inj (List.cons.inj split).2).2

/-- What stands between two typed tokens that follow each other. -/
theorem between {a b : Token} {middle rest : List Token}
    (joined : Joined (a :: (middle ++ b :: rest))) (typed : b.implicit = false)
    (untyped : ∀ t ∈ middle, t.implicit) :
    Juxtaposed a.kind b.kind ∧ (∃ column, middle = [.times column]) ∨
      ¬Juxtaposed a.kind b.kind ∧ middle = [] := by
  generalize tail : middle ++ b :: rest = ts at joined
  cases joined with
  | last => simp at tail
  | next _ apart joined =>
    cases middle with
    | nil =>
      cases tail
      exact .inr ⟨apart, rfl⟩
    | cons t middle =>
      cases tail
      have first := joined.head
      rw [untyped _ List.mem_cons_self] at first
      cases first
  | times column _ meet joined =>
    rcases middle with _ | ⟨t, _ | ⟨u, middle⟩⟩
    · cases tail
      cases typed
    · cases tail
      exact .inl ⟨meet, column, rfl⟩
    · cases tail
      have first := joined.head
      rw [untyped _ (List.mem_cons_of_mem _ List.mem_cons_self)] at first
      cases first

theorem ink_typed {ts : List Token} (joined : Joined ts) :
    ink (ts.filter fun t => !t.implicit) = ink ts := by
  induction joined with
  | nil => rfl
  | last typed => simp [typed]
  | next typed _ _ ih =>
    rw [List.filter_cons_of_pos (by simp [typed]), ink_cons, ink_cons, ih]
  | times column typed _ _ ih =>
    rw [List.filter_cons_of_pos (by simp [typed]), List.filter_cons_of_neg (by simp [Token.times]),
      ink_cons, ink_cons, ink_cons, ih]
    rfl

end Joined

namespace Glyph

/-! ### The first token of a text -/

/-- What the first character of a text tells of its first token. -/
inductive Starts : List Glyph → List Token → Prop
  | nil : Starts [] []
  | cons {g : Glyph} {gs : List Glyph} {t : Token} {ts : List Token} :
    (startsFactor (g :: gs) ↔ t.kind ∈ factorKinds) → (t.kind ∈ unitKinds → g.isLetter) →
      Starts (g :: gs) (t :: ts)

theorem startsFactor_cons {g : Glyph} (plain : g.raw = false) (gs : List Glyph) :
    startsFactor (g :: gs) ↔ g.isLetter ∨ g.char = '(' := by
  simp [startsFactor, plain]

theorem starts_other {g : Glyph} {gs : List Glyph} {t : Token} (ts : List Token)
    (plain : g.raw = false) (noLetter : g.isLetter = false) (noParen : g.char ≠ '(')
    (kind : t.kind ∉ factorKinds) : Starts (g :: gs) (t :: ts) := by
  refine .cons ?_ fun unit => (kind ?_).elim
  · rw [startsFactor_cons plain]
    simp [noLetter, noParen, kind]
  · exact List.mem_append_left [.function, .parenOpen] unit

theorem starts_letter {g : Glyph} {gs : List Glyph} {t : Token} (ts : List Token)
    (plain : g.raw = false) (letter : g.isLetter) (kind : t.kind ∈ factorKinds) :
    Starts (g :: gs) (t :: ts) := by
  refine .cons ?_ fun _ => letter
  rw [startsFactor_cons plain]
  simp [letter, kind]

theorem char_mem_of_symbol {c : Char} {op : Operator}
    (symbol : Operator.ofSymbol? (toString c) = some op) :
    c ∈ ['+', '-', '*', '/', '%', '^'] := by
  by_contra other
  rw [ofSymbol?_none other] at symbol
  cases symbol

theorem unit_kind (c : Char) : (if c = 'i' then TokenKind.imaginary else .z) ∈ unitKinds := by
  split <;> decide

theorem Lexeme.starts {g : Glyph} {rest : List Glyph} {ts : List Token} {used : Nat}
    (lexeme : Lexeme g rest ts used) (plain : g.raw = false) (us : List Token) :
    Starts (g :: rest) (ts ++ us) := by
  have mark {t : Token} (us : List Token) (member : g.char ∈ marks) (noParen : g.char ≠ '(')
      (kind : t.kind ∉ factorKinds) : Starts (g :: rest) (t :: us) := by
    refine starts_other us plain ?_ noParen kind
    rw [Bool.eq_false_iff]
    exact fun letter => not_mem_marks (p := isLetter) (by decide) letter member
  cases lexeme with
  | op symbol =>
    have listed := char_mem_of_symbol symbol
    refine mark us (List.mem_append_left [',', '(', ')', '"'] listed) ?_ (by simp [factorKinds])
    intro paren
    simp [paren] at listed
  | comma char => exact mark us (by simp [char, marks]) (by simp [char]) (by simp [factorKinds])
  | parenOpen char =>
    refine .cons ?_ (fun unit => by simp [unitKinds] at unit)
    rw [startsFactor_cons plain]
    simp [char, factorKinds]
  | parenClose char => exact mark _ (by simp [char, marks]) (by simp [char]) (by simp [factorKinds])
  | quoted char => exact mark us (by simp [char, marks]) (by simp [char]) (by simp [factorKinds])
  | number digit =>
    refine starts_other _ plain ?_ ?_ (by simp [factorKinds])
    · rw [Bool.eq_false_iff]
      intro letter
      rw [not_isDigit_of_isLetter letter] at digit
      cases digit
    · intro paren
      simp [isDigit, paren] at digit
  | products letter =>
    exact starts_letter _ plain letter (List.mem_append_left [.function, .parenOpen] (unit_kind _))
  | function letter => exact starts_letter _ plain letter (by simp [factorKinds])

/-! ### Multiplications between factors -/

theorem not_unit_of_value {kind : TokenKind} (value : kind ∈ [.number, .parenClose]) :
    kind ∉ unitKinds := by
  rcases List.mem_pair.mp value with rfl | rfl <;> decide

/-- The multiplication after a number or a bracket stands there if a factor follows. -/
theorem Starts.joined_times {a : Token} {gs : List Glyph} {us : List Token}
    (starts : Starts gs us) (joined : Joined us) (typed : a.implicit = false)
    (kind : a.kind ∈ [.number, .parenClose]) (column : Nat) :
    Joined (a :: (timesBefore column gs ++ us)) := by
  cases starts with
  | nil => exact .last typed
  | @cons g gs t ts factor _ =>
    unfold timesBefore
    split
    · rename_i starts
      exact .times column typed (.inl ⟨kind, factor.mp starts⟩) joined
    · rename_i none
      refine .next typed ?_ joined
      rintro (⟨-, follows⟩ | ⟨unit, -⟩)
      · exact none (factor.mpr follows)
      · exact not_unit_of_value kind unit

theorem products_cons (g h : Glyph) (gs : List Glyph) :
    products (g :: h :: gs) =
      ⟨if g.char = 'i' then .imaginary else .z, g.column, "", false⟩ :: .times h.column ::
        products (h :: gs) :=
  rfl

theorem joined_products {us : List Token} (joined : Joined us)
    (stop : ∀ b ∈ us.head?, b.kind ∉ unitKinds) (g : Glyph) (gs : List Glyph) :
    Joined (products (g :: gs) ++ us) := by
  induction gs generalizing g with
  | nil =>
    refine joined.after rfl fun b member => ?_
    rintro (⟨value, -⟩ | ⟨-, unit⟩)
    · exact not_unit_of_value value (unit_kind g.char)
    · exact stop b member unit
  | cons h gs ih =>
    rw [products_cons]
    exact .times h.column rfl (.inr ⟨unit_kind g.char, unit_kind h.char⟩) (ih h)

/-- No letter follows the letters of a word. -/
theorem Starts.no_unit {gs : List Glyph} {us : List Token}
    (starts : Starts (gs.dropWhile isLetter) us) : ∀ b ∈ us.head?, b.kind ∉ unitKinds := by
  have stop := List.head?_dropWhile_not isLetter gs
  generalize gs.dropWhile isLetter = after at starts stop
  cases starts with
  | nil => nofun
  | cons _ letter =>
    rintro b ⟨⟩ unit
    have other : isLetter _ = false := stop
    rw [letter unit] at other
    cases other

theorem Lexeme.joined {g : Glyph} {rest : List Glyph} {ts us : List Token} {used : Nat}
    (lexeme : Lexeme g rest ts used) (starts : Starts (rest.drop used) us) (joined : Joined us) :
    Joined (ts ++ us) := by
  have alone (kind : TokenKind) (text : String)
      (apart : kind ∉ [.number, .parenClose] ∧ kind ∉ unitKinds) :
      Joined ([⟨kind, g.column, text, false⟩] ++ us) :=
    joined.after rfl fun _ _ meet => meet.elim (apart.1 ·.1) (apart.2 ·.1)
  cases lexeme with
  | op => exact alone _ _ (by decide)
  | comma => exact alone _ _ (by decide)
  | parenOpen => exact alone _ _ (by decide)
  | parenClose => exact starts.joined_times joined rfl (by simp) g.column
  | quoted => exact alone _ _ (by decide)
  | number =>
    rw [drop_takeWhile_length] at starts
    exact starts.joined_times joined rfl (by simp) _
  | products =>
    rw [drop_takeWhile_length] at starts
    exact joined_products joined starts.no_unit g _
  | function => exact alone _ _ (by decide)

/-! ### The characters of a lexeme -/

theorem symbol_of_ofSymbol? {s : String} {op : Operator}
    (known : Operator.ofSymbol? s = some op) : s = op.symbol := by
  have found := List.find?_some known
  exact (eq_of_beq found).symm

theorem map_char_spread (word : List Char) (column : Nat) :
    (spread word column).map char = word := by
  rw [spread, List.map_map]
  exact List.map_id word

theorem ink_timesBefore (column : Nat) (gs : List Glyph) : ink (timesBefore column gs) = [] := by
  unfold timesBefore
  split <;> rfl

theorem ink_products {gs : List Glyph}
    (units : gs.all fun g => g.char == 'i' || g.char == 'z') :
    (ink (products gs)).map char = gs.map char := by
  have letter (g : Glyph) (us : List Token) (unit : g.char == 'i' || g.char == 'z') :
      (ink (⟨if g.char = 'i' then .imaginary else .z, g.column, "", false⟩ :: us)).map char =
        g.char :: (ink us).map char := by
    rw [Bool.or_eq_true, beq_iff_eq, beq_iff_eq] at unit
    rcases unit with char | char <;> rw [char] <;> rfl
  cases gs with
  | nil => rfl
  | cons g gs =>
    induction gs generalizing g with
    | nil => exact letter g [] (by simpa using units)
    | cons h gs ih =>
      rw [List.all_cons, Bool.and_eq_true] at units
      rw [products_cons, letter g _ units.1, List.map_cons, ← ih h units.2]
      rfl

/-- A lexeme other than raw code is written with the characters that it takes. -/
theorem Lexeme.map_char_ink {g : Glyph} {rest : List Glyph} {ts : List Token} {used : Nat}
    (lexeme : Lexeme g rest ts used) (other : g.char ≠ '"') :
    (ink ts).map char = (g :: rest.take used).map char := by
  cases lexeme with
  | @op op symbol =>
    have chars : op.symbol.toList = [g.char] := by
      rw [← symbol_of_ofSymbol? symbol]
      exact String.toList_singleton g.char
    simp [ink, Token.ink, map_char_spread, chars]
  | comma char => simp [ink, Token.ink, map_char_spread, char]
  | parenOpen char => simp [ink, Token.ink, map_char_spread, char]
  | parenClose char => simp [ink_cons, ink_timesBefore, Token.ink, map_char_spread, char]
  | quoted char => exact (other char).elim
  | number =>
    rw [take_takeWhile_length]
    simp [ink_cons, ink_timesBefore, Token.ink, map_char_spread, text]
  | products _ units =>
    rw [take_takeWhile_length]
    exact ink_products units
  | @function fn _ known =>
    have found := List.find?_some known
    rw [take_takeWhile_length]
    simp [ink, Token.ink, map_char_spread, eq_of_beq found, text]

theorem Lexeme.of_quote {i : Nat} {rest : List Glyph} {ts : List Token} {used : Nat}
    (lexeme : Lexeme ⟨'"', i, false⟩ rest ts used) :
    (rest.takeWhile raw).length ≠ rest.length ∧
      ts = [⟨.rawCode, i, text (rest.takeWhile raw), false⟩] ∧
      used = (rest.takeWhile raw).length + 1 := by
  cases lexeme with
  | op symbol => simpa using char_mem_of_symbol symbol
  | comma char => simp at char
  | parenOpen char => simp at char
  | parenClose char => simp at char
  | quoted _ closed => exact ⟨closed, rfl, rfl⟩
  | number digit => exact (ne_quote_of_isDigit digit rfl).elim
  | products letter => exact (ne_quote_of_isLetter letter rfl).elim
  | function letter => exact (ne_quote_of_isLetter letter rfl).elim

/-- A lexeme other than raw code ends outside quotes if what follows its first character is. -/
theorem Lexeme.alike_drop {spans : Spans} {g : Glyph} {rest hs : List Glyph} {ts : List Token}
    {used : Nat} (lexeme : Lexeme g rest ts used) (other : g.char ≠ '"')
    (alike : Alike spans rest hs) : ∃ hs', Alike spans (rest.drop used) hs' := by
  cases lexeme with
  | op | comma | parenOpen | parenClose => exact ⟨hs, alike⟩
  | quoted char => exact (other char).elim
  | number | products | function =>
    rw [drop_takeWhile_length]
    exact ⟨_, alike.dropWhile (fun _ _ _ => rfl) (fun _ => rfl)⟩

/-- A lexeme outside quotes takes what its tokens write, and leaves off outside quotes. -/
theorem Lexeme.step {spans : Spans} {g : Glyph} {rest hs : List Glyph} {ts : List Token}
    {used : Nat} (lexeme : Lexeme g rest ts used) (alike : Alike spans (g :: rest) hs) :
    g.raw = false ∧ (ink ts).map char = (g :: rest.take used).map char ∧
      ∃ spans' hs', Alike spans' (rest.drop used) hs' := by
  -- Inside quotes a character could be anything, so the cases are those of the text before the
  -- lexeme and not those of the lexeme.
  cases alike with
  | plain i j other alike =>
    exact ⟨rfl, lexeme.map_char_ink other, spans, lexeme.alike_drop other alike⟩
  | @quoted spans gs hs as bs i j i' j' raw _ alike =>
    obtain ⟨-, rfl, rfl⟩ := lexeme.of_quote
    rw [takeWhile_raw raw]
    refine ⟨rfl, ?_, spans, hs, ?_⟩
    · simp [ink, Token.ink, text, List.take_length_add_append]
    · rwa [List.drop_length_add_append]
  | unclosed i j raw =>
    exact absurd (by rw [List.takeWhile_eq_self_iff.mpr raw]) lexeme.of_quote.1

/-! ### The characters of a text -/

/-- The tokens of a text write its characters, with multiplications where factors meet. -/
structure Written (gs : List Glyph) (ts : List Token) : Prop where
  chars : (ink ts).map char = gs.map char
  starts : Starts gs ts
  joined : Joined ts

theorem Lexemes.written {spans : Spans} {gs hs : List Glyph} {ts : List Token}
    (lexemes : Lexemes gs ts) (alike : Alike spans gs hs) : Written gs ts := by
  induction lexemes generalizing spans hs with
  | nil => exact ⟨rfl, .nil, .nil⟩
  | @cons g rest ts us used lexeme _ ih =>
    obtain ⟨plain, chars, spans', hs', after⟩ := lexeme.step alike
    -- The tokens after the lexeme decide whether its last one is multiplied.
    obtain ⟨charsAfter, starts, joined⟩ := ih after
    refine ⟨?_, lexeme.starts plain us, lexeme.joined starts joined⟩
    rw [ink_append, List.map_append, chars, charsAfter, ← List.map_append, List.cons_append,
      List.take_append_drop]

theorem Lexeme.ink_ne_nil {g : Glyph} {rest : List Glyph} {ts : List Token} {used : Nat}
    (lexeme : Lexeme g rest ts used) : ∀ t ∈ ts, t.implicit = false → t.ink ≠ [] := by
  have notTimes {column : Nat} {gs : List Glyph} (t : Token) (times : t ∈ timesBefore column gs)
      (typed : t.implicit = false) : t.ink ≠ [] := by
    rw [mem_timesBefore times] at typed
    cases typed
  intro t member typed
  cases lexeme with
  | @op op =>
    have symbol : op.symbol.toList ≠ [] := by cases op <;> decide
    obtain rfl := List.mem_singleton.mp member
    simpa [Token.ink, spread] using symbol
  | comma | parenOpen | quoted =>
    obtain rfl := List.mem_singleton.mp member
    simp [Token.ink, spread]
  | parenClose =>
    obtain rfl | times := List.mem_cons.mp member
    · simp [Token.ink, spread]
    · exact notTimes t times typed
  | number =>
    obtain rfl | times := List.mem_cons.mp member
    · simp [Token.ink, spread, text]
    · exact notTimes t times typed
  | products =>
    obtain kind | kind | ⟨column, rfl⟩ := mem_products member
    · simp [Token.ink, kind, spread]
    · simp [Token.ink, kind, spread]
    · cases typed
  | @function fn =>
    obtain rfl := List.mem_singleton.mp member
    simpa [Token.ink, spread] using name_ne_nil fn

theorem Lexemes.ink_ne_nil {gs : List Glyph} {ts : List Token} (lexemes : Lexemes gs ts) :
    ∀ t ∈ ts, t.implicit = false → t.ink ≠ [] := by
  induction lexemes with
  | nil => nofun
  | cons lexeme _ ih =>
    intro t member
    rcases List.mem_append.mp member with member | member
    · exact lexeme.ink_ne_nil t member
    · exact ih t member

end Glyph

theorem tokenize_written {formula : List Char} {ts : List Token}
    (lexed : tokenize formula = .ok ts) : Written (normalize formula) ts := by
  obtain ⟨spans, -, alike⟩ := alike_condense formula
  have normalized := (alike 0 0).expand
  rw [← normalize_eq_expand] at normalized
  exact (tokenize_ok lexed).written normalized

/-- The typed tokens of a formula spell its normalised text, each at least one character of it. Its
functions, operators and numbers are those of the language. Between two typed tokens that follow
each other stands one multiplication that was not typed if they are juxtaposed, and nothing if they
are not. -/
theorem tokens_spell_text {formula : List Char} {ts : List Token}
    (lexed : tokenize formula = .ok ts) :
    text (ink (ts.filter fun t => !t.implicit)) = text (normalize formula) ∧
      (∀ t ∈ ts,
        (t.implicit = false → t.ink ≠ []) ∧
        (t.kind = .function → ∃ fn : Builtin, t.text = fn.name) ∧
        (t.kind = .op → ∃ op : Operator, t.text = op.symbol) ∧
        (t.kind = .number → Node.IsNumeral t.text)) ∧
      (∀ t ∈ ts.head?, t.implicit = false) ∧ (∀ t ∈ ts.getLast?, t.implicit = false) ∧
      ∀ before a middle b after, ts = before ++ a :: (middle ++ b :: after) →
        a.implicit = false → b.implicit = false → (∀ t ∈ middle, t.implicit) →
        Juxtaposed a.kind b.kind ∧ (∃ column, middle = [.times column]) ∨
          ¬Juxtaposed a.kind b.kind ∧ middle = [] := by
  have lexemes := tokenize_ok lexed
  obtain ⟨chars, -, joined⟩ := tokenize_written lexed
  refine ⟨?_, fun t member => ?_, ?_, joined.getLast, ?_⟩
  · rw [joined.ink_typed, text, text, chars]
  · obtain ⟨⟨operator, function, -⟩, number⟩ := lexemes.sound t member
    refine ⟨lexemes.ink_ne_nil t member, fun kind => ?_, fun kind => ?_, number⟩
    · obtain ⟨fn, known⟩ := Option.isSome_iff_exists.mp (function kind)
      exact ⟨fn, name_of_ofName? known⟩
    · obtain ⟨op, known⟩ := Option.isSome_iff_exists.mp (operator kind)
      exact ⟨op, symbol_of_ofSymbol? known⟩
  · intro t first
    obtain ⟨rest, rfl⟩ := List.head?_eq_some_iff.mp first
    exact joined.head
  · intro before a middle b after split left right untyped
    exact (joined.suffix split left).between right untyped

/-- The tokens of `|iz|2z"a B"(zz)Log(π)`. -/
def barredProduct : List Token :=
  [⟨.function, 0, "abs", false⟩, ⟨.parenOpen, 0, "", false⟩, ⟨.imaginary, 1, "", false⟩, .times 2,
    ⟨.z, 2, "", false⟩, ⟨.parenClose, 3, "", false⟩, ⟨.number, 4, "2", false⟩, .times 4,
    ⟨.z, 5, "", false⟩, ⟨.rawCode, 6, "a B", false⟩, ⟨.parenOpen, 11, "", false⟩,
    ⟨.z, 12, "", false⟩, .times 13, ⟨.z, 13, "", false⟩, ⟨.parenClose, 14, "", false⟩, .times 14,
    ⟨.function, 15, "ln", false⟩, ⟨.parenOpen, 18, "", false⟩,
    ⟨.number, 19, piNumeral, false⟩, ⟨.parenClose, 20, "", false⟩]

theorem barredProduct_spelled :
    tokenize "|iz|2z\"a B\"(zz)Log(π)".toList = .ok barredProduct ∧
      text (ink (barredProduct.filter fun t => !t.implicit)) =
        "abs(iz)2z\"a B\"(zz)ln(3.1415926535897932)" ∧
      Juxtaposed .parenClose .function := by
  have lexed : tokenize "|iz|2z\"a B\"(zz)Log(π)".toList = .ok barredProduct := by
    decide +kernel
  obtain ⟨spelled, -, -, -, meet⟩ := tokens_spell_text lexed
  refine ⟨lexed, spelled.trans (by decide +kernel), ?_⟩
  have closed := meet (barredProduct.take 14) ⟨.parenClose, 14, "", false⟩ [.times 14]
    ⟨.function, 15, "ln", false⟩ (barredProduct.drop 17) rfl rfl rfl (by simp [Token.times])
  simpa using closed

end EscapeTime
