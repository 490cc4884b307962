import EscapeTime.Proofs.Formula.Retyping
import EscapeTime.Proofs.Formula.Rewriting
import EscapeTime.Proofs.Formula.Spelling
import EscapeTime.Proofs.Number.Whole

/-!
# Columns of errors

A formula is rejected at a character of its text or right behind it. A formula that comes to its end
too early is rejected behind its last token, counted by the bytes of the token as it was rewritten:
that column lies beyond the text if the token has pi written out in it, or is raw code with
characters of several bytes.
-/

namespace EscapeTime

open Glyph

namespace Glyph

/-! ### Columns of tokens -/

theorem size_empty : "".utf8ByteSize ≤ 1 := by
  decide

theorem size_times (column : Nat) : (Token.times column).text.utf8ByteSize ≤ 1 :=
  (by decide : "*".utf8ByteSize ≤ 1)

/-- The tokens of a product stand where its letters do, and their texts have one byte at most. -/
theorem products_size {gs : List Glyph} {t : Token} (member : t ∈ products gs) :
    t.text.utf8ByteSize ≤ 1 ∧ ∃ g ∈ gs, t.column = g.column := by
  cases gs with
  | nil => cases member
  | cons g gs =>
    simp only [products, List.mem_cons, List.mem_flatMap, List.not_mem_nil, or_false] at member
    obtain rfl | ⟨h, there, rfl | rfl⟩ := member
    · exact ⟨size_empty, g, List.mem_cons_self, rfl⟩
    · exact ⟨size_times h.column, h, List.mem_cons_of_mem g there, rfl⟩
    · exact ⟨size_empty, h, List.mem_cons_of_mem g there, rfl⟩

theorem Lexeme.column {g : Glyph} {rest : List Glyph} {ts : List Token} {used : Nat}
    (lexeme : Lexeme g rest ts used) :
    ∀ t ∈ ts, ∃ h ∈ g :: rest.take used, t.column = h.column := by
  intro t member
  cases lexeme with
  | op | comma | parenOpen | quoted | function =>
    obtain rfl := List.mem_singleton.mp member
    exact ⟨g, List.mem_cons_self, rfl⟩
  | parenClose =>
    obtain rfl | times := List.mem_cons.mp member
    · exact ⟨g, List.mem_cons_self, rfl⟩
    · rw [mem_timesBefore times]
      exact ⟨g, List.mem_cons_self, rfl⟩
  | number =>
    rw [take_takeWhile_length]
    obtain rfl | times := List.mem_cons.mp member
    · exact ⟨g, List.mem_cons_self, rfl⟩
    · rw [mem_timesBefore times, List.getLastD_cons]
      refine ⟨_, ?_, rfl⟩
      rw [List.getLastD_eq_getLast?]
      cases last : (rest.takeWhile isDigit).getLast? with
      | none => exact List.mem_cons_self
      | some h => exact List.mem_cons_of_mem g (List.mem_of_getLast? last)
  | products =>
    rw [take_takeWhile_length]
    exact (products_size member).2

theorem Lexemes.column {gs : List Glyph} {ts : List Token} (lexemes : Lexemes gs ts) :
    ∀ t ∈ ts, ∃ g ∈ gs, t.column = g.column := by
  induction lexemes with
  | nil => nofun
  | @cons g rest ts us used lexeme _ ih =>
    intro t member
    rcases List.mem_append.mp member with member | member
    · obtain ⟨h, there, column⟩ := lexeme.column t member
      exact ⟨h, List.cons_subset_cons g (List.take_subset used rest) there, column⟩
    · obtain ⟨h, there, column⟩ := ih t member
      exact ⟨h, List.mem_cons_of_mem g (List.mem_of_mem_drop there), column⟩

theorem word_error {first : Glyph} {letters : List Glyph} {e : FormulaError}
    (failed : word first letters = .error e) : e.column = first.column := by
  unfold word at failed
  split_ifs at failed
  split at failed
  · cases failed
  · cases failed
    rfl

theorem lexeme_error {g : Glyph} {rest : List Glyph} {e : FormulaError}
    (failed : lexeme g rest = .error e) : e.column = g.column := by
  unfold lexeme at failed
  dsimp only at failed
  split at failed
  · cases failed
  · split_ifs at failed
    · cases failed
      rfl
    · cases failed
      rfl
    · obtain failed | ⟨ts, -, done⟩ := bind_error failed
      · exact word_error failed
      · cases done
    · cases failed
      rfl

theorem scan_error {skip : Nat} {gs : List Glyph} {e : FormulaError}
    (failed : scan skip gs = .error e) : ∃ g ∈ gs, e.column = g.column := by
  induction gs generalizing skip with
  | nil => cases failed
  | cons g gs ih =>
    have later {skip : Nat} (failed : scan skip gs = .error e) :
        ∃ h ∈ g :: gs, e.column = h.column := by
      obtain ⟨h, there, column⟩ := ih failed
      exact ⟨h, List.mem_cons_of_mem g there, column⟩
    cases skip with
    | succ skip => exact later failed
    | zero =>
      obtain failed | ⟨r, -, failed⟩ := bind_error failed
      · exact ⟨g, List.mem_cons_self, lexeme_error failed⟩
      · obtain failed | ⟨us, -, done⟩ := bind_error failed
        · exact later failed
        · cases done

/-! ### The last token -/

/-- The text from `g` to its end is one token. -/
inductive Final : (g : Glyph) → (rest : List Glyph) → Token → Prop
  | number {g : Glyph} {rest : List Glyph} :
    (∀ h ∈ g :: rest, h.isDigit) → Final g rest ⟨.number, g.column, text (g :: rest), false⟩
  | function {g : Glyph} {rest : List Glyph} :
    (∀ h ∈ g :: rest, h.isLetter) → Final g rest ⟨.function, g.column, text (g :: rest), false⟩
  | quoted {code : List Glyph} (i j : Nat) :
    (∀ h ∈ code, h.raw) →
      Final ⟨'"', i, false⟩ (code ++ [⟨'"', j, false⟩]) ⟨.rawCode, i, text code, false⟩

theorem Alike.closed_quote {spans : Spans} {g : Glyph} {rest hs : List Glyph}
    (alike : Alike spans (g :: rest) hs) (quote : g.char = '"')
    (closed : (rest.takeWhile raw).length ≠ rest.length) :
    ∃ code j after, g.raw = false ∧ rest = code ++ ⟨'"', j, false⟩ :: after ∧ ∀ h ∈ code, h.raw := by
  cases alike with
  | plain i j other => exact (other quote).elim
  | quoted i j i' j' raw => exact ⟨_, i', _, rfl, rfl, raw⟩
  | unclosed i j raw => exact (closed (by rw [List.takeWhile_eq_self_iff.mpr raw])).elim

/-- The last of the tokens of a lexeme that ends the text. -/
theorem Lexeme.final {spans : Spans} {g : Glyph} {rest hs : List Glyph} {ts : List Token}
    {used : Nat} (lexeme : Lexeme g rest ts used) (alike : Alike spans (g :: rest) hs)
    (ends : rest.drop used = []) {t : Token} (last : t ∈ ts.getLast?) :
    t.text.utf8ByteSize ≤ 1 ∨ Final g rest t := by
  have symbolSize (op : Operator) : op.symbol.utf8ByteSize ≤ 1 := by cases op <;> decide
  have timesSize {column : Nat} {gs : List Glyph} (times : t ∈ timesBefore column gs) :
      t.text.utf8ByteSize ≤ 1 := by
    rw [mem_timesBefore times]
    exact size_times column
  have whole (p : Glyph → Bool) (ends : rest.drop (rest.takeWhile p).length = []) :
      rest.takeWhile p = rest ∧ ∀ h ∈ rest, p h := by
    rw [drop_takeWhile_length, List.dropWhile_eq_nil_iff] at ends
    exact ⟨List.takeWhile_eq_self_iff.mpr ends, ends⟩
  have member := List.mem_of_getLast? last
  cases lexeme with
  | op =>
    obtain rfl := List.mem_singleton.mp member
    exact .inl (symbolSize _)
  | comma | parenOpen =>
    obtain rfl := List.mem_singleton.mp member
    exact .inl size_empty
  | parenClose =>
    obtain rfl | times := List.mem_cons.mp member
    · exact .inl size_empty
    · exact .inl (timesSize times)
  | quoted quote closed =>
    obtain ⟨c, i, r⟩ := g
    obtain ⟨code, j, after, plain, rfl, raw⟩ := alike.closed_quote quote closed
    obtain rfl : c = '"' := quote
    obtain rfl : r = false := plain
    rw [takeWhile_raw raw, List.drop_length_add_append] at ends
    obtain rfl : after = [] := ends
    obtain rfl := List.mem_singleton.mp member
    rw [takeWhile_raw raw]
    exact .inr (.quoted i j raw)
  | number digit =>
    obtain ⟨same, digits⟩ := whole isDigit ends
    obtain rfl | times := List.mem_cons.mp member
    · rw [same]
      exact .inr (.number (List.forall_mem_cons.mpr ⟨digit, digits⟩))
    · exact .inl (timesSize times)
  | products =>
    exact .inl (products_size member).1
  | @function fn letter known =>
    obtain ⟨same, letters⟩ := whole isLetter ends
    obtain rfl := List.mem_singleton.mp member
    have found := List.find?_some known
    rw [eq_of_beq found, same]
    exact .inr (.function (List.forall_mem_cons.mpr ⟨letter, letters⟩))

/-- A lexeme takes all of a number. -/
theorem Lexeme.apart {spans : Spans} {g : Glyph} {rest hs : List Glyph} {ts : List Token}
    {used : Nat} (lexeme : Lexeme g rest ts used) (alike : Alike spans (g :: rest) hs) :
    Apart (g :: rest.take used) (rest.drop used) := by
  have noDigit {x : Glyph} (mark : x.char ∈ marks) : x.isDigit = false := by
    rw [Bool.eq_false_iff]
    exact fun digit => not_mem_marks (p := isDigit) (by decide) digit mark
  intro x last y first digit
  have letters (p : Glyph → Bool) (taken : x ∈ (g :: rest.take (rest.takeWhile p).length).getLast?) :
      x = g ∨ p x := by
    rw [take_takeWhile_length] at taken
    exact (List.mem_cons.mp (List.mem_of_getLast? taken)).imp_right List.mem_takeWhile_imp
  cases lexeme with
  | op symbol =>
    obtain rfl : g = x := Option.some.inj last
    rw [noDigit (List.mem_append_left [',', '(', ')', '"'] (char_mem_of_symbol symbol))] at digit
    cases digit
  | comma char | parenOpen char | parenClose char =>
    obtain rfl : g = x := Option.some.inj last
    rw [noDigit (by simp [char, marks])] at digit
    cases digit
  | quoted quote closed =>
    obtain ⟨code, j, after, -, rfl, raw⟩ := alike.closed_quote quote closed
    rw [takeWhile_raw raw, List.take_length_add_append, ← List.cons_append,
      List.getLast?_append] at last
    obtain rfl : ⟨'"', j, false⟩ = x := Option.some.inj last
    cases digit
  | number =>
    rw [drop_takeWhile_length] at first
    have stop := List.head?_dropWhile_not isDigit rest
    rw [first] at stop
    simpa using stop
  | products letter | function letter =>
    rcases letters isLetter last with rfl | letter
    · rw [not_isDigit_of_isLetter letter] at digit
      cases digit
    · rw [not_isDigit_of_isLetter letter] at digit
      cases digit

/-- The last token of a text is short, or the text ends with what it was read from. -/
theorem Lexemes.final {spans : Spans} {gs hs : List Glyph} {ts : List Token}
    (lexemes : Lexemes gs ts) (alike : Alike spans gs hs) {t : Token} (last : t ∈ ts.getLast?) :
    t.text.utf8ByteSize ≤ 1 ∨
      ∃ b g rest, gs = b ++ g :: rest ∧ Apart b (g :: rest) ∧ Final g rest t := by
  induction lexemes generalizing spans hs with
  | nil => cases last
  | @cons g rest ts us used lexeme more ih =>
    obtain ⟨-, -, spans', hs', after⟩ := lexeme.step alike
    rw [Option.mem_def, List.getLast?_append] at last
    cases lastMore : us.getLast? with
    | none =>
      -- Each lexeme gives a token, so that without further tokens the text is at its end.
      obtain rfl := List.getLast?_eq_none_iff.mp lastMore
      have ends : rest.drop used = [] := by
        generalize rest.drop used = remaining at more after
        cases (more.written after).starts
        rfl
      refine (lexeme.final alike ends last).imp_right fun final => ⟨[], g, rest, rfl, ?_, final⟩
      nofun
    | some u =>
      obtain rfl : u = t := by simpa [lastMore] using last
      refine (ih after lastMore).imp_right ?_
      rintro ⟨b, g', rest', split, apart, final⟩
      refine ⟨g :: (rest.take used ++ b), g', rest', ?_, ?_, final⟩
      · rw [List.cons_append, List.append_assoc, ← split, List.take_append_drop]
      · intro x lastBefore y first digit
        rw [← List.cons_append, List.getLast?_append] at lastBefore
        cases b with
        | nil =>
          have boundary := lexeme.apart alike
          rw [split] at boundary
          exact boundary x lastBefore y first digit
        | cons z b => exact apart x (by simpa using lastBefore) y first digit

/-! ### Room for the last token -/

theorem ascii_of_isDigit {g : Glyph} (digit : g.isDigit) : g.char.utf8Size ≤ 1 := by
  rw [(Char.utf8Size_eq_one_iff).mpr]
  simp only [isDigit, Bool.or_eq_true, Bool.and_eq_true, decide_eq_true_eq, beq_iff_eq] at digit
  obtain ⟨-, high⟩ | point := digit
  · exact UInt32.le_trans high (by decide)
  · rw [point]
    decide

theorem ascii_of_isLetter {g : Glyph} (letter : g.isLetter) : g.char.utf8Size ≤ 1 := by
  rw [(Char.utf8Size_eq_one_iff).mpr]
  simp only [isLetter, Bool.and_eq_true, decide_eq_true_eq] at letter
  exact UInt32.le_trans letter.2 (by decide)

theorem toList_text (gs : List Glyph) : (text gs).toList = gs.map char :=
  String.toList_ofList

theorem size_text {gs : List Glyph} (ascii : ∀ g ∈ gs, g.char.utf8Size ≤ 1) :
    (text gs).utf8ByteSize ≤ gs.length := by
  unfold text
  induction gs with
  | nil => exact Nat.le_refl 0
  | cons g gs ih =>
    obtain ⟨first, others⟩ := List.forall_mem_cons.mp ascii
    rw [List.map_cons, String.ofList_cons, String.utf8ByteSize_append,
      String.utf8ByteSize_singleton, List.length_cons]
    have rest := ih others
    omega

theorem three_mem {gs : List Glyph} {column : Nat}
    (there : spread piNumeral.toList column <:+: gs) : ⟨'3', column, false⟩ ∈ gs :=
  there.subset (mem_spread.mpr ⟨'3', by decide, rfl⟩)

end Glyph

/-- Whether the bytes of a token can be more than the characters that it was read from. -/
def Token.Oversized (t : Token) : Prop :=
  t.kind = .number ∧ piNumeral.toList <:+: t.text.toList ∨
    t.kind = .rawCode ∧ ∃ c ∈ t.text.toList, 1 < c.utf8Size

theorem tokenize_column {formula : List Char} {ts : List Token} (lexed : tokenize formula = .ok ts)
    {t : Token} (member : t ∈ ts) : t.column < formula.length := by
  obtain ⟨g, there, column⟩ := (tokenize_ok lexed).column t member
  rw [column]
  exact normalize_column there

/-- The last token ends within the formula if it is not oversized. -/
theorem last_room {formula : List Char} {ts : List Token} (lexed : tokenize formula = .ok ts)
    {t : Token} (last : t ∈ ts.getLast?) :
    t.Oversized ∨ t.column + max 1 t.text.utf8ByteSize ≤ formula.length := by
  have column := tokenize_column lexed (List.mem_of_getLast? last)
  obtain ⟨spans, -, alike⟩ := alike_condense formula
  have normalized := (alike 0 0).expand
  rw [← normalize_eq_expand] at normalized
  obtain short | ⟨b, g, rest, split, apart, final⟩ := (tokenize_ok lexed).final normalized last
  · right
    omega
  have within (size : t.text.utf8ByteSize ≤ rest.length + 1) (here : g.column = t.column)
      (room : g.column + (rest.length + 1) ≤ formula.length) :
      t.column + max 1 t.text.utf8ByteSize ≤ formula.length := by
    omega
  cases final with
  | number digits =>
    have noParen (column : Nat) : ⟨'(', column, false⟩ ∉ g :: rest := by
      intro member
      cases digits _ member
    refine (normalize_room split apart noParen).imp ?_ (within ?_ rfl)
    · rintro ⟨column, there⟩
      refine .inl ⟨rfl, ?_⟩
      have chars := there.map char
      rw [map_char_spread] at chars
      rwa [toList_text]
    · exact size_text fun h member => ascii_of_isDigit (digits h member)
  | function letters =>
    have noParen (column : Nat) : ⟨'(', column, false⟩ ∉ g :: rest := by
      intro member
      cases letters _ member
    obtain ⟨column, there⟩ | room := normalize_room split apart noParen
    · cases letters _ (three_mem there)
    · refine .inr (within ?_ rfl room)
      exact size_text fun h member => ascii_of_isLetter (letters h member)
  | @quoted code i j raw =>
    -- Nothing is written out in a quote: its characters are raw, and those of a word are not.
    have plain (c : Char) (column : Nat) (other : c ≠ '"') :
        ⟨c, column, false⟩ ∉ ⟨'"', i, false⟩ :: (code ++ [⟨'"', j, false⟩]) := by
      intro member
      simp only [List.mem_cons, List.mem_append, Glyph.mk.injEq, other, false_and, false_or,
        List.not_mem_nil, or_false] at member
      cases raw _ member
    obtain ⟨column, there⟩ | room :=
      normalize_room split apart fun column => plain '(' column (by decide)
    · exact (plain '3' column (by decide) (three_mem there)).elim
    · by_cases ascii : ∀ h ∈ code, h.char.utf8Size ≤ 1
      · refine .inr (within (Nat.le_trans (size_text ascii) ?_) rfl room)
        rw [List.length_append]
        omega
      · simp only [not_forall, Nat.not_le] at ascii
        obtain ⟨h, member, large⟩ := ascii
        refine .inl (.inr ⟨rfl, h.char, ?_, large⟩)
        rw [toList_text]
        exact List.mem_map_of_mem member

/-! ### Rejected formulas -/

/-- The end of a formula lies in its text or right behind it, unless its last token is oversized. -/
theorem endColumn_room {formula : List Char} {ts : List Token} (lexed : tokenize formula = .ok ts)
    (countable : formula.length < Nat.pow 2 63) :
    0 ≤ Parse.endColumn ts ∧ Parse.endColumn ts ≤ formula.length ∨
      ∃ last, ts.getLast? = some last ∧
        Parse.endColumn ts = Number.word (last.column + last.text.utf8ByteSize) ∧
        last.column < formula.length ∧ formula.length < last.column + last.text.utf8ByteSize ∧
        last.Oversized := by
  unfold Parse.endColumn
  cases last : ts.getLast? with
  | none => exact .inl ⟨Int.le_refl 0, Int.natCast_nonneg _⟩
  | some t =>
    dsimp only
    by_cases within : t.column + max 1 t.text.utf8ByteSize ≤ formula.length
    · left
      rw [word_eq (by omega) (by omega)]
      omega
    · have column := tokenize_column lexed (List.mem_of_getLast? last)
      have larger : max 1 t.text.utf8ByteSize = t.text.utf8ByteSize := by omega
      rw [larger] at within ⊢
      exact .inr ⟨t, rfl, rfl, column, Nat.not_le.mp within,
        (last_room lexed last).resolve_right (by rwa [larger])⟩

theorem tokenize_error {formula : List Char} {e : FormulaError}
    (failed : tokenize formula = .error e) : 0 ≤ e.column ∧ e.column ≤ formula.length := by
  unfold tokenize at failed
  split at failed
  · cases failed
    exact ⟨Int.le_refl 0, Int.natCast_nonneg _⟩
  · obtain ⟨g, there, column⟩ := scan_error failed
    have within := normalize_column there
    omega

theorem Formula.parse_rejected {source : String} {e : FormulaError}
    (failed : parse source = .error (.rejected e)) :
    tokenize source.toList = .error e ∨ ∃ tokens, tokenize source.toList = .ok tokens ∧
      (Parse.formula tokens = .error (.rejected e) ∨
        ∃ tree n, Parse.formula tokens = .ok tree ∧ tree.fix = (n, some (.rejected e))) := by
  obtain failed | ⟨tokens, lexed, failed⟩ := bind_error failed
  · obtain ⟨e', failed, ⟨⟩⟩ := mapError_error failed
    exact .inl failed
  · refine .inr ⟨tokens, mapError_ok lexed, ?_⟩
    obtain failed | ⟨tree, parsed, failed⟩ := bind_error failed
    · exact .inl failed
    · obtain failed | ⟨root, -, done⟩ := bind_error failed
      · unfold Node.typed at failed
        split at failed
        · cases failed
        · rename_i n _ fixed
          cases failed
          exact .inr ⟨tree, n, parsed, fixed⟩
      · cases done

/-- A formula is rejected at a column of its text or right behind it, whatever the stage. The one
exception is a formula that comes to its end too early behind an oversized token: then the column
is that of the token and its bytes. -/
theorem rejected_column {source : String} {failure : Failure}
    (failed : Formula.parse source = .error failure) (countable : source.length < Nat.pow 2 63) :
    ∃ e, failure = .rejected e ∧
      (0 ≤ e.column ∧ e.column ≤ source.length ∨
        ∃ tokens last kinds, tokenize source.toList = .ok tokens ∧ tokens.getLast? = some last ∧
          e = ⟨.parsing, Number.word (last.column + last.text.utf8ByteSize), .endOfFormula kinds⟩ ∧
          last.column < source.length ∧ source.length < last.column + last.text.utf8ByteSize ∧
          last.Oversized) := by
  obtain ⟨e, rfl⟩ := Formula.parse_error failed
  refine ⟨e, rfl, ?_⟩
  rw [← String.length_toList] at countable ⊢
  obtain failed | ⟨tokens, lexed, failed⟩ := Formula.parse_rejected failed
  · exact .inl (tokenize_error failed)
  have atToken {t : Token} (member : t ∈ tokens) (column : e.column = t.column) :
      0 ≤ e.column ∧ e.column ≤ source.toList.length := by
    have within := tokenize_column lexed member
    omega
  -- The parser blames a token or the end of the formula, and typing blames a node, which stands at
  -- a token.
  obtain failed | ⟨tree, n, parsed, failed⟩ := failed
  · have outcome := Parse.formula_blames tokens
    rw [failed] at outcome
    obtain ⟨stage, located⟩ := outcome
    obtain ⟨⟨t, member, column⟩, -⟩ | ⟨column, kinds, cause⟩ := located e rfl
    · exact .inl (atToken member column)
    · rw [column]
      refine (endColumn_room lexed countable).imp_right ?_
      rintro ⟨last, isLast, endColumn, starts, ends, oversized⟩
      refine ⟨tokens, last, kinds, lexed, isLast, ?_, starts, ends, oversized⟩
      rw [← endColumn, ← column, ← cause, ← show e.stage = .parsing from stage]
  · obtain ⟨-, -, m, there, column⟩ := Node.fix_failed failed
    obtain ⟨t, member, same⟩ := (Parse.formula_made parsed).column m there
    exact .inl (atToken member (column.trans same))

theorem parse_unclosed {source : String} {t : Token} {i : Nat}
    (lexed : tokenize source.toList = .ok [⟨.parenOpen, i, "", false⟩, t])
    (value : t.kind = .number ∨ t.kind = .rawCode) :
    Formula.parse source = .error (.rejected
      ⟨.parsing, Parse.endColumn [⟨.parenOpen, i, "", false⟩, t], .endOfFormula [.parenClose]⟩) := by
  obtain ⟨kind, column, text, implicit⟩ := t
  unfold Formula.parse
  rw [lexed]
  rcases value with rfl | rfl <;> rfl

/-- A formula of six characters is rejected at column seven. -/
theorem quoted_end_column :
    Formula.parse "(\"ééé\"" =
        .error (.rejected ⟨.parsing, 7, .endOfFormula [.parenClose]⟩) ∧
      ∃ tokens last, tokenize "(\"ééé\"".toList = .ok tokens ∧ tokens.getLast? = some last ∧
        last.Oversized := by
  have lexed : tokenize "(\"ééé\"".toList =
      .ok [⟨.parenOpen, 0, "", false⟩, ⟨.rawCode, 1, "ééé", false⟩] := by
    decide +kernel
  have failed := parse_unclosed lexed (.inr rfl)
  rw [show Parse.endColumn _ = 7 by decide +kernel] at failed
  obtain ⟨e, ⟨⟩, ⟨-, high⟩ | ⟨tokens, last, kinds, lexed, isLast, -, -, -, oversized⟩⟩ :=
    rejected_column failed (by decide)
  · exact absurd high (by decide)
  · exact ⟨failed, tokens, last, lexed, isLast, oversized⟩

/-- A formula of three characters is rejected at column nineteen. -/
theorem pi_end_column :
    Formula.parse "(pi" = .error (.rejected ⟨.parsing, 19, .endOfFormula [.parenClose]⟩) ∧
      ¬(19 : Int) ≤ "(pi".length := by
  have lexed : tokenize "(pi".toList =
      .ok [⟨.parenOpen, 0, "", false⟩, ⟨.number, 1, piNumeral, false⟩] := by
    decide +kernel
  have failed := parse_unclosed lexed (.inl rfl)
  rw [show Parse.endColumn _ = 19 by decide +kernel] at failed
  exact ⟨failed, by decide⟩

end EscapeTime
