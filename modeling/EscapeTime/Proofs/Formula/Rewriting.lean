import EscapeTime.Proofs.Formula.Alike

/-!
# Rewritten texts and their columns

Each pass of normalisation keeps a character, or writes a word in the column of the first of the
characters that it replaces. So every column of the normalised text is one of the formula. What
stands from a character to the end of the text fits into the formula from its column on, unless a
pass has written out a longer word there.
-/

namespace EscapeTime.Glyph

/-- A text rewritten from the left: a character stays, or the characters of an old word become those
of a new one. -/
inductive Rewritten (rules : List (List Char × List Char)) : List Glyph → List Glyph → Prop
  | nil : Rewritten rules [] []
  | keep {gs hs : List Glyph} (g : Glyph) :
    Rewritten rules gs hs → Rewritten rules (g :: gs) (g :: hs)
  | word {g : Glyph} {run gs hs : List Glyph} {new : List Char} :
    ((g :: run).map char, new) ∈ rules → Rewritten rules gs hs →
      Rewritten rules (g :: (run ++ gs)) (spread new g.column ++ hs)

/-! ### The passes -/

theorem Rewritten.refl (rules : List (List Char × List Char)) (gs : List Glyph) :
    Rewritten rules gs gs := by
  induction gs with
  | nil => exact .nil
  | cons g gs ih => exact .keep g ih

theorem map_char_take {word : List Char} {gs : List Glyph} (starts : startsWith word gs) :
    (gs.take word.length).map char = word := by
  induction word generalizing gs with
  | nil => rfl
  | cons c word ih =>
    cases gs with
    | nil => cases starts
    | cons g gs =>
      simp only [startsWith, Bool.and_eq_true, beq_iff_eq] at starts
      rw [List.length_cons, List.take_succ_cons, List.map_cons, starts.1.2, ih starts.2]

theorem rewritten_substitute {old : List Char} (nonempty : old ≠ []) (new : List Char)
    (gs : List Glyph) : Rewritten [(old, new)] gs (substitute old new 0 gs) := by
  -- By strong induction on the length, since a word that is replaced is left behind at once.
  induction size : gs.length using Nat.strong_induction_on generalizing gs with
  | _ n ih =>
    cases gs with
    | nil => exact .nil
    | cons g gs =>
      rw [substitute]
      split
      · rename_i starts
        obtain ⟨c, old, rfl⟩ := List.exists_cons_of_ne_nil nonempty
        have taken : (g :: gs.take old.length).map char = c :: old := map_char_take starts
        have shorter : (gs.drop old.length).length < n := by
          rw [← size, List.length_drop, List.length_cons]
          omega
        have rest := ih _ shorter (gs.drop old.length) rfl
        have rewritten := Rewritten.word (by rw [taken]; exact List.mem_singleton_self _) rest
        rw [List.take_append_drop] at rewritten
        rw [substitute_skip]
        exact rewritten
      · exact .keep g (ih gs.length (by simp [← size]) gs rfl)

/-- What becomes of a bar. -/
def barRules : List (List Char × List Char) :=
  [(['|'], "abs(".toList), (['|'], [')'])]

theorem rewritten_pairBars (paired : Nat) (gs : List Glyph) :
    Rewritten barRules gs (pairBars paired gs) := by
  induction gs generalizing paired with
  | nil =>
    rw [pairBars]
    exact .nil
  | cons g gs ih =>
    cases paired with
    | zero => exact .refl _ _
    | succ paired =>
      rw [pairBars]
      split
      · rename_i bar
        simp only [isBar, Bool.and_eq_true, beq_iff_eq] at bar
        have rule : ([g].map char, if paired % 2 = 1 then "abs(".toList else [')']) ∈ barRules := by
          rw [List.map_singleton, bar.2]
          split <;> simp [barRules]
        have rewritten := Rewritten.word rule (ih paired)
        exact rewritten
      · exact .keep g (ih (paired + 1))

theorem rewritten_normalize (formula : List Char) :
    ∃ logs powers bars pis,
      Rewritten [("log".toList, "ln".toList)] (spell false 0 formula) logs ∧
      Rewritten [("**".toList, "^".toList)] logs powers ∧
      Rewritten barRules powers bars ∧
      Rewritten [("pi".toList, piNumeral.toList)] bars pis ∧
      Rewritten [("π".toList, piNumeral.toList)] pis (normalize formula) :=
  ⟨_, _, _, _, rewritten_substitute (by decide) _ _, rewritten_substitute (by decide) _ _,
    rewritten_pairBars _ _, rewritten_substitute (by decide) _ _,
    rewritten_substitute (by decide) _ _⟩

/-! ### Columns -/

section

variable {rules : List (List Char × List Char)} {gs hs b s : List Glyph}

theorem mem_spread {word : List Char} {column : Nat} {g : Glyph} :
    g ∈ spread word column ↔ ∃ c ∈ word, ⟨c, column, false⟩ = g :=
  List.mem_map

theorem Rewritten.column (rewritten : Rewritten rules gs hs) :
    ∀ h ∈ hs, ∃ g ∈ gs, h.column = g.column := by
  induction rewritten with
  | nil => nofun
  | keep g _ ih =>
    intro h member
    rcases List.mem_cons.mp member with rfl | member
    · exact ⟨h, List.mem_cons_self, rfl⟩
    · obtain ⟨x, there, same⟩ := ih h member
      exact ⟨x, List.mem_cons_of_mem g there, same⟩
  | @word g run gs hs new _ _ ih =>
    intro h member
    rcases List.mem_append.mp member with member | member
    · obtain ⟨c, -, rfl⟩ := mem_spread.mp member
      exact ⟨g, List.mem_cons_self, rfl⟩
    · obtain ⟨x, there, same⟩ := ih h member
      exact ⟨x, List.mem_cons_of_mem g (List.mem_append_right run there), same⟩

/-! ### Texts in two parts -/

/-- The text `b ++ s` is parted inside a new word, and `s₀` starts with the old one. -/
inductive Breaks (rules : List (List Char × List Char)) :
    (s₀ b s : List Glyph) → Prop
  | inside {g : Glyph} {run gs hs : List Glyph} {left right : List Char} (before : List Glyph) :
    ((g :: run).map char, left ++ right) ∈ rules → left ≠ [] → right ≠ [] →
      Rewritten rules gs hs →
      Breaks rules (g :: (run ++ gs)) (before ++ spread left g.column)
        (spread right g.column ++ hs)

theorem Breaks.append_left {s₀ : List Glyph} (breaks : Breaks rules s₀ b s) (gs : List Glyph) :
    Breaks rules s₀ (gs ++ b) s := by
  obtain ⟨before, rule, noLeft, noRight, rewritten⟩ := breaks
  rw [← List.append_assoc]
  exact .inside (gs ++ before) rule noLeft noRight rewritten

/-- The parts of a rewritten text are parts that were rewritten. -/
theorem Rewritten.split (rewritten : Rewritten rules gs (b ++ s)) :
    ∃ b₀ s₀, gs = b₀ ++ s₀ ∧
      (Rewritten rules b₀ b ∧ Rewritten rules s₀ s ∨ Breaks rules s₀ b s) := by
  generalize whole : b ++ s = hs at rewritten
  induction rewritten generalizing b with
  | nil =>
    obtain ⟨rfl, rfl⟩ := List.append_eq_nil_iff.mp whole
    exact ⟨[], [], rfl, .inl ⟨.nil, .nil⟩⟩
  | @keep gs hs g rest ih =>
    cases b with
    | nil =>
      obtain rfl : s = g :: hs := whole
      exact ⟨[], g :: gs, rfl, .inl ⟨.nil, .keep g rest⟩⟩
    | cons x b =>
      obtain ⟨rfl, tail⟩ := List.cons.inj whole
      obtain ⟨b₀, s₀, rfl, parts | breaks⟩ := ih tail
      · exact ⟨x :: b₀, s₀, rfl, .inl ⟨.keep x parts.1, parts.2⟩⟩
      · exact ⟨x :: b₀, s₀, rfl, .inr (breaks.append_left [x])⟩
  | @word g run gs hs new rule rest ih =>
    -- The text is parted at the start of the new word, inside it, at its end, or further on.
    rcases List.append_eq_append_iff.mp whole with ⟨right, word, rfl⟩ | ⟨before, rfl, tail⟩
    · obtain ⟨left, right, rfl, rfl, rfl⟩ := List.map_eq_append_iff.mp word
      by_cases noLeft : left = []
      · subst noLeft
        exact ⟨[], _, rfl, .inl ⟨.nil, .word rule rest⟩⟩
      · by_cases noRight : right = []
        · subst noRight
          have first := Rewritten.word rule (.nil : Rewritten rules [] [])
          simp only [List.append_nil] at first
          exact ⟨g :: run, gs, rfl, .inl ⟨first, rest⟩⟩
        · exact ⟨[], _, rfl, .inr (.inside [] rule noLeft noRight rest)⟩
    · obtain ⟨b₀, s₀, rfl, parts | breaks⟩ := ih tail.symm
      · refine ⟨g :: (run ++ b₀), s₀, by simp, .inl ⟨.word rule parts.1, parts.2⟩⟩
      · exact ⟨g :: (run ++ b₀), s₀, by simp, .inr (breaks.append_left _)⟩

/-! ### The end of a text -/

/-- Each new word is at most as long as the old one, or else its last character is not in the
text. -/
def Fits (rules : List (List Char × List Char)) (s : List Glyph) : Prop :=
  ∀ r ∈ rules, r.2.length ≤ r.1.length ∨ ∃ c ∈ r.2.getLast?, ∀ column, ⟨c, column, false⟩ ∉ s

theorem Fits.subset (fits : Fits rules s) (part : b ⊆ s) : Fits rules b := by
  intro r rule
  refine (fits r rule).imp_right ?_
  rintro ⟨c, last, absent⟩
  exact ⟨c, last, fun column member => absent column (part member)⟩

theorem Fits.length_le {old right : List Char} {column : Nat}
    (fits : Fits rules (spread right column ++ s)) (left : List Char)
    (rule : (old, left ++ right) ∈ rules) : right.length ≤ old.length := by
  rcases fits _ rule with short | ⟨c, last, absent⟩
  · rw [List.length_append] at short
    exact Nat.le_trans (Nat.le_add_left _ _) short
  · by_cases none : right = []
    · rw [none]
      exact Nat.zero_le _
    · -- The rest of a longer word ends with the character that is not there.
      rw [List.getLast?_append_of_ne_nil _ none] at last
      have written : ⟨c, column, false⟩ ∈ spread right column :=
        mem_spread.mpr ⟨c, List.mem_of_getLast? last, rfl⟩
      exact (absent column (List.mem_append_left s written)).elim

theorem Rewritten.length_le (rewritten : Rewritten rules gs hs) (fits : Fits rules hs) :
    hs.length ≤ gs.length := by
  induction rewritten with
  | nil => exact Nat.le_refl 0
  | keep g _ ih => exact Nat.succ_le_succ (ih (fits.subset (List.subset_cons_self g _)))
  | @word g run gs hs new rule _ ih =>
    have word := fits.length_le [] rule
    have rest := ih (fits.subset (List.subset_append_right _ hs))
    simp only [List.length_append, List.length_cons, spread, List.length_map] at word ⊢
    omega

theorem head?_spread {word : List Char} (nonempty : word ≠ []) (column : Nat) (gs : List Glyph) :
    ((spread word column ++ gs).head?).map Glyph.column = some column := by
  obtain ⟨c, word, rfl⟩ := List.exists_cons_of_ne_nil nonempty
  rfl

theorem Rewritten.head_column (rewritten : Rewritten rules gs hs) (words : ∀ r ∈ rules, r.2 ≠ []) :
    gs.head?.map Glyph.column = hs.head?.map Glyph.column := by
  cases rewritten with
  | nil => rfl
  | keep g => rfl
  | word rule => exact (head?_spread (words _ rule) _ _).symm

/-- The end of a rewritten text was there before, from the same column on and at least as long. -/
theorem Rewritten.end_column (rewritten : Rewritten rules gs (b ++ s))
    (words : ∀ r ∈ rules, r.2 ≠ []) (fits : Fits rules s) :
    ∃ b₀ s₀, gs = b₀ ++ s₀ ∧ s.length ≤ s₀.length ∧
      s₀.head?.map Glyph.column = s.head?.map Glyph.column := by
  obtain ⟨b₀, s₀, rfl, ⟨-, right⟩ | breaks⟩ := rewritten.split
  · exact ⟨b₀, s₀, rfl, right.length_le fits, right.head_column words⟩
  · refine ⟨b₀, s₀, rfl, ?_⟩
    obtain @⟨g, run, gs, hs, left, right, before, rule, -, noRight, rest⟩ := breaks
    refine ⟨?_, (head?_spread noRight _ _).symm⟩
    have word := fits.length_le left rule
    have tail := rest.length_le (fits.subset (List.subset_append_right _ hs))
    simp only [List.length_append, List.length_cons, spread, List.length_map] at word ⊢
    omega

/-! ### Numerals written out -/

/-- No number goes on from the first part of a text into the second. -/
def Apart (b s : List Glyph) : Prop :=
  ∀ x ∈ b.getLast?, ∀ y ∈ s.head?, x.isDigit → y.isDigit = false

theorem Rewritten.written_or_same {old new : List Char} (rewritten : Rewritten [(old, new)] gs hs) :
    (∃ column, spread new column <:+: hs) ∨ gs = hs := by
  induction rewritten with
  | nil => exact .inr rfl
  | keep g _ ih =>
    refine ih.imp ?_ fun same => by rw [same]
    rintro ⟨column, there⟩
    exact ⟨column, List.infix_cons there⟩
  | @word g run gs hs new' rule =>
    obtain ⟨-, rfl⟩ := Prod.mk.inj (List.mem_singleton.mp rule)
    exact .inl ⟨g.column, ( List.prefix_append _ _).isInfix⟩

theorem Rewritten.getLast_mem {old new : List Char} (rewritten : Rewritten [(old, new)] gs hs) :
    ∀ x ∈ gs.getLast?, x ∈ hs.getLast? ∨ x.char ∈ old := by
  induction rewritten with
  | nil => nofun
  | @keep gs hs g rest ih =>
    intro x last
    rw [← List.singleton_append, List.getLast?_append] at last
    cases more : gs.getLast? with
    | none =>
      obtain rfl := List.getLast?_eq_none_iff.mp more
      cases rest
      exact .inl last
    | some y =>
      obtain rfl : y = x := by simpa [more] using last
      refine (ih y more).imp_left fun there => ?_
      rw [← List.singleton_append]
      exact List.mem_getLast?_append_of_mem_getLast? there
  | @word g run gs hs new' rule rest ih =>
    intro x last
    rw [← List.cons_append, List.getLast?_append] at last
    obtain ⟨old, -⟩ := Prod.mk.inj (List.mem_singleton.mp rule)
    cases more : gs.getLast? with
    | none =>
      rw [more, Option.none_or] at last
      rw [← old]
      exact .inr (List.mem_map_of_mem (List.mem_of_getLast? last))
    | some y =>
      obtain rfl : y = x := by simpa [more] using last
      exact (ih y more).imp_left List.mem_getLast?_append_of_mem_getLast?

/-- The end of a text stays as it is, unless a numeral is written out in it. -/
theorem Rewritten.end_kept {old new : List Char} (rewritten : Rewritten [(old, new)] gs (b ++ s))
    (numeral : ∀ c ∈ new, ∀ column, isDigit ⟨c, column, false⟩)
    (other : ∀ g : Glyph, g.char ∈ old → g.isDigit = false) (apart : Apart b s) :
    (∃ column, spread new column <:+: s) ∨ ∃ b₀, gs = b₀ ++ s ∧ Apart b₀ s := by
  obtain ⟨b₀, s₀, rfl, ⟨left, right⟩ | breaks⟩ := rewritten.split
  · refine right.written_or_same.imp_right ?_
    rintro rfl
    refine ⟨b₀, rfl, fun x last y first digit => ?_⟩
    rcases left.getLast_mem x last with there | word
    · exact apart x there y first digit
    · rw [other x word] at digit
      cases digit
  · -- Both sides of the break are digits of one numeral.
    obtain @⟨g, run, gs, hs, left, right, before, rule, noLeft, noRight, rest⟩ := breaks
    obtain ⟨-, rfl⟩ := Prod.mk.inj (List.mem_singleton.mp rule)
    obtain ⟨front, x, rfl⟩ := (List.eq_nil_or_concat' left).resolve_left noLeft
    obtain ⟨y, tail, rfl⟩ := List.exists_cons_of_ne_nil noRight
    have last : ⟨x, g.column, false⟩ ∈ (before ++ spread (front ++ [x]) g.column).getLast? := by
      simp [spread]
    have goesOn := apart _ last ⟨y, g.column, false⟩ rfl (numeral x (by simp) _)
    rw [numeral y (by simp)] at goesOn
    cases goesOn

/-! ### Normalisation -/

theorem length_spell_le (inQuote : Bool) (i : Nat) (cs : List Char) :
    (spell inQuote i cs).length ≤ cs.length := by
  induction cs generalizing inQuote i with
  | nil => exact Nat.le_refl 0
  | cons c cs ih =>
    rw [spell]
    split_ifs
    · exact Nat.succ_le_succ (ih _ _)
    · exact Nat.succ_le_succ (ih _ _)
    · exact Nat.le_succ_of_le (ih _ _)
    · exact Nat.succ_le_succ (ih _ _)

theorem spell_room {inQuote : Bool} {i : Nat} {cs : List Char} {g : Glyph}
    (split : spell inQuote i cs = b ++ g :: s) : g.column + (s.length + 1) ≤ i + cs.length := by
  induction cs generalizing inQuote i b with
  | nil => simp [spell] at split
  | cons c cs ih =>
    -- A character that stays is `g` itself or stands in front of it.
    have next (x : Glyph) (inQuote : Bool) (here : x.column = i)
        (split : x :: spell inQuote (i + 1) cs = b ++ g :: s) :
        g.column + (s.length + 1) ≤ i + (cs.length + 1) := by
      cases b with
      | nil =>
        obtain ⟨rfl, rfl⟩ := List.cons.inj split
        have short := length_spell_le inQuote (i + 1) cs
        omega
      | cons y b =>
        have later := ih (List.cons.inj split).2
        omega
    rw [spell] at split
    rw [List.length_cons]
    split_ifs at split
    · exact next _ _ rfl split
    · exact next _ _ rfl split
    · have later := ih split
      omega
    · exact next _ _ rfl split

theorem normalize_column {formula : List Char} {g : Glyph} (member : g ∈ normalize formula) :
    g.column < formula.length := by
  obtain ⟨logs, powers, bars, pis, first, second, third, fourth, fifth⟩ :=
    rewritten_normalize formula
  obtain ⟨g₄, there, column⟩ := fifth.column g member
  obtain ⟨g₃, there, column₃⟩ := fourth.column g₄ there
  obtain ⟨g₂, there, column₂⟩ := third.column g₃ there
  obtain ⟨g₁, there, column₁⟩ := second.column g₂ there
  obtain ⟨g₀, there, column₀⟩ := first.column g₁ there
  obtain ⟨before, after, split⟩ := List.append_of_mem there
  have room := spell_room split
  omega

/-- The end of a normalised text has room in the formula from its column on, unless pi is written
out in it. -/
theorem normalize_room {formula : List Char} {g : Glyph} (split : normalize formula = b ++ g :: s)
    (apart : Apart b (g :: s)) (noParen : ∀ column, ⟨'(', column, false⟩ ∉ g :: s) :
    (∃ column, spread piNumeral.toList column <:+: g :: s) ∨
      g.column + (s.length + 1) ≤ formula.length := by
  have numeral : ∀ c ∈ piNumeral.toList, ∀ column, isDigit ⟨c, column, false⟩ := by
    have digits : piNumeral.toList.all fun c => isDigit ⟨c, 0, false⟩ := by decide
    exact fun c member _ => List.all_eq_true.mp digits c member
  have letters {word : List Char} (chars : word.all fun c => !isDigit ⟨c, 0, false⟩) (h : Glyph)
      (member : h.char ∈ word) : h.isDigit = false := by
    have other := List.all_eq_true.mp chars h.char member
    rw [Bool.not_eq_true'] at other
    exact other
  obtain ⟨logs, powers, bars, pis, first, second, third, fourth, fifth⟩ :=
    rewritten_normalize formula
  rw [split] at fifth
  -- Back through the passes. A part of a numeral is ruled out by `apart`, `abs(` by `noParen`, and
  -- the first two passes make nothing longer.
  rcases fifth.end_kept numeral (letters (by decide)) apart with there | ⟨b₄, rfl, apart⟩
  · exact .inl there
  rcases fourth.end_kept numeral (letters (by decide)) apart with there | ⟨b₃, rfl, -⟩
  · exact .inl there
  have fits : Fits barRules (g :: s) := by
    simp only [Fits, barRules, List.forall_mem_cons]
    exact ⟨.inr ⟨'(', rfl, noParen⟩, .inl (by decide), nofun⟩
  obtain ⟨b₂, s₂, rfl, length₂, column₂⟩ := third.end_column (by simp [barRules]) fits
  obtain ⟨b₁, s₁, rfl, length₁, column₁⟩ := second.end_column (by simp) (by simp [Fits])
  obtain ⟨b₀, s₀, spelled, length₀, column₀⟩ := first.end_column (by simp) (by simp [Fits])
  have here : s₀.head?.map Glyph.column = some g.column := column₀.trans (column₁.trans column₂)
  cases s₀ with
  | nil => cases here
  | cons g₀ s₀ =>
    have room := spell_room spelled
    have same : g₀.column = g.column := Option.some.inj here
    simp only [List.length_cons] at length₀ length₁ length₂
    right
    omega

end

end EscapeTime.Glyph
