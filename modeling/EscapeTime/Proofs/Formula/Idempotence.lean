import EscapeTime.Proofs.Formula.Rewriting
import EscapeTime.Proofs.Formula.RoundTrip
import EscapeTime.Proofs.Text.LowerCase

/-!
# Normalised twice

The normalised text of a formula is normal: it is in lower case and without white space outside
quotes, no abbreviation stands in it, and at most one bar is left. For no pass writes a word that
makes up an abbreviation of an earlier pass or of its own, not even with the text around it.
`normalize_idempotent`: normalising the text again changes columns only.
-/

namespace EscapeTime.Glyph

variable {gs hs : List Glyph} {word old new : List Char}

/-! ### Without columns -/

/-- The character without its column. -/
def bare (g : Glyph) : Glyph :=
  { g with column := 0 }

theorem startsWith_bare (word : List Char) (gs : List Glyph) :
    startsWith word (gs.map bare) = startsWith word gs := by
  induction word generalizing gs with
  | nil => rfl
  | cons c word ih =>
    cases gs with
    | nil => rfl
    | cons g gs =>
      rw [List.map_cons, startsWith, startsWith, ih]
      rfl

theorem map_bare_spread (word : List Char) (i : Nat) :
    (spread word i).map bare = spread word 0 := by
  unfold spread
  rw [List.map_map]
  rfl

theorem substitute_bare (old new : List Char) (skip : Nat) (gs : List Glyph) :
    substitute old new skip (gs.map bare) = (substitute old new skip gs).map bare := by
  induction gs generalizing skip with
  | nil =>
    rw [substitute]
    rfl
  | cons g gs ih =>
    cases skip with
    | succ skip => exact ih skip
    | zero =>
      have same : startsWith old (bare g :: gs.map bare) = startsWith old (g :: gs) :=
        startsWith_bare old (g :: gs)
      rw [List.map_cons, substitute, substitute, same]
      split
      · rw [List.map_append, map_bare_spread, ih]
        rfl
      · rw [List.map_cons, ih]

theorem pairBars_bare (paired : Nat) (gs : List Glyph) :
    pairBars paired (gs.map bare) = (pairBars paired gs).map bare := by
  induction gs generalizing paired with
  | nil =>
    rw [pairBars]
    rfl
  | cons g gs ih =>
    cases paired with
    | zero => rfl
    | succ paired =>
      rw [List.map_cons, pairBars, pairBars, show (bare g).isBar = g.isBar from rfl]
      split
      · rw [List.map_append, map_bare_spread, ih]
        rfl
      · rw [List.map_cons, ih]

theorem absBars_bare (gs : List Glyph) : absBars (gs.map bare) = (absBars gs).map bare := by
  unfold absBars
  rw [pairBars_bare, List.countP_map]
  rfl

theorem expand_bare (gs : List Glyph) : expand (gs.map bare) = (expand gs).map bare := by
  unfold expand replace
  rw [substitute_bare, substitute_bare, absBars_bare, substitute_bare, substitute_bare]

/-! ### Settled text -/

/-- Spelling keeps the character. -/
def isPlain (c : Char) : Bool :=
  c != '"' && !Text.isBlank c && Text.lowerCase c == c

theorem isPlain_iff {c : Char} :
    isPlain c = true ↔ c ≠ '"' ∧ Text.isBlank c = false ∧ Text.lowerCase c = c := by
  simp only [isPlain, Bool.and_eq_true, bne_iff_ne, Bool.not_eq_true', beq_iff_eq, and_assoc]

/-- Text that spelling keeps: raw between quotes, and of plain characters elsewhere. -/
inductive Settled : (inQuote : Bool) → List Glyph → Prop
  | nil (inQuote : Bool) : Settled inQuote []
  | quote {inQuote : Bool} {gs : List Glyph} (i : Nat) :
    Settled (!inQuote) gs → Settled inQuote (⟨'"', i, false⟩ :: gs)
  | raw {gs : List Glyph} {c : Char} (i : Nat) :
    c ≠ '"' → Settled true gs → Settled true (⟨c, i, true⟩ :: gs)
  | plain {gs : List Glyph} {c : Char} (i : Nat) :
    isPlain c = true → Settled false gs → Settled false (⟨c, i, false⟩ :: gs)

theorem settled_spell (inQuote : Bool) (i : Nat) (cs : List Char) :
    Settled inQuote (spell inQuote i cs) := by
  induction cs generalizing inQuote i with
  | nil => exact .nil inQuote
  | cons c cs ih =>
    rw [spell]
    split
    · rename_i quote
      subst quote
      exact .quote i (ih _ _)
    · rename_i other
      split
      · rename_i quoted
        subst quoted
        exact .raw i other (ih _ _)
      · rename_i outside
        rw [Bool.not_eq_true] at outside
        subst outside
        split
        · exact ih _ _
        · rename_i solid
          rw [Bool.not_eq_true] at solid
          refine .plain i (isPlain_iff.2 ⟨?_, ?_, ?_⟩) (ih _ _)
          · exact fun quote => other (Text.quote_of_lowerCase quote)
          · exact Text.isBlank_lowerCase solid
          · exact Text.lowerCase_lowerCase c

theorem Settled.spell_eq {inQuote : Bool} (settled : Settled inQuote gs) (i : Nat) :
    (spell inQuote i (gs.map char)).map bare = gs.map bare := by
  induction settled generalizing i with
  | nil => rfl
  | quote j _ ih =>
    rw [List.map_cons, spell, if_pos rfl, List.map_cons, ih]
    rfl
  | raw j other _ ih =>
    rw [List.map_cons, spell, if_neg other, if_pos rfl, List.map_cons, ih]
    rfl
  | plain j plain _ ih =>
    obtain ⟨other, solid, lower⟩ := isPlain_iff.1 plain
    rw [List.map_cons, spell, if_neg other, if_neg Bool.false_ne_true, solid,
      if_neg Bool.false_ne_true, lower, List.map_cons, ih]
    rfl

theorem Settled.spread (plain : word.all isPlain = true) (i : Nat) (rest : Settled false gs) :
    Settled false (spread word i ++ gs) := by
  induction word with
  | nil => exact rest
  | cons c word ih =>
    rw [List.all_cons, Bool.and_eq_true] at plain
    exact .plain i plain.1 (ih plain.2)

/-- What is found by its characters stands outside quotes. -/
theorem Settled.starts_cons {inQuote : Bool} {c : Char} (settled : Settled inQuote gs)
    (other : c ≠ '"') (starts : startsWith (c :: word) gs) :
    inQuote = false ∧ ∃ g rest, gs = g :: rest ∧ Settled false rest ∧ startsWith word rest := by
  cases settled with
  | nil => cases starts
  | @quote _ rest i =>
    simp only [startsWith, Bool.and_eq_true, beq_iff_eq] at starts
    exact absurd starts.1.2.symm other
  | raw => cases starts
  | @plain rest _ i _ settled =>
    simp only [startsWith, Bool.and_eq_true] at starts
    exact ⟨rfl, _, rest, rfl, settled, starts.2⟩

theorem Settled.drop_word (settled : Settled false gs) (plain : '"' ∉ word)
    (starts : startsWith word gs) : Settled false (gs.drop word.length) := by
  induction word generalizing gs with
  | nil => exact settled
  | cons c word ih =>
    rw [List.mem_cons, not_or] at plain
    obtain ⟨-, g, rest, rfl, settled, starts⟩ := settled.starts_cons (Ne.symm plain.1) starts
    exact ih settled plain.2 starts

theorem Settled.substitute {inQuote : Bool} (nonempty : old ≠ []) (plainOld : '"' ∉ old)
    (plainNew : new.all isPlain = true) {skip : Nat} (settled : Settled inQuote (gs.drop skip)) :
    Settled inQuote (substitute old new skip gs) := by
  induction gs generalizing skip inQuote with
  | nil =>
    rw [Glyph.substitute]
    exact .nil _
  | cons g gs ih =>
    cases skip with
    | succ skip => exact ih settled
    | zero =>
      rw [List.drop_zero] at settled
      rw [Glyph.substitute]
      split
      · rename_i starts
        obtain ⟨c, old, rfl⟩ := List.exists_cons_of_ne_nil nonempty
        have other : c ≠ '"' := fun quote => plainOld (quote ▸ List.mem_cons_self)
        obtain ⟨rfl, -⟩ := settled.starts_cons other starts
        exact .spread plainNew g.column (ih (settled.drop_word plainOld starts))
      · cases settled with
        | quote i rest => exact .quote i (ih rest)
        | raw i other rest => exact .raw i other (ih rest)
        | plain i plain rest => exact .plain i plain (ih rest)

theorem Settled.pairBars {inQuote : Bool} (settled : Settled inQuote gs) (paired : Nat) :
    Settled inQuote (pairBars paired gs) := by
  induction settled generalizing paired with
  | nil =>
    rw [Glyph.pairBars]
    exact .nil _
  | quote i _ ih =>
    rw [pairBars_quote]
    exact .quote i (ih paired)
  | @raw gs c i other rest ih =>
    cases paired with
    | zero => exact .raw i other rest
    | succ paired =>
      rw [Glyph.pairBars, if_neg (by simp [isBar])]
      exact .raw i other (ih _)
  | @plain gs c i plain rest ih =>
    cases paired with
    | zero => exact .plain i plain rest
    | succ paired =>
      rw [Glyph.pairBars]
      split
      · refine .spread ?_ i (ih paired)
        split <;> decide
      · exact .plain i plain (ih _)

/-! ### Words that are not there -/

/-- The word stands nowhere in the text outside quotes. -/
def Absent (word : List Char) (gs : List Glyph) : Prop :=
  ∀ s, s <:+ gs → startsWith word s = false

theorem absent_cons {g : Glyph} :
    Absent word (g :: gs) ↔ startsWith word (g :: gs) = false ∧ Absent word gs := by
  unfold Absent
  constructor
  · intro absent
    refine ⟨absent _ List.suffix_rfl, ?_⟩
    exact fun s suffix => absent s (suffix.trans (List.suffix_cons g gs))
  · rintro ⟨here, later⟩ s suffix
    rcases List.suffix_cons_iff.1 suffix with rfl | suffix
    · exact here
    · exact later s suffix

theorem Absent.of_suffix (absent : Absent word gs) (suffix : hs <:+ gs) : Absent word hs :=
  fun s inner => absent s (inner.trans suffix)

theorem Absent.substitute_eq (absent : Absent old gs) (new : List Char) :
    substitute old new 0 gs = gs := by
  induction gs with
  | nil => rfl
  | cons g gs ih =>
    obtain ⟨here, later⟩ := absent_cons.1 absent
    rw [substitute, here, if_neg Bool.false_ne_true, ih later]

/-- The words differ at a place that both have. -/
def clash (a b : List Char) : Bool :=
  !a.isPrefixOf b && !b.isPrefixOf a

theorem startsWith_spread_append {s : List Char} {i : Nat}
    (starts : startsWith word (spread s i ++ gs)) : clash word s = false := by
  induction word generalizing s with
  | nil => rfl
  | cons c word ih =>
    cases s with
    | nil => rfl
    | cons d s =>
      have whole : startsWith (c :: word) (⟨d, i, false⟩ :: (spread s i ++ gs)) := starts
      simp only [startsWith, Bool.and_eq_true, beq_iff_eq] at whole
      obtain ⟨⟨-, rfl⟩, rest⟩ := whole
      have inner := ih rest
      unfold clash at inner ⊢
      rwa [List.isPrefixOf_cons_cons, List.isPrefixOf_cons_cons, beq_self_eq_true, Bool.true_and,
        Bool.true_and]

/-- Wherever the new word stands in a text, `word` neither starts in it nor reaches into it. -/
def separate (word new : List Char) : Bool :=
  (new.tails.all fun s => s.isEmpty || clash word s) &&
    word.tail.tails.all fun s => s.isEmpty || clash s new

theorem separate_iff :
    separate word new = true ↔
      (∀ s, s <:+ new → s ≠ [] → clash word s = true) ∧
        ∀ s, s <:+ word.tail → s ≠ [] → clash s new = true := by
  simp only [separate, Bool.and_eq_true, List.all_eq_true, List.mem_tails, Bool.or_eq_true,
    List.isEmpty_iff, or_iff_not_imp_left]

theorem Absent.spread (apart : ∀ s, s <:+ new → s ≠ [] → clash word s = true) (i : Nat)
    (rest : Absent word gs) : Absent word (spread new i ++ gs) := by
  induction new with
  | nil => exact rest
  | cons c new ih =>
    refine absent_cons.2 ⟨?_, ih fun s suffix => apart s (suffix.trans (List.suffix_cons c new))⟩
    rw [← Bool.not_eq_true]
    intro starts
    have differ := apart (c :: new) List.suffix_rfl (List.cons_ne_nil c new)
    have whole : startsWith word (Glyph.spread (c :: new) i ++ gs) := starts
    rw [startsWith_spread_append whole] at differ
    cases differ

section

variable {rules : List (List Char × List Char)}

/-- What no new word reaches into was there before. -/
theorem Rewritten.startsWith_of (rewritten : Rewritten rules gs hs)
    (apart : ∀ r ∈ rules, ∀ s, s <:+ word → s ≠ [] → clash s r.2 = true)
    (starts : startsWith word hs) : startsWith word gs := by
  induction word generalizing gs hs with
  | nil => rfl
  | cons c word ih =>
    cases rewritten with
    | nil => exact starts
    | keep g rest =>
      simp only [startsWith, Bool.and_eq_true] at starts ⊢
      refine ⟨starts.1, ih rest (fun r rule s suffix => ?_) starts.2⟩
      exact apart r rule s (suffix.trans (List.suffix_cons c word))
    | word rule rest =>
      have differ := apart _ rule (c :: word) List.suffix_rfl (List.cons_ne_nil c word)
      rw [startsWith_spread_append starts] at differ
      cases differ

theorem Rewritten.starts_cons {g : Glyph} (rewritten : Rewritten rules gs hs)
    (apart : ∀ r ∈ rules, separate word r.2 = true) (starts : startsWith word (g :: hs)) :
    startsWith word (g :: gs) := by
  cases word with
  | nil => rfl
  | cons c word =>
    simp only [startsWith, Bool.and_eq_true] at starts ⊢
    refine ⟨starts.1, rewritten.startsWith_of (fun r rule => ?_) starts.2⟩
    exact (separate_iff.1 (apart r rule)).2

theorem Rewritten.absent (rewritten : Rewritten rules gs hs)
    (apart : ∀ r ∈ rules, separate word r.2 = true) (absent : Absent word gs) :
    Absent word hs := by
  induction rewritten with
  | nil => exact absent
  | @keep gs hs g rest ih =>
    obtain ⟨here, later⟩ := absent_cons.1 absent
    refine absent_cons.2 ⟨?_, ih later⟩
    rw [← Bool.not_eq_true] at here ⊢
    exact fun starts => here (rest.starts_cons apart starts)
  | @word g run gs hs new rule rest ih =>
    have suffix : gs <:+ g :: (run ++ gs) :=
      (List.suffix_append run gs).trans (List.suffix_cons g _)
    exact .spread (separate_iff.1 (apart _ rule)).1 g.column (ih (absent.of_suffix suffix))

end

theorem absent_substitute (nonempty : old ≠ []) (apart : separate old new = true) (skip : Nat)
    (gs : List Glyph) : Absent old (substitute old new skip gs) := by
  induction gs generalizing skip with
  | nil =>
    rw [substitute]
    intro s suffix
    obtain ⟨c, old, rfl⟩ := List.exists_cons_of_ne_nil nonempty
    rw [List.suffix_nil.1 suffix]
    rfl
  | cons g gs ih =>
    cases skip with
    | succ skip => exact ih skip
    | zero =>
      rw [substitute]
      split
      · exact .spread (separate_iff.1 apart).1 g.column (ih _)
      · rename_i here
        refine absent_cons.2 ⟨?_, ih 0⟩
        rw [← Bool.not_eq_true]
        intro starts
        refine here ((rewritten_substitute nonempty new gs).starts_cons ?_ starts)
        simpa using apart

/-! ### Bars -/

theorem countP_isBar_spread (plain : '|' ∉ word) (i : Nat) : (spread word i).countP isBar = 0 := by
  rw [List.countP_eq_zero]
  intro g member
  obtain ⟨c, there, rfl⟩ := mem_spread.1 member
  have other : c ≠ '|' := fun bar => plain (bar ▸ there)
  simp [isBar, other]

theorem countP_isBar_pairBars (paired : Nat) (gs : List Glyph) :
    (pairBars paired gs).countP isBar = gs.countP isBar - paired := by
  induction gs generalizing paired with
  | nil =>
    rw [pairBars]
    exact (Nat.zero_sub paired).symm
  | cons g gs ih =>
    cases paired with
    | zero => rfl
    | succ paired =>
      rw [pairBars, List.countP_cons]
      split
      · have plain : '|' ∉ (if paired % 2 = 1 then "abs(".toList else [')']) := by
          split <;> decide
        rw [List.countP_append, countP_isBar_spread plain, ih]
        omega
      · rename_i other
        rw [List.countP_cons, if_neg other, ih]
        rfl

theorem Rewritten.countP_isBar_le {rules : List (List Char × List Char)}
    (rewritten : Rewritten rules gs hs) (plain : ∀ r ∈ rules, '|' ∉ r.2) :
    hs.countP isBar ≤ gs.countP isBar := by
  induction rewritten with
  | nil => exact Nat.le_refl 0
  | keep g _ ih =>
    rw [List.countP_cons, List.countP_cons]
    omega
  | word rule _ ih =>
    rw [List.countP_append, countP_isBar_spread (plain _ rule), List.countP_cons,
      List.countP_append]
    omega

theorem countP_isBar_absBars (gs : List Glyph) : (absBars gs).countP isBar ≤ 1 := by
  rw [absBars, countP_isBar_pairBars]
  omega

theorem absBars_of_few (few : gs.countP isBar ≤ 1) : absBars gs = gs := by
  have none : gs.countP isBar / 2 * 2 = 0 := by omega
  rw [absBars, none]
  cases gs <;> rfl

/-! ### Normal text -/

/-- Settled text in which none of the words stands. -/
structure Clear (words : List (List Char)) (gs : List Glyph) : Prop where
  settled : Settled false gs
  absent : ∀ word ∈ words, Absent word gs

/-- Writing `new` for `old` brings back neither `old` nor any of the words. -/
def harmless (words : List (List Char)) (old new : List Char) : Bool :=
  !old.isEmpty && !old.elem '"' && new.all isPlain && (old :: words).all (separate · new)

theorem Clear.replace {words : List (List Char)} (clear : Clear words gs) (old new : String)
    (safe : harmless words old.toList new.toList = true) :
    Clear (old.toList :: words) (replace old new gs) := by
  simp only [harmless, Bool.and_eq_true, Bool.not_eq_true', List.isEmpty_eq_false_iff,
    List.elem_eq_mem, decide_eq_false_iff_not, List.all_cons, List.all_eq_true] at safe
  obtain ⟨⟨⟨nonempty, plainOld⟩, plainNew⟩, apart, others⟩ := safe
  constructor
  · exact Settled.substitute nonempty plainOld (List.all_eq_true.2 plainNew) clear.settled
  · refine List.forall_mem_cons.2 ⟨absent_substitute nonempty apart 0 gs, ?_⟩
    intro word member
    refine (rewritten_substitute nonempty new.toList gs).absent ?_ (clear.absent word member)
    exact List.forall_mem_singleton.2 (others word member)

theorem Clear.absBars {words : List (List Char)} (clear : Clear words gs)
    (apart : ∀ word ∈ words, ∀ r ∈ barRules, separate word r.2 = true) :
    Clear words (absBars gs) := by
  constructor
  · exact clear.settled.pairBars _
  · intro word member
    exact (rewritten_pairBars _ gs).absent (apart word member) (clear.absent word member)

/-- Text that no pass of normalisation changes. -/
structure Normal (gs : List Glyph) : Prop extends Clear abbreviations gs where
  fewBars : gs.countP isBar ≤ 1

theorem Normal.expand_eq (normal : Normal gs) : expand gs = gs := by
  have kept (old new : String) (member : old.toList ∈ abbreviations) : replace old new gs = gs :=
    (normal.absent _ member).substitute_eq new.toList
  rw [expand, kept "log" "ln" (by decide), kept "**" "^" (by decide),
    absBars_of_few normal.fewBars, kept "pi" piNumeral (by decide), kept "π" piNumeral (by decide)]

theorem normal_normalize (formula : List Char) : Normal (normalize formula) := by
  have spelled : Clear [] (spell false 0 formula) :=
    ⟨settled_spell false 0 formula, List.forall_mem_nil _⟩
  have logs := spelled.replace "log" "ln" (by decide)
  have powers := logs.replace "**" "^" (by decide)
  have bars := powers.absBars (by decide)
  have pis := bars.replace "pi" piNumeral (by decide)
  have signs := pis.replace "π" piNumeral (by decide)
  have noBar (old : List Char) : ∀ r ∈ [(old, piNumeral.toList)], '|' ∉ r.2 :=
    List.forall_mem_singleton.2 (show '|' ∉ piNumeral.toList by decide)
  refine ⟨⟨signs.settled, ?_⟩, ?_⟩
  · intro word member
    exact signs.absent word (List.mem_reverse.2 member)
  · -- The numerals that the last two passes write have no bars.
    calc (normalize formula).countP isBar
      _ ≤ _ := (rewritten_substitute (by decide) piNumeral.toList _).countP_isBar_le (noBar _)
      _ ≤ _ := (rewritten_substitute (by decide) piNumeral.toList _).countP_isBar_le (noBar _)
      _ ≤ 1 := countP_isBar_absBars _

/-! ### Normalised twice -/

theorem Normal.normalize_eq (normal : Normal gs) :
    (normalize (gs.map char)).map bare = gs.map bare := by
  rw [normalize_eq_expand, ← expand_bare, normal.settled.spell_eq, expand_bare, normal.expand_eq]

/-- Texts with the same characters, inside quotes too. -/
def SameText (gs hs : List Glyph) : Prop :=
  ∃ spans : Spans, (∀ p ∈ spans, p.1 = p.2) ∧ Alike spans gs hs

/-- The same inside quotes: raw up to the closing quote, if there is one. -/
inductive SameInside : List Glyph → List Glyph → Prop
  | unclosed {as bs : List Glyph} :
    (∀ g ∈ as, g.raw) → (∀ g ∈ bs, g.raw) → as.map char = bs.map char → SameInside as bs
  | closed {as bs gs hs : List Glyph} (i j : Nat) :
    (∀ g ∈ as, g.raw) → (∀ g ∈ bs, g.raw) → as.map char = bs.map char → SameText gs hs →
      SameInside (as ++ ⟨'"', i, false⟩ :: gs) (bs ++ ⟨'"', j, false⟩ :: hs)

theorem SameInside.cons (c : Char) (i j : Nat) (same : SameInside gs hs) :
    SameInside (⟨c, i, true⟩ :: gs) (⟨c, j, true⟩ :: hs) := by
  have front {as : List Glyph} (k : Nat) (raw : ∀ g ∈ as, g.raw) :
      ∀ g ∈ (⟨c, k, true⟩ :: as : List Glyph), g.raw :=
    List.forall_mem_cons.2 ⟨rfl, raw⟩
  cases same with
  | unclosed left right chars =>
    exact .unclosed (front i left) (front j right) (congrArg (c :: ·) chars)
  | closed i' j' left right chars rest =>
    exact .closed i' j' (front i left) (front j right) (congrArg (c :: ·) chars) rest

theorem SameInside.quote (i j : Nat) (same : SameInside gs hs) :
    SameText (⟨'"', i, false⟩ :: gs) (⟨'"', j, false⟩ :: hs) := by
  cases same with
  | unclosed left right => exact ⟨[], List.forall_mem_nil _, .unclosed i j left right⟩
  | closed i' j' left right chars rest =>
    obtain ⟨spans, equal, alike⟩ := rest
    exact ⟨_, List.forall_mem_cons.2 ⟨chars, equal⟩, .quoted i j i' j' left right alike⟩

theorem cons_of_bare {c : Char} {i : Nat} {raw : Bool}
    (same : (⟨c, i, raw⟩ :: gs).map bare = hs.map bare) :
    ∃ j rest, hs = ⟨c, j, raw⟩ :: rest ∧ gs.map bare = rest.map bare := by
  cases hs with
  | nil => cases same
  | cons h rest =>
    obtain ⟨d, j, raw'⟩ := h
    obtain ⟨first, others⟩ := List.cons.inj same
    obtain ⟨rfl, -, rfl⟩ := Glyph.mk.inj first
    exact ⟨j, rest, rfl, others⟩

theorem Settled.same {inQuote : Bool} (settled : Settled inQuote gs)
    (same : gs.map bare = hs.map bare) :
    if inQuote then SameInside gs hs else SameText gs hs := by
  induction settled generalizing hs with
  | nil inQuote =>
    obtain rfl := List.map_eq_nil_iff.1 same.symm
    cases inQuote with
    | false => exact ⟨[], List.forall_mem_nil _, .nil⟩
    | true => exact .unclosed (List.forall_mem_nil _) (List.forall_mem_nil _) rfl
  | @quote inQuote gs i _ ih =>
    obtain ⟨j, rest, rfl, others⟩ := cons_of_bare same
    cases inQuote with
    | false => exact SameInside.quote i j (ih others)
    | true =>
      have none : ∀ g ∈ ([] : List Glyph), g.raw := List.forall_mem_nil _
      exact SameInside.closed i j none none rfl (ih others)
  | @raw gs c i _ _ ih =>
    obtain ⟨j, rest, rfl, others⟩ := cons_of_bare same
    exact SameInside.cons c i j (ih others)
  | plain i plain _ ih =>
    obtain ⟨j, rest, rfl, others⟩ := cons_of_bare same
    obtain ⟨spans, equal, alike⟩ := ih others
    exact ⟨spans, equal, .plain i j (isPlain_iff.1 plain).1 alike⟩

end EscapeTime.Glyph

namespace EscapeTime

open Glyph

/-- The normalised text of a formula is normal, and normalising it again gives the same characters,
raw where they were. It is tokenised as the formula is: into the same tokens but for their columns,
or with an error of the same stage and for the same cause. -/
theorem normalize_idempotent (formula : List Char) :
    Normal (normalize formula) ∧
      (normalize (text (normalize formula)).toList).map bare = (normalize formula).map bare ∧
      ((∃ ts us, tokenize (text (normalize formula)).toList = .ok ts ∧ tokenize formula = .ok us ∧
          ts.map (Token.bare id) = us.map (Token.bare id)) ∨
        ∃ e e', tokenize (text (normalize formula)).toList = .error e ∧
          tokenize formula = .error e' ∧ e.stage = e'.stage ∧ e.cause = e'.cause) := by
  have normal := normal_normalize formula
  have same := normal.normalize_eq
  rw [text, String.toList_ofList]
  refine ⟨normal, same, ?_⟩
  have texts := (normal_normalize ((normalize formula).map char)).settled.same same
  obtain ⟨spans, equal, alike⟩ : SameText _ _ := texts
  have agree := tokenize_normalized alike
  generalize tokenize ((normalize formula).map char) = left at agree
  generalize tokenize formula = right at agree
  cases agree with
  | ok read =>
    refine .inl ⟨_, _, rfl, rfl, read.bare_eq ?_⟩
    intro p member
    rw [equal p member]
  | error stage i j cause => exact .inr ⟨_, _, rfl, rfl, rfl, rfl⟩

end EscapeTime
