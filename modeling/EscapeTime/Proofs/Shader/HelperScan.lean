import EscapeTime.Proofs.Shader.CallSites
import EscapeTime.Proofs.Text.Utf8
import EscapeTime.Shader.References

/-!
# The helpers that code calls

`referencedHelpers` names the helpers that a code calls, each once and in the order of their first
calls. The scan goes from byte to byte and leaps over the calls it finds; it finds what a cut of the
code into whole identifiers finds. Bytes beyond ASCII end an identifier, whatever they are read as.
-/

namespace EscapeTime.Shader

open Text

/-- A letter or digit of ASCII, or an underscore. -/
def IsIdentifierChar (c : Char) : Prop :=
  c.isAlphanum = true ∨ c = '_'

/-- After `before` stands the identifier `name`, which begins with `c` and an upper-case letter, and
then a parenthesis. The identifier does not go on to the left, nor, as it is before a parenthesis,
to the right. -/
structure HelperCall (text before name : List Char) : Prop where
  starts : ∃ upper rest, name = 'c' :: upper :: rest ∧ upper.isUpper = true
  identifier : ∀ c ∈ name, IsIdentifierChar c
  whole : ∀ c ∈ before.getLast?, ¬ IsIdentifierChar c
  here : before ++ (name ++ ['(']) <+: text

/-- These are the names of the helpers that the text calls, in the order of their first calls. -/
structure NamesCalls (text : List Char) (names : List String) : Prop where
  distinct : names.Nodup
  called : ∀ name, name ∈ names ↔ ∃ before, HelperCall text before name.toList
  order : names.Pairwise fun a b => ∃ before, HelperCall text before a.toList ∧
    ∀ later, HelperCall text later b.toList → before.length < later.length

theorem isUpper_iff (c : Char) : c.isUpper = true ↔ ('A' ≤ c && c ≤ 'Z') = true := by
  rw [Bool.and_eq_true, decide_eq_true_iff, decide_eq_true_iff]
  exact decide_eq_true_iff

theorem isNameChar_iff (c : Char) : isNameChar c = true ↔ IsIdentifierChar c := by
  unfold isNameChar IsIdentifierChar
  show _ ↔ (c.isUpper || c.isLower || c.isDigit) = true ∨ _
  rw [Bool.or_eq_true, Bool.or_eq_true, Bool.or_eq_true, Bool.or_eq_true, Bool.or_eq_true,
    isUpper_iff, beq_iff_eq]
  exact Iff.rfl

theorem isHelperName_iff (name : List Char) :
    isHelperName name = true ↔
      ∃ upper rest, name = 'c' :: upper :: rest ∧ upper.isUpper = true := by
  constructor
  · intro helper
    unfold isHelperName at helper
    split at helper
    · exact ⟨_, _, rfl, (isUpper_iff _).2 helper⟩
    · cases helper
  · rintro ⟨upper, rest, rfl, isUpperCase⟩
    exact (isUpper_iff upper).1 isUpperCase

theorem helperCall_iff {text before name : List Char} :
    HelperCall text before name ↔ CallsAt text before name := by
  constructor
  · rintro ⟨starts, identifier, whole, here⟩
    refine ⟨(isHelperName_iff name).2 starts,
      fun c there => (isNameChar_iff c).2 (identifier c there), fun c last => ?_, here⟩
    rw [← Bool.not_eq_true, isNameChar_iff]
    exact whole c last
  · rintro ⟨helper, word, closes, here⟩
    refine ⟨(isHelperName_iff name).1 helper, fun c there => (isNameChar_iff c).1 (word c there),
      fun c last => ?_, here⟩
    rw [← isNameChar_iff, Bool.not_eq_true]
    exact closes c last

/-! ### Names without repetitions -/

/-- Of two names that are kept, the first one stands somewhere before the second one ever does. -/
theorem pairwise_eraseDups {α : Type} [BEq α] [LawfulBEq α] (l : List α) :
    l.eraseDups.Pairwise fun a b => a ≠ b ∧ ∃ front back, l = front ++ a :: back ∧ b ∉ front := by
  induction size : l.length using Nat.strong_induction_on generalizing l with
  | _ n ih =>
    cases l with
    | nil => exact .nil
    | cons a as =>
      have shorter : (as.filter fun b => !b == a).length < n := by
        have := List.length_filter_le (fun b => !b == a) as
        rw [← size, List.length_cons]
        omega
      have kept {b : α} (there : b ∈ (as.filter fun b => !b == a).eraseDups) : b ≠ a := by
        simpa using (List.mem_filter.1 (List.mem_eraseDups.1 there)).2
      rw [List.eraseDups_cons, List.pairwise_cons]
      refine ⟨fun b there => ⟨(kept there).symm, [], as, rfl, List.not_mem_nil⟩, ?_⟩
      refine (ih _ shorter _ rfl).imp_of_mem ?_
      rintro b c - there ⟨distinct, front, back, split, absent⟩
      -- Put back what the filter took out, which is `a` only.
      obtain ⟨early, late, rfl, rfl, rest⟩ := List.filter_eq_append_iff.1 split
      obtain ⟨dropped, tail, rfl, gone, -, -⟩ := List.filter_eq_cons_iff.1 rest
      refine ⟨distinct, a :: (early ++ dropped), tail, by simp, ?_⟩
      rw [List.mem_cons, List.mem_append, not_or, not_or]
      refine ⟨kept there, fun mem => absent ?_, fun mem => ?_⟩
      · exact List.mem_filter.2 ⟨mem, by simpa using kept there⟩
      · exact kept there (by simpa using gone c mem)

/-- The distinct helper names before a parenthesis among the whole identifiers of a text. -/
def cutHelpers (text : List Char) : List String :=
  (helperCalls 0 text).eraseDups.map String.ofList

theorem mem_cutHelpers_iff {text : List Char} {name : String} :
    name ∈ cutHelpers text ↔ Calls text name.toList := by
  rw [cutHelpers, List.mem_map, ← mem_helperCalls_iff]
  constructor
  · rintro ⟨chars, mem, rfl⟩
    rwa [String.toList_ofList, ← List.mem_eraseDups]
  · intro mem
    exact ⟨name.toList, List.mem_eraseDups.2 mem, String.ofList_toList⟩

theorem cut_namesCalls (text : List Char) : NamesCalls text (cutHelpers text) := by
  obtain ⟨sites, names, order, all⟩ := exists_sites text
  have first : (cutHelpers text).Pairwise fun a b => a ≠ b ∧
      ∃ front back, helperCalls 0 text = front ++ a.toList :: back ∧ b.toList ∉ front := by
    rw [cutHelpers, List.pairwise_map]
    refine (pairwise_eraseDups _).imp ?_
    rintro a b ⟨distinct, there⟩
    rw [String.toList_ofList, String.toList_ofList]
    exact ⟨fun same => distinct (String.ofList_injective same), there⟩
  refine ⟨first.imp And.left, fun name => ?_, first.imp ?_⟩
  · simp only [helperCall_iff]
    exact mem_cutHelpers_iff
  · rintro a b ⟨distinct, front, back, split, absent⟩
    simp only [helperCall_iff]
    rw [← names, List.map_eq_append_iff] at split
    obtain ⟨early, late, rfl, rfl, rest⟩ := split
    obtain ⟨⟨before, name⟩, tail, rfl, rfl, rfl⟩ := List.map_eq_cons_iff.1 rest
    refine ⟨before, (all _ _).1 (by simp), fun later call => ?_⟩
    -- A call of the second name is none of the early ones and not this one.
    have there := (all _ _).2 call
    rw [List.mem_append, List.mem_cons] at there
    rcases there with there | same | there
    · exact absurd (List.mem_map_of_mem there) absent
    · exact absurd (String.toList_injective (Prod.mk.inj same).2).symm distinct
    · exact (List.pairwise_cons.1 (List.pairwise_append.1 order).2.1).1 _ there

/-! ### Bytes -/

theorem other_of_beyond {c : Char} (far : 0x80 ≤ c.toNat) : isNameChar c = false ∧ c ≠ '(' := by
  have above {d : Char} (ascii : d.toNat < 0x80) : ¬ c ≤ d := by
    intro le
    have : c.toNat ≤ d.toNat := le
    omega
  have ne {d : Char} (ascii : d.toNat < 0x80) : c ≠ d := by
    rintro rfl
    omega
  refine ⟨?_, ne (by decide)⟩
  simp [isNameChar, @above 'Z' (by decide), @above 'z' (by decide), @above '9' (by decide),
    @ne '_' (by decide)]

theorem helperCalls_others {run : List Char} (others : ∀ c ∈ run, isNameChar c = false)
    (text : List Char) : helperCalls 0 (run ++ text) = helperCalls 0 text := by
  induction run with
  | nil => rfl
  | cons c run ih =>
    obtain ⟨other, others⟩ := List.forall_mem_cons.1 others
    rw [List.cons_append, helperCalls_other other, ih others]

/-- Bytes, each as a character of its own. -/
def byteChars (bytes : List UInt8) : List Char :=
  bytes.map Char.ofUInt8

theorem byteChars_cons (b : UInt8) (bytes : List UInt8) :
    byteChars (b :: bytes) = Char.ofUInt8 b :: byteChars bytes :=
  List.map_cons

theorem byteChars_append (first second : List UInt8) :
    byteChars (first ++ second) = byteChars first ++ byteChars second :=
  List.map_append

theorem others_byteChars {run : List UInt8} (far : ∀ b ∈ run, 0x80 ≤ b.toNat) :
    ∀ c ∈ byteChars run, isNameChar c = false ∧ c ≠ '(' := by
  intro c there
  obtain ⟨b, mem, rfl⟩ := List.mem_map.1 there
  exact other_of_beyond (by rw [toNat_ofUInt8]; exact far b mem)

/-- Text and bytes start with the same identifier, and both or none of them call it. -/
theorem exists_word_reading {bytes : List UInt8} {text : List Char} (reading : Reading bytes text) :
    ∃ word restBytes rest, text = word ++ rest ∧ byteChars bytes = word ++ byteChars restBytes ∧
      Reading restBytes rest ∧ (∀ c ∈ word, isNameChar c = true) ∧
      (∀ c ∈ rest.head?, isNameChar c = false) ∧
      (∀ c ∈ (byteChars restBytes).head?, isNameChar c = false) ∧
      (rest.head? = some '(' ↔ (byteChars restBytes).head? = some '(') := by
  induction reading with
  | nil => exact ⟨[], [], [], rfl, rfl, .nil, nofun, nofun, nofun, Iff.rfl⟩
  | @ascii b bytes text ascii reading ih =>
    by_cases name : isNameChar (Char.ofUInt8 b) = true
    · obtain ⟨word, restBytes, rest, rfl, split, readingRest, isWord, ends⟩ := ih
      refine ⟨Char.ofUInt8 b :: word, restBytes, rest, rfl, ?_, readingRest,
        List.forall_mem_cons.2 ⟨name, isWord⟩, ends⟩
      rw [byteChars_cons, List.cons_append, ← split]
    · refine ⟨[], b :: bytes, Char.ofUInt8 b :: text, rfl, rfl, .ascii ascii reading, nofun, ?_, ?_,
        Iff.rfl⟩
      · rintro c ⟨⟩
        exact Bool.eq_false_iff.2 name
      · rintro c ⟨⟩
        exact Bool.eq_false_iff.2 name
  | @beyond c run bytes text some far other reading =>
    obtain ⟨b, run, rfl⟩ := List.exists_cons_of_ne_nil some
    have first := others_byteChars far (Char.ofUInt8 b) List.mem_cons_self
    refine ⟨[], b :: run ++ bytes, c :: text, rfl, rfl, .beyond some far other reading, nofun,
      ?_, ?_, iff_of_false ?_ ?_⟩
    · rintro d ⟨⟩
      exact (other_of_beyond other).1
    · rintro d ⟨⟩
      exact first.1
    · rintro ⟨⟩
      exact (other_of_beyond other).2 rfl
    · intro paren
      exact first.2 (Option.some.inj paren)

theorem helperCalls_reading {bytes : List UInt8} {text : List Char} (reading : Reading bytes text) :
    helperCalls 0 text = helperCalls 0 (byteChars bytes) := by
  induction size : text.length using Nat.strong_induction_on generalizing bytes text with
  | _ n ih =>
    obtain ⟨word, restBytes, rest, rfl, split, readingRest, isWord, ends, endsBytes, paren⟩ :=
      exists_word_reading reading
    rw [split]
    by_cases none : word = []
    · subst none
      rw [List.nil_append, List.nil_append]
      cases readingRest with
      | nil => rfl
      | @ascii b _ text _ tail =>
        have other := ends (Char.ofUInt8 b) rfl
        rw [byteChars_cons, helperCalls_other other, helperCalls_other other]
        exact ih text.length (by simp [← size]) tail rfl
      | @beyond c run _ text _ far other tail =>
        rw [byteChars_append, helperCalls_other (other_of_beyond other).1,
          helperCalls_others fun c there => (others_byteChars far c there).1]
        exact ih text.length (by simp [← size]) tail rfl
    · have shorter : rest.length < n := by
        have := List.length_pos_of_ne_nil none
        rw [← size, List.length_append]
        omega
      have same : (rest.head? == some '(') = ((byteChars restBytes).head? == some '(') := by
        rw [Bool.eq_iff_iff, beq_iff_eq, beq_iff_eq]
        exact paren
      rw [helperCalls_word isWord ends none, helperCalls_word isWord endsBytes none, same,
        ih rest.length shorter readingRest rfl]

/-! ### The scan -/

theorem le_ofUInt8 (b : UInt8) {d : Char} (small : d.toNat < 256) :
    (d ≤ Char.ofUInt8 b ↔ d.toUInt8 ≤ b) ∧ (Char.ofUInt8 b ≤ d ↔ b ≤ d.toUInt8) := by
  have code : d.toUInt8.toNat = d.toNat := Nat.mod_eq_of_lt small
  rw [UInt8.le_iff_toNat_le, UInt8.le_iff_toNat_le, code, ← toNat_ofUInt8]
  exact ⟨Iff.rfl, Iff.rfl⟩

theorem ofUInt8_eq_iff (b : UInt8) {d : Char} (small : d.toNat < 256) :
    Char.ofUInt8 b = d ↔ b = d.toUInt8 := by
  have code : d.toUInt8.toNat = d.toNat := Nat.mod_eq_of_lt small
  rw [← Char.toNat_inj, toNat_ofUInt8, ← UInt8.toNat_inj, code]

theorem isUpper_eq (b : UInt8) :
    ('A' ≤ Char.ofUInt8 b && Char.ofUInt8 b ≤ 'Z' : Bool) = isUpper b := by
  simp only [isUpper, le_ofUInt8 b (show 'A'.toNat < 256 by decide),
    le_ofUInt8 b (show 'Z'.toNat < 256 by decide)]

theorem isNameChar_ofUInt8 (b : UInt8) : isNameChar (Char.ofUInt8 b) = isIdent b := by
  unfold isNameChar isIdent
  rw [isUpper_eq]
  simp only [le_ofUInt8 b (show 'a'.toNat < 256 by decide),
    le_ofUInt8 b (show 'z'.toNat < 256 by decide), le_ofUInt8 b (show '0'.toNat < 256 by decide),
    le_ofUInt8 b (show '9'.toNat < 256 by decide)]
  congr 1
  rw [Bool.eq_iff_iff, beq_iff_eq, beq_iff_eq]
  exact ofUInt8_eq_iff b (by decide)

section Scan

variable (code : Array UInt8)

/-- The text from index `i` on. -/
def textFrom (i : Nat) : List Char :=
  byteChars (code.toList.drop i)

/-- Whether an identifier goes on at index `i`. -/
def goesOn (i : Nat) : Bool :=
  0 < i && code[i - 1]?.any isIdent

/-- The text from index `i` on, without the end of an identifier. -/
def pending (i : Nat) : List Char :=
  if goesOn code i then (textFrom code i).dropWhile isNameChar else textFrom code i

/-- The identifier that index `i` starts with, if it starts one. -/
def wordAt (i : Nat) : List Char :=
  (textFrom code i).takeWhile isNameChar

variable {code} {i : Nat}

theorem textFrom_cons (inside : i < code.size) :
    textFrom code i = Char.ofUInt8 code[i] :: textFrom code (i + 1) := by
  rw [textFrom, List.drop_eq_getElem_cons (by simpa using inside), byteChars_cons]
  rfl

theorem textFrom_drop (n : Nat) : textFrom code (i + n) = (textFrom code i).drop n := by
  rw [textFrom, textFrom, byteChars, byteChars, ← List.map_drop, List.drop_drop]

theorem head?_textFrom : (textFrom code i).head? = code[i]?.map Char.ofUInt8 := by
  rw [textFrom, byteChars, List.head?_map, List.head?_drop, Array.getElem?_toList]

theorem goesOn_succ (inside : i < code.size) : goesOn code (i + 1) = isIdent code[i] := by
  simp [goesOn, inside]

theorem identEnd_eq (i : Nat) : identEnd code i = i + (wordAt code i).length := by
  fun_induction identEnd code i with
  | case1 i inside ident ih =>
    rw [ih, wordAt, wordAt, textFrom_cons inside, List.takeWhile_cons_of_pos, List.length_cons]
    · omega
    · rw [isNameChar_ofUInt8]
      exact ident
  | case2 i inside other =>
    rw [wordAt, textFrom_cons inside, List.takeWhile_cons_of_neg]
    · rfl
    · rw [isNameChar_ofUInt8]
      exact other
  | case3 i outside =>
    rw [wordAt, textFrom, List.drop_eq_nil_of_le (by simpa using outside)]
    rfl

theorem identEnd_succ (inside : i < code.size) (ident : isIdent code[i] = true) :
    identEnd code (i + 1) = identEnd code i := by
  rw [identEnd.eq_def code i, dif_pos inside, if_pos ident]

theorem textFrom_identEnd (i : Nat) :
    textFrom code (identEnd code i) = (textFrom code i).dropWhile isNameChar := by
  have split : wordAt code i ++ _ = textFrom code i := List.takeWhile_append_dropWhile
  rw [identEnd_eq, textFrom_drop, ← split, List.drop_left, split]

theorem byteChars_extract (i : Nat) :
    byteChars (code.extract i (identEnd code i)).toList = wordAt code i := by
  have split : wordAt code i ++ _ = textFrom code i := List.takeWhile_append_dropWhile
  have taken : byteChars (code.extract i (identEnd code i)).toList =
      (textFrom code i).take (wordAt code i).length := by
    rw [identEnd_eq, Array.toList_extract, List.extract_eq_take_drop, Nat.add_sub_cancel_left,
      textFrom, byteChars, byteChars, List.map_take]
  rw [taken, ← split, List.take_left]

theorem isHelperName_takeWhile (c d : Char) (cs : List Char) :
    isHelperName ((c :: d :: cs).takeWhile isNameChar) = (c == 'c' && ('A' ≤ d && d ≤ 'Z')) := by
  by_cases first : c = 'c'
  · subst first
    rw [List.takeWhile_cons_of_pos (by decide)]
    by_cases name : isNameChar d = true
    · rw [List.takeWhile_cons_of_pos name]
      rfl
    · have lower : ('A' ≤ d && d ≤ 'Z' : Bool) = false := by
        rw [isNameChar, Bool.or_eq_true, Bool.or_eq_true, Bool.or_eq_true, not_or, not_or,
          not_or] at name
        exact Bool.eq_false_iff.2 name.1.1.1
      rw [List.takeWhile_cons_of_neg name, lower]
      rfl
  · have other : (c == 'c') = false := by simpa using first
    rw [other, Bool.false_and]
    by_cases name : isNameChar c = true
    · rw [List.takeWhile_cons_of_pos name]
      unfold isHelperName
      split
      · rename_i same
        exact absurd (List.cons.inj same).1 first
      · rfl
    · rw [List.takeWhile_cons_of_neg name]
      rfl

/-- A helper name starts where an identifier starts that is one. -/
theorem startsHelper_eq (inside : i + 1 < code.size) :
    startsHelper code i inside = (isHelperName (wordAt code i) && !goesOn code i) := by
  have first : i < code.size := by omega
  have before : (0 < i && isIdent code[i - 1] : Bool) = goesOn code i := by
    have there : i - 1 < code.size := by omega
    simp [goesOn, there]
  have letter : (Char.ofUInt8 code[i] == 'c') = (code[i] == 'c'.toUInt8) := by
    rw [Bool.eq_iff_iff, beq_iff_eq, beq_iff_eq]
    exact ofUInt8_eq_iff _ (by decide)
  rw [startsHelper, before, wordAt, textFrom_cons first, textFrom_cons inside,
    isHelperName_takeWhile, letter, isUpper_eq]

/-- Whether index `i` starts the call of a helper. -/
def callsFrom (code : Array UInt8) (i : Nat) : Bool :=
  isHelperName (wordAt code i) && !goesOn code i && code[identEnd code i]? == some '('.toUInt8

theorem head?_dropWhile_textFrom (code : Array UInt8) (i : Nat) :
    (((textFrom code i).dropWhile isNameChar).head? == some '(') =
      (code[identEnd code i]? == some '('.toUInt8) := by
  rw [← textFrom_identEnd, head?_textFrom, Bool.eq_iff_iff, beq_iff_eq, beq_iff_eq]
  cases code[identEnd code i]? with
  | none => simp
  | some b => simpa using ofUInt8_eq_iff b (show '('.toNat < 256 by decide)

/-- One byte further, the identifier that starts at `i` is taken off, and it is the next name if it
is called. -/
theorem helperCalls_pending (inside : i < code.size) :
    helperCalls 0 (pending code i) =
      (if callsFrom code i then [wordAt code i] else []) ++
        helperCalls 0 (pending code (i + 1)) := by
  have whole := textFrom_cons inside
  by_cases ident : isIdent code[i] = true
  · have name : isNameChar (Char.ofUInt8 code[i]) = true := by rwa [isNameChar_ofUInt8]
    have next : pending code (i + 1) = (textFrom code i).dropWhile isNameChar := by
      rw [pending, goesOn_succ inside, if_pos ident, whole, List.dropWhile_cons_of_pos name]
    rw [next]
    cases within : goesOn code i with
    | true => simp [pending, callsFrom, within]
    | false =>
      obtain ⟨word, rest, split, isWord, ends⟩ := exists_word (textFrom code i)
      have isWordAt : wordAt code i = word := by
        rw [wordAt, split, takeWhile_word isWord ends]
      have some : word ≠ [] := by
        rw [← isWordAt, wordAt, whole, List.takeWhile_cons_of_pos name]
        exact List.cons_ne_nil _ _
      have paren := head?_dropWhile_textFrom code i
      rw [split, dropWhile_word isWord ends] at paren ⊢
      simp only [pending, within, callsFrom, isWordAt, ← paren, Bool.false_eq_true, if_false,
        Bool.not_false, Bool.and_true]
      rw [split, helperCalls_word isWord ends some]
  · have other : isNameChar (Char.ofUInt8 code[i]) = false := by
      rw [isNameChar_ofUInt8]
      exact Bool.eq_false_iff.2 ident
    have here : pending code i = textFrom code i := by
      unfold pending
      split
      · rw [whole, List.dropWhile_cons_of_neg (by simp [other])]
      · rfl
    have next : pending code (i + 1) = textFrom code (i + 1) := by
      rw [pending, goesOn_succ inside, if_neg ident]
    have none : wordAt code i = [] := by
      rw [wordAt, whole, List.takeWhile_cons_of_neg (by simp [other])]
    rw [here, next, whole, helperCalls_other other, callsFrom, none]
    rfl

theorem helperCalls_short {text : List Char} (short : text.length ≤ 1) :
    helperCalls 0 text = [] := by
  rw [List.eq_nil_iff_forall_not_mem]
  intro name there
  obtain ⟨before, call⟩ := mem_helperCalls_iff.1 there
  have := call.two_le_length
  omega

theorem helperCalls_end (outside : ¬ i + 1 < code.size) : helperCalls 0 (pending code i) = [] := by
  have short : (textFrom code i).length ≤ 1 := by
    simp only [textFrom, byteChars, List.length_map, List.length_drop, Array.length_toList]
    omega
  refine helperCalls_short ?_
  unfold pending
  split
  · exact (List.length_dropWhile_le _ _).trans short
  · exact short

theorem isIdent_first {inside : i + 1 < code.size} (first : i < code.size)
    (starts : startsHelper code i inside = true) : isIdent code[i] = true := by
  rw [startsHelper, Bool.and_eq_true, Bool.and_eq_true, beq_iff_eq] at starts
  rw [starts.1.1]
  decide

/-- Behind the parenthesis of a call, the scan goes on as if it had gone through the name. -/
theorem helperCalls_behind (inside : i < code.size) (ident : isIdent code[i] = true)
    (paren : code[identEnd code i]? = some '('.toUInt8) :
    helperCalls 0 (pending code (identEnd code i + 1)) = helperCalls 0 (pending code (i + 1)) := by
  obtain ⟨there, isParen⟩ := Array.getElem?_eq_some_iff.1 paren
  have name : isNameChar (Char.ofUInt8 code[i]) = true := by rwa [isNameChar_ofUInt8]
  have next : pending code (i + 1) = textFrom code (identEnd code i) := by
    rw [pending, goesOn_succ inside, if_pos ident, textFrom_identEnd, textFrom_cons inside,
      List.dropWhile_cons_of_pos name]
  have behind : pending code (identEnd code i + 1) = textFrom code (identEnd code i + 1) := by
    rw [pending, goesOn_succ there, isParen, if_neg (by decide)]
  rw [behind, next, textFrom_cons there, isParen, helperCalls_other (by decide)]

/-- The names, with those of `found` added that are new. -/
def addNames (names : List String) (found : List (List Char)) : List String :=
  found.foldl (fun names name =>
    if names.contains (String.ofList name) then names else names ++ [String.ofList name]) names

theorem scanHelpers_eq (i : Nat) (names : List String) :
    scanHelpers code i names = addNames names (helperCalls 0 (pending code i)) := by
  fun_induction scanHelpers code i names with
  | case1 i names inside starts e paren name ih =>
    have first : i < code.size := by omega
    have ident := isIdent_first first starts
    have isEnd : e = identEnd code i := identEnd_succ first ident
    rw [startsHelper_eq] at starts
    rw [isEnd] at paren
    have word : name = String.ofList (wordAt code i) := by
      rw [← byteChars_extract, ← isEnd]
      rfl
    rw [dite_eq_ite] at ih
    rw [ih, isEnd, helperCalls_behind first ident paren, helperCalls_pending first, callsFrom,
      starts, paren, word]
    rfl
  | case2 i names inside starts e other ih =>
    have first : i < code.size := by omega
    have isEnd : e = identEnd code i := identEnd_succ first (isIdent_first first starts)
    rw [isEnd] at other
    rw [ih, helperCalls_pending first, callsFrom, beq_eq_false_iff_ne.2 other, Bool.and_false]
    rfl
  | case3 i names inside starts ih =>
    have first : i < code.size := by omega
    rw [startsHelper_eq, Bool.not_eq_true] at starts
    rw [ih, helperCalls_pending first, callsFrom, starts, Bool.false_and]
    rfl
  | case4 i names outside =>
    rw [helperCalls_end outside]
    rfl

end Scan

theorem addNames_nil (found : List (List Char)) :
    addNames [] found = found.eraseDups.map String.ofList := by
  induction found using List.reverseRecOn with
  | nil => rfl
  | append_singleton found name ih =>
    have known : (found.eraseDups.map String.ofList).contains (String.ofList name) =
        found.contains name := by
      rw [Bool.eq_iff_iff, List.contains_iff_mem, List.contains_iff_mem,
        List.mem_map_of_injective fun _ _ => String.ofList_injective, List.mem_eraseDups]
    unfold addNames at ih ⊢
    rw [List.foldl_append, ih, List.foldl_cons, List.foldl_nil, known, List.eraseDups_append]
    by_cases there : name ∈ found <;> simp [there, List.removeAll, List.eraseDups_cons]

/-- The scan of the bytes finds what a cut of their text into identifiers finds. -/
theorem referencedHelpers_eq (code : List UInt8) :
    referencedHelpers code = cutHelpers (byteChars code) := by
  rw [referencedHelpers, scanHelpers_eq, addNames_nil]
  rfl

theorem calledHelpers_eq (code : String) : calledHelpers code = cutHelpers code.toList := by
  rw [calledHelpers, referencedHelpers_eq, cutHelpers, cutHelpers,
    helperCalls_reading (reading_flatMap code.toList)]
  rfl

theorem mem_calledHelpers_iff {name code : String} :
    name ∈ calledHelpers code ↔ Calls code.toList name.toList := by
  rw [calledHelpers_eq, mem_cutHelpers_iff]

/-- For every byte string, the scan names the helpers that the bytes call, each once and in the
order of the first calls. -/
theorem helper_scan_exact (code : List UInt8) :
    NamesCalls (byteChars code) (referencedHelpers code) := by
  rw [referencedHelpers_eq]
  exact cut_namesCalls (byteChars code)

end EscapeTime.Shader
