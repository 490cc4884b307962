import Mathlib.Data.List.Infix
import Mathlib.Data.List.TakeWhile

/-!
# Call sites

Where a text calls a helper: a whole identifier that names a helper stands before a parenthesis.
The calls of two texts are those of the text they make together, unless an identifier or its
parenthesis runs over the seam.
-/

namespace EscapeTime.Shader

/-! ### Cutting a text into identifiers -/

/-- Whether `c` can stand in an identifier. -/
def isNameChar (c : Char) : Bool :=
  ('A' ≤ c && c ≤ 'Z') || ('a' ≤ c && c ≤ 'z') || ('0' ≤ c && c ≤ '9') || c == '_'

/-- Whether an identifier names a helper. -/
def isHelperName : List Char → Bool
  | 'c' :: c :: _ => 'A' ≤ c && c ≤ 'Z'
  | _ => false

/-- The helper names before a parenthesis among the whole identifiers of a text, after its first
`skip` characters. -/
def helperCalls : (skip : Nat) → List Char → List (List Char)
  | _, [] => []
  | skip + 1, _ :: cs => helperCalls skip cs
  | 0, c :: cs =>
    if isNameChar c then
      let name := c :: cs.takeWhile isNameChar
      let rest := helperCalls (name.length - 1) cs
      if isHelperName name && (cs.dropWhile isNameChar).head? == some '(' then name :: rest
      else rest
    else helperCalls 0 cs

/-! ### Calls -/

/-- The text does not end in an identifier. -/
def Closes (text : List Char) : Prop :=
  ∀ c ∈ text.getLast?, isNameChar c = false

/-- The text neither goes on with an identifier nor calls it. -/
def Opens (text : List Char) : Prop :=
  ∀ c ∈ text.head?, isNameChar c = false ∧ c ≠ '('

/-- After `before`, the text calls the helper `name`. -/
structure CallsAt (text before name : List Char) : Prop where
  helper : isHelperName name = true
  word : ∀ c ∈ name, isNameChar c = true
  closes : Closes before
  here : before ++ (name ++ ['(']) <+: text

def Calls (text name : List Char) : Prop :=
  ∃ before, CallsAt text before name

def Quiet (text : List Char) : Prop :=
  ∀ name, ¬ Calls text name

variable {a b before name text : List Char}

theorem closes_nil : Closes [] := by
  intro c mem
  cases mem

theorem Closes.append (first : Closes a) (second : Closes b) : Closes (a ++ b) := by
  intro c mem
  rw [List.getLast?_append] at mem
  cases last : b.getLast? with
  | none =>
    rw [last] at mem
    exact first c mem
  | some d =>
    rw [last] at mem
    exact second c (last ▸ mem)

theorem Closes.append_right (closes : Closes b) (nonempty : b ≠ []) : Closes (a ++ b) := by
  intro c mem
  rw [List.getLast?_append, List.getLast?_eq_getLast_of_ne_nil nonempty, Option.some_or,
    ← List.getLast?_eq_getLast_of_ne_nil nonempty] at mem
  exact closes c mem

theorem Closes.of_append (closes : Closes (a ++ b)) : Closes b := by
  intro c mem
  refine closes c ?_
  rw [List.getLast?_append, Option.mem_def.1 mem]
  rfl

theorem not_closes_append (nonempty : b ≠ []) (word : ∀ c ∈ b, isNameChar c = true) :
    ¬ Closes (a ++ b) := by
  intro closes
  have last := closes.of_append (b.getLast nonempty) (List.getLast?_eq_getLast_of_ne_nil nonempty)
  rw [word _ (List.getLast_mem nonempty)] at last
  cases last

namespace CallsAt

theorem name_eq (call : CallsAt text before name) : ∃ rest, name = 'c' :: rest := by
  have helper := call.helper
  unfold isHelperName at helper
  split at helper
  · exact ⟨_, rfl⟩
  · cases helper

theorem name_ne_nil (call : CallsAt text before name) : name ≠ [] := by
  rintro rfl
  cases call.helper

theorem mono (call : CallsAt a before name) (more : a <+: b) : CallsAt b before name :=
  { call with here := call.here.trans more }

theorem paren (call : CallsAt text before name) : '(' ∈ text :=
  call.here.subset (by simp)

theorem two_le_length (call : CallsAt text before name) : 2 ≤ text.length := by
  have fits := call.here.length_le
  have some := List.length_pos_of_ne_nil call.name_ne_nil
  simp only [List.length_append, List.length_singleton] at fits
  omega

theorem not_opens (call : CallsAt text [] name) : ¬ Opens text := by
  obtain ⟨c, cs, rfl⟩ := List.exists_cons_of_ne_nil call.name_ne_nil
  obtain ⟨rest, rfl⟩ := call.here
  intro opens
  have first := (opens c rfl).1
  rw [call.word c List.mem_cons_self] at first
  cases first

end CallsAt

theorem quiet_of_not_mem (absent : '(' ∉ text) : Quiet text := by
  rintro name ⟨before, call⟩
  exact absent call.paren

/-! ### Texts in a row -/

/-- No seam between two texts cuts a call. -/
theorem not_cut {left right : List Char} (word : ∀ c ∈ name, isNameChar c = true)
    (cut : name ++ ['('] = left ++ right) (some : left ≠ []) (more : right ≠ [])
    (tail : right <+: b) (apart : Closes (before ++ left) ∨ Opens b) : False := by
  have leftWord : ∀ c ∈ left, isNameChar c = true := by
    intro c mem
    rcases List.append_eq_append_iff.1 cut with ⟨extra, rfl, paren⟩ | ⟨extra, rfl, -⟩
    · obtain rfl : extra = [] := by
        cases extra with
        | nil => rfl
        | cons d ds => simp [more] at paren
      exact word c (by simpa using mem)
    · exact word c (List.mem_append_left _ mem)
  rcases apart with closes | opens
  · exact not_closes_append some leftWord closes
  · obtain ⟨c, cs, rfl⟩ := List.exists_cons_of_ne_nil more
    obtain ⟨rest, rfl⟩ := tail
    have ⟨other, noParen⟩ := opens c rfl
    have mem : c ∈ name ++ ['('] := cut ▸ List.mem_append_right _ List.mem_cons_self
    rcases List.mem_append.1 mem with mem | mem
    · rw [word c mem] at other
      cases other
    · exact noParen (List.mem_singleton.1 mem)

theorem callsAt_append (apart : Closes a ∨ Opens b) :
    CallsAt (a ++ b) before name ↔
      CallsAt a before name ∨ ∃ rest, before = a ++ rest ∧ CallsAt b rest name := by
  constructor
  · intro call
    rcases List.prefix_or_prefix_of_prefix call.here (List.prefix_append a b) with here | ⟨q, split⟩
    · exact .inl { call with here }
    · have tail : q <+: b := by
        have here := call.here
        rwa [← split, List.prefix_append_right_inj] at here
      rcases List.append_eq_append_iff.1 split with ⟨rest, rfl, rfl⟩ | ⟨left, rfl, cut⟩
      · exact .inr ⟨rest, rfl, call.helper, call.word, call.closes.of_append, tail⟩
      · by_cases none : left = []
        · subst none
          refine .inr ⟨[], by simp, call.helper, call.word, closes_nil, ?_⟩
          rwa [List.nil_append, cut, List.nil_append]
        · by_cases all : q = []
          · subst all
            refine .inl { call with here := ?_ }
            rw [cut, List.append_nil]
          · exact (not_cut call.word cut none all tail apart).elim
  · rintro (call | ⟨rest, rfl, call⟩)
    · exact call.mono (List.prefix_append a b)
    · refine ⟨call.helper, call.word, ?_, ?_⟩
      · cases rest with
        | nil =>
          rw [List.append_nil]
          exact apart.resolve_right call.not_opens
        | cons c cs => exact call.closes.append_right (by simp)
      · rw [List.append_assoc, List.prefix_append_right_inj]
        exact call.here

theorem calls_append (apart : Closes a ∨ Opens b) :
    Calls (a ++ b) name ↔ Calls a name ∨ Calls b name := by
  constructor
  · rintro ⟨before, call⟩
    rcases (callsAt_append apart).1 call with call | ⟨rest, -, call⟩
    · exact .inl ⟨before, call⟩
    · exact .inr ⟨rest, call⟩
  · rintro (⟨before, call⟩ | ⟨rest, call⟩)
    · exact ⟨before, (callsAt_append apart).2 (.inl call)⟩
    · exact ⟨a ++ rest, (callsAt_append apart).2 (.inr ⟨rest, rfl, call⟩)⟩

theorem Quiet.append (first : Quiet a) (second : Quiet b) (apart : Closes a ∨ Opens b) :
    Quiet (a ++ b) := by
  intro name call
  rcases (calls_append apart).1 call with call | call
  · exact first name call
  · exact second name call

/-- A text without a parenthesis calls nothing between texts that keep apart from it. -/
theorem quiet_between {before text after : String} (noParen : '(' ∉ text.toList)
    (first : Closes before.toList ∧ Quiet before.toList)
    (last : Opens after.toList ∧ Quiet after.toList) : Quiet (before ++ text ++ after).toList := by
  rw [String.toList_append, String.toList_append, List.append_assoc]
  refine first.2.append ?_ (.inl first.1)
  exact (quiet_of_not_mem noParen).append last.2 (.inr last.1)

theorem Closes.flatten {texts : List (List Char)} (closes : ∀ t ∈ texts, Closes t) :
    Closes texts.flatten := by
  induction texts with
  | nil => exact closes_nil
  | cons t texts ih =>
    rw [List.flatten_cons]
    exact (closes t List.mem_cons_self).append (ih fun s mem => closes s (List.mem_cons_of_mem _ mem))

/-- Each call of several texts in a row is a call of one of them. -/
theorem callsAt_flatten {texts : List (List Char)} (closes : ∀ t ∈ texts, Closes t) :
    CallsAt texts.flatten before name ↔ ∃ first t last rest, texts = first ++ t :: last ∧
      before = first.flatten ++ rest ∧ CallsAt t rest name := by
  induction texts generalizing before with
  | nil =>
    constructor
    · intro call
      cases call.paren
    · rintro ⟨first, t, last, rest, split, -⟩
      simp at split
  | cons t texts ih =>
    rw [List.flatten_cons, callsAt_append (.inl (closes t List.mem_cons_self))]
    have later : ∀ s ∈ texts, Closes s := fun s mem => closes s (List.mem_cons_of_mem _ mem)
    constructor
    · rintro (call | ⟨rest, rfl, call⟩)
      · exact ⟨[], t, texts, before, rfl, rfl, call⟩
      · obtain ⟨first, s, last, rest, rfl, rfl, found⟩ := (ih later).1 call
        exact ⟨t :: first, s, last, rest, rfl, by simp, found⟩
    · rintro ⟨first, s, last, rest, split, rfl, call⟩
      cases first with
      | nil =>
        obtain ⟨rfl, -⟩ := List.cons.inj split
        exact .inl call
      | cons u first =>
        obtain ⟨rfl, rfl⟩ := List.cons.inj split
        exact .inr ⟨first.flatten ++ rest, by simp,
          (ih later).2 ⟨first, s, last, rest, rfl, rfl, call⟩⟩

/-! ### The scan finds the calls -/

theorem helperCalls_skip (skip : Nat) (text : List Char) :
    helperCalls skip text = helperCalls 0 (text.drop skip) := by
  induction text generalizing skip with
  | nil => simp [helperCalls]
  | cons c cs ih =>
    cases skip with
    | zero => rfl
    | succ skip => rw [helperCalls, ih, List.drop_succ_cons]

/-- The identifier at the start of a text and what follows it. -/
theorem exists_word (text : List Char) :
    ∃ word rest, text = word ++ rest ∧ (∀ c ∈ word, isNameChar c = true) ∧
      ∀ c ∈ rest.head?, isNameChar c = false := by
  refine ⟨text.takeWhile isNameChar, text.dropWhile isNameChar,
    List.takeWhile_append_dropWhile.symm, fun c mem => List.mem_takeWhile_imp mem, fun c mem => ?_⟩
  have := List.head?_dropWhile_not isNameChar text
  rw [Option.mem_def.1 mem] at this
  exact this

section Word

variable {word rest : List Char} (isWord : ∀ c ∈ word, isNameChar c = true)
  (ends : ∀ c ∈ rest.head?, isNameChar c = false)
include isWord ends

theorem takeWhile_word : (word ++ rest).takeWhile isNameChar = word := by
  rw [List.takeWhile_append_of_pos isWord]
  cases rest with
  | nil => simp
  | cons c cs => simp [ends c rfl]

theorem dropWhile_word : (word ++ rest).dropWhile isNameChar = rest := by
  rw [List.dropWhile_append_of_pos isWord]
  cases rest with
  | nil => rfl
  | cons c cs => simp [ends c rfl]

theorem helperCalls_word (nonempty : word ≠ []) :
    helperCalls 0 (word ++ rest) =
      (if isHelperName word && rest.head? == some '(' then [word] else []) ++ helperCalls 0 rest := by
  obtain ⟨c, cs, rfl⟩ := List.exists_cons_of_ne_nil nonempty
  have more : ∀ d ∈ cs, isNameChar d = true := fun d mem => isWord d (List.mem_cons_of_mem _ mem)
  rw [List.cons_append, helperCalls, if_pos (isWord c List.mem_cons_self)]
  simp only [takeWhile_word more ends, dropWhile_word more ends, List.length_cons,
    Nat.add_sub_cancel]
  rw [helperCalls_skip, List.drop_left]
  split <;> simp

theorem callsAt_word (nonempty : word ≠ []) :
    CallsAt (word ++ rest) before name ↔
      (before = [] ∧ name = word ∧ isHelperName word = true ∧ rest.head? = some '(') ∨
      ∃ after, before = word ++ after ∧ CallsAt rest after name := by
  have noParen : '(' ∉ word := fun mem => absurd (isWord _ mem) (by decide)
  constructor
  · intro call
    rcases List.prefix_or_prefix_of_prefix call.here (List.prefix_append word rest) with
      here | ⟨q, split⟩
    · exact absurd (here.subset (by simp)) noParen
    · have tail : q <+: rest := by
        have here := call.here
        rwa [← split, List.prefix_append_right_inj] at here
      rcases List.append_eq_append_iff.1 split with ⟨after, rfl, rfl⟩ | ⟨left, both, cut⟩
      · exact .inr ⟨after, rfl, call.helper, call.word, call.closes.of_append, tail⟩
      · -- A call cannot begin inside the identifier, so it begins with it.
        obtain rfl : before = [] := by
          by_contra some
          exact @not_closes_append [] before some
            (fun c mem => isWord c (both ▸ List.mem_append_left _ mem)) call.closes
        obtain rfl : word = left := both
        have stop : ∀ c ∈ q.head?, isNameChar c = false := by
          intro c mem
          obtain ⟨more, rfl⟩ := tail
          exact ends c (by rw [List.head?_append, Option.mem_def.1 mem]; rfl)
        have same : name = word := by
          have first := @takeWhile_word name ['('] call.word (by rintro c ⟨⟩; decide)
          rwa [cut, takeWhile_word isWord stop, eq_comm] at first
        subst same
        obtain rfl : ['('] = q := List.append_cancel_left cut
        obtain ⟨more, rfl⟩ := tail
        exact .inl ⟨rfl, rfl, call.helper, rfl⟩
  · rintro (⟨rfl, rfl, helper, paren⟩ | ⟨after, rfl, call⟩)
    · obtain ⟨more, rfl⟩ := List.head?_eq_some_iff.1 paren
      refine ⟨helper, isWord, closes_nil, ?_⟩
      rw [List.nil_append, List.prefix_append_right_inj]
      exact List.prefix_append ['('] more
    · refine ⟨call.helper, call.word, ?_, ?_⟩
      · refine call.closes.append_right ?_
        rintro rfl
        obtain ⟨c, cs, rfl⟩ := List.exists_cons_of_ne_nil call.name_ne_nil
        obtain ⟨more, rfl⟩ := call.here
        have other := ends c rfl
        rw [call.word c List.mem_cons_self] at other
        cases other
      · rw [List.append_assoc, List.prefix_append_right_inj]
        exact call.here

end Word

theorem helperCalls_other {c : Char} (other : isNameChar c = false) (text : List Char) :
    helperCalls 0 (c :: text) = helperCalls 0 text := by
  rw [helperCalls, if_neg (by simp [other])]

theorem callsAt_other {c : Char} (other : isNameChar c = false) (text : List Char) :
    CallsAt (c :: text) before name ↔ ∃ after, before = c :: after ∧ CallsAt text after name := by
  have single : Closes [c] := by
    rintro d ⟨⟩
    exact other
  rw [← List.singleton_append, callsAt_append (.inl single), or_iff_right]
  · rfl
  · intro alone
    exact absurd alone.two_le_length (by simp)

/-- The calls of a text in their order, each with the text before it. -/
structure Sites (text : List Char) (sites : List (List Char × List Char)) : Prop where
  names : sites.map Prod.snd = helperCalls 0 text
  order : sites.Pairwise fun s t => s.1.length < t.1.length
  all : ∀ before name, (before, name) ∈ sites ↔ CallsAt text before name

/-- The call with more text before it. -/
def shiftSite (front : List Char) (site : List Char × List Char) : List Char × List Char :=
  (front ++ site.1, site.2)

theorem mem_shiftSite {front : List Char} {sites : List (List Char × List Char)} :
    (before, name) ∈ sites.map (shiftSite front) ↔
      ∃ after, before = front ++ after ∧ (after, name) ∈ sites := by
  simp only [List.mem_map, shiftSite, Prod.mk.injEq, Prod.exists]
  constructor
  · rintro ⟨after, name, there, rfl, rfl⟩
    exact ⟨after, rfl, there⟩
  · rintro ⟨after, rfl, there⟩
    exact ⟨after, name, there, rfl, rfl⟩

theorem pairwise_shiftSite (front : List Char) {sites : List (List Char × List Char)}
    (order : sites.Pairwise fun s t => s.1.length < t.1.length) :
    (sites.map (shiftSite front)).Pairwise fun s t => s.1.length < t.1.length := by
  rw [List.pairwise_map]
  refine order.imp fun less => ?_
  simpa [shiftSite] using less

theorem exists_sites (text : List Char) : ∃ sites, Sites text sites := by
  induction size : text.length using Nat.strong_induction_on generalizing text with
  | _ n ih =>
    obtain ⟨word, rest, rfl, isWord, ends⟩ := exists_word text
    by_cases none : word = []
    · subst none
      cases rest with
      | nil =>
        refine ⟨[], rfl, .nil, fun before name => iff_of_false List.not_mem_nil fun call => ?_⟩
        exact absurd call.paren List.not_mem_nil
      | cons c cs =>
        have other := ends c rfl
        obtain ⟨sites, names, order, all⟩ := ih cs.length (by simp [← size]) cs rfl
        refine ⟨sites.map (shiftSite [c]), ?_, pairwise_shiftSite [c] order, fun before name => ?_⟩
        · rw [List.nil_append, helperCalls_other other, ← names, List.map_map]
          rfl
        · rw [mem_shiftSite, List.nil_append, callsAt_other other]
          simp only [all, List.singleton_append]
    · have shorter : rest.length < n := by
        have := List.length_pos_of_ne_nil none
        rw [← size, List.length_append]
        omega
      obtain ⟨sites, names, order, all⟩ := ih rest.length shorter rest rfl
      -- The identifier is the first call of the text, if it is one at all.
      have later : ∀ site ∈ sites.map (shiftSite word), 0 < site.1.length := by
        rintro ⟨before, name⟩ there
        obtain ⟨after, rfl, -⟩ := mem_shiftSite.1 there
        exact List.length_pos_of_ne_nil (List.append_ne_nil_of_left_ne_nil none after)
      have namesLater : (sites.map (shiftSite word)).map Prod.snd = helperCalls 0 rest := by
        rw [← names, List.map_map]
        rfl
      have allLater (before name : List Char) : (before, name) ∈ sites.map (shiftSite word) ↔
          ∃ after, before = word ++ after ∧ CallsAt rest after name := by
        rw [mem_shiftSite]
        simp only [all]
      by_cases called : isHelperName word = true ∧ rest.head? = some '('
      · refine ⟨([], word) :: sites.map (shiftSite word), ?_,
          List.pairwise_cons.2 ⟨later, pairwise_shiftSite word order⟩, fun before name => ?_⟩
        · rw [helperCalls_word isWord ends none, List.map_cons, namesLater, called.1, called.2]
          rfl
        · rw [callsAt_word isWord ends none, List.mem_cons, Prod.mk.injEq, allLater]
          simp only [called, and_true]
      · refine ⟨sites.map (shiftSite word), ?_, pairwise_shiftSite word order, fun before name => ?_⟩
        · rw [helperCalls_word isWord ends none, namesLater, if_neg, List.nil_append]
          simpa using called
        · rw [callsAt_word isWord ends none, allLater, or_iff_right]
          exact fun here => called here.2.2

/-- The scan finds the helpers that are called, and no others. -/
theorem mem_helperCalls_iff : name ∈ helperCalls 0 text ↔ Calls text name := by
  obtain ⟨sites, names, -, all⟩ := exists_sites text
  simp only [← names, List.mem_map, Prod.exists, exists_eq_right, all]
  rfl

theorem quiet_iff : Quiet text ↔ helperCalls 0 text = [] := by
  rw [List.eq_nil_iff_forall_not_mem]
  exact forall_congr' fun name => not_congr mem_helperCalls_iff.symm

instance (text : List Char) : Decidable (Closes text) :=
  Option.decidableForallMem text.getLast?

instance (text : List Char) : Decidable (Opens text) :=
  Option.decidableForallMem text.head?

instance (text : List Char) : Decidable (Quiet text) :=
  decidable_of_iff' _ quiet_iff

end EscapeTime.Shader
