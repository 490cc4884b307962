import EscapeTime.Shader.Function
import Mathlib.Data.List.Flatten

/-!
# Splitting a source text

A source text falls into blocks of lines: a block ends where the braces are balanced. The
definitions are the blocks that start with a line of code. So code is lost exactly if a comment
between two blocks opens or closes a brace: it starts a block of its own, and the lines up to the
end of that block are left out with it.
-/

namespace EscapeTime.Shader

/-! ### Lines -/

/-- The text of lines, each with its end. -/
def unlines (ls : List (List Char)) : List Char :=
  ls.flatMap (· ++ ['\n'])

/-- The lines of a text. A last line need not have an end, but then it is not empty. -/
def LinesOf (source : List Char) (ls : List (List Char)) : Prop :=
  ∃ front tail, (∀ line ∈ front, '\n' ∉ line) ∧ '\n' ∉ tail ∧ source = unlines front ++ tail ∧
    ls = front ++ if tail = [] then [] else [tail]

theorem linesOf_lines (source : List Char) : LinesOf source (lines source) := by
  induction source with
  | nil => exact ⟨[], [], nofun, List.not_mem_nil, rfl, rfl⟩
  | cons c cs ih =>
    obtain ⟨front, tail, unbroken, unended, rfl, split⟩ := ih
    rw [lines, split]
    by_cases ends : c = '\n'
    · rw [if_pos ends]
      refine ⟨[] :: front, tail, ?_, unended, by rw [ends]; rfl, rfl⟩
      exact List.forall_mem_cons.mpr ⟨List.not_mem_nil, unbroken⟩
    · have goesOn {line : List Char} (unbroken : '\n' ∉ line) : '\n' ∉ c :: line := by
        simp only [List.mem_cons, not_or]
        exact ⟨Ne.symm ends, unbroken⟩
      rw [if_neg ends]
      cases front with
      | nil =>
        refine ⟨[], c :: tail, unbroken, goesOn unended, rfl, ?_⟩
        by_cases none : tail = [] <;> simp [none]
      | cons line front =>
        obtain ⟨first, others⟩ := List.forall_mem_cons.mp unbroken
        exact ⟨(c :: line) :: front, tail, List.forall_mem_cons.mpr ⟨goesOn first, others⟩, unended,
          rfl, rfl⟩

theorem LinesOf.unbroken {source : List Char} {ls : List (List Char)} (split : LinesOf source ls) :
    ∀ line ∈ ls, '\n' ∉ line := by
  obtain ⟨front, tail, unbroken, unended, -, rfl⟩ := split
  intro line member
  rcases List.mem_append.mp member with member | member
  · exact unbroken line member
  · split at member
    · cases member
    · rwa [List.mem_singleton.mp member]

theorem unlines_cons (line : List Char) (ls : List (List Char)) :
    unlines (line :: ls) = line ++ '\n' :: unlines ls := by
  rw [unlines, List.flatMap_cons, List.append_assoc]
  rfl

theorem unlines_append (ls ks : List (List Char)) :
    unlines (ls ++ ks) = unlines ls ++ unlines ks :=
  List.flatMap_append

theorem unlines_flatten (blocks : List (List (List Char))) :
    unlines blocks.flatten = (blocks.map unlines).flatten := by
  induction blocks with
  | nil => rfl
  | cons block blocks ih =>
    rw [List.flatten_cons, unlines_append, ih]
    rfl

theorem unlines_inj {ls ks : List (List Char)} (left : ∀ line ∈ ls, '\n' ∉ line)
    (right : ∀ line ∈ ks, '\n' ∉ line) (same : unlines ls = unlines ks) : ls = ks := by
  induction ls generalizing ks with
  | nil =>
    cases ks with
    | nil => rfl
    | cons k ks => simp [unlines] at same
  | cons l ls ih =>
    cases ks with
    | nil => simp [unlines] at same
    | cons k ks =>
      obtain ⟨first, others⟩ := List.forall_mem_cons.mp left
      obtain ⟨first', others'⟩ := List.forall_mem_cons.mp right
      rw [unlines_cons, unlines_cons] at same
      have breaks (line more : List Char) (unbroken : '\n' ∉ line) :
          (line ++ '\n' :: more).takeWhile (· != '\n') = line := by
        rw [List.takeWhile_append_of_pos, List.takeWhile_cons_of_neg (by simp), List.append_nil]
        intro c member
        exact bne_iff_ne.mpr fun ends => unbroken (ends ▸ member)
      have front := congrArg (List.takeWhile (· != '\n')) same
      rw [breaks _ _ first, breaks _ _ first'] at front
      subst front
      rw [List.append_cancel_left_eq, List.cons.injEq] at same
      rw [ih others others' same.2]

/-! ### Blocks -/

/-- How much deeper the lines go. -/
def depthOf : List (List Char) → Int
  | [] => 0
  | line :: more => braceDepth line + depthOf more

/-- A block: lines that go back to where they started at their end only, if at all. -/
structure IsBlock (block : List (List Char)) : Prop where
  nonempty : block ≠ []
  inside : ∀ front back, block = front ++ back → front ≠ [] → back ≠ [] → depthOf front ≠ 0

/-- Blocks one after another. Only the last one can end away from where it started. -/
inductive Blocks : List (List (List Char)) → Prop
  | nil : Blocks []
  | cons {block : List (List Char)} {blocks : List (List (List Char))} :
    IsBlock block → (blocks ≠ [] → depthOf block = 0) → Blocks blocks → Blocks (block :: blocks)

/-- The lines up to the next start of a block, and the blocks from there on. -/
def cut : (depth : Int) → List (List Char) → List (List Char) × List (List (List Char))
  | _, [] => ([], [])
  | depth, line :: more =>
    let (rest, later) := cut (depth + braceDepth line) more
    if depth = 0 then ([], (line :: rest) :: later) else (line :: rest, later)

def startsCode (block : List (List Char)) : Bool :=
  block.head?.any (!isFiller ·)

theorem cut_zero (ls : List (List Char)) : (cut 0 ls).1 = [] := by
  cases ls <;> rfl

/-- A definition is a block that starts with a line of code. -/
theorem gather_eq {depth : Int} {inside : Bool} (deep : inside → depth ≠ 0)
    (ls : List (List Char)) :
    gather depth inside ls =
      (if inside then unlines (cut depth ls).1 else [],
        ((cut depth ls).2.filter startsCode).map unlines) := by
  induction ls generalizing depth inside with
  | nil => cases inside <;> rfl
  | cons line more ih =>
    -- A definition goes on after a line exactly if the block does.
    have rest (within : Bool) (next : Int) :
        (if within && next != 0 then unlines (cut next more).1 else []) =
          if within then unlines (cut next more).1 else [] := by
      by_cases back : next = 0
      · subst back
        rw [cut_zero]
        cases within <;> rfl
      · simp [back]
    rw [gather, cut]
    dsimp only
    rw [ih (by simp), rest]
    by_cases outside : depth = 0
    · subst outside
      obtain rfl : inside = false := by simpa using deep
      cases filler : isFiller line <;> simp [startsCode, filler, unlines_cons]
    · cases inside <;> simp [outside, unlines_cons]

theorem flatten_cut (depth : Int) (ls : List (List Char)) :
    (cut depth ls).1 ++ (cut depth ls).2.flatten = ls := by
  induction ls generalizing depth with
  | nil => rfl
  | cons line more ih =>
    have rest := ih (depth + braceDepth line)
    rw [cut]
    dsimp only
    split
    · exact congrArg (line :: ·) rest
    · exact congrArg (line :: ·) rest

theorem cut_spec (depth : Int) (ls : List (List Char)) :
    (∀ front back, (cut depth ls).1 = front ++ back → back ≠ [] → depth + depthOf front ≠ 0) ∧
      ((cut depth ls).2 ≠ [] → depth + depthOf (cut depth ls).1 = 0) ∧ Blocks (cut depth ls).2 := by
  induction ls generalizing depth with
  | nil =>
    refine ⟨?_, nofun, .nil⟩
    rintro front back split nonempty
    exact (nonempty (List.append_eq_nil_iff.mp split.symm).2).elim
  | cons line more ih =>
    obtain ⟨inside, ends, blocks⟩ := ih (depth + braceDepth line)
    rw [cut]
    dsimp only
    split
    · rename_i outside
      subst outside
      refine ⟨?_, fun _ => rfl, .cons ⟨List.cons_ne_nil _ _, ?_⟩ ?_ blocks⟩
      · rintro front back split nonempty
        exact (nonempty (List.append_eq_nil_iff.mp split.symm).2).elim
      · rintro front back split started nonempty
        obtain ⟨first, front, rfl⟩ := List.exists_cons_of_ne_nil started
        obtain ⟨rfl, others⟩ := List.cons.inj split
        have deep := inside front back others nonempty
        rw [depthOf]
        omega
      · intro more
        have back := ends more
        rw [depthOf]
        omega
    · rename_i deep
      refine ⟨?_, ?_, blocks⟩
      · rintro front back split nonempty
        cases front with
        | nil => simpa [depthOf] using deep
        | cons first front =>
          obtain ⟨rfl, others⟩ := List.cons.inj split
          have deep := inside front back others nonempty
          rw [depthOf]
          omega
      · intro more
        have back := ends more
        rw [depthOf]
        omega

/-! ### What is kept -/

/-- Lines from a depth on, without some blank lines and comments outside braces. -/
inductive Kept : (depth : Int) → (all kept : List (List Char)) → Prop
  | nil (depth : Int) : Kept depth [] []
  | keep {depth : Int} {all kept : List (List Char)} (line : List Char) :
    Kept (depth + braceDepth line) all kept → Kept depth (line :: all) (line :: kept)
  | drop {line : List Char} {all kept : List (List Char)} :
    isFiller line → Kept (0 + braceDepth line) all kept → Kept 0 (line :: all) kept

def LosesNoCode (ls : List (List Char)) (definitions : List String) : Prop :=
  ∃ kept, Kept 0 ls kept ∧ (definitions.map String.toList).flatten = unlines kept

theorem Kept.refl (depth : Int) (ls : List (List Char)) : Kept depth ls ls := by
  induction ls generalizing depth with
  | nil => exact .nil depth
  | cons line more ih => exact .keep line (ih _)

theorem Kept.sublist {depth : Int} {all kept : List (List Char)} (keeps : Kept depth all kept) :
    kept.Sublist all := by
  induction keeps with
  | nil => exact .slnil
  | keep line _ ih => exact ih.cons_cons line
  | drop _ _ ih => exact ih.cons _

theorem Kept.append {depth : Int} {ls ks ls' ks' : List (List Char)} (first : Kept depth ls ks)
    (second : Kept (depth + depthOf ls) ls' ks') : Kept depth (ls ++ ls') (ks ++ ks') := by
  induction first with
  | nil depth => simpa [depthOf] using second
  | keep line _ ih =>
    rw [depthOf, ← Int.add_assoc] at second
    exact .keep line (ih second)
  | drop filler _ ih =>
    rw [depthOf, ← Int.add_assoc] at second
    exact .drop filler (ih second)

theorem Kept.split {depth : Int} {ls ls' ks : List (List Char)}
    (keeps : Kept depth (ls ++ ls') ks) :
    ∃ ks₁ ks₂, ks = ks₁ ++ ks₂ ∧ Kept depth ls ks₁ ∧ Kept (depth + depthOf ls) ls' ks₂ := by
  induction ls generalizing depth ks with
  | nil => exact ⟨[], ks, rfl, .nil depth, by simpa [depthOf] using keeps⟩
  | cons line ls ih =>
    cases keeps with
    | keep _ rest =>
      obtain ⟨ks₁, ks₂, rfl, first, second⟩ := ih rest
      rw [Int.add_assoc] at second
      exact ⟨line :: ks₁, ks₂, rfl, .keep line first, second⟩
    | drop filler rest =>
      obtain ⟨ks₁, ks₂, rfl, first, second⟩ := ih rest
      rw [Int.add_assoc] at second
      exact ⟨ks₁, ks₂, rfl, .drop filler first, second⟩

/-- Inside braces every line is kept. -/
theorem Kept.eq_of_inside {depth : Int} {all kept : List (List Char)} (keeps : Kept depth all kept)
    (inside : ∀ front back, all = front ++ back → back ≠ [] → depth + depthOf front ≠ 0) :
    kept = all := by
  induction keeps with
  | nil => rfl
  | @keep depth all kept line _ ih =>
    rw [ih]
    intro front back split nonempty
    have deep := inside (line :: front) back (congrArg (line :: ·) split) nonempty
    rwa [depthOf, ← Int.add_assoc] at deep
  | drop => exact (inside [] _ rfl (List.cons_ne_nil _ _) rfl).elim

theorem IsBlock.kept {block kept : List (List Char)} (isBlock : IsBlock block)
    (keeps : Kept 0 block kept) :
    kept = block ∨ startsCode block = false ∧ kept.length + 1 = block.length := by
  obtain ⟨line, rest, rfl⟩ := List.exists_cons_of_ne_nil isBlock.nonempty
  have inside (front back : List (List Char)) (split : rest = front ++ back)
      (nonempty : back ≠ []) : 0 + braceDepth line + depthOf front ≠ 0 := by
    have deep := isBlock.inside (line :: front) back (congrArg (line :: ·) split)
      (List.cons_ne_nil _ _) nonempty
    rw [depthOf] at deep
    omega
  cases keeps with
  | keep _ others => exact .inl (congrArg (line :: ·) (others.eq_of_inside inside))
  | drop filler others =>
    rw [others.eq_of_inside inside]
    exact .inr ⟨by simpa [startsCode] using filler, rfl⟩

theorem kept_nil_iff {depth : Int} {kept : List (List Char)} : Kept depth [] kept ↔ kept = [] := by
  constructor
  · intro keeps
    cases keeps
    rfl
  · rintro rfl
    exact .nil depth

/-- What follows a block is outside braces, if there is anything. -/
theorem kept_after {block : List (List Char)} {blocks : List (List (List Char))}
    (balanced : blocks ≠ [] → depthOf block = 0) {kept : List (List Char)} :
    Kept (0 + depthOf block) blocks.flatten kept ↔ Kept 0 blocks.flatten kept := by
  by_cases none : blocks = []
  · rw [none, List.flatten_nil, kept_nil_iff, kept_nil_iff]
  · rw [balanced none, Int.add_zero]

/-- Of the lines of blocks at least those of the definitions are kept, and no more only if every
other block is a single line. -/
theorem Blocks.kept {blocks : List (List (List Char))} (isBlocks : Blocks blocks)
    {kept : List (List Char)} (keeps : Kept 0 blocks.flatten kept) :
    (blocks.filter startsCode).flatten.length ≤ kept.length ∧
      ((blocks.filter startsCode).flatten.length = kept.length →
        ∀ block ∈ blocks, startsCode block = false → block.length = 1) := by
  induction isBlocks generalizing kept with
  | nil => simp
  | @cons block blocks isBlock balanced _ ih =>
    obtain ⟨first, others, rfl, keepsFirst, keepsOthers⟩ := keeps.split
    obtain ⟨least, single⟩ := ih ((kept_after balanced).mp keepsOthers)
    have size := isBlock.kept keepsFirst
    cases code : startsCode block with
    | true =>
      rw [code] at size
      obtain rfl : first = block := by simpa using size
      rw [List.filter_cons_of_pos code, List.flatten_cons, List.length_append, List.length_append]
      refine ⟨by omega, fun same => List.forall_mem_cons.mpr ⟨?_, single (by omega)⟩⟩
      simp [code]
    | false =>
      have short : block.length ≤ first.length + 1 := by
        rcases size with same | ⟨-, size⟩
        · rw [same]
          exact Nat.le_succ _
        · exact Nat.le_of_eq size.symm
      have some := List.length_pos_iff.mpr isBlock.nonempty
      rw [List.filter_cons_of_neg (by simp [code]), List.length_append]
      exact ⟨by omega, fun same => List.forall_mem_cons.mpr ⟨fun _ => by omega, single (by omega)⟩⟩

theorem Blocks.keeps {blocks : List (List (List Char))} (isBlocks : Blocks blocks)
    (single : ∀ block ∈ blocks, startsCode block = false → block.length = 1) :
    Kept 0 blocks.flatten (blocks.filter startsCode).flatten := by
  induction isBlocks with
  | nil => exact .nil 0
  | @cons block blocks isBlock balanced _ ih =>
    obtain ⟨first, others⟩ := List.forall_mem_cons.mp single
    have later := (kept_after balanced).mpr (ih others)
    cases code : startsCode block with
    | true =>
      rw [List.filter_cons_of_pos code]
      exact (Kept.refl 0 block).append later
    | false =>
      rw [List.filter_cons_of_neg (by simp [code])]
      obtain ⟨line, rfl⟩ := List.length_eq_one_iff.mp (first code)
      have filler : isFiller line := by simpa [startsCode] using code
      exact .drop filler (by simpa [depthOf] using later)

theorem depthOf_append (ls ks : List (List Char)) :
    depthOf (ls ++ ks) = depthOf ls + depthOf ks := by
  induction ls with
  | nil => simp [depthOf]
  | cons line ls ih =>
    rw [List.cons_append, depthOf, depthOf, ih, Int.add_assoc]

/-- No blank line or comment outside braces changes the depth, unless it is the last line. -/
def Steady (ls : List (List Char)) : Prop :=
  ∀ before line after, ls = before ++ line :: after → depthOf before = 0 → isFiller line →
    after ≠ [] → braceDepth line = 0

section

variable {block rest : List (List Char)}

theorem Steady.first_single (steady : Steady (block ++ rest)) (isBlock : IsBlock block)
    (dropped : startsCode block = false) : block.length = 1 := by
  obtain ⟨line, back, rfl⟩ := List.exists_cons_of_ne_nil isBlock.nonempty
  have filler : isFiller line := by simpa [startsCode] using dropped
  cases back with
  | nil => rfl
  | cons next back =>
    have same := steady [] line (next :: (back ++ rest)) rfl rfl filler (List.cons_ne_nil _ _)
    have deep := isBlock.inside [line] (next :: back) rfl (List.cons_ne_nil _ _)
      (List.cons_ne_nil _ _)
    exact (deep (by rw [depthOf, same]; rfl)).elim

/-- Outside braces is a block's first line and what follows the block. -/
theorem steady_append_iff (isBlock : IsBlock block) (balanced : rest ≠ [] → depthOf block = 0) :
    Steady (block ++ rest) ↔ (startsCode block = false → block.length = 1) ∧ Steady rest := by
  constructor
  · intro steady
    refine ⟨steady.first_single isBlock, ?_⟩
    intro before line after split outside
    refine steady (block ++ before) line after (by rw [split, List.append_assoc]) ?_
    rw [depthOf_append, balanced (by simp [split]), outside]
    rfl
  · rintro ⟨single, others⟩ before line after split outside filler more
    rcases List.append_eq_append_iff.mp split with ⟨back, rfl, tail⟩ | ⟨back, here, tail⟩
    · refine others back line after tail ?_ filler more
      rwa [depthOf_append, balanced (by simp [tail]), Int.zero_add] at outside
    · cases back with
      | nil => exact others [] line after tail.symm rfl filler more
      | cons first back =>
        obtain ⟨rfl, rfl⟩ := List.cons.inj tail
        by_cases start : before = []
        · subst start here
          have size := single (by simpa [startsCode] using filler)
          obtain rfl : back = [] := by simpa using size
          simpa [depthOf] using balanced more
        · exact (isBlock.inside before _ here start (List.cons_ne_nil _ _) outside).elim

end

theorem Blocks.single_iff {blocks : List (List (List Char))} (isBlocks : Blocks blocks) :
    (∀ block ∈ blocks, startsCode block = false → block.length = 1) ↔ Steady blocks.flatten := by
  induction isBlocks with
  | nil => simp [Steady]
  | @cons block blocks isBlock balanced _ ih =>
    have follows : blocks.flatten ≠ [] → depthOf block = 0 := by
      intro more
      refine balanced ?_
      rintro rfl
      exact more rfl
    rw [List.forall_mem_cons, ih, List.flatten_cons, steady_append_iff isBlock follows]

/-! ### Definitions -/

theorem splitDefinitions_eq (source : String) :
    splitDefinitions source = ((cut 0 (lines source.toList)).2.filter startsCode).map
      fun b => String.ofList (unlines b) := by
  rw [splitDefinitions, gather_eq (by simp), List.map_map]
  rfl

theorem flatten_blocks (ls : List (List Char)) : (cut 0 ls).2.flatten = ls := by
  have whole := flatten_cut 0 ls
  rwa [cut_zero, List.nil_append] at whole

theorem text_definitions (blocks : List (List (List Char))) :
    ((blocks.map fun b => String.ofList (unlines b)).map String.toList).flatten =
      unlines blocks.flatten := by
  rw [List.map_map, unlines_flatten]
  congr 1
  refine List.map_congr_left fun block _ => ?_
  exact String.toList_ofList

theorem losesNoCode_iff (source : String) :
    LosesNoCode (lines source.toList) (splitDefinitions source) ↔ Steady (lines source.toList) := by
  have unbroken := (linesOf_lines source.toList).unbroken
  obtain ⟨-, -, blocks⟩ := cut_spec 0 (lines source.toList)
  have single := blocks.single_iff
  rw [flatten_blocks] at single
  rw [← single, LosesNoCode, splitDefinitions_eq, text_definitions]
  have whole := flatten_blocks (lines source.toList)
  generalize (cut 0 (lines source.toList)).2 = bs at *
  constructor
  · rintro ⟨kept, keeps, same⟩
    have parts : (bs.filter startsCode).flatten.Sublist bs.flatten :=
      (List.filter_sublist).flatten
    have same : (bs.filter startsCode).flatten = kept := by
      refine unlines_inj ?_ ?_ same
      · intro line member
        exact unbroken line (whole ▸ parts.subset member)
      · intro line member
        exact unbroken line (keeps.sublist.subset member)
    rw [← whole] at keeps
    exact (blocks.kept keeps).2 (by rw [same])
  · intro single
    exact ⟨_, whole ▸ blocks.keeps single, rfl⟩

/-- The definitions are the blocks of lines that start with code. Nothing but blank lines and
comments outside braces is lost if and only if no such line changes the depth of braces in front of
other lines. -/
theorem splitting_by_blocks (source : String) :
    LinesOf source.toList (lines source.toList) ∧
      (∃ kept, kept.Sublist (lines source.toList) ∧
        ((splitDefinitions source).map String.toList).flatten = unlines kept) ∧
      (∃ blocks, Blocks blocks ∧ blocks.flatten = lines source.toList ∧
        splitDefinitions source =
          (blocks.filter startsCode).map fun b => String.ofList (unlines b)) ∧
      (LosesNoCode (lines source.toList) (splitDefinitions source) ↔
        ∀ before line after, lines source.toList = before ++ line :: after → depthOf before = 0 →
          isFiller line → after ≠ [] → braceDepth line = 0) := by
  obtain ⟨-, -, blocks⟩ := cut_spec 0 (lines source.toList)
  have whole := flatten_blocks (lines source.toList)
  have split := splitDefinitions_eq source
  refine ⟨linesOf_lines _, ?_, ⟨_, blocks, whole, split⟩, losesNoCode_iff source⟩
  refine ⟨((cut 0 (lines source.toList)).2.filter startsCode).flatten, ?_, ?_⟩
  · have parts := (List.filter_sublist (p := startsCode)
      (l := (cut 0 (lines source.toList)).2)).flatten
    rwa [whole] at parts
  · rw [split, text_definitions]

theorem brace_in_comment_loses_code :
    ¬ LosesNoCode (lines "// \x7b\nfloat f() \x7b return 1.; \x7d\n".toList)
      (splitDefinitions "// \x7b\nfloat f() \x7b return 1.; \x7d\n") := by
  rw [losesNoCode_iff]
  intro steady
  have comment := steady [] "// \x7b".toList ["float f() \x7b return 1.; \x7d".toList]
    (by decide) rfl (by decide) (by decide)
  exact absurd comment (by decide)

end EscapeTime.Shader
