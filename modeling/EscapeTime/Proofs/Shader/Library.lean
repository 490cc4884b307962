import EscapeTime.Proofs.Shader.Splitting
import EscapeTime.Shader.Library
import Mathlib.Data.List.Forall2

/-!
# The definitions of the helper library

The source of the library reads without an error as the eighteen definitions that are written out
here.
-/

namespace EscapeTime.Shader

/-- The definition of a helper with the given parameters and statements. -/
def helper (name parameters : String) (statements : List String) : Function where
  name := name
  source := "vec2 " ++ name ++ "(" ++ parameters ++ ") \x7b\n" ++
    String.join (statements.map ("\t" ++ · ++ "\n")) ++ "\x7d"

/-- The helpers, written out. -/
def helperDefinitions : List Function := [
  helper "cMul" "vec2 a, vec2 b"
    ["return vec2(a.x*b.x - a.y*b.y, a.x*b.y + a.y*b.x);"],
  helper "cDiv" "vec2 a, vec2 b"
    ["return vec2(a.x*b.x + a.y*b.y, a.y*b.x - a.x*b.y) / (b.x*b.x + b.y*b.y);"],
  helper "cExp" "vec2 z"
    ["float r = exp(z.x);",
     "return vec2(r*cos(z.y), r*sin(z.y));"],
  helper "cLog" "vec2 z"
    ["return vec2(log(length(z)), atan(z.y, z.x));"],
  helper "cSqrt" "vec2 z"
    ["return cExp(cLog(z)/2.);"],
  helper "cPow" "vec2 z, vec2 e"
    ["return cExp(cMul(cLog(z), e));"],
  helper "cCos" "vec2 z"
    ["return (cExp(vec2(-z.y, z.x)) + cExp(vec2(z.y, -z.x)))/2.;"],
  helper "cSin" "vec2 z"
    ["return cDiv(cExp(vec2(-z.y, z.x)) - cExp(vec2(z.y, -z.x)), vec2(0., 2.));"],
  helper "cTan" "vec2 z"
    ["return cDiv(cSin(z), cCos(z));"],
  helper "cCosh" "vec2 z"
    ["return (cExp(z) + cExp(-z))/2.;"],
  helper "cSinh" "vec2 z"
    ["return (cExp(z) - cExp(-z))/2.;"],
  helper "cTanh" "vec2 z"
    ["return cDiv(cSinh(z), cCosh(z));"],
  helper "cAsin" "vec2 z"
    ["vec2 w = cLog(cSqrt(vec2(1.,0.) - cMul(z,z)) - vec2(z.y, -z.x));",
     "return vec2(w.y, -w.x);"],
  helper "cAcos" "vec2 z"
    ["vec2 s = cSqrt(vec2(1.,0.) - cMul(z,z));",
     "vec2 w = cLog(z + vec2(-s.y, s.x));",
     "return vec2(w.y, -w.x);"],
  helper "cAtan" "vec2 z"
    ["vec2 w = cLog(cDiv(vec2(1.-z.y, z.x), vec2(1.+z.y, -z.x)))/2.;",
     "return vec2(w.y, -w.x);"],
  helper "cAcosh" "vec2 z"
    ["return cLog(z + cSqrt(cMul(z,z) - vec2(1.,0.)));"],
  helper "cAsinh" "vec2 z"
    ["return cLog(z + cSqrt(cMul(z,z) + vec2(1.,0.)));"],
  helper "cAtanh" "vec2 z"
    ["return cLog(cDiv(vec2(1.,0.) + z, vec2(1.,0.) - z))/2.;"]]

/-! ### Reading a definition -/

/-- What stands before the name in the definition of a helper. -/
def returnType : List Char :=
  ['v', 'e', 'c', '2', ' ']

/-- The lines of the definition of a helper. -/
def definitionLines (name inputs : List Char) (body : List (List Char)) : List (List Char) :=
  (returnType ++ (name ++ '(' :: (inputs ++ [')', ' ', '\x7b']))) ::
    (body.map ('\t' :: ·) ++ [['\x7d']])

theorem toList_source_helper {name parameters : String} {statements : List String}
    {letters inputs : List Char} {lines : List (List Char)} (first : String.ofList letters = name)
    (second : String.ofList inputs = parameters)
    (third : List.Forall₂ (fun s l => String.ofList l = s) statements lines) :
    (helper name parameters statements).source.toList =
      returnType ++ (letters ++ '(' :: (inputs ++ ([')', ' ', '\x7b', '\n'] ++
        (lines.flatMap (fun l => '\t' :: (l ++ ['\n'])) ++ ['\x7d'])))) := by
  have body : (String.join (statements.map ("\t" ++ · ++ "\n"))).toList =
      lines.flatMap fun l => '\t' :: (l ++ ['\n']) := by
    induction third with
    | nil => rfl
    | cons same _ ih =>
      subst same
      rw [List.map_cons, String.join_cons, String.toList_append, ih, List.flatMap_cons]
      simp
  subst first second
  simp only [helper, String.toList_append, body, String.toList_ofList, List.append_assoc]
  rfl

theorem unlines_definitionLines (name inputs : List Char) (body : List (List Char)) :
    unlines (definitionLines name inputs body) =
      returnType ++ (name ++ '(' :: (inputs ++ ([')', ' ', '\x7b', '\n'] ++
        (body.flatMap (fun l => '\t' :: (l ++ ['\n'])) ++ ['\x7d'])))) ++ ['\n'] := by
  rw [definitionLines, unlines_cons, unlines_append]
  simp [unlines, List.flatMap_map]

/-- White space around a text that neither starts nor ends with it is trimmed. -/
theorem trim_padded (front back : List Char) {cs : List Char}
    (before : front.all Text.isBlank = true) (after : back.all Text.isBlank = true)
    (first : cs.head?.any (!Text.isBlank ·) = true)
    (last : cs.getLast?.any (!Text.isBlank ·) = true) : Text.trim (front ++ (cs ++ back)) = cs := by
  have kept {ls : List Char} (first : ls.head?.any (!Text.isBlank ·) = true) :
      ls.dropWhile Text.isBlank = ls := by
    cases ls with
    | nil => rfl
    | cons c ls =>
      rw [List.dropWhile_cons_of_neg]
      simpa using first
  have opened : (cs ++ back).dropWhile Text.isBlank = cs ++ back := by
    cases cs with
    | nil => cases first
    | cons c cs => exact kept first
  have closed : (cs ++ back).reverse.dropWhile Text.isBlank = cs.reverse := by
    rw [List.reverse_append, List.dropWhile_append_of_pos, kept (by rwa [List.head?_reverse])]
    intro c mem
    exact List.all_eq_true.1 after c (List.mem_reverse.1 mem)
  rw [Text.trim, List.dropWhile_append_of_pos (List.all_eq_true.1 before), opened, closed,
    List.reverse_reverse]

/-- The name of a helper: a word without white space or parenthesis. -/
def IsName (name : List Char) : Prop :=
  name ≠ [] ∧ name.all (fun c => c != '(' && !Text.isBlank c) = true

instance (name : List Char) : Decidable (IsName name) :=
  inferInstanceAs (Decidable (_ ∧ _))

theorem ofSource_definition {name body : List Char} (isName : IsName name) :
    Function.ofSource
        (String.ofList (returnType ++ (name ++ '(' :: (body ++ ['\x7d'])) ++ ['\n'])) =
      .ok ⟨String.ofList name,
        String.ofList (returnType ++ (name ++ '(' :: (body ++ ['\x7d'])))⟩ := by
  obtain ⟨nonempty, plain⟩ := isName
  have plain (c : Char) (mem : c ∈ name) : c ≠ '(' ∧ Text.isBlank c = false := by
    simpa using List.all_eq_true.1 plain c mem
  have source : Text.trim (returnType ++ (name ++ '(' :: (body ++ ['\x7d'])) ++ ['\n']) =
      returnType ++ (name ++ '(' :: (body ++ ['\x7d'])) := by
    rw [← List.nil_append (returnType ++ _ ++ _)]
    refine trim_padded [] ['\n'] rfl rfl ?_ ?_
    · rfl
    · rw [← List.cons_append, ← List.append_assoc, ← List.append_assoc, List.getLast?_concat]
      rfl
  have head : (returnType ++ (name ++ '(' :: (body ++ ['\x7d']))).takeWhile (· != '(') =
      returnType ++ name := by
    rw [← List.append_assoc, List.takeWhile_append_of_pos, List.takeWhile_cons_of_neg (by decide),
      List.append_nil]
    intro c mem
    rcases List.mem_append.1 mem with mem | mem
    · exact List.all_eq_true.1 (by decide : returnType.all (· != '(') = true) c mem
    · simpa using (plain c mem).1
  have called : Text.trim ((returnType ++ name).dropWhile (· != ' ')) = name := by
    rw [show (returnType ++ name).dropWhile (· != ' ') = [' '] ++ (name ++ []) by
      simp [returnType]]
    refine trim_padded [' '] [] rfl rfl ?_ ?_
    · simp [List.head?_eq_some_head nonempty, (plain _ (List.head_mem nonempty)).2]
    · simp [List.getLast?_eq_some_getLast nonempty, (plain _ (List.getLast_mem nonempty)).2]
  rw [Function.ofSource, String.toList_ofList]
  dsimp only
  rw [source, head, called, if_neg, if_neg]
  · simpa using nonempty
  · simp [returnType]

/-! ### Reading the source -/

/-- The lines define the function and nothing else. -/
structure Part (ls : List String) (f : Function) : Prop where
  unbroken : ∀ l ∈ ls, '\n' ∉ l.toList
  balanced : depthOf (ls.map String.toList) = 0
  defines : ∃ block, (cut 0 (ls.map String.toList)).2.filter startsCode = [block] ∧
    Function.ofSource (String.ofList (unlines block)) = .ok f

theorem cut_append {depth : Int} (ks ls : List (List Char)) (back : depth + depthOf ks = 0) :
    cut depth (ks ++ ls) = ((cut depth ks).1, (cut depth ks).2 ++ (cut 0 ls).2) := by
  induction ks generalizing depth with
  | nil =>
    obtain rfl : depth = 0 := by simpa [depthOf] using back
    exact Prod.ext (cut_zero ls) rfl
  | cons line ks ih =>
    rw [depthOf] at back
    rw [List.cons_append, cut, ih (by omega), cut]
    dsimp only
    split <;> rfl

theorem lines_line {line : List Char} (unbroken : '\n' ∉ line) (cs : List Char) :
    lines (line ++ '\n' :: cs) = line :: lines cs := by
  induction line with
  | nil => rfl
  | cons c line ih =>
    rw [List.mem_cons, not_or] at unbroken
    rw [List.cons_append, lines, if_neg (Ne.symm unbroken.1), ih unbroken.2]

theorem lines_unlines {ls : List (List Char)} (unbroken : ∀ line ∈ ls, '\n' ∉ line) :
    lines (unlines ls) = ls := by
  induction ls with
  | nil => rfl
  | cons line ls ih =>
    obtain ⟨first, others⟩ := List.forall_mem_cons.1 unbroken
    rw [unlines_cons, lines_line first, ih others]

theorem toList_source (ls : List String) :
    (String.join (ls.map (· ++ "\n"))).toList = unlines (ls.map String.toList) := by
  induction ls with
  | nil => rfl
  | cons l ls ih =>
    rw [List.map_cons, String.join_cons, String.toList_append, ih, String.toList_append,
      List.map_cons, unlines_cons, List.append_assoc]
    rfl

/-- The functions of parts that define one each. -/
theorem functionsOf_parts {parts : List (List String)} {fs : List Function}
    (all : List.Forall₂ Part parts fs) :
    functionsOf (String.join (parts.flatten.map (· ++ "\n"))) = .ok fs := by
  have unbroken : ∀ line ∈ parts.flatten.map String.toList, '\n' ∉ line := by
    induction all with
    | nil => nofun
    | cons part _ ih =>
      rw [List.flatten_cons, List.map_append, List.forall_mem_append]
      exact ⟨List.forall_mem_map.2 part.unbroken, ih⟩
  rw [functionsOf, splitDefinitions_eq, toList_source, lines_unlines unbroken]
  clear unbroken
  induction all with
  | nil => rfl
  | @cons ls f parts fs part _ ih =>
    obtain ⟨block, defined, reads⟩ := part.defines
    rw [List.flatten_cons, List.map_append,
      cut_append _ _ (by rw [part.balanced, Int.zero_add]), List.filter_append, defined,
      List.map_append, List.map_singleton, List.singleton_append, List.mapM_cons, reads, ih]
    rfl

theorem part_helper {ls : List String} {cs : List (List Char)} {name parameters : String}
    {statements : List String} {letters inputs : List Char} {lines : List (List Char)}
    (same : List.Forall₂ (fun s l => String.ofList l = s) ls cs)
    (first : String.ofList letters = name) (second : String.ofList inputs = parameters)
    (third : List.Forall₂ (fun s l => String.ofList l = s) statements lines)
    (reads : IsName letters ∧ cs.all (!·.contains '\n') = true ∧ depthOf cs = 0 ∧
      (cut 0 cs).2.filter startsCode = [definitionLines letters inputs lines]) :
    Part ls (helper name parameters statements) := by
  obtain ⟨isName, unbroken, balanced, defined⟩ := reads
  have chars : ls.map String.toList = cs := by
    rw [← List.forall₂_eq_eq_eq, List.forall₂_map_left_iff]
    refine same.imp fun s l same => ?_
    rw [← same, String.toList_ofList]
  refine ⟨?_, by rw [chars, balanced], _, by rw [chars, defined], ?_⟩
  · intro l mem
    have mem : l.toList ∈ cs := chars ▸ List.mem_map_of_mem mem
    simpa using List.all_eq_true.1 unbroken _ mem
  · have source := toList_source_helper first second third
    rw [unlines_definitionLines, ← List.append_assoc inputs, ← List.append_assoc (inputs ++ _),
      ofSource_definition isName, List.append_assoc (inputs ++ _), List.append_assoc inputs,
      ← source, String.ofList_toList, first]
    rfl

theorem functionsOf_librarySource : functionsOf librarySource = .ok helperDefinitions := by
  refine functionsOf_parts ?_
  unfold libraryParts helperDefinitions
  iterate 18
    refine .cons (part_helper (by repeat constructor) rfl rfl (by repeat constructor)
      (by decide +kernel)) ?_
  exact .nil

theorem helperLibrary_eq : helperLibrary = helperDefinitions := by
  rw [helperLibrary_def, functionsOf_librarySource]
  rfl

theorem helperLibrary_names : helperLibrary.map (·.name) =
    ["cMul", "cDiv", "cExp", "cLog", "cSqrt", "cPow", "cCos", "cSin", "cTan", "cCosh", "cSinh",
      "cTanh", "cAsin", "cAcos", "cAtan", "cAcosh", "cAsinh", "cAtanh"] := by
  rw [helperLibrary_eq]
  rfl

end EscapeTime.Shader
