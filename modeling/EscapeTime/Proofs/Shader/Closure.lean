import EscapeTime.Proofs.Formula.Safety
import EscapeTime.Proofs.Shader.FloatLiteral
import EscapeTime.Proofs.Shader.Helpers
import EscapeTime.Proofs.Shader.HelperScan
import EscapeTime.Proofs.Shader.Placement
import EscapeTime.Proofs.Shader.Writing

/-!
# Programs are closed under helpers

`programs_closed_under_helpers`: a program is written exactly when the helpers that the templates of
its formula name are there. With the library they all are, and each is defined once and before its
use.
-/

namespace EscapeTime

open Shader

/-! ### The text around the formula -/

namespace Shader

theorem paren_not_mem_toString (n : Int) : '(' ∉ (toString n).toList := by
  have digits : ∀ m : Nat, '(' ∉ (toString m).toList := by
    intro m mem
    rw [Nat.toString_eq_ofList_toDigits, String.toList_ofList] at mem
    exact absurd (Nat.isDigit_of_mem_toDigits (by decide) (by decide) mem) (by decide)
  cases n with
  | ofNat m => exact digits m
  | negSucc m =>
    have spelled : (toString (Int.negSucc m)).toList = '-' :: (toString (m + 1)).toList := by
      show ("-" ++ toString (m + 1)).toList = _
      rw [String.toList_append]
      rfl
    rw [spelled, List.mem_cons, not_or]
    exact ⟨by decide, digits (m + 1)⟩

theorem toList_codeLines (ls : List String) :
    (Generator.codeLines ls).toList = (ls.map fun l => l.toList ++ ['\n']).flatten := by
  induction ls with
  | nil => rfl
  | cons l ls ih =>
    rw [Generator.codeLines, List.map_cons, String.join_cons, String.toList_append,
      String.toList_append, ← Generator.codeLines, ih]
    rfl

theorem closes_codeLines (ls : List String) : Closes (Generator.codeLines ls).toList := by
  rw [toList_codeLines]
  refine Closes.flatten fun t mem => ?_
  obtain ⟨l, -, rfl⟩ := List.mem_map.1 mem
  exact Closes.append_right (by decide) (by decide)

theorem quiet_codeLines {ls : List String} (quiet : ∀ l ∈ ls, Quiet l.toList) :
    Quiet (Generator.codeLines ls).toList := by
  induction ls with
  | nil => exact quiet_of_not_mem List.not_mem_nil
  | cons l ls ih =>
    have first : Quiet (Generator.codeLines [l]).toList := by
      rw [toList_codeLines]
      show Quiet (l.toList ++ ['\n'] ++ [])
      rw [List.append_nil]
      exact (quiet l List.mem_cons_self).append (quiet_of_not_mem (by decide)) (.inr (by decide))
    rw [show l :: ls = [l] ++ ls from rfl, Generator.codeLines_append, String.toList_append]
    exact first.append (ih fun m mem => quiet m (List.mem_cons_of_mem _ mem))
      (.inl (closes_codeLines [l]))

/-- Lines of fixed text call nothing if none of them does as it is spelled. -/
theorem quiet_of_spelled {ls : List String} {spelling : List (List Char)}
    (spelled : List.Forall₂ (fun l cs => String.ofList cs = l) ls spelling)
    (quiet : ∀ cs ∈ spelling, helperCalls 0 cs = []) : ∀ l ∈ ls, Quiet l.toList := by
  intro l mem
  obtain ⟨cs, found, rfl⟩ := exists_of_mem (List.Forall₂.flip spelled) mem
  rw [String.toList_ofList]
  exact quiet_iff.2 (quiet cs found)

theorem quiet_lines {ls : List String} {spelling : List (List Char)}
    (spelled : List.Forall₂ (fun l cs => String.ofList cs = l) ls spelling)
    (quiet : ∀ cs ∈ spelling, helperCalls 0 cs = []) : Quiet (Generator.codeLines ls).toList :=
  quiet_codeLines (quiet_of_spelled spelled quiet)

namespace Generator

variable (p : Generator) {kind : ProgramKind}

theorem head_apart (iterates : kind ∈ ProgramKind.iterating) :
    Closes (p.head kind).toList ∧ Quiet (p.head kind).toList := by
  simp only [ProgramKind.iterating, List.mem_cons, List.not_mem_nil, or_false] at iterates
  rcases iterates with rfl | rfl | rfl
  · exact ⟨closes_codeLines _, quiet_lines (by repeat constructor) (by decide +kernel)⟩
  · exact ⟨closes_codeLines _, quiet_lines (by repeat constructor) (by decide +kernel)⟩
  · refine ⟨closes_codeLines _, quiet_codeLines ?_⟩
    show ∀ l ∈ ([_, _, _] : List String) ++ _ :: _, Quiet l.toList
    refine List.forall_mem_append.2 ⟨quiet_of_spelled (by repeat constructor) (by decide +kernel),
      List.forall_mem_cons.2 ⟨?_, quiet_of_spelled (by repeat constructor) (by decide +kernel)⟩⟩
    exact quiet_between (paren_not_mem_toString _) (by decide +kernel) (by decide +kernel)

theorem start_apart (iterates : kind ∈ ProgramKind.iterating) :
    Closes kind.start.toList ∧ Quiet kind.start.toList := by
  have viewport : kind.start = codeLines (["void main() \x7b"] ++
      ["\tvec2 z = vPosition.xy*exp(zoom) - offset;", "\tz.x *= aspectRatio;"]) ∨
      kind.start = computeStart := by
    simp only [ProgramKind.iterating, List.mem_cons, List.not_mem_nil, or_false] at iterates
    rcases iterates with rfl | rfl | rfl
    · exact .inl (codeLines_append ..).symm
    · exact .inl (codeLines_append ..).symm
    · exact .inr rfl
  rcases viewport with same | same
  · rw [same]
    exact ⟨closes_codeLines _, quiet_lines (by repeat constructor) (by decide +kernel)⟩
  · rw [same]
    exact ⟨closes_codeLines _, quiet_lines (by repeat constructor) (by decide +kernel)⟩

theorem ending_quiet (iterates : kind ∈ ProgramKind.iterating) : Quiet kind.ending.toList := by
  simp only [ProgramKind.iterating, List.mem_cons, List.not_mem_nil, or_false] at iterates
  rcases iterates with rfl | rfl | rfl
  · exact quiet_lines (by repeat constructor) (by decide +kernel)
  · show Quiet (codeLines _ ++ "\x00").toList
    rw [String.toList_append]
    exact Quiet.append (quiet_lines (by repeat constructor) (by decide +kernel)) (by decide +kernel)
      (.inl (closes_codeLines _))
  · exact quiet_lines (by repeat constructor) (by decide +kernel)

/-- The text between the helpers and the code of the formula. -/
def opening (kind : ProgramKind) : List Char :=
  kind.start.toList ++ ((codeLines [
    "\tfloat iters = 0.;",
    "\tfor (int i = 0; i < " ++ toString p.iterations ++ "; i++) \x7b"]).toList ++
    ['\t', '\t', 'z', ' ', '=', ' '])

/-- The text after the code of the formula. -/
def closing (kind : ProgramKind) : List Char :=
  [';', '\n'] ++ ((codeLines [
    "\t\titers += float(dot(z,z) < " ++ floatCode p.radius2 ++ ");",
    "\t\x7d",
    "\tfloat progress = log2(iters + 2.)/log2(" ++
      floatCode (.ofInt (Number.word (p.iterations + 2))) ++ ");"]).toList ++ kind.ending.toList)

theorem opening_apart (iterates : kind ∈ ProgramKind.iterating) :
    Closes (p.opening kind) ∧ Quiet (p.opening kind) := by
  obtain ⟨closes, quiet⟩ := start_apart iterates
  have mark : Closes ['\t', '\t', 'z', ' ', '=', ' '] ∧ Quiet ['\t', '\t', 'z', ' ', '=', ' '] := by
    decide
  have loop : ∀ l ∈ ["\tfloat iters = 0.;",
      "\tfor (int i = 0; i < " ++ toString p.iterations ++ "; i++) \x7b"], Quiet l.toList := by
    simp only [List.forall_mem_cons]
    refine ⟨by decide +kernel, ?_, by simp⟩
    exact quiet_between (paren_not_mem_toString _) (by decide +kernel) (by decide +kernel)
  exact ⟨closes.append ((closes_codeLines _).append mark.1),
    quiet.append ((quiet_codeLines loop).append mark.2 (.inl (closes_codeLines _))) (.inl closes)⟩

theorem closing_apart (iterates : kind ∈ ProgramKind.iterating) :
    Opens (p.closing kind) ∧ Quiet (p.closing kind) := by
  have loop : ∀ l ∈ ["\t\titers += float(dot(z,z) < " ++ floatCode p.radius2 ++ ");", "\t\x7d",
      "\tfloat progress = log2(iters + 2.)/log2(" ++
        floatCode (.ofInt (Number.word (p.iterations + 2))) ++ ");"], Quiet l.toList := by
    simp only [List.forall_mem_cons]
    refine ⟨?_, by decide +kernel, ?_, by simp⟩
    · exact quiet_between (paren_not_mem_floatCode _) (by decide +kernel) (by decide +kernel)
    · exact quiet_between (paren_not_mem_floatCode _) (by decide +kernel) (by decide +kernel)
  refine ⟨?_, ?_⟩
  · rintro c ⟨⟩
    decide
  · refine Quiet.append (quiet_of_not_mem (by decide)) ?_ (.inl (by decide))
    exact (quiet_codeLines loop).append (ending_quiet iterates) (.inl (closes_codeLines _))

theorem toList_program (code : String) : (p.program kind code).toList =
    (p.head kind).toList ++ (rowOf p.library ++ (p.opening kind ++
      (code.toList ++ p.closing kind))) := by
  have row : p.definitions.toList = rowOf p.library := by
    rw [definitions, rowOf]
    generalize p.library = fs
    induction fs with
    | nil => rfl
    | cons f fs ih =>
      rw [List.map_cons, String.join_cons, String.toList_append, ih, List.map_cons,
        List.flatten_cons]
  have line : (codeLines ["\t\tz = " ++ code ++ ";"]).toList =
      ['\t', '\t', 'z', ' ', '=', ' '] ++ (code.toList ++ [';', '\n']) := by
    rw [toList_codeLines]
    simp
  have loop : p.iterationCode code =
      codeLines ([_, _] ++ (["\t\tz = " ++ code ++ ";"] ++ [_, _, _])) :=
    rfl
  rw [program, loop, codeLines_append, codeLines_append, opening, closing]
  simp only [String.toList_append, row, line, List.append_assoc]

end Generator

/-! ### Calls of a program -/

/-- Every helper that the text calls is defined in it by a function of the library: in one place
only, and before each call. A definition begins with the type of its result. -/
def DefinedBeforeUse (library : List Function) (text : List Char) : Prop :=
  ∀ before name, CallsAt text before name →
    ∃ f ∈ library, f.name.toList = name ∧ ∃ front back, text = front ++ (f.source.toList ++ back) ∧
      (∀ other, CallsAt text (other ++ returnType) name ↔ other = front) ∧
      (before = front ++ returnType ∨ front ++ f.source.toList <+: before)

namespace Generator

variable {p : Generator} {kind : ProgramKind} {code : String} {before name : List Char}

/-- No call in the code of the formula looks like a definition. -/
theorem code_unmarked (noBlank : ' ' ∉ code.toList) (call : CallsAt code.toList before name)
    (front : List Char) : ¬ returnType <:+ front ++ (p.opening kind ++ before) := by
  intro marked
  by_cases none : before = []
  · -- The text before the formula ends with an equals sign and a blank.
    rw [none, List.append_nil, opening, ← List.append_assoc, ← List.append_assoc] at marked
    have short := List.suffix_of_suffix_length_le marked (List.suffix_append ..) (by decide)
    exact absurd short (by decide)
  · have blank : ' ' ∈ before := by
      rw [← List.append_assoc] at marked
      rcases List.suffix_or_suffix_of_suffix marked (List.suffix_append _ before) with
        inside | ⟨rest, around⟩
      · exact inside.subset (by decide)
      · have last := congrArg List.getLast? around
        rw [List.getLast?_append, List.getLast?_eq_getLast_of_ne_nil none, Option.some_or] at last
        obtain same : before.getLast none = ' ' := Option.some.inj last
        exact same ▸ List.getLast_mem none
    exact noBlank (call.here.subset (List.mem_append_left _ blank))

section Closed

variable (iterates : kind ∈ ProgramKind.iterating) (placed : Placed [] p.library)
  (noBlank : ' ' ∉ code.toList)
  (defined : ∀ name, Calls code.toList name → ∃ f ∈ p.library, f.name.toList = name)
include iterates placed noBlank defined

/-- A call in a program is the head of a definition or comes after the whole definition. -/
theorem program_site (call : CallsAt (p.program kind code).toList before name) :
    ∃ first f last, p.library = first ++ f :: last ∧ f.name.toList = name ∧
      (before = (p.head kind).toList ++ (rowOf first ++ returnType) ∨
        (p.head kind).toList ++ (rowOf first ++ f.source.toList) <+: before ∧
          ¬ returnType <:+ before) := by
  obtain ⟨headCloses, headQuiet⟩ := p.head_apart iterates
  obtain ⟨openingCloses, openingQuiet⟩ := p.opening_apart iterates
  obtain ⟨closingOpens, closingQuiet⟩ := p.closing_apart iterates
  rw [toList_program, callsAt_append (.inl headCloses)] at call
  rcases call with call | ⟨before, rfl, call⟩
  · exact absurd ⟨_, call⟩ (headQuiet name)
  rw [callsAt_append (.inl (closes_rowOf _))] at call
  rcases call with call | ⟨before, rfl, call⟩
  · obtain ⟨first, f, last, split, named, here⟩ := placed.site call
    refine ⟨first, f, last, split, named, ?_⟩
    rcases here with rfl | ⟨here, unmarked⟩
    · exact .inl rfl
    · exact .inr ⟨(List.prefix_append_right_inj _).2 here, unmarked _⟩
  rw [callsAt_append (.inl openingCloses)] at call
  rcases call with call | ⟨before, rfl, call⟩
  · exact absurd ⟨_, call⟩ (openingQuiet name)
  rw [callsAt_append (.inr closingOpens)] at call
  rcases call with call | ⟨before, rfl, call⟩
  · obtain ⟨f, found, named⟩ := defined name ⟨before, call⟩
    obtain ⟨first, last, split⟩ := List.append_of_mem found
    refine ⟨first, f, last, split, named, .inr ⟨?_, ?_⟩⟩
    · rw [List.prefix_append_right_inj, split, rowOf_append, rowOf_cons, List.append_assoc,
        List.prefix_append_right_inj, List.append_assoc]
      exact List.prefix_append ..
    · rw [← List.append_assoc]
      exact code_unmarked noBlank call _
  · exact absurd ⟨_, call⟩ (closingQuiet name)

theorem program_definedBeforeUse : DefinedBeforeUse p.library (p.program kind code).toList := by
  intro before name call
  obtain ⟨first, f, last, split, rfl, here⟩ :=
    program_site iterates placed noBlank defined call
  obtain ⟨body, defines, made⟩ := (split ▸ placed).made
  have text : (p.program kind code).toList = ((p.head kind).toList ++ rowOf first) ++
      (f.source.toList ++ ('\n' :: '\n' :: (rowOf last ++ (p.opening kind ++
        (code.toList ++ p.closing kind))))) := by
    rw [toList_program, split, rowOf_append, rowOf_cons]
    simp only [List.append_assoc, List.cons_append]
  refine ⟨f, by simp [split], rfl, (p.head kind).toList ++ rowOf first, _, text,
    fun other => ?_, ?_⟩
  · constructor
    · intro again
      obtain ⟨first', f', last', split', named, header | ⟨-, unmarked⟩⟩ :=
        program_site iterates placed noBlank defined again
      · obtain rfl := placed.unique split split' named.symm
        rw [← List.append_assoc] at header
        exact List.append_cancel_right header
      · exact absurd (List.suffix_append ..) unmarked
    · rintro rfl
      refine ⟨made.helper, List.all_eq_true.1 made.word,
        Closes.append_right (by decide) (by decide), ?_⟩
      rw [text, List.append_assoc, List.prefix_append_right_inj, defines.source, List.append_assoc,
        List.prefix_append_right_inj, List.append_assoc, List.prefix_append_right_inj]
      exact List.prefix_append ['('] _
  · rcases here with rfl | ⟨here, -⟩
    · exact .inl (List.append_assoc ..).symm
    · rw [← List.append_assoc] at here
      exact .inr here

end Closed

theorem hasFunction_iff {name : String} :
    p.hasFunction name = true ↔ ∃ g ∈ p.library, g.name = name := by
  simp [hasFunction]

/-- A row of definitions is added whole. -/
theorem addFunctions_placed {earlier : List (List Char)} {fs : List Function}
    (placed : Placed earlier fs) (p : Generator)
    (added : p.library.map (·.name.toList) = earlier) :
    p.addFunctions fs = ({ p with library := p.library ++ fs }, none) := by
  induction placed generalizing p with
  | nil => rw [addFunctions, List.append_nil]
  | @cons earlier f fs name body defines made rest ih =>
    obtain rfl := defines.named
    have written : ¬ f.source.isEmpty = true := by
      rw [String.isEmpty_iff]
      intro empty
      have spelled := defines.source
      rw [empty] at spelled
      cases spelled
    have new : ¬ p.library.any (·.name == f.name) = true := by
      rw [List.any_eq_true]
      rintro ⟨g, found, same⟩
      refine made.new ?_
      rw [← added, ← beq_iff_eq.1 same]
      exact List.mem_map_of_mem found
    rw [addFunctions, if_neg written, if_neg new, ih _ (by simp [added])]
    simp

end Generator

/-- The part stands in the text, and what the part calls is called there. -/
def Holds (text part : List Char) : Prop :=
  ∃ front back, text = front ++ (part ++ back) ∧
    ∀ site name, CallsAt part site name → CallsAt text (front ++ site) name

theorem holds_of_closes {front part back : List Char} (closes : Closes front) :
    Holds (front ++ (part ++ back)) part := by
  refine ⟨front, back, rfl, fun site name call => ?_⟩
  rw [callsAt_append (.inl closes)]
  exact .inr ⟨site, rfl, call.mono (List.prefix_append ..)⟩

namespace Generator

variable {p : Generator} {kind : ProgramKind}

theorem program_holds_code (iterates : kind ∈ ProgramKind.iterating) (code : String) :
    Holds (p.program kind code).toList code.toList := by
  rw [toList_program, ← List.append_assoc, ← List.append_assoc]
  exact holds_of_closes (((p.head_apart iterates).1.append (closes_rowOf _)).append
    (p.opening_apart iterates).1)

theorem program_holds_source (iterates : kind ∈ ProgramKind.iterating) (code : String)
    {f : Function} (mem : f ∈ p.library) : Holds (p.program kind code).toList f.source.toList := by
  obtain ⟨first, last, split⟩ := List.append_of_mem mem
  rw [toList_program, split, rowOf_append, rowOf_cons, List.append_assoc, ← List.append_assoc,
    List.append_assoc f.source.toList]
  exact holds_of_closes ((p.head_apart iterates).1.append (closes_rowOf _))

/-- The writer gets nothing of a program that fails. -/
theorem writeTo_error_iff {σ : Type} {w : Writer σ} {s : σ} {f : Option Formula}
    {e : ProgramError} :
    p.writeTo w s kind f = (s, 0, some (.program e)) ↔ p.write kind f = .error e := by
  unfold writeTo
  cases p.write kind f with
  | error e' => simp
  | ok text =>
    refine iff_of_false (fun same => ?_) nofun
    have failure : (w s (Text.encodeUtf8 text)).2.2.map WriteError.writer = some (.program e) :=
      congrArg (·.2.2) same
    simp at failure

theorem writeTo_of_ok {σ : Type} {w : Writer σ} {s : σ} {f : Option Formula} {text : String}
    (written : p.write kind f = .ok text) : p.writeTo w s kind f = w.send s text := by
  rw [writeTo, written]

/-- With a row of definitions of all that its code calls, a formula is written. -/
theorem write_placed {fs : List Function} {f : Formula} {code : String} (placed : Placed [] fs)
    (empty : p.library = []) (iterates : kind ∈ ProgramKind.iterating)
    (iterations : 0 < p.iterations) (radius : ¬ p.radius2 ≤ 0) (compiled : f.code = .ok code)
    (noBlank : ' ' ∉ code.toList)
    (covered : ∀ name, Calls code.toList name → ∃ g ∈ fs, g.name.toList = name) :
    ∃ q text, p.addFunctions fs = (q, none) ∧ q.write kind (some f) = .ok text ∧
      Holds text.toList code.toList ∧ (∀ g ∈ fs, Holds text.toList g.source.toList) ∧
      DefinedBeforeUse fs text.toList := by
  have added := addFunctions_placed placed p (by rw [empty]; rfl)
  rw [empty, List.nil_append] at added
  refine ⟨_, _, added, write_defined iterates iterations radius compiled ?_,
    program_holds_code iterates code, fun g mem => program_holds_source iterates code mem,
    program_definedBeforeUse iterates placed noBlank covered⟩
  intro name called
  obtain ⟨g, mem, named⟩ := covered _ (mem_calledHelpers_iff.1 called)
  exact hasFunction_iff.2 ⟨g, mem, String.toList_inj.1 named⟩

/-- The formula needs the helper, which the generator does not have. -/
def Lacks (p : Generator) (f : Formula) (name : String) : Prop :=
  f.root.Names name.toList ∧ ∀ g ∈ p.library, g.name ≠ name

end Generator

end Shader

open Generator in
/-- Programs are closed under helpers: the code of a formula calls what the templates of its written
nodes name, writing fails exactly for want of one of these, and then gives the writer nothing, and
with the library it does not fail. -/
theorem programs_closed_under_helpers (source : String) (f : Formula)
    (parsed : Formula.parse source = .ok f) (plain : f.containsRawCode = false) :
    ∃ code, f.code = .ok code ∧
      (∀ name, name ∈ calledHelpers code ↔ f.root.Names name.toList) ∧
      ∀ (p : Generator) (kind : ProgramKind), kind ∈ ProgramKind.iterating → 0 < p.iterations →
        0 < p.radius2 →
        ((∃ name, p.write kind (some f) = .error (.undefinedHelper name)) ↔
          ∃ name, p.Lacks f name) ∧
        (∀ e, p.write kind (some f) = .error e →
          ∃ name, e = .undefinedHelper name ∧ p.Lacks f name) ∧
        (∀ (σ : Type) (w : Writer σ) (s : σ),
          (∃ name, p.writeTo w s kind (some f) = (s, 0, some (.program (.undefinedHelper name)))) ↔
            ∃ name, p.Lacks f name) ∧
        (p.library = [] → ∃ q text, p.addFunctions helperLibrary = (q, none) ∧
          q.write kind (some f) = .ok text ∧
          (∀ (σ : Type) (w : Writer σ) (s : σ), q.writeTo w s kind (some f) = w.send s text) ∧
          Holds text.toList code.toList ∧
          (∀ g ∈ helperLibrary, Holds text.toList g.source.toList) ∧
          DefinedBeforeUse helperLibrary text.toList) := by
  obtain ⟨typed, -⟩ := Formula.root_wellTyped parsed
  obtain ⟨code, compiled⟩ := typed.code_ok
  have calls : ∀ name : String, name ∈ calledHelpers code ↔ f.root.Names name.toList := by
    intro name
    rw [mem_calledHelpers_iff, typed.calls_iff plain compiled]
  refine ⟨code, compiled, calls, fun p kind iterates iterations positive => ?_⟩
  have radius := Single.not_le_zero positive
  have lacks : ∀ name, p.Lacks f name ↔
      name ∈ calledHelpers code ∧ p.hasFunction name = false := by
    intro name
    rw [Lacks, calls, ← Bool.not_eq_true, hasFunction_iff]
    simp
  have failing : ∀ e, p.write kind (some f) = .error e →
      ∃ name, e = .undefinedHelper name ∧ p.Lacks f name := by
    intro e failed
    obtain ⟨name, called, undefined, rfl⟩ :=
      write_error iterates iterations radius compiled failed
    exact ⟨name, rfl, (lacks name).2 ⟨called, undefined⟩⟩
  have fails : (∃ name, p.write kind (some f) = .error (.undefinedHelper name)) ↔
      ∃ name, p.Lacks f name := by
    constructor
    · rintro ⟨name, failed⟩
      obtain ⟨missing, -, lack⟩ := failing _ failed
      exact ⟨missing, lack⟩
    · rintro ⟨name, lack⟩
      obtain ⟨called, undefined⟩ := (lacks name).1 lack
      obtain ⟨first, -, -, fails⟩ :=
        write_undefined iterates iterations radius compiled called undefined
      exact ⟨first, fails⟩
  refine ⟨fails, failing, fun σ w s => ?_, fun empty => ?_⟩
  · simpa only [writeTo_error_iff] using fails
  · obtain ⟨q, text, added, written, rest⟩ :=
      write_placed helperLibrary_placed empty iterates iterations radius compiled
        (typed.noBlank plain compiled)
        fun name call => ((typed.calls_iff plain compiled).1 call).known
    exact ⟨q, text, added, written, fun _ _ _ => writeTo_of_ok written, rest⟩

/-- The formula `exp(z)*im(abs(tan(z)))`, of which the tangent is not written. -/
def Formula.unwrittenTangent : Formula :=
  ⟨"exp(z)*im(abs(tan(z)))", .binary 6 .complex .mul (.call 0 .complex true .exp [.z 4])
    (.call 7 .real false .im [.call 10 .real true .abs [.call 14 .complex true .tan [.z 18]]])⟩

theorem Formula.parse_unwrittenTangent :
    Formula.parse "exp(z)*im(abs(tan(z)))" = .ok unwrittenTangent := by
  have lexed : tokenize "exp(z)*im(abs(tan(z)))".toList =
      .ok [⟨.function, 0, "exp", false⟩, ⟨.parenOpen, 3, "", false⟩, ⟨.z, 4, "", false⟩,
        ⟨.parenClose, 5, "", false⟩, ⟨.op, 6, "*", false⟩, ⟨.function, 7, "im", false⟩,
        ⟨.parenOpen, 9, "", false⟩, ⟨.function, 10, "abs", false⟩, ⟨.parenOpen, 13, "", false⟩,
        ⟨.function, 14, "tan", false⟩, ⟨.parenOpen, 17, "", false⟩, ⟨.z, 18, "", false⟩,
        ⟨.parenClose, 19, "", false⟩, ⟨.parenClose, 20, "", false⟩,
        ⟨.parenClose, 21, "", false⟩] := by
    decide +kernel
  rw [Formula.parse, lexed]
  rfl

open Formula in
theorem unwrittenTangent_closed :
    Formula.parse "exp(z)*im(abs(tan(z)))" = .ok unwrittenTangent ∧
      unwrittenTangent.containsRawCode = false ∧
      unwrittenTangent.root.Names "cExp".toList ∧ ¬ unwrittenTangent.root.Names "cTan".toList ∧
      (∃ name, Generator.default.write .compute (some unwrittenTangent) =
        .error (.undefinedHelper name)) ∧
      ∃ q text, Generator.default.addFunctions helperLibrary = (q, none) ∧
        q.write .compute (some unwrittenTangent) = .ok text ∧
        DefinedBeforeUse helperLibrary text.toList := by
  obtain ⟨code, compiled, calls, closed⟩ :=
    programs_closed_under_helpers _ unwrittenTangent parse_unwrittenTangent rfl
  obtain ⟨fails, -, -, succeeds⟩ :=
    closed Generator.default .compute (by decide) (by decide) (by decide +kernel)
  obtain ⟨q, text, added, written, -, -, -, defined⟩ := succeeds rfl
  obtain rfl : "cMul(cExp(z),vec2(0.,0.))" = code := Except.ok.inj compiled
  have needed : unwrittenTangent.root.Names "cExp".toList := (calls _).1 (by decide +kernel)
  refine ⟨parse_unwrittenTangent, rfl, needed, fun named => ?_, fails.2 ⟨"cExp", needed, ?_⟩,
    q, text, added, written, defined⟩
  · exact absurd ((calls _).2 named) (by decide +kernel)
  · exact List.forall_mem_nil _

end EscapeTime
