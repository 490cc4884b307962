import EscapeTime.Proofs.Outcome
import EscapeTime.Shader.Program

/-!
# Written programs

The three programs that iterate a formula differ in the text before the helpers, between the helpers
and the loop, and after the loop. Otherwise they are written alike and fail alike.
-/

namespace EscapeTime.Shader

namespace ProgramKind

/-- The programs that iterate a formula. -/
def iterating : List ProgramKind :=
  [webglFragment, coreFragment, compute]

/-- The text between the helpers and the loop. -/
def start : ProgramKind → String
  | compute => Generator.computeStart
  | _ => Generator.codeLines ["void main() \x7b"] ++ Generator.viewportCode

/-- The text after the loop. -/
def ending : ProgramKind → String
  | webglFragment => Generator.codeLines
      ["\tgl_FragColor = texture2D(vSampler, vec2(progress,0.5));", "\x7d"]
  | coreFragment => Generator.codeLines
      ["\tfragColor = texture(vSampler, vec2(progress,0.5));", "\x7d"] ++ "\x00"
  | compute => Generator.codeLines ["\tvbo_progress[idx] = progress;", "\x7d"]
  | _ => ""

end ProgramKind

namespace Generator

/-- The text before the helpers. -/
def head (p : Generator) : ProgramKind → String
  | .webglFragment => webglFragmentHead
  | .coreFragment => coreFragmentHead
  | .compute => p.computeHead
  | _ => ""

def definitions (p : Generator) : String :=
  String.join (p.library.map Function.text)

def program (p : Generator) (kind : ProgramKind) (code : String) : String :=
  p.head kind ++ p.definitions ++ kind.start ++ p.iterationCode code ++ kind.ending

/-- The code that a program iterates, if the program can be written. -/
def source (p : Generator) (f : Option Formula) : Except ProgramError String := do
  let formula ← p.check f
  let code ← formula.code.mapError .broken
  let _ ← p.libraryCode code
  return code

theorem codeLines_append (ls ms : List String) :
    codeLines (ls ++ ms) = codeLines ls ++ codeLines ms := by
  rw [codeLines, codeLines, codeLines, List.map_append, String.join_append]

variable {p : Generator} {kind : ProgramKind} {f : Option Formula} {code text : String}

theorem check_ok {formula : Formula} (accepted : p.check f = .ok formula) :
    f = some formula ∧ 1 ≤ p.iterations ∧ ¬ p.radius2 ≤ 0 := by
  cases f with
  | none => cases accepted
  | some g =>
    rw [check] at accepted
    split at accepted
    · cases accepted
    · split at accepted
      · cases accepted
      · cases accepted
        exact ⟨rfl, by omega, ‹_›⟩

theorem check_some {formula : Formula} (iterations : 0 < p.iterations)
    (radius : ¬ p.radius2 ≤ 0) : p.check (some formula) = .ok formula := by
  rw [check, if_neg (by omega), if_neg radius]

theorem libraryCode_ok {library : String} (found : p.libraryCode code = .ok library) :
    library = p.definitions := by
  unfold libraryCode at found
  split at found
  · cases found
  · exact (Except.ok.inj found).symm

theorem frame_eq (head start finish : String) :
    p.frame f head start finish = (p.source f).map fun code =>
      head ++ p.definitions ++ start ++ p.iterationCode code ++ codeLines [finish, "\x7d"] := by
  unfold frame source
  cases p.check f with
  | error e => rfl
  | ok formula =>
    show (formula.code.mapError .broken >>= _) =
      (formula.code.mapError ProgramError.broken >>= _).map _
    cases formula.code.mapError ProgramError.broken with
    | error e => rfl
    | ok code =>
      show (p.libraryCode code >>= _) = (p.libraryCode code >>= _).map _
      cases found : p.libraryCode code with
      | error e => rfl
      | ok library =>
        rw [libraryCode_ok found]
        rfl

theorem write_eq (iterates : kind ∈ ProgramKind.iterating) :
    p.write kind f = (p.source f).map (p.program kind) := by
  simp only [ProgramKind.iterating, List.mem_cons, List.not_mem_nil, or_false] at iterates
  rcases iterates with rfl | rfl | rfl
  · exact frame_eq ..
  · show (p.frame f _ _ _).map _ = _
    rw [frame_eq]
    cases p.source f with
    | error e => rfl
    | ok code => exact congrArg Except.ok (String.append_assoc ..)
  · exact frame_eq ..

/-- A program is written for checked parameters and code whose helpers are all there. -/
theorem write_ok (iterates : kind ∈ ProgramKind.iterating) (written : p.write kind f = .ok text) :
    ∃ formula code, f = some formula ∧ 1 ≤ p.iterations ∧ ¬ p.radius2 ≤ 0 ∧
      formula.code = .ok code ∧ text = p.program kind code := by
  rw [write_eq iterates] at written
  cases done : p.source f with
  | error e =>
    rw [done] at written
    cases written
  | ok code =>
    rw [done] at written
    cases written
    obtain ⟨formula, accepted, rest⟩ := bind_ok done
    obtain ⟨code', compiled, rest⟩ := bind_ok rest
    obtain ⟨_, _, rest⟩ := bind_ok rest
    cases rest
    obtain ⟨rfl, iterations, radius⟩ := check_ok accepted
    exact ⟨formula, code, rfl, iterations, radius, mapError_ok compiled, rfl⟩

section Code

variable {formula : Formula} (iterates : kind ∈ ProgramKind.iterating)
  (iterations : 0 < p.iterations) (radius : ¬ p.radius2 ≤ 0) (compiled : formula.code = .ok code)
include iterates iterations radius compiled

theorem write_some :
    p.write kind (some formula) = (p.libraryCode code).map fun _ => p.program kind code := by
  rw [write_eq iterates, source, check_some iterations radius]
  show (formula.code.mapError ProgramError.broken >>= _).map _ = _
  rw [compiled]
  show (p.libraryCode code >>= _).map _ = _
  cases p.libraryCode code <;> rfl

theorem write_defined (defined : ∀ name ∈ calledHelpers code, p.hasFunction name = true) :
    p.write kind (some formula) = .ok (p.program kind code) := by
  have found : (calledHelpers code).find? (!p.hasFunction ·) = none := by
    rw [List.find?_eq_none]
    intro name mem
    simp [defined name mem]
  rw [write_some iterates iterations radius compiled, libraryCode, found]
  rfl

theorem write_undefined {name : String} (called : name ∈ calledHelpers code)
    (undefined : p.hasFunction name = false) :
    ∃ first ∈ calledHelpers code, p.hasFunction first = false ∧
      p.write kind (some formula) = .error (.undefinedHelper first) := by
  have found : ((calledHelpers code).find? (!p.hasFunction ·)).isSome = true := by
    rw [List.find?_isSome]
    exact ⟨name, called, by simp [undefined]⟩
  obtain ⟨first, found⟩ := Option.isSome_iff_exists.1 found
  refine ⟨first, List.mem_of_find?_eq_some found, by simpa using List.find?_some found, ?_⟩
  rw [write_some iterates iterations radius compiled, libraryCode, found]
  rfl

theorem write_error {e : ProgramError} (failed : p.write kind (some formula) = .error e) :
    ∃ name ∈ calledHelpers code, p.hasFunction name = false ∧ e = .undefinedHelper name := by
  by_cases missing : ∃ name ∈ calledHelpers code, p.hasFunction name = false
  · obtain ⟨name, called, undefined⟩ := missing
    obtain ⟨first, called, undefined, fails⟩ :=
      write_undefined iterates iterations radius compiled called undefined
    rw [fails] at failed
    exact ⟨first, called, undefined, (Except.error.inj failed).symm⟩
  · have written := write_defined iterates iterations radius compiled fun name called =>
      Bool.of_not_eq_false fun undefined => missing ⟨name, called, undefined⟩
    rw [written] at failed
    cases failed

end Code

end Generator

end EscapeTime.Shader
