import EscapeTime.Proofs.Files.Creation
import EscapeTime.Proofs.Formula.Safety
import EscapeTime.Proofs.Settings.Radius

/-!
# Failed compilations

`compile` reads settings and a formula, makes the output file, and only then asks for the shader
code. `failed_compile_output`: a failure leaves the files as they were, except that a shader that is
refused leaves an empty file at the output path.
-/

namespace EscapeTime

/-! ### What the writer refuses -/

namespace Shader

theorem ProgramKind.ofName?_name (kind : ProgramKind) : ofName? kind.name = some kind := by
  cases kind <;> decide

theorem ProgramKind.name_inj {kind kind' : ProgramKind} (same : kind.name = kind'.name) :
    kind = kind' := by
  have found := ofName?_name kind
  rw [same, ofName?_name] at found
  exact (Option.some.inj found).symm

/-- The code calls a helper that the library lacks. -/
def CallsMissing (library : List Function) (code : String) : Prop :=
  ∃ name ∈ calledHelpers code, ∀ g ∈ library, g.name ≠ name

theorem Generator.write_error_iff {p : Generator} {kind : ProgramKind} {f : Formula}
    {code : String} (iterations : 0 < p.iterations) (compiled : f.code = .ok code) :
    (∃ e, p.write kind (some f) = .error e) ↔
      kind ∈ ProgramKind.iterating ∧ (p.radius2 ≤ 0 ∨ CallsMissing p.library code) := by
  by_cases iterates : kind ∈ ProgramKind.iterating
  · rw [and_iff_right iterates]
    by_cases radius : p.radius2 ≤ 0
    · refine iff_of_true ⟨.radius, ?_⟩ (.inl radius)
      rw [write_eq iterates, source, check_refused iterations radius]
      rfl
    · rw [or_iff_right radius]
      constructor
      · rintro ⟨e, failed⟩
        obtain ⟨name, called, undefined, -⟩ :=
          write_error iterates iterations radius compiled failed
        refine ⟨name, called, fun g mem same => ?_⟩
        rw [hasFunction_iff.2 ⟨g, mem, same⟩] at undefined
        cases undefined
      · rintro ⟨name, called, missing⟩
        have undefined : p.hasFunction name = false := by
          rw [← Bool.not_eq_true, hasFunction_iff]
          rintro ⟨g, mem, same⟩
          exact missing g mem same
        obtain ⟨first, -, -, failed⟩ :=
          write_undefined iterates iterations radius compiled called undefined
        exact ⟨_, failed⟩
  · refine iff_of_false ?_ fun refused => iterates refused.1
    rintro ⟨e, failed⟩
    cases kind with
    | webglVertex | coreVertex => cases failed
    | _ => exact iterates (by decide)

end Shader

namespace Command

open Files Shader

/-! ### Commands on a tree of files -/

variable {α β : Type}

/-- The outcome of an action, and the files after it. -/
def onTree (action : ExceptT CommandError (StateM FileTree) α) (t : FileTree) :
    Except CommandError α × FileTree :=
  action.run.run t

section

variable {action : ExceptT CommandError (StateM FileTree) α}
  {next : α → ExceptT CommandError (StateM FileTree) β} {t t' : FileTree} {e : CommandError}

theorem onTree_bind_ok {a : α} (done : onTree action t = (.ok a, t')) :
    onTree (action >>= next) t = onTree (next a) t' := by
  unfold onTree at *
  rw [ExceptT.run_bind, StateT.run_bind, done]
  rfl

theorem onTree_bind_error (failed : onTree action t = (.error e, t')) :
    onTree (action >>= next) t = (.error e, t') := by
  unfold onTree at *
  rw [ExceptT.run_bind, StateT.run_bind, failed]
  rfl

theorem onTree_bind_failed (failed : onTree (action >>= next) t = (.error e, t')) :
    onTree action t = (.error e, t') ∨
      ∃ a t₁, onTree action t = (.ok a, t₁) ∧ onTree (next a) t₁ = (.error e, t') := by
  rcases first : onTree action t with ⟨e' | a, t₁⟩
  · rw [onTree_bind_error first] at failed
    cases failed
    exact .inl rfl
  · rw [onTree_bind_ok first] at failed
    exact .inr ⟨a, t₁, rfl, failed⟩

end

theorem onTree_liftM (x : Except CommandError α) (t : FileTree) : onTree (liftM x) t = (x, t) :=
  rfl

theorem eq_of_onTree_liftM {x r : Except CommandError α} {t t' : FileTree}
    (done : onTree (liftM x) t = (r, t')) : x = r ∧ t' = t := by
  cases done
  exact ⟨rfl, rfl⟩

/-- The action looks at the files and leaves them as they are. -/
def OnlyReads (action : StateM FileTree α) : Prop :=
  ∀ t, (action.run t).2 = t

theorem OnlyReads.bind {action : StateM FileTree α} {next : α → StateM FileTree β}
    (first : OnlyReads action) (second : ∀ a, OnlyReads (next a)) :
    OnlyReads (action >>= next) := by
  intro t
  show ((next (action.run t).1).run (action.run t).2).2 = t
  rw [second, first]

theorem onlyReads_pure (a : α) : OnlyReads (pure a) :=
  fun _ => rfl

theorem firstPresent_reads (paths : List String) : OnlyReads (firstPresent paths) := by
  induction paths with
  | nil => exact onlyReads_pure none
  | cons path paths ih =>
    refine OnlyReads.bind (fun _ => rfl) fun present => ?_
    cases present with
    | true => exact onlyReads_pure _
    | false => exact ih

theorem searchUp_reads (fuel : Nat) (directory : String) : OnlyReads (searchUp fuel directory) := by
  induction fuel generalizing directory with
  | zero => exact onlyReads_pure none
  | succ fuel ih =>
    refine (firstPresent_reads _).bind fun found => ?_
    cases found with
    | some path => exact onlyReads_pure _
    | none =>
      dsimp only
      split
      · exact onlyReads_pure _
      · exact ih _

theorem loadSettings_reads (path : String) : OnlyReads (loadSettings path) := by
  refine OnlyReads.bind (fun _ => rfl) fun bytes => ?_
  cases bytes <;> exact onlyReads_pure _

theorem searchSettings_reads (directory : String) : OnlyReads (searchSettings directory) := by
  refine (searchUp_reads _ _).bind fun found => ?_
  cases found with
  | none => exact onlyReads_pure _
  | some path => exact (loadSettings_reads path).bind fun _ => onlyReads_pure _

theorem OnlyReads.exceptBind {action : ExceptT CommandError (StateM FileTree) α}
    {next : α → ExceptT CommandError (StateM FileTree) β} (first : OnlyReads action.run)
    (second : ∀ a, OnlyReads (next a).run) : OnlyReads (action >>= next).run := by
  rw [ExceptT.run_bind]
  refine first.bind fun result => ?_
  cases result with
  | error e => exact onlyReads_pure _
  | ok a => exact second a

theorem fileSettings_reads (o : Options) : OnlyReads (fileSettings o).run := by
  unfold fileSettings
  split
  · exact (loadSettings_reads _).bind fun _ => onlyReads_pure _
  · refine OnlyReads.exceptBind (fun _ => rfl) fun directory => ?_
    refine OnlyReads.exceptBind ?_ fun _ => onlyReads_pure _
    exact (searchSettings_reads directory).bind fun _ => onlyReads_pure _

theorem resolveSettings_reads (o : Options) : OnlyReads (resolveSettings o).run := by
  refine (fileSettings_reads o).exceptBind fun overrides => ?_
  dsimp only
  split <;> exact onlyReads_pure _

theorem resolveSettings_keeps {o : Options} {t t' : FileTree} {r : Except CommandError Settings}
    (resolved : onTree (resolveSettings o) t = (r, t')) : t' = t :=
  (congrArg Prod.snd resolved).symm.trans (resolveSettings_reads o t)

theorem resolveSettings_sound {o : Options} {t t' : FileTree} {s : Settings}
    (resolved : onTree (resolveSettings o) t = (.ok s, t')) : s.problems = [] := by
  unfold resolveSettings at resolved
  rcases first : onTree (fileSettings o) t with ⟨e | overrides, t₁⟩
  · rw [onTree_bind_error first] at resolved
    cases resolved
  · rw [onTree_bind_ok first] at resolved
    dsimp only at resolved
    split at resolved
    · cases resolved
    · rename_i sound
      cases resolved
      unfold Settings.complaint? at sound
      split at sound
      · assumption
      · cases sound

/-! ### Refused shaders -/

/-- The code that is written for settings. -/
def shaderCode (s : Settings) (shader : String) (f : Formula) : Except CommandError String := do
  let p ← generator s
  shaderText p shader f

/-- There is no such shader, or it iterates and the squared radius is not positive or a helper is
missing. -/
def Refused (s : Settings) (shader : String) (f : Formula) : Prop :=
  shader ∉ shaderNames ∨
    ∃ kind ∈ ProgramKind.iterating, kind.name = shader ∧
      (s.radius2 ≤ 0 ∨ ∃ code, f.code = .ok code ∧ CallsMissing helperLibrary code)

theorem mem_shaderNames_iff {shader : String} :
    shader ∈ shaderNames ↔ shader = "expr" ∨ ∃ kind : ProgramKind, kind.name = shader := by
  have all (kind : ProgramKind) : kind ∈ ProgramKind.all := by cases kind <;> decide
  simp [shaderNames, all]

theorem name_ne_expr (kind : ProgramKind) : kind.name ≠ "expr" := by
  cases kind <;> decide

theorem shaderText_name_error_iff {p : Generator} {kind : ProgramKind} {f : Formula} :
    (∃ e, shaderText p kind.name f = .error e) ↔ ∃ e, p.write kind (some f) = .error e := by
  unfold shaderText
  rw [if_neg (name_ne_expr kind), ProgramKind.ofName?_name]
  dsimp only
  cases p.write kind (some f) with
  | ok text => simp
  | error e => cases e <;> simp

theorem shaderText_unknown {p : Generator} {shader : String} {f : Formula}
    (unknown : shader ∉ shaderNames) : ∃ e, shaderText p shader f = .error e := by
  rw [mem_shaderNames_iff, not_or] at unknown
  have nameless : ProgramKind.ofName? shader = none := by
    unfold ProgramKind.ofName?
    rw [List.find?_eq_none]
    intro kind _ named
    exact unknown.2 ⟨kind, beq_iff_eq.1 named⟩
  unfold shaderText
  rw [if_neg unknown.1, nameless]
  exact ⟨_, rfl⟩

theorem shaderCode_error_iff {s : Settings} {shader : String} {f : Formula}
    (sound : s.problems = []) (typed : f.root.WellTyped) :
    (∃ e, shaderCode s shader f = .error e) ↔ Refused s shader f := by
  obtain ⟨iterations, -⟩ := Settings.problems_eq_nil sound
  obtain ⟨code, compiled⟩ := typed.code_ok
  unfold shaderCode Refused
  rw [generator_eq]
  show (∃ e, shaderText _ shader f = .error e) ↔ _
  by_cases known : shader ∈ shaderNames
  · rw [or_iff_right (not_not_intro known)]
    rcases mem_shaderNames_iff.1 known with rfl | ⟨kind, rfl⟩
    · refine iff_of_false ?_ ?_
      · unfold shaderText
        rw [if_pos rfl, Formula.code, compiled]
        rintro ⟨e, failed⟩
        cases failed
      · rintro ⟨kind, -, named, -⟩
        exact name_ne_expr kind named
    · rw [shaderText_name_error_iff,
        Generator.write_error_iff (by show 0 < s.iterations; omega) compiled]
      constructor
      · rintro ⟨iterates, refused⟩
        exact ⟨kind, iterates, rfl, refused.imp_right fun missing => ⟨code, compiled, missing⟩⟩
      · rintro ⟨kind', iterates, named, refused⟩
        cases ProgramKind.name_inj named
        refine ⟨iterates, refused.imp_right ?_⟩
        rintro ⟨code', compiled', missing⟩
        cases compiled.symm.trans compiled'
        exact missing
  · exact iff_of_true (shaderText_unknown known) (.inl known)

/-! ### Where a command fails -/

inductive CompileStage where
  | settings
  | formula
  | creating
  | shader
  | writing
  deriving DecidableEq

/-- The stage at which `compile` fails, the error, and the files it leaves. -/
inductive Fails (o : Options) (text : String) (t : FileTree) :
    CompileStage → CommandError → FileTree → Prop
  | settings {e : CommandError} (resolved : onTree (resolveSettings o) t = (.error e, t)) :
    Fails o text t .settings e t
  | formula {s : Settings} {e : CommandError} (resolved : onTree (resolveSettings o) t = (.ok s, t))
    (rejected : readFormula text = .error e) : Fails o text t .formula e t
  | creating {s : Settings} {f : Formula} {e : FileError}
    (resolved : onTree (resolveSettings o) t = (.ok s, t)) (parsed : readFormula text = .ok f)
    (named : o.output ≠ "") (failed : t.createFile o.output = .error e) :
    Fails o text t .creating (.plain e.message) t
  | shader {s : Settings} {f : Formula} {e : CommandError} {t' : FileTree}
    (resolved : onTree (resolveSettings o) t = (.ok s, t)) (parsed : readFormula text = .ok f)
    (created : if o.output = "" then t' = t else t.createFile o.output = .ok t')
    (failed : shaderCode s o.shader f = .error e) : Fails o text t .shader e t'
  | writing {s : Settings} {f : Formula} {code : String} {e : FileError} {t' : FileTree}
    (resolved : onTree (resolveSettings o) t = (.ok s, t)) (parsed : readFormula text = .ok f)
    (named : o.output ≠ "") (created : t.createFile o.output = .ok t')
    (written : shaderCode s o.shader f = .ok code)
    (failed : t'.writeFile o.output code.toUTF8.toList = .error e) :
    Fails o text t .writing (.plain e.message) t'

/-- The output file is made, if there is to be one. -/
def makeOutput (o : Options) : ExceptT CommandError (StateM FileTree) Unit :=
  if o.output ≠ "" then onFiles (FileSystem.create o.output) else pure ()

def writeOutput (o : Options) (code : String) : ExceptT CommandError (StateM FileTree) Unit :=
  if o.output ≠ "" then onFiles (FileSystem.write o.output code.toUTF8.toList)
  else FileSystem.print (m := StateM FileTree) code.toUTF8.toList

theorem compile_eq (o : Options) (text : String) :
    compile o text = (do
      let s ← resolveSettings o
      let f ← readFormula text
      makeOutput o
      let code ← shaderCode s o.shader f
      writeOutput o code : ExceptT CommandError (StateM FileTree) Unit) := by
  unfold compile makeOutput writeOutput
  by_cases printing : o.output = ""
  · simp [printing, shaderCode]
  · simp [printing, shaderCode]

section

variable {change : FileTree → Except FileError FileTree} {o : Options} {text : String}
  {t t' : FileTree} {e : CommandError}

theorem attempt_eq_ok_iff :
    onTree (onFiles (FileTree.attempt change)) t = (.ok (), t') ↔ change t = .ok t' := by
  show ((FileTree.attempt change t).1.mapError _, (FileTree.attempt change t).2) = _ ↔ _
  unfold FileTree.attempt
  cases change t with
  | ok t₁ => simp [Except.mapError]
  | error e => simp [Except.mapError]

theorem attempt_eq_error_iff :
    onTree (onFiles (FileTree.attempt change)) t = (.error e, t') ↔
      t' = t ∧ ∃ e', change t = .error e' ∧ e = .plain e'.message := by
  show ((FileTree.attempt change t).1.mapError _, (FileTree.attempt change t).2) = _ ↔ _
  unfold FileTree.attempt
  cases change t with
  | ok t₁ => simp [Except.mapError]
  | error e' => simp [Except.mapError, eq_comm, and_comm]

theorem makeOutput_eq_ok_iff :
    onTree (makeOutput o) t = (.ok (), t') ↔
      if o.output = "" then t' = t else t.createFile o.output = .ok t' := by
  unfold makeOutput
  by_cases printing : o.output = ""
  · rw [if_neg (not_not_intro printing), if_pos printing]
    show (Except.ok (), t) = (.ok (), t') ↔ _
    simp [eq_comm]
  · rw [if_pos printing, if_neg printing]
    exact attempt_eq_ok_iff

/-- An output file fails by its own error, and what is printed does not fail. -/
theorem output_eq_error_iff {printing : ExceptT CommandError (StateM FileTree) Unit}
    (printed : (onTree printing t).1 = .ok ()) :
    onTree (if o.output ≠ "" then onFiles (FileTree.attempt change) else printing) t =
        (.error e, t') ↔
      o.output ≠ "" ∧ t' = t ∧ ∃ e', change t = .error e' ∧ e = .plain e'.message := by
  split
  · rename_i named
    rw [and_iff_right named]
    exact attempt_eq_error_iff
  · rename_i unnamed
    refine iff_of_false ?_ fun failed => unnamed failed.1
    intro failed
    rw [failed] at printed
    cases printed

theorem makeOutput_eq_error_iff :
    onTree (makeOutput o) t = (.error e, t') ↔
      o.output ≠ "" ∧ t' = t ∧
        ∃ e', t.createFile o.output = .error e' ∧ e = .plain e'.message :=
  output_eq_error_iff rfl

theorem writeOutput_eq_error_iff {code : String} :
    onTree (writeOutput o code) t = (.error e, t') ↔
      o.output ≠ "" ∧ t' = t ∧
        ∃ e', t.writeFile o.output code.toUTF8.toList = .error e' ∧ e = .plain e'.message :=
  output_eq_error_iff rfl

theorem compile_failed (failed : onTree (compile o text) t = (.error e, t')) :
    ∃ stage, Fails o text t stage e t' := by
  rw [compile_eq] at failed
  rcases onTree_bind_failed failed with refused | ⟨s, t₁, resolved, afterSettings⟩
  · obtain rfl := resolveSettings_keeps refused
    exact ⟨_, .settings refused⟩
  obtain rfl := resolveSettings_keeps resolved
  rcases onTree_bind_failed afterSettings with rejected | ⟨f, t₂, read, afterFormula⟩
  · obtain ⟨rejection, rfl⟩ := eq_of_onTree_liftM rejected
    exact ⟨_, .formula resolved rejection⟩
  obtain ⟨parsed, rfl⟩ := eq_of_onTree_liftM read
  rcases onTree_bind_failed afterFormula with notMade | ⟨⟨⟩, t₃, made, afterMaking⟩
  · obtain ⟨named, rfl, e', failure, rfl⟩ := makeOutput_eq_error_iff.1 notMade
    exact ⟨_, .creating resolved parsed named failure⟩
  have created := makeOutput_eq_ok_iff.1 made
  rcases onTree_bind_failed afterMaking with refused | ⟨code, t₄, written, afterCode⟩
  · obtain ⟨refusal, rfl⟩ := eq_of_onTree_liftM refused
    exact ⟨_, .shader resolved parsed created refusal⟩
  obtain ⟨coded, rfl⟩ := eq_of_onTree_liftM written
  obtain ⟨named, rfl, e', failure, rfl⟩ := writeOutput_eq_error_iff.1 afterCode
  rw [if_neg named] at created
  exact ⟨_, .writing resolved parsed named created coded failure⟩

theorem Fails.compile_failed {stage : CompileStage} (fails : Fails o text t stage e t') :
    onTree (compile o text) t = (.error e, t') := by
  rw [compile_eq]
  cases fails with
  | settings resolved => exact onTree_bind_error resolved
  | formula resolved rejected =>
    rw [onTree_bind_ok resolved, rejected]
    exact onTree_bind_error (onTree_liftM ..)
  | creating resolved parsed named failed =>
    rw [onTree_bind_ok resolved, parsed, onTree_bind_ok (onTree_liftM ..)]
    exact onTree_bind_error (makeOutput_eq_error_iff.2 ⟨named, rfl, _, failed, rfl⟩)
  | shader resolved parsed created failed =>
    rw [onTree_bind_ok resolved, parsed, onTree_bind_ok (onTree_liftM ..),
      onTree_bind_ok (makeOutput_eq_ok_iff.2 created), failed]
    exact onTree_bind_error (onTree_liftM ..)
  | writing resolved parsed named created coded failed =>
    have made : onTree (makeOutput o) t = (.ok (), t') := by
      rw [makeOutput_eq_ok_iff, if_neg named]
      exact created
    rw [onTree_bind_ok resolved, parsed, onTree_bind_ok (onTree_liftM ..), onTree_bind_ok made,
      coded, onTree_bind_ok (onTree_liftM ..)]
    exact writeOutput_eq_error_iff.2 ⟨named, rfl, _, failed, rfl⟩

theorem readFormula_ok {f : Formula} (parsed : readFormula text = .ok f) :
    Formula.parse text = .ok f := by
  unfold readFormula at parsed
  split at parsed
  · cases parsed
    assumption
  · cases parsed
  · cases parsed

theorem Fails.refused (fails : Fails o text t .shader e t') :
    ∃ s f, onTree (resolveSettings o) t = (.ok s, t) ∧ readFormula text = .ok f ∧
      Refused s o.shader f := by
  cases fails with
  | @shader s f _ _ resolved parsed _ failed =>
    have typed := (Formula.root_wellTyped (readFormula_ok parsed)).1
    have refused := (shaderCode_error_iff (resolveSettings_sound resolved) typed).1 ⟨e, failed⟩
    exact ⟨s, f, resolved, parsed, refused⟩

theorem Fails.eq_of_ne_shader {stage : CompileStage} (fails : Fails o text t stage e t')
    (other : stage ≠ .shader) : t' = t := by
  cases fails with
  | settings | formula | creating => rfl
  | shader => exact absurd rfl other
  | writing _ _ _ created _ failed => exact FileTree.eq_of_writeFile_error created failed

theorem Fails.find_eq_iff (fails : Fails o text t .shader e t') :
    t'.find o.output = t.find o.output ↔
      o.output = "" ∨ t.find o.output = .ok (.file []) ∨
        ∃ d, t.find o.output = .ok (.device d) := by
  cases fails with
  | shader _ _ created _ =>
    split at created
    · rename_i printing
      subst created
      exact iff_of_true rfl (.inl printing)
    · rename_i named
      rw [or_iff_right named]
      exact FileTree.find_created_eq_iff created

end

/-- How `compile` fails: at the settings, the formula, the making of the output file, the shader or
the writing. Every file is then as before, unless the shader is refused, which comes after the
making: then a file at the output path is emptied, or made where there was none. -/
theorem failed_compile_output (o : Options) (text : String) (t t' : FileTree) (e : CommandError) :
    (onTree (compile o text) t = (.error e, t') ↔ ∃ stage, Fails o text t stage e t') ∧
      ∀ stage, Fails o text t stage e t' →
        (stage ≠ .shader → t' = t) ∧
        (stage = .shader →
          (∃ s f, onTree (resolveSettings o) t = (.ok s, t) ∧ readFormula text = .ok f ∧
            Refused s o.shader f) ∧
          (t'.find o.output = t.find o.output ↔
            o.output = "" ∨ t.find o.output = .ok (.file []) ∨
              ∃ d, t.find o.output = .ok (.device d))) := by
  refine ⟨⟨compile_failed, ?_⟩, ?_⟩
  · rintro ⟨stage, fails⟩
    exact fails.compile_failed
  · intro stage fails
    refine ⟨fails.eq_of_ne_shader, ?_⟩
    rintro rfl
    exact ⟨fails.refused, fails.find_eq_iff⟩

/-- The working directory holds `z.glsl`, one byte long. -/
def savedShader : FileTree :=
  ((FileTree.empty ["home"]).put ["home"] .directory).put ["home", "z.glsl"] (.file [0x7A])

def vertexShader : Options :=
  { Options.default (some .compile) with shader := "vertex", output := "z.glsl" }

theorem compile_vertexShader :
    onTree (compile vertexShader "z") savedShader =
      (.error (.plain ("unknown shader kind \"vertex\", want one of " ++
        "[expr webgl-frag webgl-vert core-frag core-vert compute]")),
        savedShader.put ["home", "z.glsl"] (.file [])) := by
  have resolved : onTree (resolveSettings vertexShader) savedShader =
      (.ok Settings.default, savedShader) := rfl
  have parsed : readFormula "z" = .ok ⟨"z", .z 0⟩ := rfl
  refine (Fails.shader resolved parsed ?_ ?_).compile_failed
  · rfl
  · rw [shaderCode, generator_eq]
    rfl

/-- There is no shader `vertex`, and the file that was to hold it has lost its byte. -/
theorem unknown_shader_empties_output :
    savedShader.find vertexShader.output = .ok (.file [0x7A]) ∧
      (onTree (compile vertexShader "z") savedShader).1 =
        .error (.plain ("unknown shader kind \"vertex\", want one of " ++
          "[expr webgl-frag webgl-vert core-frag core-vert compute]")) ∧
      (onTree (compile vertexShader "z") savedShader).2.find vertexShader.output =
        .ok (.file []) := by
  rw [compile_vertexShader]
  decide +kernel

theorem unknown_shader_fails_late :
    ∃ e t', onTree (compile vertexShader "z") savedShader = (.error e, t') ∧
      Fails vertexShader "z" savedShader .shader e t' ∧
      t'.find vertexShader.output ≠ savedShader.find vertexShader.output := by
  have changed : (savedShader.put ["home", "z.glsl"] (.file [])).find vertexShader.output ≠
      savedShader.find vertexShader.output := by
    decide +kernel
  obtain ⟨failed, stages⟩ := failed_compile_output vertexShader "z" savedShader _ _
  obtain ⟨stage, fails⟩ := failed.1 compile_vertexShader
  have late : stage = .shader := by
    by_contra other
    exact changed (congrArg (·.find vertexShader.output) ((stages stage fails).1 other))
  subst late
  exact ⟨_, _, compile_vertexShader, fails, changed⟩

end Command

end EscapeTime
