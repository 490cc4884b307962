import EscapeTime.Proofs.Shader.CallSites
import EscapeTime.Proofs.Shader.Library

/-!
# Placement of definitions

In a row of definitions in which each calls only earlier ones, every call of a helper stands after
the whole definition of that helper.
-/

namespace EscapeTime.Shader

/-- Name and rest of the definition of a new helper, for which only earlier ones are called. -/
structure Made (earlier : List (List Char)) (name body : List Char) : Prop where
  helper : isHelperName name = true
  word : name.all isNameChar = true
  calls : ∀ called ∈ helperCalls 0 body, called ∈ earlier
  once : ¬ returnType ++ ['c'] <:+: body
  new : name ∉ earlier

instance (earlier : List (List Char)) (name body : List Char) :
    Decidable (Made earlier name body) :=
  decidable_of_iff (isHelperName name = true ∧ name.all isNameChar = true ∧
    (∀ called ∈ helperCalls 0 body, called ∈ earlier) ∧ (¬ returnType ++ ['c'] <:+: body) ∧
    name ∉ earlier)
    ⟨fun all => ⟨all.1, all.2.1, all.2.2.1, all.2.2.2.1, all.2.2.2.2⟩,
      fun made => ⟨made.helper, made.word, made.calls, made.once, made.new⟩⟩

namespace Function

structure Defines (f : Function) (name body : List Char) : Prop where
  named : f.name.toList = name
  source : f.source.toList = returnType ++ (name ++ '(' :: body)

variable {earlier : List (List Char)} {f : Function} {before name called body : List Char}

theorem closes_text (f : Function) : Closes f.text.toList := by
  rw [text, String.toList_append]
  exact Closes.append_right (by decide) (by decide)

theorem Defines.toList_text (defines : f.Defines name body) : f.text.toList =
    returnType ++ (name ++ (['('] ++ (body ++ ['\n', '\n']))) := by
  rw [text, String.toList_append, defines.source]
  simp

/-- No call in the rest of a definition looks like a definition. -/
theorem unmarked (made : Made earlier name body) {after : List Char}
    (call : CallsAt body after called) (front : List Char) :
    ¬ returnType <:+ front ++ '(' :: after := by
  intro marked
  rcases List.suffix_or_suffix_of_suffix marked (List.suffix_append front ('(' :: after)) with
    inside | around
  · rcases List.suffix_cons_iff.1 inside with same | ⟨start, rfl⟩
    · cases same
    · obtain ⟨letters, rfl⟩ := call.name_eq
      obtain ⟨rest, split⟩ := call.here
      refine made.once ⟨start, letters ++ ('(' :: rest), ?_⟩
      rw [← split]
      simp only [List.append_assoc, List.cons_append, List.nil_append]
  · exact absurd (around.subset List.mem_cons_self) (by decide)

/-- A definition names its helper in one place, and calls earlier ones in the others. -/
theorem Defines.site (defines : f.Defines name body) (made : Made earlier name body)
    (call : CallsAt f.text.toList before called) :
    (before = returnType ∧ called = name) ∨
    (called ∈ earlier ∧ ∀ front, ¬ returnType <:+ front ++ before) := by
  have nonempty : name ≠ [] := by
    rintro rfl
    cases made.helper
  rw [defines.toList_text, callsAt_append (.inl (by decide))] at call
  rcases call with call | ⟨inner, rfl, call⟩
  · exact absurd call.paren (by decide)
  rw [callsAt_word (List.all_eq_true.1 made.word) (by rintro c ⟨⟩; decide) nonempty] at call
  rcases call with ⟨rfl, rfl, -, -⟩ | ⟨inner, rfl, call⟩
  · exact .inl ⟨List.append_nil _, rfl⟩
  rw [callsAt_append (.inl (by decide))] at call
  rcases call with call | ⟨inner, rfl, call⟩
  · exact absurd call.two_le_length (by decide)
  rw [callsAt_append (.inr (by decide))] at call
  rcases call with call | ⟨inner, rfl, call⟩
  · refine .inr ⟨made.calls called (mem_helperCalls_iff.2 ⟨inner, call⟩), fun front => ?_⟩
    have plain := unmarked made call (front ++ (returnType ++ name))
    simpa only [List.append_assoc, List.cons_append, List.nil_append] using plain
  · exact absurd call.paren (by decide)

end Function

/-! ### A row of definitions -/

/-- Each function defines a helper, and those that are called for it come before. -/
inductive Placed : (earlier : List (List Char)) → List Function → Prop
  | nil {earlier : List (List Char)} : Placed earlier []
  | cons {earlier : List (List Char)} {f : Function} {fs : List Function} {name body : List Char} :
    f.Defines name body → Made earlier name body → Placed (earlier ++ [name]) fs →
      Placed earlier (f :: fs)

theorem Placed.made {earlier : List (List Char)} {first last : List Function} {f : Function}
    (placed : Placed earlier (first ++ f :: last)) :
    ∃ body, f.Defines f.name.toList body ∧
      Made (earlier ++ first.map (·.name.toList)) f.name.toList body := by
  induction first generalizing earlier with
  | nil =>
    obtain _ | ⟨defines, made, -⟩ := placed
    obtain rfl := defines.named
    rw [List.map_nil, List.append_nil]
    exact ⟨_, defines, made⟩
  | cons g first ih =>
    obtain _ | ⟨defines, -, rest⟩ := placed
    obtain rfl := defines.named
    have later := ih rest
    rwa [List.append_assoc] at later

theorem Placed.unique {fs first last first' last' : List Function} {f f' : Function}
    (placed : Placed [] fs) (split : fs = first ++ f :: last) (split' : fs = first' ++ f' :: last')
    (same : f.name.toList = f'.name.toList) : first = first' := by
  obtain ⟨_, -, made⟩ := (split ▸ placed).made
  obtain ⟨_, -, made'⟩ := (split' ▸ placed).made
  rcases List.append_eq_append_iff.1 (split.symm.trans split') with ⟨r, rfl, rest⟩ | ⟨r, rfl, rest⟩
  · cases r with
    | nil => exact (List.append_nil first).symm
    | cons g r =>
      obtain ⟨rfl, -⟩ := List.cons.inj rest
      exact absurd (by simp [same]) made'.new
  · cases r with
    | nil => exact List.append_nil first'
    | cons g r =>
      obtain ⟨rfl, -⟩ := List.cons.inj rest
      exact absurd (by simp [same]) made.new

/-- The definitions in a row. -/
def rowOf (fs : List Function) : List Char :=
  (fs.map fun f => f.text.toList).flatten

theorem rowOf_append (first last : List Function) :
    rowOf (first ++ last) = rowOf first ++ rowOf last := by
  rw [rowOf, List.map_append, List.flatten_append]
  rfl

theorem rowOf_cons (f : Function) (fs : List Function) :
    rowOf (f :: fs) = f.source.toList ++ ('\n' :: '\n' :: rowOf fs) := by
  rw [rowOf, List.map_cons, List.flatten_cons, Function.text, String.toList_append,
    List.append_assoc]
  rfl

theorem closes_texts (fs : List Function) : ∀ t ∈ fs.map fun f => f.text.toList, Closes t := by
  intro t mem
  obtain ⟨f, -, rfl⟩ := List.mem_map.1 mem
  exact f.closes_text

theorem closes_rowOf (fs : List Function) : Closes (rowOf fs) :=
  Closes.flatten (closes_texts fs)

/-- A call in the row is the head of a definition or comes after the whole definition. -/
theorem Placed.site {fs : List Function} {before name : List Char} (placed : Placed [] fs)
    (call : CallsAt (rowOf fs) before name) :
    ∃ first f last, fs = first ++ f :: last ∧ f.name.toList = name ∧
      (before = rowOf first ++ returnType ∨
        rowOf first ++ f.source.toList <+: before ∧ ∀ front, ¬ returnType <:+ front ++ before) := by
  obtain ⟨_, _, _, rest, texts, rfl, call⟩ := (callsAt_flatten (closes_texts fs)).1 call
  obtain ⟨first, _, rfl, rfl, later⟩ := List.map_eq_append_iff.1 texts
  obtain ⟨f, last, rfl, rfl, rfl⟩ := List.map_eq_cons_iff.1 later
  obtain ⟨_, defines, made⟩ := placed.made
  rcases defines.site made call with ⟨rfl, rfl⟩ | ⟨earlier, unmarked⟩
  · exact ⟨first, f, last, rfl, rfl, .inl rfl⟩
  · obtain ⟨g, found, named⟩ := List.mem_map.1 earlier
    obtain ⟨before, after, rfl⟩ := List.append_of_mem found
    refine ⟨before, g, after ++ f :: last, by simp, named, .inr ⟨?_, fun front => ?_⟩⟩
    · show rowOf before ++ g.source.toList <+: rowOf (before ++ g :: after) ++ rest
      rw [rowOf_append, rowOf_cons, List.append_assoc, List.append_assoc,
        List.prefix_append_right_inj]
      exact List.prefix_append ..
    · rw [← List.append_assoc]
      exact unmarked _

/-! ### The library -/

theorem defines_helper {name parameters : String} {statements : List String}
    {letters inputs : List Char} {lines : List (List Char)} (first : String.ofList letters = name)
    (second : String.ofList inputs = parameters)
    (third : List.Forall₂ (fun s l => String.ofList l = s) statements lines) :
    (helper name parameters statements).Defines letters
      (inputs ++ ([')', ' ', '\x7b', '\n'] ++
        (lines.flatMap (fun l => '\t' :: (l ++ ['\n'])) ++ ['\x7d']))) := by
  refine ⟨?_, toList_source_helper first second third⟩
  rw [← first]
  exact String.toList_ofList

theorem helperLibrary_placed : Placed [] helperLibrary := by
  rw [helperLibrary_eq, helperDefinitions]
  iterate 18 refine .cons (defines_helper rfl rfl (by repeat constructor)) (by decide +kernel) ?_
  exact .nil

end EscapeTime.Shader
