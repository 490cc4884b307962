import EscapeTime.Files.Tree
import EscapeTime.Proofs.Outcome

/-!
# Making files

Making an empty file changes what is at its own location only. No path leads through it, so every
path leads to where it led before.
-/

namespace EscapeTime.Files.FileTree

variable {t t' : FileTree} {path : String}

/-! ### Putting a file -/

section Put

variable {l : Location} (free : t.node? l ≠ some .directory) (n : FileNode)
include free

theorem node?_put (l' : Location) :
    (t.put l n).node? l' = if l' = l then some n else t.node? l' := by
  have below : l ≠ [] := by
    rintro rfl
    exact free rfl
  have others (nodes : List (Location × FileNode)) (other : l' ≠ l) :
      (nodes.filter (·.1 != l)).lookup l' = nodes.lookup l' := by
    induction nodes with
    | nil => rfl
    | cons node nodes ih =>
      obtain ⟨k, n⟩ := node
      rw [List.lookup_cons]
      by_cases here : k = l
      · rw [List.filter_cons_of_neg (by simp [here]), ih, here, beq_false_of_ne other]
      · rw [List.filter_cons_of_pos (by simp [here]), List.lookup_cons, ih]
  unfold node? put
  by_cases same : l' = l
  · simp [same, below]
  · rw [if_neg same, List.lookup_cons, beq_false_of_ne same, others _ same]

omit free in
theorem walk_cons_ok_iff {start place : Location} {name : String} {names : List String} :
    t.walk start (name :: names) = .ok place ↔
      if name = "" ∨ name = "." then t.walk start names = .ok place
      else if name = ".." then t.walk start.dropLast names = .ok place
      else t.node? start = some .directory ∧
        if names.isEmpty then start ++ [name] = place
        else t.node? (start ++ [name]) = some .directory ∧
          t.walk (start ++ [name]) names = .ok place := by
  rw [walk]
  split
  · rfl
  · split
    · rfl
    · cases t.node? start with
      | none => simp
      | some node =>
        cases node with
        | directory =>
          dsimp only
          split
          · simp
          · cases t.node? (start ++ [name]) with
            | none => simp
            | some node => cases node <;> simp
        | _ => simp

theorem walk_put {start place : Location} {names : List String}
    (led : t.walk start names = .ok place) : (t.put l n).walk start names = .ok place := by
  have kept {l' : Location} (directory : t.node? l' = some .directory) :
      (t.put l n).node? l' = some .directory := by
    rw [node?_put free, if_neg ?_, directory]
    rintro rfl
    exact free directory
  induction names generalizing start with
  | nil => exact led
  | cons name names ih =>
    rw [walk_cons_ok_iff] at led ⊢
    by_cases stays : name = "" ∨ name = "."
    · rw [if_pos stays] at led ⊢
      exact ih led
    · rw [if_neg stays] at led ⊢
      by_cases up : name = ".."
      · rw [if_pos up] at led ⊢
        exact ih led
      · rw [if_neg up] at led ⊢
        refine ⟨kept led.1, ?_⟩
        by_cases last : names.isEmpty
        · rw [if_pos last] at led ⊢
          exact led.2
        · rw [if_neg last] at led ⊢
          exact ⟨kept led.2.1, ih led.2.2⟩

theorem locate_put {place : Location} (located : t.locate path = .ok place) :
    (t.put l n).locate path = .ok place := by
  unfold locate at located ⊢
  dsimp only at located ⊢
  split at located
  · cases located
  · rename_i named
    rw [if_neg named]
    exact walk_put free n located

end Put

theorem find_of_locate {l : Location} (located : t.locate path = .ok l) (below : l ≠ t.directory) :
    t.find path = (t.node? l).elim (.error .notFound) .ok := by
  unfold find
  rw [located]
  show (if l = t.directory then _ else _) = _
  rw [if_neg below]
  cases t.node? l <;> rfl

/-! ### An empty file -/

theorem emptyFile_ok {slash : Bool} {l : Location} (made : t.emptyFile slash l = .ok t') :
    slash = false ∧ l ≠ t.directory ∧
      ((∃ d, t.node? l = some (.device d)) ∧ t' = t ∨
        (∀ d, t.node? l ≠ some (.device d)) ∧ t.node? l ≠ some .directory ∧
          t' = t.put l (.file [])) := by
  unfold emptyFile at made
  split at made
  · cases made
  · rename_i below
    refine ⟨?_, below, ?_⟩
    · cases slash with
      | false => rfl
      | true => split at made <;> cases made
    · split at made
      · cases made
      · rename_i d device
        split at made
        · cases made
        · cases made
          exact .inl ⟨⟨d, device⟩, rfl⟩
      all_goals
        rename_i node
        split at made
        · cases made
        · cases made
          simp [node]

/-- An empty file is made where nothing is and where a file is. A device stays as it is. -/
theorem createFile_ok (created : t.createFile path = .ok t') :
    ∃ l, t.locate path = .ok l ∧ l ≠ t.directory ∧
      ((∃ d, t.node? l = some (.device d)) ∧ t' = t ∨
        (∀ d, t.node? l ≠ some (.device d)) ∧ t.node? l ≠ some .directory ∧
          t' = t.put l (.file [])) := by
  unfold createFile at created
  dsimp only at created
  split at created
  · cases created
  · rename_i l located
    obtain ⟨slash, made⟩ := emptyFile_ok (mapError_ok created)
    rw [bne_eq_false_iff_eq.1 slash] at located
    exact ⟨l, located, made⟩

theorem find_created_eq_iff (created : t.createFile path = .ok t') :
    t'.find path = t.find path ↔
      t.find path = .ok (.file []) ∨ ∃ d, t.find path = .ok (.device d) := by
  obtain ⟨l, located, below, ⟨⟨d, device⟩, rfl⟩ | ⟨noDevice, free, rfl⟩⟩ := createFile_ok created
  · refine iff_of_true rfl (.inr ⟨d, ?_⟩)
    rw [find_of_locate located below, device]
    rfl
  · have empty : (t.put l (.file [])).find path = .ok (.file []) := by
      rw [find_of_locate (locate_put free _ located) below, node?_put free, if_pos rfl]
      rfl
    rw [empty, eq_comm, or_iff_left]
    rintro ⟨d, device⟩
    rw [find_of_locate located below] at device
    cases node : t.node? l with
    | none =>
      rw [node] at device
      cases device
    | some n =>
      rw [node] at device
      cases device
      exact noDevice d node

/-- Only a device refuses bytes once the file is made. -/
theorem eq_of_writeFile_error {bytes : List UInt8} {e : FileError}
    (created : t.createFile path = .ok t') (failed : t'.writeFile path bytes = .error e) :
    t' = t := by
  obtain ⟨l, located, -, ⟨-, rfl⟩ | ⟨-, free, rfl⟩⟩ := createFile_ok created
  · rfl
  · unfold writeFile at failed
    rw [locate_put free _ located] at failed
    dsimp only at failed
    rw [node?_put free, if_pos rfl] at failed
    cases failed

end EscapeTime.Files.FileTree
