import EscapeTime.Proofs.Formula.Alike
import EscapeTime.Proofs.Formula.Frame
import EscapeTime.Proofs.Formula.Safety

/-!
# Raw code

What stands between quotes goes into the shader code as it is and influences nothing else. Whether a
formula is accepted depends on the text outside its quotes, and so does all code around the raw
code.
-/

namespace EscapeTime

open Glyph Grammar Node

/-! ### Texts with quoted spans -/

def inQuotes (content : String) : String :=
  "\"" ++ content ++ "\""

/-- The text `source` has closed quoted spans with these contents in the slots of `outside`, and no
other quotes. -/
structure Quotes (outside : Template) (contents : List String) (source : String) : Prop where
  lead : '"' ∉ outside.lead
  tail : ∀ segment ∈ outside.tail, '"' ∉ segment
  plain : ∀ content ∈ contents, '"' ∉ content.toList
  count : contents.length = outside.slots
  filled : outside.fill? (contents.map inQuotes) = some source

/-- The text of spans with these contents in the slots of a template. -/
def quoting (outside : Template) (contents : List String) : List Char :=
  (outside.filled (contents.map inQuotes)).toList

theorem Quotes.toList_eq {outside : Template} {contents : List String} {source : String}
    (quotes : Quotes outside contents source) : source.toList = quoting outside contents := by
  have filled := quotes.filled
  rw [Template.fill?_eq_filled ((List.length_map _).trans quotes.count)] at filled
  rw [← Option.some.inj filled]
  rfl

theorem fill?_quoting {outside : Template} {contents : List String}
    (count : contents.length = outside.slots) :
    outside.fill? (contents.map inQuotes) = some (String.ofList (quoting outside contents)) := by
  rw [Template.fill?_eq_filled ((List.length_map _).trans count), quoting, String.ofList_toList]

theorem quoting_nil (lead : List Char) : quoting ⟨lead, []⟩ [] = lead := by
  simp [quoting, Template.filled, Template.weave]

theorem quoting_cons (lead segment : List Char) (tail : List (List Char)) (content : String)
    (contents : List String) :
    quoting ⟨lead, segment :: tail⟩ (content :: contents) =
      lead ++ '"' :: (content.toList ++ '"' :: quoting ⟨segment, tail⟩ contents) := by
  simp [quoting, Template.filled, Template.weave, inQuotes]

/-- The contents of the spans of two texts. -/
def spansOf (contents contents' : List String) : Spans :=
  List.zipWith (fun a b => (a.toList, b.toList)) contents contents'

theorem alike_quoting {lead : List Char} {tail : List (List Char)}
    {contents contents' : List String}
    (leadPlain : '"' ∉ lead) (tailPlain : ∀ segment ∈ tail, '"' ∉ segment)
    (left : ∀ content ∈ contents, '"' ∉ content.toList)
    (right : ∀ content ∈ contents', '"' ∉ content.toList) (count : contents.length = tail.length)
    (count' : contents'.length = tail.length) (i j : Nat) :
    Alike (spansOf contents contents') (spell false i (quoting ⟨lead, tail⟩ contents))
      (spell false j (quoting ⟨lead, tail⟩ contents')) := by
  induction tail generalizing lead contents contents' i j with
  | nil =>
    obtain rfl := List.length_eq_zero_iff.mp count
    obtain rfl := List.length_eq_zero_iff.mp count'
    rw [quoting_nil, ← List.append_nil lead]
    exact alike_lead leadPlain (fun _ _ => .nil) i j
  | cons segment tail ih =>
    obtain ⟨a, as, rfl⟩ := List.exists_cons_of_length_eq_add_one count
    obtain ⟨b, bs, rfl⟩ := List.exists_cons_of_length_eq_add_one count'
    rw [List.forall_mem_cons] at tailPlain left right
    rw [quoting_cons, quoting_cons]
    refine alike_lead leadPlain (alike_span left.1 right.1 fun i j => ?_) i j
    exact ih tailPlain.1 tailPlain.2 left.2 right.2 (Nat.succ.inj count) (Nat.succ.inj count') i j

theorem Quotes.alike {outside : Template} {contents contents' : List String}
    {source source' : String} (left : Quotes outside contents source)
    (right : Quotes outside contents' source') :
    Alike (spansOf contents contents') (spell false 0 source.toList)
      (spell false 0 source'.toList) := by
  rw [left.toList_eq, right.toList_eq]
  exact alike_quoting left.lead left.tail left.plain right.plain left.count right.count 0 0

/-! ### Raw code of the tree -/

theorem map_spansOf {contents contents' : List String}
    (count : contents.length = contents'.length) :
    ((spansOf contents contents').map fun p => String.ofList p.1) = contents := by
  induction contents generalizing contents' with
  | nil => rfl
  | cons a as ih =>
    obtain ⟨b, bs, rfl⟩ := List.exists_cons_of_length_eq_add_one count.symm
    have rest := ih (Nat.succ.inj count)
    simp only [spansOf] at rest
    simp [spansOf, rest]

namespace Formula

/-- The raw code of a formula is what stands between its quotes. -/
theorem rawCodes_root {outside : Template} {contents : List String} {source : String} {f : Formula}
    (quotes : Quotes outside contents source) (done : parse source = .ok f) :
    f.root.rawCodes = contents := by
  obtain ⟨tokens, tree, lexed, parsed, fixed, -⟩ := parse_ok done
  have agree := tokenize_alike (quotes.alike quotes)
  rw [lexed] at agree
  have built := (Parse.formula_derived (tokens_known lexed) parsed).built
  have codes := built.codes
  rw [List.flatMap_singleton] at codes
  cases agree with
  | ok read =>
    rw [(tree_built lexed parsed).1.fix_rawCodes fixed, codes, read.rawTexts_eq, map_spansOf rfl]

/-- Which spans are written follows from the shape of the tree. -/
theorem spans_snd_of_shape {n m : Node} (same : n.shape = m.shape) (written : Bool) :
    (n.spans written).map Prod.snd = (m.spans written).map Prod.snd := by
  have flags (n : Node) :
      (n.spans written).map Prod.snd = (n.shape.spans written).map Prod.snd := by
    rw [shape, spans_bare, List.map_map]
    rfl
  rw [flags, same, ← flags]

/-- The raw code of a formula with whether it is written, from a tree of the same shape. -/
theorem spans_root {outside : Template} {contents : List String} {source : String} {f : Formula}
    {model : Node} (quotes : Quotes outside contents source) (done : parse source = .ok f)
    (same : f.root.shape = model.shape) :
    ((model.spans true).map Prod.snd).length = contents.length ∧
      f.root.spans true = contents.zip ((model.spans true).map Prod.snd) := by
  rw [← spans_snd_of_shape same, ← rawCodes_root quotes done, ← spans_map_fst true]
  constructor
  · rw [List.length_map, List.length_map]
  · rw [List.zip_map']
    exact (List.map_id _).symm

/-- The text with nothing in its quotes. -/
def emptied (outside : Template) : String :=
  String.ofList (quoting outside (List.replicate outside.slots ""))

theorem parse_emptied {outside : Template} {contents : List String} {source : String}
    (quotes : Quotes outside contents source) :
    mapBoth (fun f => f.root.shape) (Failure.bare fun _ => "") (parse source) =
      mapBoth (fun f => f.root.shape) (Failure.bare fun _ => "") (parse (emptied outside)) := by
  have count : (List.replicate outside.slots "").length = outside.slots := List.length_replicate
  have empty : Quotes outside (List.replicate outside.slots "") (emptied outside) :=
    ⟨quotes.lead, quotes.tail, by simp, count, fill?_quoting count⟩
  exact parse_alike (quotes.alike empty) fun _ _ => rfl

/-- For each text outside the quotes, either all contents are rejected, or all are accepted, and
then the code is one frame with the contents of the spans in its slots. The spans keep their order;
those below an `im` with its real form are dropped. -/
theorem compile_quoted (outside : Template) :
    (∃ (frame : Template) (written : List Bool),
      ∀ contents source, Quotes outside contents source →
        ∃ f text, parse source = .ok f ∧ compile source = .ok text ∧
          written.length = contents.length ∧ f.root.spans true = contents.zip written ∧
          frame.slots = (kept (contents.zip written)).length ∧
          frame.fill? (kept (contents.zip written)) = some text) ∨
    ∀ contents source, Quotes outside contents source →
      ∃ e, parse source = .error (.rejected e) := by
  -- All texts are compared with the one whose spans are empty.
  cases accepted : parse (emptied outside) with
  | error failure =>
    refine .inr fun contents source quotes => ?_
    have same := parse_emptied quotes
    cases done : parse source with
    | ok f =>
      rw [accepted, done] at same
      cases same
    | error failure' =>
      obtain ⟨e, rfl⟩ := parse_error done
      exact ⟨e, rfl⟩
  | ok model =>
    obtain ⟨frame, frames⟩ := (root_wellTyped accepted).1.frames
    refine .inl ⟨frame, (model.root.spans true).map Prod.snd, fun contents source quotes => ?_⟩
    have same := parse_emptied quotes
    cases done : parse source with
    | error failure =>
      rw [accepted, done] at same
      cases same
    | ok f =>
      rw [accepted, done] at same
      have shapes : f.root.shape = model.root.shape := Except.ok.inj same
      obtain ⟨slots, code⟩ := frames f.root shapes
      obtain ⟨length, spans⟩ := spans_root quotes done shapes
      rw [spans] at slots code
      exact ⟨f, _, rfl, compile_ok done code, length, spans, slots.symm,
        Template.fill?_eq_filled slots⟩

end Formula

end EscapeTime
