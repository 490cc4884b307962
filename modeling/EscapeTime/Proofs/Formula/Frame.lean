import EscapeTime.Proofs.Formula.Renaming
import EscapeTime.Proofs.Formula.Typing

/-!
# Code around raw code

The code of a typed tree is a frame that depends on the rest of the tree only, with the raw code of
the tree in its slots, from left to right. What stands below an `im` that is written with its real
form has no slot: that form is the constant zero.
-/

namespace EscapeTime

/-! ### Templates in templates -/

namespace Template

/-- The code with its slots filled, for as many arguments as slots. -/
def filled (t : Template) (args : List String) : String :=
  String.ofList t.lead ++ weave t.tail args

theorem fill?_eq_filled {t : Template} {args : List String} (count : args.length = t.slots) :
    t.fill? args = some (t.filled args) := by
  rw [fill?, if_neg (by omega)]
  rfl

/-- The template with `code` before it. -/
def after (code : List Char) (t : Template) : Template :=
  ⟨code ++ t.lead, t.tail⟩

theorem filled_after (code : List Char) (t : Template) (args : List String) :
    (t.after code).filled args = String.ofList code ++ t.filled args := by
  simp [after, filled, String.ofList_append, String.append_assoc]

/-- The template whose segments are `lead` and `tail`, and after it the template `u`. -/
def join (lead : List Char) : (tail : List (List Char)) → (u : Template) → Template
  | [], u => u.after lead
  | segment :: tail, u => ⟨lead, (join segment tail u).lead :: (join segment tail u).tail⟩

theorem slots_join (lead : List Char) (tail : List (List Char)) (u : Template) :
    (join lead tail u).slots = tail.length + u.slots := by
  induction tail generalizing lead with
  | nil => simp [join, after, slots]
  | cons segment tail ih =>
    have rest : (join segment tail u).tail.length = _ := ih segment
    simp only [join, slots, List.length_cons, rest]
    omega

theorem filled_join (lead : List Char) {tail : List (List Char)} {u : Template}
    {as bs : List String} (count : as.length = tail.length) :
    (join lead tail u).filled (as ++ bs) = (Template.mk lead tail).filled as ++ u.filled bs := by
  induction tail generalizing lead as with
  | nil =>
    obtain rfl := List.length_eq_zero_iff.mp count
    rw [join, List.nil_append, filled_after]
    simp [filled, weave]
  | cons segment tail ih =>
    cases as with
    | nil => cases count
    | cons a as =>
      have rest := ih segment (Nat.succ.inj count)
      simp only [filled] at rest
      simp only [join, filled, List.cons_append, weave, String.append_assoc, rest]

/-- The template of the segments `lead` and `tail` with a template in each slot. -/
def nest : (lead : List Char) → (tail : List (List Char)) → List Template → Template
  | lead, segment :: tail, t :: ts => (join t.lead t.tail (nest segment tail ts)).after lead
  | lead, _, _ => ⟨lead, []⟩

/-- As many arguments as the slots of each template. -/
def Counts : List Template → List (List String) → Prop :=
  List.Forall₂ fun t args => args.length = t.slots

theorem slots_nest (lead : List Char) {tail : List (List Char)} {ts : List Template}
    {args : List (List String)} (count : tail.length = ts.length) (counts : Counts ts args) :
    (nest lead tail ts).slots = args.flatten.length := by
  induction counts generalizing lead tail with
  | nil =>
    obtain rfl := List.length_eq_zero_iff.mp count
    rfl
  | @cons t as ts args first _ ih =>
    cases tail with
    | nil => cases count
    | cons segment tail =>
      have rest := ih segment (Nat.succ.inj count)
      have joined := slots_join t.lead t.tail (nest segment tail ts)
      rw [rest] at joined
      rw [nest, List.flatten_cons, List.length_append, first]
      exact joined

theorem filled_nest (lead : List Char) {tail : List (List Char)} {ts : List Template}
    {args : List (List String)} (count : tail.length = ts.length) (counts : Counts ts args) :
    (nest lead tail ts).filled args.flatten =
      (Template.mk lead tail).filled (List.zipWith filled ts args) := by
  induction counts generalizing lead tail with
  | nil =>
    obtain rfl := List.length_eq_zero_iff.mp count
    rfl
  | @cons t as ts args first _ ih =>
    cases tail with
    | nil => cases count
    | cons segment tail =>
      have rest := ih segment (Nat.succ.inj count)
      rw [nest, List.flatten_cons, filled_after, filled_join t.lead first, rest]
      simp [filled, weave, String.append_assoc]

end Template

namespace Node

/-! ### Raw code that is written -/

mutual

/-- The raw code of the tree from left to right, each with whether it is written. It is not below
an `im` with its real form. -/
def spans (written : Bool) : Node → List (String × Bool)
  | .raw _ code => [(code, written)]
  | .binary _ _ _ lhs rhs => spans written lhs ++ spans written rhs
  | .call _ _ complexInput fn args => allSpans (written && (complexInput || fn ≠ .im)) args
  | _ => []

def allSpans (written : Bool) : List Node → List (String × Bool)
  | [] => []
  | n :: ns => spans written n ++ allSpans written ns

end

/-- The contents of the spans that are written. -/
def kept {α : Type} (spans : List (α × Bool)) : List α :=
  (spans.filter Prod.snd).map Prod.fst

theorem kept_append {α : Type} (xs ys : List (α × Bool)) :
    kept (xs ++ ys) = kept xs ++ kept ys := by
  rw [kept, List.filter_append, List.map_append, kept, kept]

theorem kept_allSpans (written : Bool) (ns : List Node) :
    kept (allSpans written ns) = (ns.map fun n => kept (n.spans written)).flatten := by
  induction ns with
  | nil => rfl
  | cons n ns ih => rw [allSpans, kept_append, ih, List.map_cons, List.flatten_cons]

mutual

theorem spans_map_fst (written : Bool) : (n : Node) → (n.spans written).map Prod.fst = n.rawCodes
  | .binary _ _ _ lhs rhs => by
    rw [spans, rawCodes, List.map_append, spans_map_fst written lhs, spans_map_fst written rhs]
  | .call _ _ _ _ args => by
    rw [spans, rawCodes, allSpans_map_fst]
  | .raw _ _ | .real _ _ | .imaginary _ _ | .complex _ _ _ _ | .z _ => rfl

theorem allSpans_map_fst (written : Bool) : (ns : List Node) →
    (allSpans written ns).map Prod.fst = allRawCodes ns
  | [] => rfl
  | n :: ns => by
    rw [allSpans, allRawCodes, List.map_append, spans_map_fst written n,
      allSpans_map_fst written ns]

end

mutual

theorem kept_spans_false : (n : Node) → kept (n.spans false) = []
  | .binary _ _ _ lhs rhs => by
    rw [spans, kept_append, kept_spans_false lhs, kept_spans_false rhs]
    rfl
  | .call _ _ _ _ args => by
    rw [spans, Bool.false_and, kept_allSpans_false args]
  | .raw _ _ | .real _ _ | .imaginary _ _ | .complex _ _ _ _ | .z _ => rfl

theorem kept_allSpans_false : (ns : List Node) → kept (allSpans false ns) = []
  | [] => rfl
  | n :: ns => by
    rw [allSpans, kept_append, kept_spans_false n, kept_allSpans_false ns]
    rfl

end

/-! ### Trees of one shape -/

/-- The tree without columns and raw code. -/
def shape (n : Node) : Node :=
  n.bare fun _ => ""

mutual

theorem bare_bare (r s : String → String) : (n : Node) → (n.bare r).bare s = n.bare (s ∘ r)
  | .binary _ _ _ lhs rhs => by
    rw [bare, bare, bare, bare_bare r s lhs, bare_bare r s rhs]
  | .call _ _ _ _ args => by
    rw [bare, bare, bare, bareAll_bareAll r s args]
  | .raw _ _ | .real _ _ | .imaginary _ _ | .complex _ _ _ _ | .z _ => rfl

theorem bareAll_bareAll (r s : String → String) : (ns : List Node) →
    bareAll s (bareAll r ns) = bareAll (s ∘ r) ns
  | [] => rfl
  | n :: ns => by
    rw [bareAll, bareAll, bareAll, bare_bare r s n, bareAll_bareAll r s ns]

end

mutual

theorem spans_bare (rename : String → String) (written : Bool) : (n : Node) →
    (n.bare rename).spans written = (n.spans written).map (Prod.map rename id)
  | .binary _ _ _ lhs rhs => by
    rw [bare, spans, spans, List.map_append, spans_bare rename written lhs,
      spans_bare rename written rhs]
  | .call _ _ _ _ args => by
    rw [bare, spans, spans, allSpans_bareAll]
  | .raw _ _ | .real _ _ | .imaginary _ _ | .complex _ _ _ _ | .z _ => rfl

theorem allSpans_bareAll (rename : String → String) (written : Bool) : (ns : List Node) →
    allSpans written (bareAll rename ns) = (allSpans written ns).map (Prod.map rename id)
  | [] => rfl
  | n :: ns => by
    rw [bareAll, allSpans, allSpans, List.map_append, spans_bare rename written n,
      allSpans_bareAll rename written ns]

end

/-- The frame of a tree: the code of every tree of its shape, but for the raw code. -/
def Frames (n : Node) (frame : Template) : Prop :=
  ∀ m : Node, m.shape = n.shape → (kept (m.spans true)).length = frame.slots ∧
    m.code = .ok (frame.filled (kept (m.spans true)))

theorem frames_leaf {n : Node} (text : String)
    (leaf : ∀ m : Node, m.shape = n.shape → m.spans true = [] ∧ m.code = .ok text) :
    n.Frames ⟨text.toList, []⟩ := by
  intro m same
  obtain ⟨none, code⟩ := leaf m same
  rw [none, code]
  exact ⟨rfl, by simp [Template.filled, Template.weave]⟩

theorem shape_call {c : Int} {t : ValueType} {complexInput : Bool} {fn : Builtin}
    {args : List Node} {m : Node} (same : m.shape = (Node.call c t complexInput fn args).shape) :
    ∃ c' args', m = .call c' t complexInput fn args' ∧ args'.map shape = args.map shape := by
  cases m with
  | call c' t' complexInput' fn' args' =>
    simp only [shape, bare, bareAll_eq_map, call.injEq] at same
    obtain ⟨-, rfl, rfl, rfl, args⟩ := same
    exact ⟨c', args', rfl, args⟩
  | _ => simp [shape, bare] at same

theorem shape_binary {c : Int} {t : ValueType} {op : Operator} {lhs rhs m : Node}
    (same : m.shape = (Node.binary c t op lhs rhs).shape) :
    ∃ c' l r, m = .binary c' t op l r ∧ l.shape = lhs.shape ∧ r.shape = rhs.shape := by
  cases m with
  | binary c' t' op' l r =>
    simp only [shape, bare, binary.injEq] at same
    obtain ⟨-, rfl, rfl, left, right⟩ := same
    exact ⟨c', l, r, rfl, left, right⟩
  | _ => simp [shape, bare] at same

/-- Trees of the shapes of `ns` have code from their frames. -/
theorem frames_all {ns ms : List Node} {frames : List Template}
    (all : List.Forall₂ Frames ns frames) (same : ms.map shape = ns.map shape) :
    Template.Counts frames (ms.map fun m => kept (m.spans true)) ∧
      List.Forall₂ (fun m code => m.code = .ok code) ms
        (List.zipWith Template.filled frames (ms.map fun m => kept (m.spans true))) := by
  induction all generalizing ms with
  | nil =>
    obtain rfl := List.map_eq_nil_iff.mp same
    exact ⟨.nil, .nil⟩
  | cons first _ ih =>
    cases ms with
    | nil => cases same
    | cons m ms =>
      obtain ⟨shape, shapes⟩ := List.cons.inj same
      obtain ⟨count, code⟩ := first m shape
      obtain ⟨counts, codes⟩ := ih shapes
      exact ⟨.cons count counts, .cons code codes⟩

/-- A form whose slots take the code of `ns` has their frames in its own. -/
theorem fill_frames {ns : List Node} {frames : List Template} {args : List (List String)}
    {form : Form} (all : List.Forall₂ Frames ns frames) (slots : form.template.slots = ns.length)
    (counts : Template.Counts frames args) :
    args.flatten.length =
        (Template.nest form.template.lead form.template.tail frames).slots ∧
      Form.fill (some form) (List.zipWith Template.filled frames args) =
        .ok ((Template.nest form.template.lead form.template.tail frames).filled args.flatten) := by
  have count : form.template.tail.length = frames.length := slots.trans all.length_eq
  have given : (List.zipWith Template.filled frames args).length = form.template.slots := by
    rw [List.length_zipWith, ← counts.length_eq, Nat.min_self]
    exact count.symm
  refine ⟨(Template.slots_nest _ count counts).symm, ?_⟩
  rw [Template.filled_nest _ count counts]
  unfold Form.fill
  dsimp only
  rw [Template.fill?_eq_filled given]

theorem frames_binary {c : Int} {t : ValueType} {op : Operator} {lhs rhs : Node} {form : Form}
    {left right : Template} (determined : t ≠ .undetermined)
    (known : op.descriptor.form (t ≠ .real) = some form)
    (framesLeft : lhs.Frames left) (framesRight : rhs.Frames right) :
    (Node.binary c t op lhs rhs).Frames
      (.nest form.template.lead form.template.tail [left, right]) := by
  intro m same
  have all : List.Forall₂ Frames [lhs, rhs] [left, right] :=
    .cons framesLeft (.cons framesRight .nil)
  obtain ⟨c', l, r, rfl, shapeLeft, shapeRight⟩ := shape_binary same
  have shapes : [l, r].map shape = [lhs, rhs].map shape := by simp [shapeLeft, shapeRight]
  obtain ⟨counts, _ | ⟨codeLeft, _ | ⟨codeRight, -⟩⟩⟩ := frames_all all shapes
  obtain ⟨count, filled⟩ := fill_frames all (Operator.slots_eq known) counts
  have inner : kept ((Node.binary c' t op l r).spans true) =
      ([l, r].map fun m => kept (m.spans true)).flatten := by
    simp [spans, kept_append]
  rw [inner, code_binary determined codeLeft codeRight, known]
  exact ⟨count, filled⟩

theorem frames_call {c : Int} {t : ValueType} {complexInput : Bool} {fn : Builtin}
    {args : List Node} {form : Form} {frames : List Template} (determined : t ≠ .undetermined)
    (known : fn.descriptor.form complexInput = some form)
    (arity : args.length = fn.descriptor.arity) (all : List.Forall₂ Frames args frames) :
    ∃ frame, (Node.call c t complexInput fn args).Frames frame := by
  have slots := Builtin.slots_eq known
  cases used : complexInput || decide (fn ≠ .im) with
  | true =>
    rw [used, if_pos rfl, ← arity] at slots
    refine ⟨.nest form.template.lead form.template.tail frames, fun m same => ?_⟩
    obtain ⟨c', args', rfl, shapes⟩ := shape_call same
    obtain ⟨counts, codes⟩ := frames_all all shapes
    obtain ⟨count, filled⟩ := fill_frames all slots counts
    rw [spans, used, Bool.true_and, kept_allSpans, code_call determined codes, known]
    exact ⟨count, filled⟩
  | false =>
    -- No slot: the arguments are dropped, and the raw code in them.
    rw [used, if_neg Bool.false_ne_true] at slots
    refine ⟨⟨form.template.lead, []⟩, fun m same => ?_⟩
    obtain ⟨c', args', rfl, shapes⟩ := shape_call same
    obtain ⟨counts, codes⟩ := frames_all all shapes
    rw [spans, used, Bool.true_and, kept_allSpans_false, code_call determined codes, known]
    refine ⟨rfl, ?_⟩
    have tail : form.template.tail = [] := List.length_eq_zero_iff.mp slots
    simp [Form.fill, Template.fill?, slots, Template.filled, tail, Template.weave]

theorem WellTyped.frames {n : Node} (typed : n.WellTyped) : ∃ frame, n.Frames frame := by
  induction typed with
  | @real _ v =>
    refine ⟨_, frames_leaf ("vec2(" ++ v.code ++ ",0.)") fun m same => ?_⟩
    cases m <;> simp [shape, bare] at same
    subst same
    exact ⟨rfl, rfl⟩
  | @imaginary _ v =>
    refine ⟨_, frames_leaf ("vec2(0.," ++ v.code ++ ")") fun m same => ?_⟩
    cases m <;> simp [shape, bare] at same
    subst same
    exact ⟨rfl, rfl⟩
  | @complex _ t re im determined =>
    refine ⟨_, frames_leaf ("vec2(" ++ re.code ++ "," ++ im.code ++ ")") fun m same => ?_⟩
    cases m <;> simp [shape, bare] at same
    obtain ⟨rfl, rfl, rfl⟩ := same
    rw [code, if_neg determined]
    exact ⟨rfl, rfl⟩
  | z =>
    refine ⟨_, frames_leaf "z" fun m same => ?_⟩
    cases m <;> simp [shape, bare] at same
    exact ⟨rfl, rfl⟩
  | raw =>
    refine ⟨⟨[], [[]]⟩, fun m same => ?_⟩
    cases m <;> simp [shape, bare] at same
    exact ⟨rfl, by simp [Template.filled, Template.weave, kept, spans, code]⟩
  | binary determined known _ _ ihl ihr =>
    obtain ⟨left, framesLeft⟩ := ihl
    obtain ⟨right, framesRight⟩ := ihr
    exact ⟨_, frames_binary determined known framesLeft framesRight⟩
  | call determined known arity _ ih =>
    obtain ⟨frames, all⟩ := exists_forall₂ ih
    exact frames_call determined known arity all

end Node

end EscapeTime
