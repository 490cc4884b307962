import EscapeTime.Proofs.Formula.Alike
import EscapeTime.Proofs.Formula.Frame
import EscapeTime.Proofs.Formula.Safety
import EscapeTime.Proofs.Text.LowerCase

/-!
# White space and letter case

White space and the case of letters have no meaning outside quotes. Texts that agree without them
have the same code, or are rejected by the same stage with the same message.
-/

namespace EscapeTime

namespace Text

theorem isBlank_toLower (c : Char) : isBlank c.toLower = isBlank c := by
  obtain same | ⟨first, last, lower⟩ := toLower_cases c
  · rw [same]
  · rw [isBlank_eq_false (by omega) (by omega), isBlank_eq_false (by omega) (by omega)]

theorem quote_of_toLower {c : Char} (quote : c.toLower = '"') : c = '"' := by
  obtain same | ⟨first, last, lower⟩ := toLower_cases c
  · rw [← same, quote]
  · rw [quote, show '"'.toNat = 0x22 from rfl] at lower
    omega

theorem lowerCase_toLower (c : Char) : lowerCase c.toLower = lowerCase c := by
  obtain same | ⟨first, last, lower⟩ := toLower_cases c
  · rw [same]
  · have twice : c.toLower.toLower = c.toLower := by
      obtain same | ⟨_, last', -⟩ := toLower_cases c.toLower
      · exact same
      · omega
    unfold lowerCase
    rw [if_pos (by omega), if_pos (by omega), twice]

/-- The text without white space and with its ASCII letters in lower case, except for what stands
between two quotes. -/
def condense : (inQuote : Bool) → List Char → List Char
  | _, [] => []
  | inQuote, c :: cs =>
    -- A quote that is never closed encloses nothing.
    if c = '"' then c :: condense (!inQuote && '"' ∈ cs) cs
    else if inQuote then c :: condense inQuote cs
    else if isBlank c then condense inQuote cs
    else c.toLower :: condense inQuote cs

theorem condense_quoted {code : List Char} (plain : '"' ∉ code) (cs : List Char) :
    condense true (code ++ '"' :: cs) = code ++ '"' :: condense false cs := by
  induction code with
  | nil => rfl
  | cons c code ih =>
    simp only [List.mem_cons, not_or] at plain
    rw [List.cons_append, condense, if_neg (Ne.symm plain.1), if_pos rfl, ih plain.2]
    rfl

theorem condense_plain {cs : List Char} (plain : '"' ∉ cs) : '"' ∉ condense false cs := by
  induction cs with
  | nil => exact plain
  | cons c cs ih =>
    simp only [List.mem_cons, not_or] at plain
    rw [condense, if_neg (Ne.symm plain.1), if_neg Bool.false_ne_true]
    split
    · exact ih plain.2
    · rw [List.mem_cons, not_or]
      exact ⟨fun quote => plain.1 (quote_of_toLower quote.symm).symm, ih plain.2⟩

end Text

open Glyph Text

/-- A text and its condensed form have the same characters outside quotes, and the same quoted
spans. -/
theorem alike_condense (cs : List Char) :
    ∃ spans : Spans, (∀ p ∈ spans, p.1 = p.2 ∧ '"' ∉ p.1) ∧
      ∀ i j, Alike spans (spell false i cs) (spell false j (condense false cs)) := by
  induction size : cs.length using Nat.strong_induction_on generalizing cs with
  | _ n ih =>
    cases cs with
    | nil => exact ⟨[], nofun, fun _ _ => .nil⟩
    | cons c cs =>
      have shorter : cs.length < n := by simp [← size]
      by_cases quote : c = '"'
      · subst quote
        rw [condense, if_pos rfl, Bool.not_false, Bool.true_and]
        by_cases closed : '"' ∈ cs
        · obtain ⟨code, after, rfl, plain⟩ := List.eq_append_cons_of_mem closed
          have shorter : after.length < n := by
            rw [← size, List.length_cons, List.length_append, List.length_cons]
            omega
          obtain ⟨spans, same, rest⟩ := ih _ shorter after rfl
          refine ⟨(code, code) :: spans, List.forall_mem_cons.mpr ⟨⟨rfl, plain⟩, same⟩, ?_⟩
          rw [decide_eq_true closed, condense_quoted plain]
          exact alike_span plain plain rest
        · rw [decide_eq_false closed]
          exact ⟨[], nofun, alike_unclosed closed (condense_plain closed)⟩
      · obtain ⟨spans, same, rest⟩ := ih _ shorter cs rfl
        refine ⟨spans, same, fun i j => ?_⟩
        rw [condense, if_neg quote, if_neg Bool.false_ne_true, spell, if_neg quote,
          if_neg Bool.false_ne_true]
        split
        · exact rest (i + 1) j
        · rename_i solid
          have lower : c.toLower ≠ '"' := fun same => quote (quote_of_toLower same)
          have spelled : lowerCase c ≠ '"' := fun same => quote (quote_of_lowerCase same)
          rw [spell, if_neg lower, if_neg Bool.false_ne_true, isBlank_toLower, if_neg solid,
            lowerCase_toLower]
          exact .plain i j spelled (rest (i + 1) (j + 1))

/-! ### Code and messages -/

theorem Token.describe_bare (t : Token) : (t.bare id).describe = t.describe := by
  have text : (t.bare id).text = t.text := by
    rw [Token.bare]
    exact ite_self _
  rw [describe, describe, bare_kind, text]

theorem Cause.message_bare (cause : Cause) : (cause.bare id).message = cause.message := by
  cases cause with
  | trailingToken t =>
    rw [Cause.bare]
    unfold message
    dsimp only
    rw [t.describe_bare]
  | _ => simp only [Cause.bare]

/-- Columns do not show in the code. -/
theorem Node.WellTyped.code_eq_of_bare {n m : Node} (typed : n.WellTyped)
    (same : n.bare id = m.bare id) :
    n.code = m.code := by
  have forget (n : Node) : n.shape = (n.bare id).shape :=
    (bare_bare id (fun _ => "") n).symm
  have keep (n : Node) : n.spans true = (n.bare id).spans true := by
    rw [spans_bare, Prod.map_id, List.map_id]
  obtain ⟨frame, frames⟩ := typed.frames
  have shapes : m.shape = n.shape := by rw [forget, ← same, ← forget]
  have spans : m.spans true = n.spans true := by rw [keep, ← same, ← keep]
  rw [(frames n rfl).2, (frames m shapes).2, spans]

namespace Formula

theorem parse_condense (source : String) :
    mapBoth (fun f => f.root.bare id) (Failure.bare id) (parse source) =
      mapBoth (fun f => f.root.bare id) (Failure.bare id)
        (parse (String.ofList (condense false source.toList))) := by
  obtain ⟨spans, same, alike⟩ := alike_condense source.toList
  have spelled : Alike spans (spell false 0 source.toList)
      (spell false 0 (String.ofList (condense false source.toList)).toList) := by
    rw [String.toList_ofList]
    exact alike 0 0
  exact parse_alike spelled fun p member => by rw [(same p member).1]

/-- White space and the case of ASCII letters are insignificant outside quotes: texts that agree
but for them have the same code, or errors of the same stage with the same message. -/
theorem layout_insignificant {source source' : String}
    (same : condense false source.toList = condense false source'.toList) :
    (∃ text, compile source = .ok text ∧ compile source' = .ok text) ∨
      ∃ e e', compile source = .error (.rejected e) ∧ compile source' = .error (.rejected e') ∧
        e.stage = e'.stage ∧ e.cause.message = e'.cause.message := by
  have bare := parse_condense source
  rw [same, ← parse_condense source'] at bare
  cases left : parse source with
  | ok f =>
    cases right : parse source' with
    | ok f' =>
      rw [left, right] at bare
      have typed := (root_wellTyped left).1
      obtain ⟨text, code⟩ := typed.code_ok
      have code' := (typed.code_eq_of_bare (Except.ok.inj bare)).symm.trans code
      exact .inl ⟨text, compile_ok left code, compile_ok right code'⟩
    | error failure =>
      rw [left, right] at bare
      cases bare
  | error failure =>
    cases right : parse source' with
    | ok f' =>
      rw [left, right] at bare
      cases bare
    | error failure' =>
      rw [left, right] at bare
      obtain ⟨e, rfl⟩ := parse_error left
      obtain ⟨e', rfl⟩ := parse_error right
      have errors : e.bare id = e'.bare id := by
        injection bare with bare
        injection bare
      have stages := congrArg FormulaError.stage errors
      have causes := congrArg FormulaError.cause errors
      refine .inr ⟨e, e', by rw [compile, left]; rfl, by rw [compile, right]; rfl, stages, ?_⟩
      rw [← e.cause.message_bare, ← e'.cause.message_bare]
      exact congrArg Cause.message causes

theorem spacedPower_layout :
    condense false "\"a B\"*L o G(Z* *2)+p I".toList =
        condense false "\"a B\" * log(z**2) + PI".toList ∧
      ∃ text, compile "\"a B\"*L o G(Z* *2)+p I" = .ok text ∧
        compile "\"a B\" * log(z**2) + PI" = .ok text := by
  have same : condense false "\"a B\"*L o G(Z* *2)+p I".toList =
      condense false "\"a B\" * log(z**2) + PI".toList := by decide
  have accepted : compile "\"a B\"*L o G(Z* *2)+p I" =
      .ok "(cMul(a B,cLog(cPow(z,vec2(2.,0.))))+vec2(3.1415926535897932,0.))" := by decide +kernel
  obtain both | ⟨e, e', rejected, -⟩ := layout_insignificant same
  · exact ⟨same, both⟩
  · rw [accepted] at rejected
    cases rejected

end Formula

end EscapeTime
