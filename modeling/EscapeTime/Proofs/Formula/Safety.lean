import EscapeTime.Formula.Basic
import EscapeTime.Proofs.Formula.Quotes
import EscapeTime.Proofs.Formula.Recognition

/-!
# No broken preconditions

The stages of a formula fit together: the lexer knows its names, the parser its arities, typing its
forms. So every byte string is a formula or is rejected for a cause, every formula has shader code,
and one iteration fails only for raw code, which is there if and only if a quote is.
-/

namespace EscapeTime

open Grammar Node

namespace Formula

theorem parse_ok {source : String} {f : Formula} (done : parse source = .ok f) :
    ∃ tokens tree, tokenize source.toList = .ok tokens ∧ Parse.formula tokens = .ok tree ∧
      tree.fix = (f.root, none) ∧ f.source = source := by
  unfold parse at done
  obtain ⟨tokens, lexed, afterLexer⟩ := bind_ok done
  obtain ⟨tree, parsed, afterParser⟩ := bind_ok afterLexer
  obtain ⟨root, typed, afterTyping⟩ := bind_ok afterParser
  cases afterTyping
  refine ⟨tokens, tree, mapError_ok lexed, parsed, ?_, rfl⟩
  unfold Node.typed at typed
  split at typed
  · rename_i same
    cases typed
    exact same
  · cases typed

theorem tokens_known {formula : List Char} {tokens : List Token}
    (lexed : tokenize formula = .ok tokens) : ∀ t ∈ tokens, t.Known :=
  fun t member => ((tokenize_ok lexed).sound t member).1

/-- The tree of a formula that was parsed, before typing. -/
theorem tree_built {formula : List Char} {tokens : List Token} {tree : Node}
    (lexed : tokenize formula = .ok tokens) (parsed : Parse.formula tokens = .ok tree) :
    tree.Parsed ∧ tree.hasRaw = decide ('"' ∈ formula) := by
  have lexemes := tokenize_ok lexed
  have built := (Parse.formula_derived (tokens_known lexed) parsed).built
  constructor
  · exact built.parsed (fun t member => (lexemes.sound t member).2) tree (by simp)
  · rw [← Glyph.hasQuote_normalize, ← lexemes.holdsRaw_eq, ← built.raw, List.any_cons,
      List.any_nil, Bool.or_false]

theorem root_wellTyped {source : String} {f : Formula} (done : parse source = .ok f) :
    f.root.WellTyped ∧ f.root.hasRaw = decide ('"' ∈ source.toList) := by
  obtain ⟨tokens, tree, lexed, parsed, fixed, -⟩ := parse_ok done
  obtain ⟨fresh, raw⟩ := tree_built lexed parsed
  exact ⟨fresh.fix_wellTyped fixed, (fresh.fix_hasRaw fixed).trans raw⟩

theorem compile_ok {source text : String} {f : Formula} (done : parse source = .ok f)
    (code : f.root.code = .ok text) : compile source = .ok text := by
  unfold compile
  rw [done]
  show f.root.code.mapError Failure.broken = .ok text
  rw [code]
  rfl

theorem typed_rejected {formula : List Char} {tokens : List Token} {tree : Node} {failure : Failure}
    (lexed : tokenize formula = .ok tokens) (parsed : Parse.formula tokens = .ok tree)
    (failed : tree.typed = .error failure) : ∃ e, failure = .rejected e := by
  have full := (tree_built lexed parsed).1.saturated
  unfold Node.typed at failed
  split at failed
  · cases failed
  · rename_i stopped
    cases failed
    exact full.fix_rejected stopped

/-- A text that is no formula is rejected for a cause. -/
theorem parse_error {source : String} {failure : Failure} (failed : parse source = .error failure) :
    ∃ e, failure = .rejected e := by
  unfold parse at failed
  cases lexed : tokenize source.toList with
  | error e =>
    rw [lexed] at failed
    cases failed
    exact ⟨e, rfl⟩
  | ok tokens =>
    have outcome := Parse.formula_outcome tokens
    cases parsed : Parse.formula tokens with
    | error failure' =>
      rw [parsed] at outcome
      simp only [lexed, parsed, Except.mapError, bind, Except.bind] at failed
      cases failed
      cases failure with
      | rejected e => exact ⟨e, rfl⟩
      | broken fault => exact (Parse.not_unknownCall (tokens_known lexed) outcome.2).elim
    | ok tree =>
      cases typed : tree.typed with
      | error failure' =>
        simp only [lexed, parsed, typed, Except.mapError, bind, Except.bind] at failed
        cases failed
        exact typed_rejected lexed parsed typed
      | ok root =>
        simp only [lexed, parsed, typed, Except.mapError, bind, Except.bind] at failed
        cases failed

/-! ### Steps -/

end Formula

/-- The stretch lies in the memory. -/
def Stretch.Within (s : Stretch) (memory : Array Point) : Prop :=
  s.start + s.length ≤ memory.size

/-- The stretch `dst` of `filled` holds the results for the points of `z`, and nothing else differs
from `memory`. If `z` starts before `dst`, its points may have been stored over when they are
read. -/
structure Filled (next : Point → Point) (dst z : Stretch) (memory filled : Array Point) : Prop where
  size : filled.size = memory.size
  results : ∀ i < dst.length, filled[dst.start + i]? =
    (if z.start < dst.start then filled else memory)[z.start + i]?.map next
  others : ∀ j, ¬(dst.start ≤ j ∧ j < dst.start + dst.length) → filled[j]? = memory[j]?

namespace Formula

theorem storeResults_succ {next : Point → Point} {dst z n : Nat} {memory : Array Point} {p : Point}
    (read : (storeResults next dst z n memory)[z + n]? = some p) :
    storeResults next dst z (n + 1) memory =
      (storeResults next dst z n memory).setIfInBounds (dst + n) (next p) := by
  unfold storeResults at read ⊢
  rw [Nat.fold_succ, read]

theorem storeResults_filled (next : Point → Point) {dst z n : Nat} {memory : Array Point}
    (target : dst + n ≤ memory.size) (source : z + n ≤ memory.size) :
    Filled next ⟨dst, n⟩ ⟨z, n⟩ memory (storeResults next dst z n memory) := by
  induction n with
  | zero => exact ⟨rfl, nofun, fun _ _ => rfl⟩
  | succ n ih =>
    obtain ⟨size, results, others⟩ := ih (by omega) (by omega)
    obtain ⟨p, read⟩ : ∃ p, (storeResults next dst z n memory)[z + n]? = some p :=
      ⟨_, Array.getElem?_eq_getElem (by omega)⟩
    rw [storeResults_succ read]
    generalize storeResults next dst z n memory = stored at size results others read
    dsimp only at results others
    have kept : ∀ j ≠ dst + n, (stored.setIfInBounds (dst + n) (next p))[j]? = stored[j]? :=
      fun j other => Array.getElem?_setIfInBounds_ne (Ne.symm other)
    refine ⟨by simp [size], fun i below => ?_, fun j outside => ?_⟩
    · dsimp only at below ⊢
      obtain earlier | rfl : i < n ∨ i = n := by omega
      · rw [kept _ (by omega), results i earlier]
        split
        · rw [kept _ (by omega)]
        · rfl
      · -- The point that is read last has not been stored over since, or never was.
        rw [Array.getElem?_setIfInBounds_self_of_lt (by omega)]
        split
        · rw [kept _ (by omega), read, Option.map_some]
        · rw [← others _ (by omega), read, Option.map_some]
    · dsimp only at outside
      rw [kept _ (by omega), others j (by omega)]

theorem step_rawCode {f : Formula} (raw : f.containsRawCode = true) {dst z : Stretch}
    (same : dst.length = z.length) (memory : Array Point) :
    f.step dst z memory = (memory, some .rawCode) := by
  unfold step
  rw [if_neg fun differ => differ same, if_pos raw]

theorem step_filled {f : Formula} (plain : f.containsRawCode = false) {next : Point → Point}
    (value : f.root.value = .ok next) {dst z : Stretch} (same : dst.length = z.length)
    {memory : Array Point} (target : dst.Within memory) (source : z.Within memory) :
    ∃ filled, f.step dst z memory = (filled, none) ∧ Filled next dst z memory filled := by
  refine ⟨storeResults next dst.start z.start z.length memory, ?_, ?_⟩
  · unfold step
    rw [if_neg fun differ => differ same, plain, value]
    rfl
  · obtain ⟨start, length⟩ := dst
    cases same
    exact storeResults_filled next target source

/-- Every byte string is rejected for a cause, or it is a formula. Such a formula has shader code
and contains raw code if and only if the bytes contain a quote. One step between stretches of equal
length, wherever they lie, fails for raw code, and without it every element of `dst` gets the value
of the formula. -/
theorem parseBytes_outcome (bytes : List UInt8) :
    Outcome
      (fun f => (∃ text, f.code = .ok text) ∧ (f.containsRawCode = true ↔ 0x22 ∈ bytes) ∧
        (f.containsRawCode = true → ∀ dst z memory, dst.length = z.length →
          f.step dst z memory = (memory, some .rawCode)) ∧
        (f.containsRawCode = false → ∃ next, f.root.value = .ok next ∧
          ∀ dst z memory, dst.length = z.length → dst.Within memory → z.Within memory →
            ∃ filled, f.step dst z memory = (filled, none) ∧ Filled next dst z memory filled))
      (fun failure => ∃ e, failure = .rejected e)
      (parseBytes bytes) := by
  cases result : parseBytes bytes with
  | error failure => exact parse_error result
  | ok f =>
    obtain ⟨typed, raw⟩ := root_wellTyped result
    have quotes : f.containsRawCode = true ↔ 0x22 ∈ bytes := by
      rw [containsRawCode, raw, decide_eq_true_eq, Text.decodeUtf8, String.toList_ofList]
      exact Text.mem_decodeFrom_quote
    refine ⟨typed.code_ok, quotes, fun raw _ _ memory same => step_rawCode raw same memory, ?_⟩
    intro plain
    obtain ⟨next, value⟩ := typed.value_ok plain
    exact ⟨next, value, fun _ _ _ same target source => step_filled plain value same target source⟩

end Formula

end EscapeTime
