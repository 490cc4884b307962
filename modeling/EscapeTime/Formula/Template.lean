/-!
# Code templates

A template is shader code with slots. Slot `k` takes the code of argument `k`, so a template uses
each argument at most once and in order.
-/

namespace EscapeTime

/-- Code with slots: `lead`, then for each slot the code that follows it. -/
structure Template where
  lead : List Char
  tail : List (List Char)
  deriving DecidableEq

namespace Template

/-- The template of a pattern in which each `#` is a slot. -/
def ofChars : List Char → Template
  | [] => ⟨[], []⟩
  | c :: cs =>
    let t := ofChars cs
    if c = '#' then ⟨[], t.lead :: t.tail⟩ else ⟨c :: t.lead, t.tail⟩

def ofPattern (pattern : String) : Template :=
  ofChars pattern.toList

/-- The number of slots. -/
def slots (t : Template) : Nat :=
  t.tail.length

/-- The template with `#` for each slot. -/
def pattern (t : Template) : String :=
  String.ofList (t.lead ++ t.tail.flatMap ('#' :: ·))

/-- The code of `segments`, each after the argument that fills the slot before it. -/
def weave : (segments : List (List Char)) → (args : List String) → String
  | segment :: segments, arg :: args => arg ++ String.ofList segment ++ weave segments args
  | _, _ => ""

/-- The template with its slots filled. Arguments beyond the slots are not used; with fewer
arguments than slots there is no result. -/
def fill? (t : Template) (args : List String) : Option String :=
  if args.length < t.slots then none
  else some (String.ofList t.lead ++ weave t.tail args)

end Template

end EscapeTime
