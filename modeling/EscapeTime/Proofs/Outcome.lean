import Mathlib.Data.List.Forall2

/-!
# Outcomes

A computation that may fail, seen from its result: what holds if it succeeds and what if it fails.
-/

namespace EscapeTime

variable {ε α β : Type}

/-- The result satisfies `good`, or else the failure satisfies `bad`. -/
def Outcome (good : α → Prop) (bad : ε → Prop) : Except ε α → Prop
  | .ok a => good a
  | .error e => bad e

theorem bind_ok {x : Except ε α} {f : α → Except ε β} {b : β} (done : (x >>= f) = .ok b) :
    ∃ a, x = .ok a ∧ f a = .ok b := by
  cases x with
  | error e => cases done
  | ok a => exact ⟨a, rfl, done⟩

theorem bind_error {x : Except ε α} {f : α → Except ε β} {e : ε} (failed : (x >>= f) = .error e) :
    x = .error e ∨ ∃ a, x = .ok a ∧ f a = .error e := by
  cases x with
  | error e' =>
    cases failed
    exact .inl rfl
  | ok a => exact .inr ⟨a, rfl, failed⟩

/-- The outcome with its result and its failure mapped. -/
def mapBoth {α' ε' : Type} (f : α → α') (g : ε → ε') : Except ε α → Except ε' α'
  | .ok a => .ok (f a)
  | .error e => .error (g e)

theorem mapBoth_bind {α' β' ε' : Type} {f : α → α'} {h : β → β'} {g : ε → ε'} {x : Except ε α}
    {x' : Except ε' α'} {k : α → Except ε β} {k' : α' → Except ε' β'}
    (first : mapBoth f g x = x') (next : ∀ a, x = .ok a → mapBoth h g (k a) = k' (f a)) :
    mapBoth h g (x >>= k) = x' >>= k' := by
  subst first
  cases x with
  | error e => rfl
  | ok a => exact next a rfl

theorem mapError_ok {ε' : Type} {x : Except ε α} {f : ε → ε'} {a : α}
    (done : x.mapError f = .ok a) : x = .ok a := by
  cases x with
  | error e => cases done
  | ok b => exact congrArg Except.ok (Except.ok.inj done)

theorem mapError_error {ε' : Type} {x : Except ε α} {f : ε → ε'} {e' : ε'}
    (failed : x.mapError f = .error e') : ∃ e, x = .error e ∧ f e = e' := by
  cases x with
  | error e =>
    cases failed
    exact ⟨e, rfl, rfl⟩
  | ok a => cases failed

theorem mapM_ok_iff {f : α → Except ε β} {as : List α} {bs : List β} :
    as.mapM f = .ok bs ↔ List.Forall₂ (fun a b => f a = .ok b) as bs := by
  induction as generalizing bs with
  | nil => simp [pure, Except.pure, eq_comm]
  | cons a as ih =>
    rw [List.mapM_cons]
    constructor
    · intro done
      obtain ⟨b, first, afterFirst⟩ := bind_ok done
      obtain ⟨bs, rest, afterRest⟩ := bind_ok afterFirst
      cases afterRest
      exact .cons first (ih.mp rest)
    · rintro (_ | ⟨first, rest⟩)
      rw [first, ih.mpr rest]
      rfl

theorem exists_forall₂ {R : α → β → Prop} {as : List α} (each : ∀ a ∈ as, ∃ b, R a b) :
    ∃ bs, List.Forall₂ R as bs := by
  induction as with
  | nil => exact ⟨[], .nil⟩
  | cons a as ih =>
    obtain ⟨b, first⟩ := each a (by simp)
    obtain ⟨bs, rest⟩ := ih fun a member => each a (List.mem_cons_of_mem _ member)
    exact ⟨b :: bs, .cons first rest⟩

theorem exists_of_mem {R : α → β → Prop} {as : List α} {bs : List β}
    (all : List.Forall₂ R as bs) {b : β} (mem : b ∈ bs) : ∃ a ∈ as, R a b := by
  induction all with
  | nil => cases mem
  | @cons a _ _ _ first _ ih =>
    rcases List.mem_cons.1 mem with rfl | mem
    · exact ⟨a, List.mem_cons_self, first⟩
    · obtain ⟨a, found, related⟩ := ih mem
      exact ⟨a, List.mem_cons_of_mem _ found, related⟩

end EscapeTime
