import Mathlib.Data.List.Basic
import Mathlib.Data.List.Forall2
import Nox.Library.BoundedQuantifiers

/-! # Facts about the failure monad

Validation code threads its checks through `Except`: each check either stops the computation
with an error or passes a value on. A result is `ok` exactly when every stage was, and renaming the
errors with `mapError` leaves the successes alone; a loop of checks succeeds when each check does.
A loop through `Option` that succeeds gives one result per element, and one whose step succeeds on
every element succeeds.
-/

namespace Except

variable {ε ε' α β : Type}

@[simp] theorem mapError_eq_ok (f : ε → ε') (x : Except ε α) (a : α) :
    x.mapError f = .ok a ↔ x = .ok a := by
  cases x <;> simp [Except.mapError]

theorem mapError_eq_error (f : ε → ε') (x : Except ε α) (e : ε') :
    x.mapError f = .error e ↔ ∃ e₀, x = .error e₀ ∧ f e₀ = e := by
  cases x <;> simp [Except.mapError]

theorem bind_eq_ok (x : Except ε α) (f : α → Except ε β) (b : β) :
    x >>= f = .ok b ↔ ∃ a, x = .ok a ∧ f a = .ok b := by
  cases x <;> simp [bind, Except.bind]

/-- A traversal of a list succeeds exactly when the step succeeds on every element. -/
theorem forM_eq_ok {l : List α} (f : α → Except ε Unit) : l.forM f = .ok () ↔ ∀ a ∈ l, f a = .ok () := by
  induction l with
  | nil => simp [List.forM, pure, Except.pure]
  | cons a l ih =>
    show (f a >>= fun _ => l.forM f) = _ ↔ _
    rw [bind_eq_ok]
    simp only [ih, List.mem_cons, forall_eq_or_imp]
    constructor
    · rintro ⟨⟨⟩, first, rest⟩
      exact ⟨first, rest⟩
    · rintro ⟨first, rest⟩
      exact ⟨⟨⟩, first, rest⟩

/-- A fold of checks fails exactly where one step fails after all the steps before it passed. -/
theorem foldlM_eq_error_iff {σ : Type} (f : σ → α → Except ε σ) (e : ε) :
    ∀ (l : List α) (s : σ), l.foldlM f s = .error e ↔
      ∃ before a after s', l = before ++ a :: after ∧ before.foldlM f s = .ok s' ∧ f s' a = .error e := by
  intro l
  induction l with
  | nil =>
    intro s
    simp only [List.foldlM_nil, pure, Except.pure, reduceCtorEq, false_iff, not_exists, not_and]
    intro before a after _ split
    cases before <;> cases split
  | cons b l ih =>
    intro s
    rw [List.foldlM_cons]
    cases first : f s b with
    | error e' =>
      simp only [bind, Except.bind, Except.error.injEq]
      constructor
      · rintro rfl
        exact ⟨[], b, l, s, rfl, rfl, first⟩
      · rintro ⟨before, a, after, s', split, passed, failed⟩
        cases before with
        | nil =>
          cases split
          cases passed
          rw [first] at failed
          exact Except.error.inj failed
        | cons c before =>
          cases split
          simp [first, bind, Except.bind] at passed
    | ok t =>
      simp only [bind, Except.bind]
      rw [ih t]
      constructor
      · rintro ⟨before, a, after, s', rfl, passed, failed⟩
        exact ⟨b :: before, a, after, s', rfl, by simpa [first, bind, Except.bind] using passed, failed⟩
      · rintro ⟨before, a, after, s', split, passed, failed⟩
        cases before with
        | nil =>
          cases split
          cases passed
          rw [first] at failed
          cases failed
        | cons c before =>
          cases split
          exact ⟨before, a, after, s', rfl, by simpa [first, bind, Except.bind] using passed, failed⟩

end Except

namespace List

variable {α β : Type}

/-- A map through `Option` that succeeds gives one result per element. -/
theorem length_eq_of_mapM_eq_some {f : α → Option β} :
    ∀ {l : List α} {results : List β}, l.mapM f = some results → results.length = l.length
  | [], results, mapped => by
    simp only [List.mapM_nil, pure, Option.some.injEq] at mapped
    simp [← mapped]
  | a :: l, results, mapped => by
    simp only [List.mapM_cons, bind, pure, Option.bind_eq_some_iff, Option.some.injEq] at mapped
    obtain ⟨_, _, rest, restMapped, rfl⟩ := mapped
    simp [length_eq_of_mapM_eq_some restMapped]

/-- A map through `Option` that succeeds relates each element to its result. -/
theorem forall₂_of_mapM_eq_some {f : α → Option β} :
    ∀ {l : List α} {results : List β}, l.mapM f = some results → Forall₂ (fun a b => f a = some b) l results
  | [], results, mapped => by
    simp only [List.mapM_nil, pure, Option.some.injEq] at mapped
    rw [← mapped]
    exact .nil
  | a :: l, results, mapped => by
    simp only [List.mapM_cons, bind, pure, Option.bind_eq_some_iff, Option.some.injEq] at mapped
    obtain ⟨b, stepped, rest, restMapped, rfl⟩ := mapped
    exact .cons stepped (forall₂_of_mapM_eq_some restMapped)

/-- A map through `Option` succeeds when its step succeeds on every element, and relates each element
to its result as the step does. -/
theorem mapM_eq_some_of_forall {f : α → Option β} {P : α → β → Prop} :
    ∀ {l : List α}, (∀ a ∈ l, ∃ b, f a = some b ∧ P a b) → ∃ results, l.mapM f = some results ∧ Forall₂ P l results
  | [], _ => ⟨[], rfl, .nil⟩
  | a :: l, each => by
    obtain ⟨b, stepped, related⟩ := each a mem_cons_self
    obtain ⟨results, mapped, all⟩ := mapM_eq_some_of_forall fun x member => each x (mem_cons_of_mem a member)
    refine ⟨b :: results, ?_, .cons related all⟩
    simp [List.mapM_cons, stepped, mapped]

end List
