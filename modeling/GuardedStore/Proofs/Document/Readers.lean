import GuardedStore.Text.Reader

/-!
Readers on a text at hand, and what all answers of a reader have in common.
-/
namespace GuardedStore.Text.Reader

variable {α β : Type}

@[simp]
theorem pure_apply (a : α) (cs : List Char) : (pure a : Reader α) cs = some (a, cs) :=
  rfl

@[simp]
theorem bind_apply (r : Reader α) (f : α → Reader β) (cs : List Char) :
    (r >>= f) cs = (r cs).bind fun read => f read.1 read.2 :=
  rfl

@[simp]
theorem map_apply (f : α → β) (r : Reader α) (cs : List Char) :
    (f <$> r) cs = (r cs).map fun read => (f read.1, read.2) := by
  rw [map_eq_pure_bind, bind_apply]
  cases r cs <;> rfl

/-- Whatever text it is given, the reader answers nothing but what has the property. -/
structure Yields (r : Reader α) (P : α → Prop) : Prop where
  answer : ∀ {cs a rest}, r cs = some (a, rest) → P a

namespace Yields

variable {P : α → Prop} {Q : β → Prop} {r r' : Reader α} {f : α → Reader β}

theorem refuse : Yields Reader.refuse P := by
  constructor
  intro cs a rest read
  cases read

theorem pure {a : α} (holds : P a) : Yields (pure a) P := by
  constructor
  intro cs b rest read
  cases read
  exact holds

theorem bind (first : Yields r P) (next : ∀ a, P a → Yields (f a) Q) : Yields (r >>= f) Q := by
  constructor
  intro cs b rest read
  rw [bind_apply, Option.bind_eq_some_iff] at read
  obtain ⟨⟨a, between⟩, got, read⟩ := read
  exact (next a (first.answer got)).answer read

/-- A part whose answer does not matter. -/
theorem skip (next : ∀ a, Yields (f a) Q) : Yields (r >>= f) Q := by
  apply Yields.bind (P := fun _ => True)
  · constructor
    intros
    trivial
  · intro a _
    exact next a

theorem ite {c : Prop} [Decidable c] (left : Yields r P) (right : Yields r' P) :
    Yields (if c then r else r') P := by
  split
  · exact left
  · exact right

end Yields

end GuardedStore.Text.Reader
