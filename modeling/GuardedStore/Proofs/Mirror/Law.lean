import GuardedStore.Proofs.Mirror.Resting
import GuardedStore.Proofs.Run.Admits

/-!
Computations that come to the same with guards and without.

One computation mirrors another if, started in a world at rest and in what that world comes to when
it is made bare, they end alike, in worlds of which the second is again what the first comes to, and
the first is at rest again. A computation that mirrors itself is blind to guards. Both are closed
under doing one thing after another, so whatever is made of blind operations is blind.
-/
namespace GuardedStore

/-- The computations end alike, with results as `R` says. -/
inductive Outcome.Mirrored {α β : Type} (R : α → β → Prop) : Outcome α → Outcome β → Prop where
  | done {a : α} {b : β} (h : R a b) : Mirrored R (.done a) (.done b)
  | panicked (text : String) : Mirrored R (.panicked text) (.panicked text)
  | stuck : Mirrored R .stuck .stuck

namespace Engine

variable {α β γ δ : Type} {R : α → β → Prop} {S : γ → δ → Prop} {w : World}

def MirrorsAt (m : Engine α) (R : α → β → Prop) (m' : Engine β) (w : World) : Prop :=
  w.Resting → ∃ o o' v, m w = (o, v) ∧ m' w.bare = (o', v.bare) ∧ o.Mirrored R o' ∧ v.Resting

def Mirrors (m : Engine α) (R : α → β → Prop) (m' : Engine β) : Prop :=
  ∀ w, m.MirrorsAt R m' w

def BlindAt (m : Engine α) (w : World) : Prop :=
  m.MirrorsAt Eq m w

/-- The computation does the same with guards and without. -/
def Blind (m : Engine α) : Prop :=
  ∀ w, m.BlindAt w

theorem mirrorsAt_pure {a : α} {b : β} (h : R a b) (w : World) :
    (pure a : Engine α).MirrorsAt R (pure b) w :=
  fun hw => ⟨_, _, w, rfl, rfl, .done h, hw⟩

theorem blind_pure (a : α) : (pure a : Engine α).Blind :=
  mirrorsAt_pure rfl

theorem blind_wait : (wait : Engine α).Blind :=
  fun w hw => ⟨_, _, w, rfl, rfl, .stuck, hw⟩

theorem MirrorsAt.bind {m : Engine α} {m' : Engine β} {f : α → Engine γ} {f' : β → Engine δ}
    (hm : m.MirrorsAt R m' w) (hf : ∀ a b v, R a b → (f a).MirrorsAt S (f' b) v) :
    (m >>= f).MirrorsAt S (m' >>= f') w := by
  intro hw
  obtain ⟨_, _, v, he, he', ⟨h⟩ | _ | _, hv⟩ := hm hw
  · rw [bind_of_done he, bind_of_done he']
    exact hf _ _ v h hv
  · exact ⟨_, _, v, by rw [bind_apply, he], by rw [bind_apply, he'], .panicked _, hv⟩
  · exact ⟨_, _, v, by rw [bind_apply, he], by rw [bind_apply, he'], .stuck, hv⟩

theorem BlindAt.mirrors_bind {m : Engine α} {f : α → Engine γ} {f' : α → Engine δ}
    (hm : m.BlindAt w) (hf : ∀ a v, (f a).MirrorsAt S (f' a) v) :
    (m >>= f).MirrorsAt S (m >>= f') w :=
  MirrorsAt.bind hm fun a _ v h => h ▸ hf a v

theorem BlindAt.bind {m : Engine α} {f : α → Engine γ} (hm : m.BlindAt w)
    (hf : ∀ a, (f a).Blind) : (m >>= f).BlindAt w :=
  hm.mirrors_bind hf

theorem Blind.bind {m : Engine α} {f : α → Engine γ} (hm : m.Blind) (hf : ∀ a, (f a).Blind) :
    (m >>= f).Blind :=
  fun w => (hm w).bind hf

theorem mirrorsAt_get_bind {f : World → Engine α} {f' : World → Engine β}
    (h : (f w).MirrorsAt R (f' w.bare) w) : (get >>= f).MirrorsAt R (get >>= f') w :=
  h

/-- What is computed from a world that looks the same without guards. -/
theorem blindAt_get_bind {f : World → Engine α} (h : f w.bare = f w) (hf : (f w).BlindAt w) :
    (get >>= f).BlindAt w :=
  mirrorsAt_get_bind (h ▸ hf)

theorem blindAt_modify {f : World → World} (hb : f w.bare = (f w).bare)
    (hf : w.Resting → (f w).Resting) : (modify f).BlindAt w :=
  fun hw => ⟨_, _, f w, rfl, congrArg _ hb, .done rfl, hf hw⟩

/-- A change of what neither guards nor rest are about. -/
theorem blind_modify {f : World → World}
    (hf : ∀ w, f w.bare = (f w).bare ∧ (f w).foundation = w.foundation) : (modify f).Blind :=
  fun w => blindAt_modify (hf w).1 fun hw => hw.of_same (hf w).2

/-- Something happens that is no concern of guards. -/
theorem blind_record {h : Happening} (hh : h.outward) : (record h).Blind := by
  obtain ⟨hb, hr⟩ := Happening.outward_iff hh
  exact fun w => blindAt_modify (by rw [← World.mark, ← World.mark, w.bare_mark, hb]; rfl)
    fun hw => hw.mark hr

theorem blind_report {h : Happening} (hh : h.outward) : (report h).Blind := by
  intro w hw
  by_cases hm : w.muted
  · exact ⟨_, _, w, if_pos hm, if_pos hm, .done rfl, hw⟩
  · obtain ⟨o, o', v, he, he', hv⟩ := blind_record hh w hw
    exact ⟨o, o', v, (if_neg hm).trans he, (if_neg hm).trans he', hv⟩

theorem blind_panic (text : String) : (panic text).Blind := by
  intro w hw
  by_cases hu : w.unwinding
  · exact ⟨_, _, w, if_pos hu, if_pos hu, .done rfl, hw⟩
  · have hv : (w.mark (.raised text)).Resting := hw.mark rfl
    exact ⟨_, _, { w.mark (.raised text) with unwinding := true }, if_neg hu, if_neg hu,
      .panicked text, hv.of_same rfl⟩

theorem MirrorsAt.ensure {m : Engine α} {m' : Engine β} {c : Engine Unit}
    (hm : m.MirrorsAt R m' w) (hc : c.Blind) : (ensure m c).MirrorsAt R (ensure m' c) w := by
  intro hw
  unfold Engine.ensure
  obtain ⟨_, _, v, he, he', ⟨h⟩ | text | _, hv⟩ := hm hw <;> rw [he, he'] <;> dsimp only
  · exact MirrorsAt.bind (hc v) (fun _ _ u _ => mirrorsAt_pure h u) hv
  · obtain ⟨_, _, u, hu, hu', ⟨-⟩ | _ | _, hr⟩ := hc v hv <;> rw [hu, hu']
    · exact ⟨_, _, u, rfl, rfl, .panicked text, hr⟩
    · exact ⟨_, _, u, rfl, rfl, .panicked text, hr⟩
    · exact ⟨_, _, u, rfl, rfl, .stuck, hr⟩
  · exact ⟨_, _, v, rfl, rfl, .stuck, hv⟩

theorem BlindAt.ensure {m : Engine α} {c : Engine Unit} (hm : m.BlindAt w) (hc : c.Blind) :
    (ensure m c).BlindAt w :=
  MirrorsAt.ensure hm hc

theorem blind_forM {f : α → Engine Unit} {l : List α} (h : ∀ a ∈ l, (f a).Blind) :
    (l.forM f).Blind := by
  induction l with
  | nil => exact blind_pure ()
  | cons a l ih => exact (h a (by simp)).bind fun _ => ih fun b hb => h b (by simp [hb])

end Engine

end GuardedStore
