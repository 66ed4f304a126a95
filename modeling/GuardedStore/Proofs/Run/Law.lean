import GuardedStore.World.Engine

/-!
Laws: what computations keep of the world, however they end.

A law has an invariant, which holds wherever a computation may find or leave the world, and a
relation between the world a computation starts from and the one it ends in. Both are closed under
doing one thing after another, and under the clean-ups that a panic sets off, so a computation
keeps a law as soon as its parts do.
-/
namespace GuardedStore

/-- How a computation ends, whatever its result. -/
inductive Ending where
  | done
  | panicked
  | stuck
  deriving DecidableEq

namespace Ending

/-- The end of what is taken on by something else; a panic survives the clean-up it set off. -/
def andThen : Ending → Ending → Ending
  | done, e => e
  | panicked, stuck => stuck
  | panicked, _ => panicked
  | stuck, _ => stuck

@[simp] theorem done_andThen (e : Ending) : done.andThen e = e := rfl

theorem andThen_eq_done {d e : Ending} (h : d.andThen e = done) : d = done ∧ e = done := by
  cases d <;> cases e <;> simp_all [andThen]

theorem andThen_eq_panicked {d e : Ending} (h : d.andThen e = panicked) :
    d = panicked ∨ e = panicked := by
  cases d <;> cases e <;> simp_all [andThen]

theorem ne_stuck_of_andThen {d e : Ending} (h : d.andThen e ≠ stuck) : d ≠ stuck ∧ e ≠ stuck := by
  cases d <;> cases e <;> simp_all [andThen]

end Ending

namespace Outcome

variable {α : Type}

def ending : Outcome α → Ending
  | .done _ => .done
  | .panicked _ => .panicked
  | .stuck => .stuck

@[simp] theorem ending_done (a : α) : (done a).ending = .done := rfl

@[simp] theorem ending_panicked (text : String) : (panicked text : Outcome α).ending = .panicked :=
  rfl

@[simp] theorem ending_stuck : (stuck : Outcome α).ending = .stuck := rfl

end Outcome

structure Law where
  inv : World → Prop
  rel : World → Ending → World → Prop
  refl : ∀ {w}, inv w → rel w .done w
  trans : ∀ {u v w d e}, inv u → inv v → rel u d v → d ≠ .stuck → rel v e w →
    rel u (d.andThen e) w

namespace Law

/-- Between `w` and `w'`, where a computation ended as `e` says, the law was kept. -/
def Holds (L : Law) (w : World) (e : Ending) (w' : World) : Prop :=
  L.inv w' ∧ L.rel w e w'

/-- Both laws at once. -/
def both (L M : Law) : Law where
  inv w := L.inv w ∧ M.inv w
  rel w e w' := L.rel w e w' ∧ M.rel w e w'
  refl h := ⟨L.refl h.1, M.refl h.2⟩
  trans hu hv h hd h' := ⟨L.trans hu.1 hv.1 h.1 hd h'.1, M.trans hu.2 hv.2 h.2 hd h'.2⟩

theorem Holds.trans {L : Law} {u v w : World} {d e : Ending} (hu : L.inv u) (h : L.Holds u d v)
    (hd : d ≠ .stuck) (h' : L.Holds v e w) : L.Holds u (d.andThen e) w :=
  ⟨h'.1, L.trans hu h.1 h.2 hd h'.2⟩

theorem Holds.done_trans {L : Law} {u v w : World} {e : Ending} (hu : L.inv u)
    (h : L.Holds u .done v) (h' : L.Holds v e w) : L.Holds u e w :=
  h.trans hu (by decide) h'

end Law

namespace Engine

variable {α β : Type} {L : Law} {w : World}

/-- Started in `w`, the computation keeps the law. -/
def KeepsAt (m : Engine α) (L : Law) (w : World) : Prop :=
  L.inv w → L.Holds w (m w).1.ending (m w).2

def Keeps (m : Engine α) (L : Law) : Prop :=
  ∀ w, m.KeepsAt L w

theorem eq_of_outcome {m : Engine α} {o : Outcome α} (h : (m w).1 = o) : m w = (o, (m w).2) :=
  Prod.ext h rfl

theorem bind_of_done {m : Engine α} {f : α → Engine β} {a : α} {v : World}
    (h : m w = (.done a, v)) : (m >>= f) w = f a v := by
  rw [bind_apply, h]

/-- What comes to an end has come through its parts. -/
theorem done_of_bind {m : Engine α} {f : α → Engine β} {b : β} {v : World}
    (h : (m >>= f) w = (.done b, v)) : ∃ a u, m w = (.done a, u) ∧ f a u = (.done b, v) := by
  rw [bind_apply] at h
  rcases hm : m w with ⟨a | _ | _, u⟩ <;> rw [hm] at h
  · exact ⟨a, u, rfl, h⟩
  · cases h
  · cases h

/-- What panics has panicked in one of its parts. -/
theorem panicked_of_bind {m : Engine α} {f : α → Engine β} {text : String} {v : World}
    (h : (m >>= f) w = (.panicked text, v)) : m w = (.panicked text, v) ∨
      ∃ a u, m w = (.done a, u) ∧ f a u = (.panicked text, v) := by
  rw [bind_apply] at h
  rcases hm : m w with ⟨a | _ | _, u⟩ <;> rw [hm] at h
  · exact .inr ⟨a, u, rfl, h⟩
  · cases h
    exact .inl rfl
  · cases h

theorem keepsAt_of_eq {m : Engine α} {o : Outcome α} {w' : World} (h : m w = (o, w'))
    (hl : L.inv w → L.Holds w o.ending w') : m.KeepsAt L w := by
  intro hw
  rw [h]
  exact hl hw

theorem KeepsAt.holds {m : Engine α} {o : Outcome α} {w' : World} (hm : m.KeepsAt L w)
    (hw : L.inv w) (h : m w = (o, w')) : L.Holds w o.ending w' := by
  have := hm hw
  rwa [h] at this

theorem KeepsAt.congr {m m' : Engine α} (h : m.KeepsAt L w) (hm : m' w = m w) :
    m'.KeepsAt L w := by
  intro hw
  rw [hm]
  exact h hw

theorem keeps_pure (a : α) : (pure a : Engine α).Keeps L :=
  fun _ hw => ⟨hw, L.refl hw⟩

/-- Nothing comes after waiting. -/
theorem keepsAt_wait_bind {f : α → Engine β} (h : L.inv w → L.rel w .stuck w) :
    ((wait : Engine α) >>= f).KeepsAt L w :=
  fun hw => ⟨hw, h hw⟩

theorem KeepsAt.bind {m : Engine α} {f : α → Engine β} (hm : m.KeepsAt L w)
    (hf : ∀ a v, m w = (.done a, v) → L.Holds w .done v → (f a).KeepsAt L v) :
    (m >>= f).KeepsAt L w := by
  intro hw
  rw [bind_apply]
  rcases h : m w with ⟨_ | _ | _, v⟩
  · have hv := hm.holds hw h
    exact hv.done_trans hw (hf _ v h hv hv.1)
  · exact hm.holds hw h
  · exact hm.holds hw h

theorem Keeps.bind {m : Engine α} {f : α → Engine β} (hm : m.Keeps L)
    (hf : ∀ a, (f a).Keeps L) : (m >>= f).Keeps L :=
  fun w => (hm w).bind fun a v _ _ => hf a v

/-- What is computed from the world as it is. -/
theorem keepsAt_get_bind {f : World → Engine β} (h : (f w).KeepsAt L w) :
    (get >>= f).KeepsAt L w :=
  h

theorem keeps_get_bind {f : World → Engine β} (h : ∀ w, (f w).KeepsAt L w) :
    (get >>= f).Keeps L :=
  fun w => h w

theorem keepsAt_modify {f : World → World} (h : L.inv w → L.Holds w .done (f w)) :
    (modify f).KeepsAt L w :=
  h

theorem keepsAt_modify_bind {f : World → World} {g : Unit → Engine β}
    (h : L.inv w → L.Holds w .done (f w)) (hg : L.inv w → (g ()).KeepsAt L (f w)) :
    (modify f >>= g).KeepsAt L w :=
  fun hw => (h hw).done_trans hw (hg hw (h hw).1)

theorem KeepsAt.ensure {m : Engine α} {c : Engine Unit} (hm : m.KeepsAt L w)
    (hc : ∀ o v, m w = (o, v) → L.Holds w o.ending v → o.ending ≠ .stuck → c.KeepsAt L v) :
    (ensure m c).KeepsAt L w := by
  intro hw
  unfold Engine.ensure
  rcases h : m w with ⟨a | _ | _, v⟩
  · have hv := hm.holds hw h
    have hb : (c >>= fun _ => pure a).KeepsAt L v :=
      (hc _ v h hv (by simp)).bind fun _ v _ _ => keeps_pure a v
    exact hv.done_trans hw (hb hv.1)
  · have hv := hm.holds hw h
    have hcv := hc _ v h hv (by simp) hv.1
    dsimp only
    rcases h' : c v with ⟨_ | _ | _, u⟩ <;> rw [h'] at hcv <;>
      exact hv.trans hw (by simp) hcv
  · exact hm.holds hw h

theorem Keeps.ensure {m : Engine α} {c : Engine Unit} (hm : m.Keeps L) (hc : c.Keeps L) :
    (ensure m c).Keeps L :=
  fun w => (hm w).ensure fun _ v _ _ _ => hc v

/-- A clean-up that always comes to its end is done however a computation ends, unless it never
does. -/
theorem ensure_apply {m : Engine α} {c : Engine Unit} {g : World → World}
    (hc : ∀ v, c v = (.done (), g v)) (w : World) :
    ensure m c w = match m w with
      | (.stuck, v) => (.stuck, v)
      | (o, v) => (o, g v) := by
  unfold Engine.ensure
  rcases m w with ⟨a | text | _, v⟩
  · exact bind_of_done (f := fun _ => pure a) (hc v)
  · dsimp only
    rw [hc]
  · rfl

theorem KeepsAt.onUnwind {m : Engine α} {c : Engine Unit} (hm : m.KeepsAt L w)
    (hc : ∀ text v, m w = (.panicked text, v) → L.Holds w .panicked v → c.KeepsAt L v) :
    (onUnwind m c).KeepsAt L w := by
  intro hw
  unfold Engine.onUnwind
  rcases h : m w with ⟨_ | _ | _, v⟩
  · exact hm.holds hw h
  · have hv := hm.holds hw h
    have hcv := hc _ v h hv hv.1
    dsimp only
    rcases h' : c v with ⟨_ | _ | _, u⟩ <;> rw [h'] at hcv <;>
      exact hv.trans hw (by simp) hcv
  · exact hm.holds hw h

theorem keeps_forM {γ : Type} {f : γ → Engine Unit} {cs : List γ} (h : ∀ c ∈ cs, (f c).Keeps L) :
    (cs.forM f).Keeps L := by
  induction cs with
  | nil => exact keeps_pure ()
  | cons c cs ih =>
    exact (h c (by simp)).bind fun _ => ih fun c hc => h c (by simp [hc])

end Engine

end GuardedStore
