import GuardedStore.Proofs.Run.Making

/-!
What a step gets ready before it acts.

Aspects are looked up by name or made. So what a step has got ready went by a name before or is new,
and a name is never given to an aspect that only an item knows of.
-/
namespace GuardedStore

namespace World

variable {u v w : World} {x : Nat} {xs ys : List Nat}

/-- Nothing was made but scripts and aspects, and these aspects went by a name before or are new. -/
structure Readies (w : World) (xs : List Nat) (v : World) : Prop where
  items : v.items = w.items
  names : v.names = w.names
  aspects : w.aspects.next ≤ v.aspects.next
  known : ∀ x ∈ xs, w.names.Calls x ∨ w.aspects.next ≤ x

namespace Readies

theorem refl (w : World) : w.Readies [] w :=
  ⟨rfl, rfl, Nat.le_refl _, nofun⟩

theorem trans (h : w.Readies xs u) (h' : u.Readies ys v) : w.Readies (xs ++ ys) v where
  items := h'.items.trans h.items
  names := h'.names.trans h.names
  aspects := Nat.le_trans h.aspects h'.aspects
  known x hx := by
    rcases List.mem_append.mp hx with hx | hx
    · exact h.known x hx
    · exact (h'.known x hx).imp (h.names ▸ ·) (Nat.le_trans h.aspects)

/-- No item has an aspect that is new. -/
theorem public_of_mem (h : w.Readies xs v) (hw : w.Sound) (hx : x ∈ xs) : v.Public x :=
  (h.known x hx).imp (h.names ▸ ·) fun hle i _ hm => by
    rw [item, h.items] at hm
    exact Nat.not_lt_of_le hle (hw.chains hm)

end Readies

theorem readies_withAspect (a : Aspect Nat) (w : World) :
    w.Readies [w.aspects.next] (w.withAspect a) :=
  ⟨rfl, rfl, Nat.le_succ _, by simp⟩

end World

namespace Engine

variable {w v : World} {x : Nat}

theorem readies_newAspect {a : Aspect Nat} (h : newAspect a w = (.done x, v)) :
    w.Readies [x] v := by
  cases h
  exact w.readies_withAspect a

/-- New aspects are made one after the other, and nothing else happens. -/
theorem mapM_newAspect (as : List (Aspect Nat)) (w : World) : ∃ u,
    as.mapM newAspect w = (.done (List.range' w.aspects.next as.length), u) ∧
      w.Readies (List.range' w.aspects.next as.length) u ∧ u.history = w.history ∧
      (∀ y < w.aspects.next, u.aspect y = w.aspect y) ∧
      (List.range' w.aspects.next as.length).map u.aspect = as := by
  induction as generalizing w with
  | nil => exact ⟨w, rfl, .refl w, rfl, fun _ _ => rfl, rfl⟩
  | cons a as ih =>
    obtain ⟨u, hu, hr, hhistory, hsame, hmade⟩ := ih (w.withAspect a)
    have hfirst : u.aspect w.aspects.next = a := by
      rw [hsame _ (Nat.lt_succ_self _), World.aspect_withAspect, if_pos rfl]
    refine ⟨u, ?_, (w.readies_withAspect a).trans hr, hhistory, fun y hy => ?_, ?_⟩
    · rw [List.mapM_cons, bind_of_done (m := newAspect a) (w := w) rfl]
      exact bind_of_done hu
    · rw [hsame y (Nat.lt_succ_of_lt hy), World.aspect_withAspect, if_neg (Nat.ne_of_lt hy)]
    · rw [List.length_cons, List.range'_succ, List.map_cons, hfirst]
      exact congrArg (a :: ·) hmade

end Engine

namespace Performing

variable {w v : World} {x : Nat} {xs : List Nat}

theorem readies_routine {script : Option Script} {r : Option Nat}
    (h : routine script w = (.done r, v)) : w.Readies [] v := by
  cases script <;> cases h <;> exact ⟨rfl, rfl, Nat.le_refl _, nofun⟩

theorem readies_probe {p : Probe Script} {q : Probe Nat} (h : probe p w = (.done q, v)) :
    w.Readies [] v := by
  obtain ⟨_, w₁, h₁, h⟩ := Engine.done_of_bind h
  obtain ⟨_, w₂, h₂, h⟩ := Engine.done_of_bind h
  obtain ⟨_, w₃, h₃, h⟩ := Engine.done_of_bind h
  obtain ⟨_, w₄, h₄, h⟩ := Engine.done_of_bind h
  cases h
  exact (((readies_routine h₁).trans (readies_routine h₂)).trans (readies_routine h₃)).trans
    (readies_routine h₄)

theorem readies_aspect {plan : AspectPlan Script} (h : aspect plan w = (.done x, v)) :
    w.Readies [x] v := by
  cases plan with
  | audit => exact Engine.readies_newAspect h
  | lock patience => exact Engine.readies_newAspect h
  | plain name => exact Engine.readies_newAspect h
  | validation v => exact Engine.readies_newAspect h
  | probe p =>
    obtain ⟨q, u, hu, h⟩ := Engine.done_of_bind h
    exact (readies_probe hu).trans (Engine.readies_newAspect h)

theorem readies_link {l : Link Script} (h : (link l).run w = (.done (.ok x), v)) :
    w.Readies [x] v := by
  cases l with
  | shared name =>
    obtain ⟨rfl, hx⟩ := (looks_named _ _ _).of_ok h
    exact ⟨rfl, rfl, Nat.le_refl _, by simpa using .inl (.inl ⟨name, hx⟩)⟩
  | fresh plan => exact readies_aspect (done_of_lift h)

theorem readies_links {ls : List (Link Script)} (h : (links ls).run w = (.done (.ok xs), v)) :
    w.Readies xs v := by
  unfold links at h
  induction ls generalizing w v xs with
  | nil =>
    cases h
    exact .refl _
  | cons l ls ih =>
    rw [List.mapM_cons] at h
    obtain ⟨x, u, hx, h⟩ := ok_of_bind h
    obtain ⟨xs, v, hxs, h⟩ := ok_of_bind h
    cases h
    exact (readies_link hx).trans (ih hxs)

theorem readies_configured {c : AspectConfig} (h : configured c w = (.done xs, v)) :
    w.Readies xs v := by
  obtain ⟨u, hu, hr, -⟩ := Engine.mapM_newAspect c.aspects w
  obtain ⟨rfl, rfl⟩ : _ = xs ∧ u = v := by simpa using hu.symm.trans h
  exact hr

end Performing

end GuardedStore
