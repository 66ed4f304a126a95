import GuardedStore.Proofs.Run.Law
import GuardedStore.Proofs.Tape.Taped

/-!
Computations that come to the same on tape.

One computation is what another comes to on tape if, in the taped world, it has the same result and
leads to the taped world of where the other leads, as long as all scripts leave queued what is
queued. A computation that is its own is indifferent. Both are closed under doing one thing after
another, so whatever is made of indifferent operations is indifferent.
-/
namespace GuardedStore

namespace Engine

variable {α β γ : Type} {w : World}

/-- Started in `w`, the first computation is done by the second on tape. -/
def TapedAt (m m' : Engine α) (w : World) : Prop :=
  w.Deferring → m' w.taped = ((m w).1, (m w).2.taped) ∧ w.Defers (m w).2

def Taped (m m' : Engine α) : Prop :=
  ∀ w, m.TapedAt m' w

def IndifferentAt (m : Engine α) (w : World) : Prop :=
  m.TapedAt m w

/-- The computation does the same on tape. -/
def Indifferent (m : Engine α) : Prop :=
  m.Taped m

theorem tapedAt_of_eq {m m' : Engine α} {o : Outcome α} {v : World} (h : m w = (o, v))
    (h' : m' w.taped = (o, v.taped)) (hv : w.Deferring → w.Defers v) : m.TapedAt m' w := by
  intro hw
  rw [h]
  exact ⟨h', hv hw⟩

theorem indifferent_pure (a : α) : (pure a : Engine α).Indifferent :=
  fun _ hw => ⟨rfl, hw.refl⟩

theorem indifferent_wait : (wait : Engine α).Indifferent :=
  fun _ hw => ⟨rfl, hw.refl⟩

theorem TapedAt.bind {m m' : Engine α} {f f' : α → Engine β} (hm : m.TapedAt m' w)
    (hf : ∀ a v, w.Defers v → (f a).TapedAt (f' a) v) :
    (m >>= f).TapedAt (m' >>= f') w := by
  intro hw
  obtain ⟨he, hv⟩ := hm hw
  rcases h : m w with ⟨a | text | _, v⟩ <;> rw [h] at he hv
  · rw [bind_of_done he, bind_of_done h]
    obtain ⟨he', hu⟩ := hf a v hv hv.deferring
    exact ⟨he', hv.trans hu⟩
  · rw [bind_apply, bind_apply, he, h]
    exact ⟨rfl, hv⟩
  · rw [bind_apply, bind_apply, he, h]
    exact ⟨rfl, hv⟩

theorem Taped.bind {m m' : Engine α} {f f' : α → Engine β} (hm : m.Taped m')
    (hf : ∀ a, (f a).Taped (f' a)) : (m >>= f).Taped (m' >>= f') :=
  fun w => (hm w).bind fun a v _ => hf a v

theorem Indifferent.bind {m : Engine α} {f : α → Engine β} (hm : m.Indifferent)
    (hf : ∀ a, (f a).Indifferent) : (m >>= f).Indifferent :=
  Taped.bind hm hf

theorem tapedAt_get_bind {f g : World → Engine α} (h : (f w).TapedAt (g w.taped) w) :
    (get >>= f).TapedAt (get >>= g) w :=
  h

/-- What is computed from a world that looks the same on tape. -/
theorem indifferent_get_bind {f : World → Engine α} (h : ∀ w, f w.taped = f w)
    (hf : ∀ w, (f w).Indifferent) : (get >>= f).Indifferent :=
  fun w => tapedAt_get_bind (h w ▸ hf w w)

/-- A change of what tapes are not about. -/
theorem indifferent_modify {f : World → World}
    (hf : ∀ w, f w.taped = (f w).taped ∧ (f w).routines = w.routines ∧
      (f w).domains = w.domains) : (modify f).Indifferent :=
  fun w hw => ⟨congrArg _ (hf w).1, hw.of_same (hf w).2.1 (hf w).2.2⟩

theorem indifferent_record {h : Happening} (hh : h.onTape) : (record h).Indifferent :=
  indifferent_modify fun w => ⟨(w.taped_mark hh).symm, rfl, rfl⟩

/-- What happens off tape only is left out there. -/
theorem tapedAt_record_bind {h : Happening} (hh : h.onTape = false) {f : Unit → Engine α}
    {m' : Engine α} (hf : (f ()).TapedAt m' (w.mark h)) : (record h >>= f).TapedAt m' w := by
  intro hw
  have hm : w.Defers (w.mark h) := hw.of_same rfl rfl
  obtain ⟨he, hv⟩ := hf hm.deferring
  rw [w.taped_mark_of_not hh] at he
  exact ⟨he, hm.trans hv⟩

theorem indifferent_report {h : Happening} (hh : h.onTape) : (report h).Indifferent := by
  intro w hw
  by_cases hm : w.muted
  · exact tapedAt_of_eq (if_pos hm) (if_pos hm) World.Deferring.refl hw
  · obtain ⟨he, hv⟩ := indifferent_record hh w hw
    exact tapedAt_of_eq (if_neg hm) ((if_neg hm).trans he) (fun _ => hv) hw

theorem indifferent_panic (text : String) : (panic text).Indifferent := by
  intro w hw
  by_cases hu : w.unwinding
  · exact tapedAt_of_eq (if_pos hu) (if_pos hu) World.Deferring.refl hw
  · exact tapedAt_of_eq (v := { w.mark (.raised text) with unwinding := true }) (if_neg hu)
      (if_neg hu) (World.Deferring.of_same rfl rfl) hw

theorem TapedAt.ensure {m m' : Engine α} {c : Engine Unit} (hm : m.TapedAt m' w)
    (hc : c.Indifferent) : (ensure m c).TapedAt (ensure m' c) w := by
  intro hw
  unfold Engine.ensure
  obtain ⟨he, hv⟩ := hm hw
  rcases h : m w with ⟨a | text | _, v⟩ <;> rw [h] at he hv <;> rw [he] <;> dsimp only
  · obtain ⟨hc', hu⟩ := (hc.bind fun _ => indifferent_pure a) v hv.deferring
    exact ⟨hc', hv.trans hu⟩
  · obtain ⟨hc', hu⟩ := hc v hv.deferring
    rw [hc']
    rcases h' : c v with ⟨_ | _ | _, u⟩ <;> rw [h'] at hu <;> exact ⟨rfl, hv.trans hu⟩
  · exact ⟨rfl, hv⟩

theorem Taped.ensure {m m' : Engine α} {c : Engine Unit} (hm : m.Taped m') (hc : c.Indifferent) :
    (ensure m c).Taped (ensure m' c) :=
  fun w => (hm w).ensure hc

theorem Indifferent.ensure {m : Engine α} {c : Engine Unit} (hm : m.Indifferent)
    (hc : c.Indifferent) : (ensure m c).Indifferent :=
  Taped.ensure hm hc

theorem Indifferent.onUnwind {m : Engine α} {c : Engine Unit} (hm : m.Indifferent)
    (hc : c.Indifferent) : (onUnwind m c).Indifferent := by
  intro w hw
  unfold Engine.onUnwind
  obtain ⟨he, hv⟩ := hm w hw
  rcases h : m w with ⟨a | text | _, v⟩ <;> rw [h] at he hv <;> rw [he] <;> dsimp only
  · exact ⟨rfl, hv⟩
  · obtain ⟨hc', hu⟩ := hc v hv.deferring
    rw [hc']
    rcases h' : c v with ⟨_ | _ | _, u⟩ <;> rw [h'] at hu <;> exact ⟨rfl, hv.trans hu⟩
  · exact ⟨rfl, hv⟩

theorem indifferent_forM {f : α → Engine Unit} (h : ∀ a, (f a).Indifferent) (l : List α) :
    (l.forM f).Indifferent := by
  induction l with
  | nil => exact indifferent_pure ()
  | cons a l ih => exact (h a).bind fun _ => ih

theorem indifferent_mapM {f : α → Engine β} (h : ∀ a, (f a).Indifferent) (l : List α) :
    (l.mapM f).Indifferent := by
  induction l with
  | nil => exact indifferent_pure []
  | cons a l ih =>
    rw [List.mapM_cons]
    exact (h a).bind fun _ => ih.bind fun _ => indifferent_pure _

end Engine

end GuardedStore
