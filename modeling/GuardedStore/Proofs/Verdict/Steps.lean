import GuardedStore.Proofs.Run.Moments
import GuardedStore.Proofs.Verdict.Law

/-!
Every run keeps the law of validations: a validation that is asked answers at once, whoever else is
asked stays what it was, and what is stored is of the type that the item was found by.
-/
namespace GuardedStore

namespace Happening

theorem unjudged_of_ofAspect {y : Happening} (h : y.ofAspect) : y.unjudged := by
  cases y <;> first | rfl | cases h

theorem unjudged_of_ofEnd {y : Happening} (h : y.ofEnd) : y.unjudged := by
  cases y <;> first | rfl | cases h

end Happening

/-- Aspects other than validations do as they like. -/
theorem validating_reforms : validating.Reforms fun w x => ∀ v, w.aspect x ≠ .validation v where
  stuck _ := ⟨.refl _, .refl _⟩
  reform hx ha hw := (World.unjudged_setAspect hx ha hw.sound).holds hw
  note hh hw := (World.unjudged_mark (Happening.unjudged_of_ofAspect hh) hw.sound).holds hw

namespace Engine

variable {call : Nat → Engine Unit} {w : World} {x : Nat} {v : Validation}

/-- A validation answers at once, by its verdict, and says why it turns a value down. -/
theorem answer_validation (hv : w.aspect x = .validation v) (phase : Phase) (access : Access) :
    (v.verdict w.flag phase access = .admitted ∧ answer call x phase access w = (.done true, w)) ∨
      v.verdict w.flag phase access ≠ .admitted ∧ ∃ n, answer call x phase access w =
        (.done false, (w.setAspect x (.validation v.reject)).mark (.notice n)) := by
  rw [answer, bind_apply]
  dsimp only [get]
  rw [hv]
  dsimp only
  cases v.verdict w.flag phase access with
  | admitted => exact .inl ⟨rfl, rfl⟩
  | wrongType => exact .inr ⟨(fun h => by cases h), _, rfl⟩
  | rejected => exact .inr ⟨(fun h => by cases h), _, rfl⟩

theorem settle_validation (hv : w.aspect x = .validation v) (phase : Phase) (access : Access)
    (permitted : Bool) : settle call x phase access permitted w = (.done (), w) := by
  unfold settle
  rw [bind_apply]
  dsimp only [get]
  rw [hv]
  rfl

variable (hc : ∀ r, (call r).Keeps validating)

include hc

theorem ask_validating (hx : x < w.aspects.next) (phase : Phase) (access : Access) :
    (ask call x phase access).KeepsAt validating w := by
  intro hw
  by_cases hv : ∃ v, w.aspect x = .validation v
  · obtain ⟨v, hv⟩ := hv
    unfold ask
    rcases @answer_validation call w x v hv phase access with ⟨hd, ha⟩ | ⟨hd, n, ha⟩ <;>
      rw [bind_of_done ha]
    · have hr : World.Ruled x phase access true w (w.mark (.admitted x phase access true)) :=
        { known := hx
          sound := World.sound_mark _ hw.sound
          aspects := rfl
          items := rfl
          others := fun _ => rfl
          verdict := fun {u} hu => by
            obtain rfl : v = u := by simpa using hv.symm.trans hu
            exact ⟨v, w.flag, hv, by simp [hd], rfl⟩
          history := ⟨[], by simp, rfl⟩ }
      exact ⟨hr.judged hw, World.grows_mark _ w, World.sameForms_of_aspects rfl⟩
    · let u := (w.setAspect x (.validation v.reject)).mark (.notice n)
      have hr : World.Ruled x phase access false w (u.mark (.admitted x phase access false)) :=
        { known := hx
          sound := World.sound_mark _ (World.sound_mark _ (World.sound_setAspect x _ hw.sound))
          aspects := rfl
          items := rfl
          others := fun {y} hy => (w.aspect_setAspect x y _).trans (if_neg hy)
          verdict := fun {u'} hu => by
            have hu := (w.aspect_setAspect x x (.validation v.reject)).symm.trans hu
            rw [if_pos rfl] at hu
            cases hu
            exact ⟨v, w.flag, hv, by simp [hd], rfl⟩
          history := ⟨[.notice n], by simp [Happening.unjudged], rfl⟩ }
      have hf : w.SameForms (w.setAspect x (.validation v.reject)) :=
        World.sameForms_setAspect (by rw [hv]; rfl)
      exact ⟨hr.judged hw, (World.grows_setAspect x _ w).trans
        ((World.grows_mark (.notice n) _).trans (World.grows_mark _ _)), hf⟩
  · rw [not_exists] at hv
    refine ((answer_reforms validating_reforms hc hv phase access).bind fun b u _ hu => ?_) hw
    refine (keepsAt_modify fun hw' => ?_).bind fun _ z _ _ => keeps_pure b z
    have hr : World.Ruled x phase access b u (u.mark (.admitted x phase access b)) :=
      { known := Nat.lt_of_lt_of_le hx hu.2.1.aspects
        sound := World.sound_mark _ hw'.sound
        aspects := rfl
        items := rfl
        others := fun _ => rfl
        verdict := fun {v} hv' => by
          -- whoever was no validation before is none now
          have hform := hu.2.2 x hx
          rw [show u.aspect x = .validation v from hv'] at hform
          obtain ⟨v', hv', -⟩ := Aspect.form_validation_eq hform.symm
          exact absurd hv' (hv v')
        history := ⟨[], by simp, rfl⟩ }
    exact ⟨hr.judged hw', World.grows_mark _ u, World.sameForms_of_aspects rfl⟩

theorem tell_validating (phase : Phase) (access : Access) (permitted : Bool) :
    (tell call x phase access permitted).KeepsAt validating w := by
  have hm : (record (.told x phase access permitted)).KeepsAt validating w :=
    keepsAt_modify fun hw => (World.unjudged_mark rfl hw.sound).holds hw
  refine hm.bind fun _ u _ _ => ?_
  by_cases hv : ∃ v, u.aspect x = .validation v
  · obtain ⟨v, hv⟩ := hv
    exact keepsAt_of_eq (settle_validation hv phase access permitted) fun hu =>
      ⟨hu, validating.refl hu⟩
  · exact settle_reforms validating_reforms hc (not_exists.mp hv) phase access permitted

theorem validating_guides : Guides call validating fun w x => x < w.aspects.next where
  sound hw := hw.sound
  grows h := h.1
  stuck _ := ⟨.refl _, .refl _⟩
  still hx _ h := Nat.lt_of_lt_of_le hx h.2.1.aspects
  ask phase access hx := ask_validating hc hx phase access
  tell phase access permitted _ := tell_validating hc phase access permitted
  begin chain phase access _ hw := (World.unjudged_of_aspects (World.grows_begin chain phase access _)
    (World.sound_begin chain phase access hw.sound) rfl
    ⟨[_], by simp [Happening.unjudged], rfl⟩).holds hw
  mark hh hw := (World.unjudged_mark (Happening.unjudged_of_ofEnd hh) hw.sound).holds hw
  visited _ _ hw := (World.unjudged_mark rfl hw.sound).holds hw
  visit _ hch _ hx := hch _ hx
  held hw hp hx := hw.sound.names.passages hp hx
  passing hf hw := (World.unjudged_of_aspects World.grows_passing (World.sound_passing
    (fun hq => by
      rcases hf hq with hq | hq
      · exact fun a ha => hw.sound.names.passages hq ha
      · exact hq.1) hw.sound) rfl ⟨[], by simp, rfl⟩).holds hw

theorem write_validating {item : Nat} (value : Value) (hi : item < w.items.next)
    (ht : value.type = (w.item item).descriptor.type) :
    (write call item value).KeepsAt validating w := by
  intro hw
  refine write_guided (validating_guides hc) value (fun x hx => hw.sound.chains hx)
    (fun p v hp hv => ?_) hw
  refine storeValue_keepsAt (fun hv' => ?_) (forward_keeps validating_calm.delivering hc _ _ _)
  refine ⟨World.judged_issuing (Nat.lt_of_lt_of_le hi hv.2.1.items) ?_ hv',
    World.grows_issuing item _, World.sameForms_of_aspects rfl⟩
  rw [value_of_enter hp, hv.2.1.descriptor hi]
  exact ht

theorem read_validating {item : Nat} : (read call item).KeepsAt validating w :=
  readWithin_guided (validating_guides hc) _
    (fun _ _ _ => keepsAt_modify fun hw => (World.unjudged_mark rfl hw.sound).holds hw)
    fun _ hv _ hx => hv.1.sound.chains hx

end Engine

theorem panic_keeps_validating (text : String) : (Engine.panic text).Keeps validating := by
  intro w hw
  unfold Engine.panic
  split
  · exact ⟨hw, .refl _, .refl _⟩
  · exact (World.unjudged_of_aspects (World.grows_raise text) (World.sound_raise text hw.sound) rfl
      ⟨[.raised text], by simp [Happening.unjudged], rfl⟩).holds hw

theorem validating_admits {call : Nat → Engine Unit} (hc : ∀ r, (call r).Keeps validating) :
    Engine.Admits call validating fun w i => i < w.items.next :=
  validating_calm.guided hc (Engine.validating_guides hc)
    (fun h hw => (h.unjudged hw.sound).holds hw) panic_keeps_validating
    (fun ha _ => Engine.keepsAt_of_eq rfl fun hw =>
      (World.unjudged_withAspect ha hw.sound).holds hw)
    (fun hm _ => Engine.keepsAt_of_eq rfl fun hw =>
      (World.unjudged_of_aspects (World.grows_withDomain _) (World.sound_withDomain hm hw.sound)
        rfl ⟨[], by simp, rfl⟩).holds hw)
    (fun v hi ht => Engine.write_validating hc v hi ht) (fun _ => Engine.read_validating hc)
    (by
      rintro w v s plan f value g - - d chain u c z affinity ht - ⟨⟩
      exact ht.symm)

namespace Scenario

theorem judged_unwinding {w : World} (hw : w.Judged) :
    ({ w with unwinding := false } : World).Judged :=
  { hw with
    sound := World.sound_unwinding false hw.sound }

theorem judged_empty : World.Judged {} where
  sound := World.sound_empty
  asked h := by cases h
  verdicts _ h := by cases h
  counted h := by cases h
  made h := by cases h
  stored h := by cases h

theorem reached_judged (halt : World → Bool) (depth : Nat) (steps : List Step) :
    (reached halt depth {} steps).Judged :=
  reached_inv (fun _ hc => validating_admits hc) (fun _ => judged_unwinding) halt depth steps
    judged_empty

end Scenario

end GuardedStore
