import GuardedStore.Proofs.Run.Calm
import GuardedStore.Proofs.Run.Guided

/-!
The law of validations.

A validation remains what it was made as. It answers every access by its verdict on the value, and
counts those that it turns down. The other law that goes with it is that of types: what is in a cell
is of the type that its item is described by, so a validation for another type never has a value
that it could admit.
-/
namespace GuardedStore

namespace Happening

/-- Whether the aspect refuses an access of the phase. -/
def refuses (x : Nat) (phase : Phase) : Happening → Bool
  | admitted y p _ b => y = x && p = phase && !b
  | _ => false

/-- Whether it is neither an aspect's answer nor about a value that comes into a cell. -/
def unjudged : Happening → Bool
  | admitted .. | made .. | stored .. => false
  | _ => true

theorem refuses_of_unjudged {y : Happening} (h : y.unjudged) (x : Nat) (phase : Phase) :
    y.refuses x phase = false := by
  cases y with
  | admitted => cases h
  | _ => rfl

end Happening

/-- How many accesses of the phase the aspect refused. -/
def refusals (x : Nat) (phase : Phase) (history : List Happening) : Nat :=
  history.countP (Happening.refuses x phase)

theorem refusals_append_of_unjudged {newer : List Happening} (hn : ∀ y ∈ newer, y.unjudged)
    (x : Nat) (phase : Phase) (h : List Happening) :
    refusals x phase (newer ++ h) = refusals x phase h := by
  have h0 : newer.countP (Happening.refuses x phase) = 0 := by
    simp only [List.countP_eq_zero]
    intro y hy
    simp [Happening.refuses_of_unjudged (hn y hy)]
  rw [refusals, List.countP_append, h0, Nat.zero_add, refusals]

theorem refusals_admitted (x y : Nat) (phase p : Phase) (a : Access) (b : Bool)
    (h : List Happening) : refusals x phase (.admitted y p a b :: h) =
      refusals x phase h + if y = x ∧ p = phase ∧ b = false then 1 else 0 := by
  simp only [refusals, List.countP_cons, Happening.refuses]
  congr 1
  simp [and_assoc]

theorem refusals_eq_zero {x : Nat} {phase : Phase} {h : List Happening}
    (hn : ∀ a, .admitted x phase a false ∉ h) : refusals x phase h = 0 := by
  simp only [refusals, List.countP_eq_zero]
  intro y hy hr
  cases y with
  | admitted z p a b =>
    simp only [Happening.refuses, Bool.and_eq_true, decide_eq_true_eq, Bool.not_eq_true'] at hr
    obtain ⟨⟨rfl, rfl⟩, rfl⟩ := hr
    exact hn a hy
  | _ => cases hr

namespace World

/-- Validations have answered by their verdicts and counted what they turned down, and what came
into a cell was of the type of its item. -/
structure Judged (w : World) : Prop where
  sound : w.Sound
  asked {x phase a b} : .admitted x phase a b ∈ w.history → x < w.aspects.next
  verdicts {x v phase a b} : w.aspect x = .validation v → .admitted x phase a b ∈ w.history →
    ∃ flags, b = decide (v.verdict flags phase a = .admitted)
  counted {x v} : w.aspect x = .validation v →
    v.rejections = refusals x .write w.history + refusals x .read w.history
  made {i item} : .made i item ∈ w.history →
    i < w.items.next ∧ item.value.type = (w.item i).descriptor.type
  stored {i a} : .stored i a ∈ w.history →
    i < w.items.next ∧ a.value.type = (w.item i).descriptor.type

/-- Nothing has changed that validations go by, nothing came into a cell, and no aspect has
answered. -/
structure Unjudged (w w' : World) : Prop where
  grows : w.Grows w'
  sound : w'.Sound
  forms : w.SameForms w'
  validations {x v} : w'.aspect x = .validation v →
    w.aspect x = .validation v ∨ w.aspects.next ≤ x ∧ v.rejections = 0
  history : ∃ newer, (∀ y ∈ newer, y.unjudged) ∧ w'.history = newer ++ w.history

/-- An aspect has answered, and nothing else happened that concerns validations. If it is a
validation, it answered by its verdict and counted a refusal. -/
structure Ruled (x : Nat) (phase : Phase) (a : Access) (b : Bool) (w w' : World) : Prop where
  known : x < w.aspects.next
  sound : w'.Sound
  aspects : w'.aspects.next = w.aspects.next
  items : w'.items = w.items
  others {y} : y ≠ x → w'.aspect y = w.aspect y
  verdict {v} : w'.aspect x = .validation v → ∃ u flags, w.aspect x = .validation u ∧
    b = decide (u.verdict flags phase a = .admitted) ∧ v = if b then u else u.reject
  history : ∃ newer, (∀ y ∈ newer, y.unjudged) ∧
    w'.history = .admitted x phase a b :: (newer ++ w.history)

end World

/-- The law of validations. -/
def validating : Law where
  inv := World.Judged
  rel w _ w' := w.Grows w' ∧ w.SameForms w'
  refl _ := ⟨.refl _, .refl _⟩
  trans _ _ h _ h' := ⟨h.1.trans h'.1, h.2.trans h.1 h'.2⟩

namespace World

variable {w w' : World}

theorem Judged.refusals_unknown (hw : w.Judged) {x : Nat} (hx : w.aspects.next ≤ x)
    (phase : Phase) : refusals x phase w.history = 0 :=
  refusals_eq_zero fun _ hm => Nat.not_lt_of_le hx (hw.asked hm)

theorem Unjudged.judged (h : w.Unjudged w') (hw : w.Judged) : w'.Judged := by
  obtain ⟨newer, hn, hh⟩ := h.history
  have old {y : Happening} (hm : y ∈ w'.history) (hy : y.unjudged = false) : y ∈ w.history := by
    rw [hh, List.mem_append] at hm
    refine hm.resolve_left fun hm => ?_
    rw [hn y hm] at hy
    cases hy
  constructor
  · exact h.sound
  · intro x phase a b hm
    exact Nat.lt_of_lt_of_le (hw.asked (old hm rfl)) h.grows.aspects
  · intro x v phase a b hv hm
    have hm := old hm rfl
    rcases h.validations hv with hv | ⟨hx, -⟩
    · exact hw.verdicts hv hm
    · exact absurd (hw.asked hm) (Nat.not_lt_of_le hx)
  · intro x v hv
    rw [hh, refusals_append_of_unjudged hn, refusals_append_of_unjudged hn]
    rcases h.validations hv with hv | ⟨hx, hv⟩
    · exact hw.counted hv
    · rw [hv, hw.refusals_unknown hx, hw.refusals_unknown hx]
  · intro i item hm
    obtain ⟨hi, ht⟩ := hw.made (old hm rfl)
    rw [h.grows.descriptor hi]
    exact ⟨Nat.lt_of_lt_of_le hi h.grows.items, ht⟩
  · intro i a hm
    obtain ⟨hi, ht⟩ := hw.stored (old hm rfl)
    rw [h.grows.descriptor hi]
    exact ⟨Nat.lt_of_lt_of_le hi h.grows.items, ht⟩

theorem Unjudged.holds (h : w.Unjudged w') (hw : w.Judged) : validating.Holds w .done w' :=
  ⟨h.judged hw, h.grows, h.forms⟩

theorem unjudged_of_aspects (hg : w.Grows w') (hs : w'.Sound) (ha : w'.aspects = w.aspects)
    (hh : ∃ newer, (∀ y ∈ newer, y.unjudged) ∧ w'.history = newer ++ w.history) :
    w.Unjudged w' where
  grows := hg
  sound := hs
  forms := sameForms_of_aspects ha
  validations h := .inl (by rwa [aspect, ha] at h)
  history := hh

theorem Quiet.unjudged (h : w.Quiet w') (hw : w.Sound) : w.Unjudged w' := by
  obtain ⟨asides, ha, hh⟩ := h.history
  refine unjudged_of_aspects h.grows (h.sound hw) h.aspects ⟨asides, fun y hy => ?_, hh⟩
  have := ha y hy
  cases y <;> first | rfl | cases this

theorem Idle.unjudged (h : w.Idle w') (hw : w.Sound) : w.Unjudged w' := by
  obtain ⟨notes, hn, hh⟩ := h.history
  refine unjudged_of_aspects h.grows (h.sound hw) h.aspects ⟨notes, fun y hy => ?_, hh⟩
  have := hn y hy
  cases y <;> first | rfl | cases this

theorem unjudged_mark {y : Happening} (hy : y.unjudged) (hw : w.Sound) : w.Unjudged (w.mark y) :=
  unjudged_of_aspects (grows_mark y w) (sound_mark y hw) rfl ⟨[y], by simpa using hy, rfl⟩

theorem unjudged_withAspect {a : Aspect Nat} (ha : a.Fresh) (hw : w.Sound) :
    w.Unjudged (w.withAspect a) where
  grows := grows_withAspect a
  sound := sound_withAspect a hw
  forms := sameForms_withAspect a
  validations {x v} hv := by
    rw [aspect_withAspect] at hv
    split at hv
    · next hx =>
      subst hv
      cases ha
      exact .inr ⟨Nat.le_of_eq hx.symm, rfl⟩
    · exact .inl hv
  history := ⟨[], by simp, rfl⟩

/-- An aspect that is no validation changes within its form. -/
theorem unjudged_setAspect {x : Nat} {a : Aspect Nat} (hx : ∀ v, w.aspect x ≠ .validation v)
    (ha : a.form = (w.aspect x).form) (hw : w.Sound) : w.Unjudged (w.setAspect x a) where
  grows := grows_setAspect x a w
  sound := sound_setAspect x a hw
  forms := sameForms_setAspect ha
  validations {y v} hv := by
    rw [aspect_setAspect] at hv
    split at hv
    · subst hv
      obtain ⟨u, hu, -⟩ := Aspect.form_validation_eq ha.symm
      exact absurd hu (hx u)
    · exact .inl hv
  history := ⟨[], by simp, rfl⟩

section Ruled

variable {x : Nat} {phase : Phase} {a : Access} {b : Bool} (h : Ruled x phase a b w w')

include h

theorem Ruled.old {y : Happening} (hm : y ∈ w'.history) (hy : y.unjudged = false) :
    y = .admitted x phase a b ∨ y ∈ w.history := by
  obtain ⟨newer, hn, hh⟩ := h.history
  rw [hh, List.mem_cons, List.mem_append] at hm
  refine hm.imp_right fun hm => hm.resolve_left fun hm => ?_
  rw [hn y hm] at hy
  cases hy

theorem Ruled.verdicts {y : Nat} {v : Validation} {p : Phase} {c : Access} {d : Bool}
    (hy : w'.aspect y = .validation v) (hm : .admitted y p c d ∈ w'.history) (hw : w.Judged) :
    ∃ flags, d = decide (v.verdict flags p c = .admitted) := by
  by_cases hyx : y = x
  · subst hyx
    obtain ⟨u, flags, hu, hb, rfl⟩ := h.verdict hy
    have same (f : String → Bool) (q : Phase) (e : Access) :
        (if b then u else u.reject).verdict f q e = u.verdict f q e := by cases b <;> rfl
    simp only [same]
    rcases h.old hm rfl with hm | hm
    · cases hm
      exact ⟨flags, hb⟩
    · exact hw.verdicts hu hm
  · rw [h.others hyx] at hy
    rcases h.old hm rfl with hm | hm
    · cases hm
      exact absurd rfl hyx
    · exact hw.verdicts hy hm

theorem Ruled.counted {y : Nat} {v : Validation} (hy : w'.aspect y = .validation v)
    (hw : w.Judged) : v.rejections = refusals y .write w'.history + refusals y .read w'.history := by
  obtain ⟨newer, hn, hh⟩ := h.history
  simp only [hh, refusals_admitted, refusals_append_of_unjudged hn]
  by_cases hyx : y = x
  · subst hyx
    obtain ⟨u, flags, hu, -, rfl⟩ := h.verdict hy
    have hc := hw.counted hu
    cases b <;> cases phase <;> simp [Validation.reject, hc] <;> omega
  · rw [h.others hyx] at hy
    simp [Ne.symm hyx, hw.counted hy]

theorem Ruled.judged (hw : w.Judged) : w'.Judged := by
  have same (i : Nat) : w'.item i = w.item i := by rw [item, item, h.items]
  constructor
  case sound => exact h.sound
  case asked =>
    intro y p c d hm
    rw [h.aspects]
    rcases h.old hm rfl with hm | hm
    · cases hm
      exact h.known
    · exact hw.asked hm
  case verdicts => exact fun hy hm => h.verdicts hy hm hw
  case counted => exact fun hy => h.counted hy hw
  case made =>
    intro i item hm
    rw [same, h.items]
    exact hw.made ((h.old hm rfl).resolve_left fun h => by cases h)
  case stored =>
    intro i c hm
    rw [same, h.items]
    exact hw.stored ((h.old hm rfl).resolve_left fun h => by cases h)

end Ruled

theorem judged_withItem {i : Item} (hs : (w.withItem i).Sound)
    (ht : i.value.type = i.descriptor.type) (hw : w.Judged) : (w.withItem i).Judged where
  sound := hs
  asked hm := hw.asked ((List.mem_cons.mp hm).resolve_left nofun)
  verdicts hv hm := hw.verdicts hv ((List.mem_cons.mp hm).resolve_left nofun)
  counted hv := by
    simp only [withItem, refusals, List.countP_cons, Happening.refuses]
    exact hw.counted hv
  made {j item} hm := by
    rw [item_withItem]
    rcases List.mem_cons.mp hm with h | hm
    · cases h
      rw [if_pos rfl]
      exact ⟨Nat.lt_succ_self _, ht⟩
    · obtain ⟨hj, ht⟩ := hw.made hm
      rw [if_neg (Nat.ne_of_lt hj)]
      exact ⟨Nat.lt_succ_of_lt hj, ht⟩
  stored {j a} hm := by
    obtain ⟨hj, ht⟩ := hw.stored ((List.mem_cons.mp hm).resolve_left nofun)
    rw [item_withItem, if_neg (Nat.ne_of_lt hj)]
    exact ⟨Nat.lt_succ_of_lt hj, ht⟩

theorem judged_issuing {item : Nat} {a : Access} (hi : item < w.items.next)
    (ht : a.value.type = (w.item item).descriptor.type) (hw : w.Judged) :
    (w.issuing item a).Judged := by
  have hg := grows_issuing (w := w) item a
  constructor
  · exact sound_issuing item a hw.sound
  · intro x phase c b hm
    rw [history_issuing] at hm
    exact hw.asked (by simpa using hm)
  · intro x v phase c b hv hm
    rw [history_issuing] at hm
    exact hw.verdicts hv (by simpa using hm)
  · intro x v hv
    simp only [history_issuing, refusals, List.countP_cons, Happening.refuses]
    exact hw.counted hv
  · intro i x hm
    rw [history_issuing] at hm
    have hm : .made i x ∈ w.history := by simpa using hm
    obtain ⟨hj, ht⟩ := hw.made hm
    rw [hg.descriptor hj]
    exact ⟨Nat.lt_of_lt_of_le hj hg.items, ht⟩
  · intro i c hm
    rw [history_issuing] at hm
    simp only [List.mem_cons, reduceCtorEq, Happening.stored.injEq, false_or] at hm
    have hj : i < w.items.next ∧ c.value.type = (w.item i).descriptor.type := by
      rcases hm with ⟨rfl, rfl⟩ | hm
      · exact ⟨hi, ht⟩
      · exact hw.stored hm
    rw [hg.descriptor hj.1]
    exact ⟨Nat.lt_of_lt_of_le hj.1 hg.items, hj.2⟩

end World

/-- Items are made with a value of the type that they are described by. -/
theorem validating_calm : validating.Calm fun _ i => i.value.type = i.descriptor.type where
  sound hw := hw.sound
  grows h := h.1
  quiet h hw := (h.unjudged hw.sound).holds hw
  stuck _ := ⟨.refl _, .refl _⟩
  rename _ hn _ hw := (World.unjudged_of_aspects World.grows_rename (World.sound_rename hn hw.sound)
    rfl ⟨[], by simp, rfl⟩).holds hw
  newStore hid ha hd := Engine.keepsAt_of_eq rfl fun hw =>
    (World.unjudged_of_aspects (World.grows_withStore _) (World.sound_withStore hid ha hd hw.sound)
      rfl ⟨[], by simp, rfl⟩).holds hw
  newItem hs hid hc hd _ ht := Engine.keepsAt_of_eq rfl fun hw =>
    ⟨World.judged_withItem (World.sound_withItem ⟨_, hs, hid⟩ hc hd hw.sound) ht hw,
      World.grows_withItem _, World.sameForms_of_aspects rfl⟩

end GuardedStore
