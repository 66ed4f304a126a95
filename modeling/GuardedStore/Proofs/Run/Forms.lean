import GuardedStore.Proofs.Run.Making

/-!
What an aspect remains while it is asked and told.

Audits, locks, validations and probes count, and locks change hands, but what an aspect was made as,
its form, stays. A law that allows changes within the form of an aspect is kept by whatever the
aspect does of itself when it is asked and when it is told.
-/
namespace GuardedStore

/-- Whether a notice comes from a guarded access or from an aspect. -/
def Notice.ofGuards : Notice → Bool
  | writeVetoed .. | readRefused .. | readSuperseded .. | lockTimedOut .. | releaseIgnored ..
  | typeMismatch .. | valueRejected .. | audited .. => true
  | _ => false

/-- The aspect without its counts and its holder. -/
def Aspect.form {σ : Type} : Aspect σ → Aspect σ
  | .audit _ => .audit {}
  | .lock l => .lock { patience := l.patience }
  | .validation v => .validation { v with rejections := 0 }
  | .plain name => .plain name
  | .probe p => .probe { p with writesAsked := 0, readsAsked := 0 }

theorem Aspect.form_lock_eq {σ : Type} {a : Aspect σ} {l : Lock}
    (h : a.form = (Aspect.lock l).form) : ∃ k, a = .lock k ∧ k.patience = l.patience := by
  cases a with
  | lock k => exact ⟨k, rfl, by simpa [form] using h⟩
  | _ => cases h

theorem Aspect.form_validation_eq {σ : Type} {a : Aspect σ} {v : Validation}
    (h : a.form = (Aspect.validation v).form) :
    ∃ u, a = .validation u ∧ u.name = v.name ∧ u.type = v.type ∧ u.condition = v.condition ∧
      u.checkReads = v.checkReads := by
  cases a with
  | validation u => exact ⟨u, rfl, by simpa [form] using h⟩
  | _ => cases h

/-- Whether a happening is what an aspect says of itself when it is asked or told. -/
def Happening.ofAspect : Happening → Bool
  | hook .. => true
  | notice n => n.ofGuards
  | _ => false

namespace World

/-- What was there before is of the form it had. -/
def SameForms (w w' : World) : Prop :=
  ∀ x < w.aspects.next, (w'.aspect x).form = (w.aspect x).form

variable {u v w w' : World}

theorem SameForms.refl (w : World) : w.SameForms w :=
  fun _ _ => rfl

theorem SameForms.trans (h : u.SameForms v) (hg : u.Grows v) (h' : v.SameForms w) :
    u.SameForms w :=
  fun x hx => (h' x (Nat.lt_of_lt_of_le hx hg.aspects)).trans (h x hx)

theorem sameForms_of_aspects (h : w'.aspects = w.aspects) : w.SameForms w' := by
  intro x _
  rw [aspect, aspect, h]

theorem sameForms_setAspect {x : Nat} {a : Aspect Nat} (h : a.form = (w.aspect x).form) :
    w.SameForms (w.setAspect x a) := by
  intro y _
  rw [aspect_setAspect]
  split
  · next hy => rw [h, hy]
  · rfl

theorem sameForms_withAspect (a : Aspect Nat) : w.SameForms (w.withAspect a) := by
  intro y hy
  rw [aspect_withAspect, if_neg (Nat.ne_of_lt hy)]

end World

/-- The law allows that an aspect with `B` changes within its form and says so, and that it waits.
-/
structure Law.Reforms (L : Law) (B : World → Nat → Prop) : Prop where
  stuck {w} : L.inv w → L.rel w .stuck w
  reform {w : World} {x a} : B w x → a.form = (w.aspect x).form → L.inv w →
    L.Holds w .done (w.setAspect x a)
  note {w : World} {h} : h.ofAspect → L.inv w → L.Holds w .done (w.mark h)

namespace Engine

variable {call : Nat → Engine Unit} {L : Law} {B : World → Nat → Prop} {w : World} {x : Nat}
  (p : L.Reforms B)

include p

theorem saying_keeps {h : Happening} (hh : h.ofAspect) : (record h).Keeps L :=
  fun _ => keepsAt_modify (p.note hh)

theorem reform_keepsAt {a b : Aspect Nat} (hx : B w x) (hb : w.aspect x = b)
    (ha : a.form = b.form) : (setAspect x a).KeepsAt L w :=
  keepsAt_modify (p.reform hx (hb ▸ ha))

variable (hc : ∀ r, (call r).Keeps L)

include hc

theorem probeHook_reforms (q : Probe Nat) (hook : Hook) (permitted : Option Bool)
    (access : Access) : (probeHook call q hook permitted access).Keeps L := by
  have ha : (callAny call (q.script hook)).Keeps L := by
    unfold callAny
    split
    · refine keeps_get_bind fun w => ?_
      split
      · exact keeps_pure () w
      · exact hc _ w
    · exact keeps_pure ()
  unfold probeHook
  split
  · exact ha
  · refine Keeps.bind (fun w => ?_) fun _ => ha
    by_cases hm : w.muted
    · exact (keeps_pure () w).congr (if_pos hm)
    · exact (saying_keeps p rfl w).congr (if_neg hm)

theorem answer_reforms (hx : B w x) (phase : Phase) (access : Access) :
    (answer call x phase access).KeepsAt L w := by
  refine keepsAt_get_bind ?_
  split
  · exact keeps_pure _ w
  · exact keeps_pure _ w
  · next l hl =>
    split
    · next k hk =>
      have hf : k.patience = l.patience := by
        unfold Lock.acquire at hk
        grind
      exact (reform_keepsAt p hx hl (by simp [Aspect.form, hf])).bind fun _ u _ _ =>
        keeps_pure _ u
    · next k hk =>
      have hf : k.patience = l.patience := by
        unfold Lock.acquire at hk
        grind
      exact (reform_keepsAt p hx hl (by simp [Aspect.form, hf])).bind fun _ u _ _ =>
        (saying_keeps p rfl).bind (fun _ => keeps_pure _) u
    · exact fun hw => ⟨hw, p.stuck hw⟩
  · next v hv =>
    split
    · exact keeps_pure _ w
    · exact (reform_keepsAt (a := .validation v.reject) p hx hv rfl).bind fun _ u _ _ =>
        (saying_keeps p rfl).bind (fun _ => keeps_pure _) u
    · exact (reform_keepsAt (a := .validation v.reject) p hx hv rfl).bind fun _ u _ _ =>
        (saying_keeps p rfl).bind (fun _ => keeps_pure _) u
  · next q hq =>
    have hf : (Aspect.probe (q.asked phase)).form = (Aspect.probe q).form := by
      cases phase <;> rfl
    exact (reform_keepsAt p hx hq hf).bind fun _ u _ _ =>
      (probeHook_reforms p hc _ _ _ _).bind (fun _ => keeps_pure _) u

theorem settle_reforms (hx : B w x) (phase : Phase) (access : Access) (permitted : Bool) :
    (settle call x phase access permitted).KeepsAt L w := by
  refine keepsAt_get_bind ?_
  split
  · next a ha =>
    exact (reform_keepsAt (a := .audit (a.count phase permitted)) p hx ha rfl).bind
      fun _ u _ _ => saying_keeps p rfl u
  · next l hl =>
    split
    · next k hk =>
      have hf : k.patience = l.patience := by
        unfold Lock.release? at hk
        grind
      exact reform_keepsAt p hx hl (by simp [Aspect.form, hf])
    · exact saying_keeps p rfl w
  · exact keeps_pure _ w
  · exact keeps_pure _ w
  · exact probeHook_reforms p hc _ _ _ _ w

end Engine

end GuardedStore
