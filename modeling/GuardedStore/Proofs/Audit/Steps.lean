import GuardedStore.Proofs.Audit.Accesses
import GuardedStore.Proofs.Run.Moments

/-!
Every step keeps the law of audits.

The passes that steps begin themselves go through chains that are visited, so an audit that belongs
to one item alone has no part in them.
-/
namespace GuardedStore

variable {x i : Nat} {call : Nat → Engine Unit}

namespace World

variable {w : World} {f : Table String Pass → Table String Pass} {passage : String} {p : Pass}

/-- A pass may be named that no panic has cut short and whose chain was visited. -/
structure Nameable (w : World) (p : Pass) : Prop where
  uncut : w.Uncut p
  has : w.Has p.entered
  visited : ∃ chain, .visited chain ∈ w.history ∧ ∀ a ∈ p.entered, a ∈ chain

/-- The passes held open are those of before, but for the pass with ticket `own`. -/
theorem passing_auditing {own : Nat} (hw : w.Audited x)
    (hf : ∀ {name q}, (f w.names.passages).find? name = some q →
      w.names.passages.find? name = some q ∨ w.Nameable q ∧ q.access.ticket = own) :
    (auditing x i own).Holds w .done (w.passing f) where
  left := {
    sound := sound_passing (fun hq => (hf hq).elim (fun hq _ ha => hw.sound.names.passages hq ha)
      fun h => h.1.has) hw.sound
    counts := hw.counts
    unheard := hw.unheard
    visited := fun hq => by
      rcases hf hq with hq | ⟨hq, -⟩
      · obtain ⟨hu, hv⟩ := hw.visited hq
        exact ⟨⟨hu.pos, hu.begun, hu.uncut⟩, hv⟩
      · exact ⟨⟨hq.uncut.pos, hq.uncut.begun, hq.uncut.uncut⟩, hq.visited⟩
    begun := hw.begun
    whole := hw.whole }
  right := {
    grows := grows_passing
    isAudit := fun _ => rfl
    unwinding := fun h => by cases h
    steady := fun h => ⟨(fun hs => by cases hs), h⟩
    abandoned := .inl
    passages := fun {name q} hq => by
      rcases hf hq with hq | ⟨hq, ht⟩
      · exact .inl ⟨name, hq⟩
      · exact .inr (.inr ⟨hq.uncut.pos, ht⟩)
    balance := fun _ _ _ _ _ => (Int.add_zero _).symm }

theorem Held.passing {n : Nat} {phase : Phase} (h : w.Held x i n phase p) :
    (w.passing f).Held x i n phase p where
  has := h.has
  uncut := ⟨h.uncut.pos, h.uncut.begun, h.uncut.uncut⟩
  phase := h.phase
  count hx := h.count ⟨hx.audit, hx.first, hx.alone, hx.unvisited⟩

/-- A pass held open is none that an audit of one item alone has admitted. -/
theorem Audited.held {name : String} (hw : w.Audited x)
    (hp : w.names.passages.find? name = some p) : w.Held x i 0 p.phase p := by
  obtain ⟨hu, chain, hv, hc⟩ := hw.visited hp
  exact {
    has := fun _ ha => hw.sound.names.passages hp ha
    uncut := hu
    phase := rfl
    count := fun hx => List.count_eq_zero_of_not_mem fun ha => hx.unvisited hv (hc x ha) }

end World

namespace Engine

section Calls

variable (hc : ∀ r, (call r).Keeps (auditing x i 0))

include hc

/-- A pass of a chain that was visited is left. -/
theorem leave_auditing {w : World} {phase : Phase} {p : Pass} (hp : w.Held x i 0 phase p) :
    (leave call p).KeepsAt (auditing x i 0) w :=
  (leave_tips hc hp).congr fun phase b => by simp [Pass.owes]

/-- A chain that was visited is entered. -/
theorem visiting_auditing {β : Type} {chain : List Nat} {phase : Phase} {access : Access}
    {f : Pass → Engine β} {w : World} (hw : w.Audited x) (hch : w.Has chain)
    (hv : .visited chain ∈ w.history)
    (hf : ∀ p v, v.Held x i 0 phase p → w.Grows v → (∀ a ∈ p.entered, a ∈ chain) →
      (f p).KeepsAt (auditing x i p.access.ticket) v) :
    (enter call chain phase access >>= f).KeepsAt (auditing x i 0) w := by
  refine entering_auditing hc hw hch (fun hx => ?_) (fun p v hx h => ?_) fun p v hp hk =>
    hf p v hp hk.grows
  · rw [List.count_eq_zero_of_not_mem (hx.unvisited hv)]
    exact Nat.zero_le _
  · exact List.count_eq_zero_of_not_mem fun ha => hx.unvisited hv (mem_entered_of_enter h x ha)

end Calls

end Engine

namespace Performing

section Calls

variable (hc : ∀ r, (call r).Keeps (auditing x i 0))

include hc

theorem enter_auditing (chain : String) (phase : Phase) (passage : Option String)
    (plan : AccessPlan) : (enter call chain phase passage plan).run.Keeps (auditing x i 0) := by
  intro w (hw : w.Audited x)
  refine (looks_named _ _ _).keepsAt_bind (fun chain hch => (looks_access plan).keepsAt_bind
    fun access _ => ?_) hw
  refine keepsAt_lift_bind (Engine.impartial_keeps (y := .visited chain) rfl w) fun _ u hr hu => ?_
  cases hr
  have hch : w.Has chain := fun a => hw.sound.names.chains hch
  refine (Engine.visiting_auditing hc hu.1 hch List.mem_cons_self fun p v hp hg hpc => ?_).congr
    (congrFun (run_lift_bind _ _) _)
  refine (looks_world).keepsAt_bind fun _ _ => ?_
  cases passage with
  | none =>
    exact keepsAt_lift_bind (fun hv => (Engine.leave_auditing hc hp hv).weaken_audit) fun _ v _ _ =>
      keeps_pure _ v
  | some passage =>
    refine looks_world.keepsAt_bind fun z hz => ?_
    subst hz
    intro hv
    refine keepsAt_bind (keepsAt_lift (Engine.keepsAt_modify fun hv => World.passing_auditing
      (f := (·.put passage p)) hv fun hq => ?_)) (fun _ u hr hu => ?_) hv
    · rcases World.find?_put_some hq with ⟨-, rfl⟩ | ⟨-, hq⟩
      · exact .inr ⟨⟨hp.uncut, hp.has, chain, hg.history.subset List.mem_cons_self, hpc⟩, rfl⟩
      · exact .inl hq
    · refine keepsAt_bind ?_ fun _ v _ _ => keeps_pure _ v
      cases ho : z.names.passages.find? passage with
      | none => exact keeps_pure _ u
      | some old =>
        cases hr
        exact fun hu => (keepsAt_lift (Engine.leave_auditing hc
          ((World.Audited.held hv ho).passing (f := (·.put passage p)))) hu).weaken_audit

theorem exit_auditing (passage : String) :
    (exit call passage).run.Keeps (auditing x i 0) := by
  intro w (hw : w.Audited x)
  refine (looks_named _ _ _).keepsAt_bind (fun p hp => ?_) hw
  intro _
  have hk : (auditing x i 0).Holds w .done (w.passing (·.erase passage)) :=
    World.passing_auditing hw fun hq => .inl (World.find?_erase_some hq).2
  exact hk.done_trans hw (looks_world.keepsAt_bind (fun _ _ => keepsAt_lift_bind
    (Engine.leave_auditing hc (hw.held hp).passing) fun _ v _ _ => keeps_pure _ v) hk.1)

/-- A pass of a chain that was visited is begun and left. -/
theorem pass_auditing {chain : List Nat} (phase : Phase) (access : Access) {w : World}
    (hw : w.Audited x) (hch : w.Has chain) (hv : .visited chain ∈ w.history) :
    (do
      let pass ← (Engine.enter call chain phase access : Performing Pass)
      Engine.leave call pass
      return pass : Performing Pass).run.KeepsAt (auditing x i 0) w := by
  refine (Engine.visiting_auditing hc hw hch hv fun p v hp _ _ => ?_).congr
    (congrFun (run_lift_bind _ _) w)
  exact keepsAt_lift_bind (fun hv => (Engine.leave_auditing hc hp hv).weaken_audit) fun _ v _ _ =>
    keeps_pure _ v

theorem chainWait_auditing (chain : String) (phase : Phase) (plan : AccessPlan) :
    (chainWait call chain phase plan).run.Keeps (auditing x i 0) := by
  intro w (hw : w.Audited x)
  refine (looks_named _ _ _).keepsAt_bind (fun chain hch => (looks_access plan).keepsAt_bind
    fun access _ => ?_) hw
  have hm (b : Bool) : (Engine.modify fun w => { w with muted := b }).Keeps (auditing x i 0) :=
    fun w => Engine.keepsAt_modify
      ((auditing_calm x i).quiet (w.quiet_bookkeeping w.held w.modelDepth w.triggerDepth b))
  refine keepsAt_lift_bind (Engine.impartial_keeps (y := .visited chain) rfl w) fun _ u hr hu => ?_
  cases hr
  have hch : w.Has chain := fun a => hw.sound.names.chains hch
  have h := keepsAt_bind (pass_auditing hc .write access hu.1 hch List.mem_cons_self)
    (f := fun first => do
      update fun w => { w with muted := true }
      let second ← ensure
        (do
          let second ← Engine.enter call chain phase { access with value := .int64 0 }
          Engine.leave call second
          return second)
        (Engine.modify fun w => { w with muted := false })
      return Answer.waited first.permitted second.permitted) fun first v _ hv => ?_
  · simpa only [bind_assoc, pure_bind] using h
  · refine keepsAt_lift_bind (hm true v) fun _ z _ hz => ?_
    have hg := hv.2.grows.trans hz.2.grows
    exact keepsAt_bind ((pass_auditing hc phase _ hz.1 (hch.mono hg.aspects)
      (hg.history.subset List.mem_cons_self)).ensure fun _ z _ _ _ => hm false z)
        fun _ z _ _ => keeps_pure _ z

end Calls

end Performing

theorem auditing_admits (hc : ∀ r, (call r).Keeps (auditing x i 0)) :
    Engine.Admits call (auditing x i 0) fun w j => j < w.items.next :=
  (auditing_calm x i).admits hc
    (fun h hw => (h.apart (World.Audited.sound hw)).holds hw)
    (panic_keeps_auditing x i)
    (fun ha _ => Engine.keepsAt_of_eq rfl fun hw =>
      (World.apart_withAspect ha (World.Audited.sound hw)).holds hw)
    (fun hm _ => Engine.keepsAt_of_eq rfl fun hw =>
      (World.apart_of_same (World.grows_withDomain _)
        (World.sound_withDomain hm (World.Audited.sound hw)) rfl rfl rfl
        ⟨[], by simp, rfl⟩).holds hw)
    (fun v hi => Engine.write_auditing hc v hi)
    (fun hi => Engine.readWithin_auditing hc _ hi)
    (Performing.enter_auditing hc) (Performing.exit_auditing hc)
    (Performing.chainWait_auditing hc)
    (fun _ _ _ _ => Engine.visit_ask_auditing hc _ _ _ _)
    (fun _ _ _ hx _ => Engine.visit_tell_auditing hc hx)

namespace World

theorem audited_empty (x : Nat) : Audited x {} where
  sound := sound_empty
  counts h := by cases h
  unheard _ _ _ _ h := by cases h
  visited h := by cases h
  begun h := by cases h
  whole h := by simp at h

theorem audited_unwinding {w : World} (unwinding : Bool) (hw : w.Audited x) :
    Audited x { w with unwinding } where
  sound := sound_unwinding unwinding hw.sound
  counts := hw.counts
  unheard := hw.unheard
  visited hp := by
    obtain ⟨hu, hv⟩ := hw.visited hp
    exact ⟨⟨hu.pos, hu.begun, hu.uncut⟩, hv⟩
  begun := hw.begun
  whole := hw.whole

end World

end GuardedStore
