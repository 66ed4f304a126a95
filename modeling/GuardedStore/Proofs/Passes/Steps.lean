import GuardedStore.Proofs.Passes.Accesses
import GuardedStore.Proofs.Run.Moments

/-!
Every step keeps the law of passes.
-/
namespace GuardedStore

namespace World

variable {w w₁ w₂ : World} {f : Table String Pass → Table String Pass}

theorem shows_passing {r : PassRecord} (hr : w.Shows r) : (w.passing f).Shows r :=
  ⟨hr.lawful, hr.pos, hr.begun, hr.record, hr.whole, hr.panicked⟩

theorem passing_orderly (hw : w.Orderly)
    (hf : ∀ {name q}, (f w.names.passages).find? name = some q → w.Has q.entered)
    (hq : ∀ {name q}, (f w.names.passages).find? name = some q →
      ∃ r, w.Shows r ∧ r.pass = q ∧ r.told = [] ∧ r.left = none ∧ r.Whole)
    (hd : ∀ {name name' q q'}, (f w.names.passages).find? name = some q →
      (f w.names.passages).find? name' = some q' → q.access.ticket = q'.access.ticket →
        name = name') : (w.passing f).Orderly where
  sound := sound_passing hf hw.sound
  records h1 ht := by
    obtain ⟨r, hrt, hr⟩ := hw.records h1 ht
    exact ⟨r, hrt, shows_passing hr⟩
  fresh := hw.fresh
  begun := hw.begun
  outside := hw.outside
  waiting hp := by
    obtain ⟨r, hr, hrest⟩ := hq hp
    exact ⟨r, shows_passing hr, hrest⟩
  distinct := hd
  asked := hw.asked
  custody := hw.custody
  taken := hw.taken
  excused := hw.excused

/-- Passages are named anew, which opens at most the pass with ticket `own` and lets go of at most
the one with ticket `gone`, and then that one is ended. -/
theorem Proceeds.passing {own gone : Nat} {e : Ending}
    (ho : ∀ {t}, (w.passing f).Open t → t = own ∨ w.Open t)
    (hk : ∀ {t}, w.Open t → t ≠ gone → (w.passing f).Open t)
    (hg : gone = 0 ∨ gone = own ∨ w.Open gone) (h : (w.passing f).Proceeds gone e w₂)
    (hc : e ≠ .stuck → (w₂.Open gone ∨ w₂.Over gone) ∨ gone = 0 ∨ gone = own) :
    w.Proceeds own e w₂ where
  grows := grows_passing.trans h.grows
  isLock := h.isLock
  frame {t} h1 ht hne hn := by
    refine h.frame h1 ht ?_ fun ho' => ?_
    · rintro rfl
      rcases hg with hg | hg | hg
      · omega
      · exact hne hg
      · exact hn hg
    · rcases ho ho' with ht | ht
      · exact hne ht
      · exact hn ht
  closed he t h1 ht hne hct := by
    by_cases htg : t = gone
    · subst htg
      rcases hc he with hc | hc | hc
      · exact hc
      · omega
      · exact absurd hc hne
    · refine h.closed he h1 ht htg ?_
      rcases hct with hct | hct | hct
      · exact .inl hct
      · exact .inr (.inl (hk hct htg))
      · exact .inr (.inr hct)
  raised := h.raised

/-- Whoever admitted a pass is there. -/
theorem Orderly.has_entered (hw : w.Orderly) {r : PassRecord} (hr : w.Shows r) :
    w.Has r.entered := by
  intro a ha
  have hm : .admitted a r.phase r.access true ∈ r.happenings :=
    PassRecord.admitted_mem.mpr ⟨ha, rfl, rfl⟩
  rw [← hr.record] at hm
  exact hw.asked (mem_ofTicket.mp hm).1

variable {passage : String} {q : Pass} {r : PassRecord}

theorem erase_orderly (hw : w.Orderly) : (w.passing (·.erase passage)).Orderly := by
  refine passing_orderly hw (fun h => ?_) (fun h => ?_) fun h h' => ?_
  · obtain ⟨r, hr, rfl, -⟩ := hw.waiting (find?_erase_some h).2
    exact hw.has_entered hr
  · exact hw.waiting (find?_erase_some h).2
  · exact hw.distinct (find?_erase_some h).2 (find?_erase_some h').2

/-- A passage that loses its name is in the hands of whoever took the name away. -/
theorem erase_taking (hw : w.Orderly) (hq : w.names.passages.find? passage = some q) :
    ∃ r, (w.passing (·.erase passage)).Taking r ∧ r.pass = q ∧ r.told = [] ∧ r.left = none ∧
      r.Whole := by
  obtain ⟨r, hr, rfl, hrest⟩ := hw.waiting hq
  refine ⟨r, ⟨erase_orderly hw, shows_passing hr, ?_⟩, rfl, hrest⟩
  rintro ⟨name, p, hp, ht⟩
  obtain ⟨hne, hp⟩ := find?_erase_some hp
  exact hne (hw.distinct hp hq ht)

theorem put_orderly (h : w.Taking r) (hl : r.left = none) (ht : r.told = []) (hwh : r.Whole) :
    (w.passing (·.put passage r.pass)).Orderly := by
  have hw := h.orderly
  refine passing_orderly hw (fun hq => ?_) (fun hq => ?_) fun {n n' q q'} hq hq' he => ?_
  · rcases find?_put_some hq with ⟨-, rfl⟩ | ⟨-, hq⟩
    · exact hw.has_entered h.shows
    · obtain ⟨r, hr, rfl, -⟩ := hw.waiting hq
      exact hw.has_entered hr
  · rcases find?_put_some hq with ⟨-, rfl⟩ | ⟨-, hq⟩
    · exact ⟨r, h.shows, rfl, ht, hl, hwh⟩
    · exact hw.waiting hq
  · rcases find?_put_some hq with ⟨rfl, rfl⟩ | ⟨-, hp⟩ <;>
      rcases find?_put_some hq' with ⟨rfl, rfl⟩ | ⟨-, hp'⟩
    · rfl
    · exact absurd ⟨n', q', hp', he.symm⟩ h.closed
    · exact absurd ⟨n, q, hp, he⟩ h.closed
    · exact hw.distinct hp hp' he

/-- A passage whose name is taken by another is in the hands of whoever gave that the name. -/
theorem put_taking (h : w.Taking r) (hl : r.left = none) (ht : r.told = []) (hwh : r.Whole)
    (hq : w.names.passages.find? passage = some q) :
    ∃ r', (w.passing (·.put passage r.pass)).Taking r' ∧ r'.pass = q ∧ r'.told = [] ∧
      r'.left = none ∧ r'.Whole := by
  have hw := h.orderly
  obtain ⟨r', hr', rfl, hrest⟩ := hw.waiting hq
  refine ⟨r', ⟨put_orderly h hl ht hwh, shows_passing hr', ?_⟩, rfl, hrest⟩
  rintro ⟨name, p, hp, he⟩
  rcases find?_put_some hp with ⟨-, rfl⟩ | ⟨hne, hp⟩
  · exact h.closed ⟨passage, _, hq, he.symm⟩
  · exact hne (hw.distinct hp hq he)

theorem put_open (p : Pass) : (w.passing (·.put passage p)).Open p.access.ticket :=
  ⟨passage, p, Table.find?_put_self .., rfl⟩

theorem open_of_put {p : Pass} {t : Nat} (h : (w.passing (·.put passage p)).Open t) :
    t = p.access.ticket ∨ w.Open t := by
  obtain ⟨name, q, hq, rfl⟩ := h
  rcases find?_put_some hq with ⟨-, rfl⟩ | ⟨-, hq⟩
  · exact .inl rfl
  · exact .inr ⟨name, q, hq, rfl⟩

/-- Only what went by the name before is not open any more. -/
theorem open_put_of_open {p : Pass} {t : Nat} (h : w.Open t)
    (hn : ∀ q, w.names.passages.find? passage = some q → t ≠ q.access.ticket) :
    (w.passing (·.put passage p)).Open t := by
  obtain ⟨name, q, hq, rfl⟩ := h
  refine ⟨name, q, (Table.find?_put_of_ne _ _ ?_).trans hq, rfl⟩
  rintro rfl
  exact hn q hq rfl

theorem open_of_erase {t : Nat} (h : (w.passing (·.erase passage)).Open t) : w.Open t := by
  obtain ⟨name, q, hq, rfl⟩ := h
  exact ⟨name, q, (find?_erase_some hq).2, rfl⟩

theorem open_erase_of_open {t : Nat} (h : w.Open t)
    (hn : ∀ q, w.names.passages.find? passage = some q → t ≠ q.access.ticket) :
    (w.passing (·.erase passage)).Open t := by
  obtain ⟨name, q, hq, rfl⟩ := h
  refine ⟨name, q, (Table.find?_erase_of_ne _ ?_).trans hq, rfl⟩
  rintro rfl
  exact hn q hq rfl

end World

namespace Engine

variable {call : Nat → Engine Unit} (hc : ∀ r, (call r).Keeps (passes 0))

include hc

/-- A hook is asked outside any pass. -/
theorem ask_outside {x : Nat} {phase : Phase} {a : Access} {w : World} (hx : x < w.aspects.next)
    (ha : a.ticket = 0) : (ask call x phase a).KeepsAt (passes 0) w := by
  intro (hw : w.Orderly)
  rcases ho : ask call x phase a w with ⟨o, w'⟩
  rcases ask_cases hc hw hx (fun h => by omega) ho with ⟨b, u, rfl, hu, hm⟩ | ⟨-, hk⟩
  · have hw' := hm.orderly_outside hu.1 (by rw [Happening.ticket?, ha]) (.inl ⟨_, _, _, _, rfl⟩)
    refine hu.done_trans hw ⟨hw', hm.proceeds fun t h1 ht => ?_⟩
    rw [Happening.ticket?, ha] at ht
    exact (Option.some.inj ht).symm
  · exact hk

theorem tell_outside {x : Nat} {phase : Phase} {a : Access} {b : Bool} {w : World}
    (ha : a.ticket = 0) : (tell call x phase a b).KeepsAt (passes 0) w := by
  intro (hw : w.Orderly)
  rcases ho : tell call x phase a b w with ⟨o, w'⟩
  obtain ⟨u, hm, hk⟩ := tell_cases hc hw ho
  have hu := hm.orderly_outside hw (by rw [Happening.ticket?, ha]) (.inr ⟨_, _, _, _, rfl⟩)
  have hwu : (passes 0).Holds w .done u := by
    refine ⟨hu, hm.proceeds fun t h1 ht => ?_⟩
    rw [Happening.ticket?, ha] at ht
    exact (Option.some.inj ht).symm
  exact hwu.done_trans hw (hk hu)

end Engine

namespace Performing

variable {call : Nat → Engine Unit} (hc : ∀ r, (call r).Keeps (passes 0))

theorem closes_lift_bind {α β : Type} {m : Engine α} {f : α → Performing β} {t : Nat} {w : World}
    (hw : w.Orderly) (hm : m.Closes t w) (hf : ∀ a, (f a).run.Keeps (passes 0)) :
    (liftM m >>= f : Performing β).run.Closes t w := by
  rw [run_lift_bind]
  exact hm.bind hw hf

theorem closes_world_bind {β : Type} {f : World → Performing β} {t : Nat} {w : World}
    (h : (f w).run.Closes t w) : (world >>= f).run.Closes t w :=
  h

include hc

/-- A pass is given a name; whoever went by the name before is ended. -/
theorem name_closes {r : PassRecord} {passage : String} {d : Answer} {w : World}
    (h : w.Taking r) (hr : r.Waiting) (hwh : r.Whole) :
    (do
      rename fun n => { n with passages := n.passages.put passage r.pass }
      (w.names.passages.find? passage).forM fun old => (Engine.leave call old : Performing Unit)
      return d : Performing Answer).run.Closes r.access.ticket w := by
  have hw₁ : (w.passing (·.put passage r.pass)).Orderly := World.put_orderly h hr.left hr.told hwh
  have hopen : (w.passing (·.put passage r.pass)).Open r.access.ticket := World.put_open r.pass
  cases hq : w.names.passages.find? passage with
  | none =>
    have hk : w.Proceeds r.access.ticket .done (w.passing (·.put passage r.pass)) :=
      .passing World.open_of_put (fun ho _ => World.open_put_of_open ho fun q h => by simp [hq] at h)
        (.inl rfl) .refl fun _ => .inr (.inl rfl)
    intro o v hv
    cases hv
    exact ⟨⟨hw₁, hk⟩, fun _ => .inl hopen⟩
  | some q =>
    obtain ⟨r', htk, rfl, ht, hl, hwh'⟩ := World.put_taking h hr.left hr.told hwh hq
    have hcl := closes_lift_bind htk.orderly (Engine.leave_closes hc htk hl ht hwh')
      (f := fun _ => pure d) fun _ => keeps_pure d
    intro o v hv
    obtain ⟨hk, hend⟩ := hcl o v hv
    have hne : r.access.ticket ≠ r'.access.ticket := fun he =>
      h.closed ⟨passage, r'.pass, hq, he.symm⟩
    refine ⟨⟨hk.1, World.Proceeds.passing World.open_of_put (fun ho hne => ?_) (.inr (.inr ?_)) hk.2
      fun he => .inl (hend he)⟩, fun he => ?_⟩
    · exact World.open_put_of_open ho fun q h => by rw [hq] at h; cases h; exact hne
    · exact ⟨passage, r'.pass, hq, rfl⟩
    · have hb := Nat.le_trans h.shows.begun hk.2.grows.tickets
      exact hk.2.closed he h.shows.pos hb hne (.inr (.inl hopen))

theorem enter_passes (chain : String) (phase : Phase) (passage : Option String)
    (plan : AccessPlan) : (enter call chain phase passage plan).run.Keeps (passes 0) := by
  intro w (hw : w.Orderly)
  refine (looks_named _ _ _).keepsAt_bind (fun chain hch => (looks_access plan).keepsAt_bind
    fun access _ => ?_) hw
  refine keepsAt_lift_bind (Engine.record_aside (y := .visited chain) rfl w) fun _ v _ hv => ?_
  have hch : v.Has chain :=
    World.Has.mono (fun a => hw.sound.names.chains hch) hv.2.grows.aspects
  refine (Engine.entering_keepsAt hc hch fun {r u} hr => ?_).congr
    (congrFun (run_lift_bind _ _) v)
  cases passage with
  | none =>
    have hl := Engine.leave_closes hc hr.taking hr.waiting.left hr.waiting.told hr.whole
    exact closes_world_bind (closes_lift_bind hr.taking.orderly hl fun _ => keeps_pure _)
  | some passage =>
    exact closes_world_bind (closes_world_bind (name_closes hc hr.taking hr.waiting hr.whole))

theorem exit_passes (passage : String) : (exit call passage).run.Keeps (passes 0) := by
  intro w (hw : w.Orderly)
  refine (looks_named _ _ _).keepsAt_bind (fun q hq => ?_) hw
  obtain ⟨r, htk, rfl, ht, hl, hwh⟩ := World.erase_taking hw hq
  have hcl : (do
      let decision := (← world).decision r.pass
      (Engine.leave call r.pass : Performing Unit)
      return .decision decision : Performing Answer).run.Closes r.access.ticket
        (w.passing (·.erase passage)) :=
    closes_world_bind (closes_lift_bind htk.orderly (Engine.leave_closes hc htk hl ht hwh) fun _ =>
      keeps_pure _)
  intro _
  obtain ⟨hk, hend⟩ := hcl _ _ rfl
  refine ⟨hk.1, World.Proceeds.passing (fun ho => .inr (World.open_of_erase ho))
    (fun ho hne => ?_) (.inr (.inr ⟨passage, r.pass, hq, rfl⟩)) hk.2 fun he => .inl (hend he)⟩
  exact World.open_erase_of_open ho fun q h => by rw [hq] at h; cases h; exact hne

theorem pass_passes {chain : List Nat} (phase : Phase) (access : Access) {w : World}
    (hch : w.Has chain) :
    (do
      let pass ← (Engine.enter call chain phase access : Performing Pass)
      Engine.leave call pass
      return pass : Performing Pass).run.KeepsAt (passes 0) w := by
  refine (Engine.entering_keepsAt hc hch fun {r u} hr => ?_).congr (congrFun (run_lift_bind _ _) w)
  have hl := Engine.leave_closes hc hr.taking hr.waiting.left hr.waiting.told hr.whole
  exact closes_lift_bind hr.taking.orderly hl fun _ => keeps_pure _

theorem chainWait_passes (chain : String) (phase : Phase) (plan : AccessPlan) :
    (chainWait call chain phase plan).run.Keeps (passes 0) := by
  intro w (hw : w.Orderly)
  refine (looks_named _ _ _).keepsAt_bind (fun chain hch => (looks_access plan).keepsAt_bind
    fun access _ => ?_) hw
  have hm (b : Bool) : (Engine.modify fun w => { w with muted := b }).Keeps (passes 0) := fun w =>
    Engine.keepsAt_modify
      (passes_calm.quiet (w.quiet_bookkeeping w.held w.modelDepth w.triggerDepth b))
  refine keepsAt_lift_bind (Engine.record_aside (y := .visited chain) rfl w) fun _ u _ hu => ?_
  have hfirst : u.Has chain := World.Has.mono (fun a => hw.sound.names.chains hch) hu.2.grows.aspects
  have h := keepsAt_bind (pass_passes hc .write access hfirst)
    (f := fun first => do
      update fun w => { w with muted := true }
      let second ← ensure
        (do
          let second ← Engine.enter call chain phase { access with value := .int64 0 }
          Engine.leave call second
          return second)
        (Engine.modify fun w => { w with muted := false })
      return Answer.waited first.permitted second.permitted) fun first v _ hv => ?_
  · simpa only [bind_assoc, pure_bind] using h
  · refine keepsAt_lift_bind (hm true v) fun _ x _ hx => ?_
    have hsecond := hfirst.mono (hv.2.grows.trans hx.2.grows).aspects
    exact keepsAt_bind ((pass_passes hc phase _ hsecond).ensure fun _ x _ _ _ => hm false x)
      fun _ x _ _ => keeps_pure _ x

end Performing

theorem passes_admits {call : Nat → Engine Unit} (hc : ∀ r, (call r).Keeps (passes 0)) :
    Engine.Admits call (passes 0) fun w i => i < w.items.next :=
  passes_calm.admits hc
    (fun h hw => (h.beside (World.Orderly.sound hw)).holds 0 hw)
    panic_keeps_passes
    (fun ha _ => Engine.keepsAt_of_eq rfl fun hw =>
      (World.beside_withAspect ha (World.Orderly.sound hw)).holds 0 hw)
    (fun hm _ => Engine.keepsAt_of_eq rfl fun hw =>
      (World.beside_withDomain hm (World.Orderly.sound hw)).holds 0 hw)
    (fun v _ => Engine.write_passes hc _ v _)
    (fun _ => Engine.readWithin_passes hc _ _ _)
    (Performing.enter_passes hc) (Performing.exit_passes hc) (Performing.chainWait_passes hc)
    (fun _ _ hx ha => (Engine.record_aside rfl _).bind fun _ _ hv _ hv' => by
      cases hv
      exact Engine.ask_outside hc ((World.Orderly.sound hv').names.calls hx) ha hv')
    (fun _ _ _ _ ha => (Engine.record_aside rfl _).bind fun _ v _ _ => Engine.tell_outside hc ha)

namespace World

theorem orderly_empty : Orderly {} where
  sound := sound_empty
  records h1 ht := absurd ht (Nat.not_le_of_gt h1)
  fresh _ := rfl
  begun := rfl
  outside h := by cases h
  waiting h := by cases h
  distinct h := by cases h
  asked h := by cases h
  custody h := by cases h
  taken h := by cases h
  excused newer a older h := by simp at h

theorem orderly_unwinding {w : World} (unwinding : Bool) (hw : w.Orderly) :
    Orderly { w with unwinding } :=
  (beside_unwinding unwinding hw.sound).orderly hw

end World

namespace Scenario

theorem callOpenUntil_keeps_passes (opens halt : World → Bool) (depth : Nat) :
    ∀ r, (callOpenUntil opens halt depth r).Keeps (passes 0) :=
  callOpenUntil_keeps (fun _ hc => passes_admits hc) opens passes_calm.delivering.opens halt depth

/-- All is in order at every moment of every run. -/
theorem reachedOpen_orderly (opens halt : World → Bool) (depth : Nat) (steps : List Step) :
    (reachedOpen opens halt depth {} steps).Orderly :=
  reachedOpen_inv (fun _ hc => passes_admits hc) opens passes_calm.delivering.opens
    (fun _ => World.orderly_unwinding false) halt depth steps World.orderly_empty

theorem reached_orderly (halt : World → Bool) (depth : Nat) (steps : List Step) :
    (reached halt depth {} steps).Orderly :=
  reachedOpen_never halt depth ▸ reachedOpen_orderly (fun _ => false) halt depth steps

/-- Between steps, every pass that ever began is over or held open under a name. -/
theorem settledOpen_passes {opens : World → Bool} {depth : Nat} {steps : List Step} {w : World}
    (h : settledOpen opens depth {} steps = some w) {t : Nat} (h1 : 1 ≤ t) (ht : t ≤ w.tickets) :
    w.Open t ∨ w.Over t := by
  refine (settledOpen_inv (fun _ hc => passes_admits hc) opens passes_calm.delivering.opens
    (fun _ => World.orderly_unwinding false)
    (P := fun w => ∀ t, 1 ≤ t → t ≤ w.tickets → w.Open t ∨ w.Over t) (fun _ h => h)
    (fun {u e v} hu hP hv he t h1 ht => ?_) World.orderly_empty (fun t h1 ht => ?_) h).2 t h1 ht
  · refine hv.2.closed he h1 ht (Nat.ne_of_gt h1) ?_
    rcases Nat.lt_or_ge u.tickets t with hlt | hle
    · exact .inl hlt
    · exact .inr (hP t h1 hle)
  · exact absurd ht (Nat.not_le_of_gt h1)

theorem settled_passes {depth : Nat} {steps : List Step} {w : World}
    (h : settled depth {} steps = some w) {t : Nat} (h1 : 1 ≤ t) (ht : t ≤ w.tickets) :
    w.Open t ∨ w.Over t :=
  settledOpen_passes (settledOpen_never depth ▸ h) h1 ht

end Scenario

end GuardedStore
