import GuardedStore.Proofs.Passes.Chain

/-!
Guarded accesses keep the law of passes: each pass that an access makes is over when the access has
ended, whichever way it ended.
-/
namespace GuardedStore

namespace World

theorem beside_storing (item : Nat) (value : Value) {w : World} (hw : w.Sound) :
    w.Beside (w.storing item value) where
  grows := grows_storing item value
  sound := sound_storing item value hw
  tickets := rfl
  passages := rfl
  isLock _ := rfl
  locks {x l} hx := .inl ⟨l, hx, rfl⟩
  history := ⟨[], by simp, rfl⟩

end World

/-- A computation that has the pass with ticket `t` in hand ends it or gives it a name. -/
def Engine.Closes {α : Type} (m : Engine α) (t : Nat) (w : World) : Prop :=
  ∀ o v, m w = (o, v) →
    (passes t).Holds w o.ending v ∧ (o.ending ≠ .stuck → v.Open t ∨ v.Over t)

/-- A pass that was begun and has been closed is a pass like others. -/
theorem Law.Holds.disown {w w' : World} {e : Ending}
    (h : (passes (w.tickets + 1)).Holds w e w')
    (hc : e ≠ .stuck → w'.Open (w.tickets + 1) ∨ w'.Over (w.tickets + 1)) :
    (passes 0).Holds w e w' :=
  ⟨h.1, h.2.disown (Nat.lt_succ_self _) hc⟩

/-- A closed pass stays closed. -/
theorem Law.Holds.closed {w w' : World} {e : Ending} {t : Nat} (hw : w.Orderly)
    (h : (passes 0).Holds w e w') (he : e ≠ .stuck) (hc : w.Open t ∨ w.Over t) :
    w'.Open t ∨ w'.Over t := by
  rcases hc with hc | hc
  · obtain ⟨name, p, hp, rfl⟩ := id hc
    obtain ⟨r, hr, rfl, -⟩ := hw.waiting hp
    exact h.2.closed he hr.pos (Nat.le_trans hr.begun h.2.grows.tickets) (Nat.ne_of_gt hr.pos)
      (.inr (.inl hc))
  · exact .inr (hc.mono h.2.grows)

namespace Engine

variable {α β : Type} {call : Nat → Engine Unit} (hc : ∀ r, (call r).Keeps (passes 0))

theorem Closes.bind {m : Engine α} {f : α → Engine β} {t : Nat} {w : World} (hw : w.Orderly)
    (hm : m.Closes t w) (hf : ∀ a, (f a).Keeps (passes 0)) : (m >>= f).Closes t w := by
  intro o v h
  rw [bind_apply] at h
  rcases hu : m w with ⟨a | text | _, u⟩ <;> rw [hu] at h <;> obtain ⟨hk, ho⟩ := hm _ _ hu
  · have hk' := (hf a u).holds hk.1 h
    exact ⟨hk.done_trans hw hk'.weaken, fun he => hk'.closed hk.1 he (ho (by simp))⟩
  · cases h
    exact ⟨hk, ho⟩
  · cases h
    exact ⟨hk, ho⟩

theorem closes_get_bind {f : World → Engine β} {t : Nat} {w : World} (h : (f w).Closes t w) :
    (get >>= f).Closes t w :=
  h

/-- A note beside the pass is made before. -/
theorem closes_record_bind {y : Happening} {f : Unit → Engine β} {t : Nat} {w : World}
    (hw : w.Orderly) (hy : y.ticket? = none) (hf : (f ()).Closes t (w.mark y)) :
    (record y >>= f).Closes t w := by
  intro o v h
  have hm := (World.beside_mark hy hw.sound).holds t hw
  have hf' := hf _ _ h
  exact ⟨hm.done_trans hw hf'.1, hf'.2⟩

include hc

theorem leave_closes {r : PassRecord} {w : World} (h : w.Taking r) (hl : r.left = none)
    (ht : r.told = []) (hwh : r.Whole) : (leave call r.pass).Closes r.access.ticket w :=
  fun _ _ hv => by
    obtain ⟨hk, ho⟩ := leave_spec hc h hl ht (.inl hwh) hv
    exact ⟨hk, fun he => .inr (ho he)⟩

/-- The pass is left after `m`, also when a panic leaves `m`. -/
theorem ensure_closes {m : Engine α} {r : PassRecord} {w : World} (hw : w.Orderly)
    (hm : ∀ {o v}, m w = (o, v) → (passes r.access.ticket).Holds w o.ending v ∧
      ∃ r', v.Taking r' ∧ r'.pass = r.pass ∧ r'.left = none ∧ r'.told = [] ∧ r'.Whole) :
    (ensure m (leave call r.pass)).Closes r.access.ticket w := by
  intro o v h
  unfold ensure at h
  rcases hu : m w with ⟨a | text | _, u⟩ <;> rw [hu] at h <;>
    obtain ⟨hk, r', htk, hp, hl, ht, hwh⟩ := hm hu
  · have hcl := leave_closes hc htk hl ht hwh
    rw [hp, show r'.access = r.access from congrArg Pass.access hp] at hcl
    have hb := hcl.bind htk.orderly (f := fun _ => pure a) (fun _ => keeps_pure a) _ _ h
    exact ⟨hk.done_trans hw hb.1, hb.2⟩
  · have hcl := leave_closes hc htk hl ht hwh
    rw [hp, show r'.access = r.access from congrArg Pass.access hp] at hcl
    dsimp only at h
    rcases hv : leave call r.pass u with ⟨_ | _ | _, x⟩ <;> rw [hv] at h <;> cases h <;>
      obtain ⟨hk', ho⟩ := hcl _ _ hv
    · exact ⟨hk.trans hw (by simp) hk', fun _ => ho (by simp)⟩
    · exact ⟨hk.trans hw (by simp) hk', fun _ => ho (by simp)⟩
    · exact ⟨hk.trans hw (by simp) hk', fun he => absurd rfl he⟩
  · cases h
    exact ⟨hk, fun he => absurd rfl he⟩

/-- A computation that enters a chain and then ends the pass. -/
theorem entering_keepsAt {chain : List Nat} {phase : Phase} {access : Access}
    {f : Pass → Engine β} {w : World} (hch : w.Has chain)
    (hf : ∀ {r u}, Ready { chain, phase, access := { access with ticket := w.tickets + 1 } } r u →
      (f r.pass).Closes r.access.ticket u) :
    (enter call chain phase access >>= f).KeepsAt (passes 0) w := by
  intro (hw : w.Orderly)
  rw [bind_apply]
  rcases he : enter call chain phase access w with ⟨p | text | _, u⟩ <;>
    obtain ⟨hk, hd, hp⟩ := enter_spec hc hw hch he
  · obtain ⟨r, rfl, hr⟩ := hd p rfl
    rcases hv : f r.pass u with ⟨o, v⟩
    obtain ⟨hk', ho⟩ := hf hr _ _ hv
    rw [hr.access] at hk' ho
    have hwv := hk.done_trans hw hk'
    dsimp only
    rw [hv]
    exact hwv.disown ho
  · exact hk.disown fun _ => .inr (hp rfl)
  · exact hk.disown fun he => absurd rfl he

/-- A value is stored under a pass that the whole chain admitted; the trigger comes after that. -/
theorem storeValue_spec {r : PassRecord} {item : Nat} {w v : World} {o : Outcome Unit}
    (h : w.Taking r) (hr : r.Waiting) (hp : r.phase = .write) (hn : r.refusedBy = none)
    (hch : r.entered.reverse = r.chain) (hs : storeValue call item r.access w = (o, v)) :
    (passes r.access.ticket).Holds w o.ending v ∧ v.Taking { r with stored := some item } := by
  have hb := (World.beside_storing item r.access.value h.orderly.sound).holds 0 h.orderly
  have htk := h.frame hb
  have hm : (w.storing item r.access.value).Marks (.stored item r.access)
      ((w.storing item r.access.value).mark (.stored item r.access)) := by
    refine World.marks_mark htk.orderly rfl ?_ ?_ ?_
    · rintro _ _ _ _ ⟨⟩
    · rintro _ _ _ _ ⟨⟩
    · rintro _ _ _ _ _ ⟨⟩
  have hlaw : PassRecord.Lawful { r with stored := some item } :=
    { htk.shows.lawful with stored := fun _ => ⟨hp, hn, hch⟩ }
  have hh : PassRecord.happenings { r with stored := some item } =
      .stored item r.access :: r.happenings := by
    simp [PassRecord.happenings, PassRecord.permitted, hr.left, hr.told, hr.stored, hr.abandoned,
      hn]
  obtain ⟨hu, hk⟩ := htk.marks hm hlaw rfl rfl hh (fun _ => .inl fun _ => hch) htk.shows.panicked
    (by rintro a ⟨⟩)
  have hrest : (do
      let i := (← get).item item
      notice (.writeStored i.descriptor i.writes)
      let _ ← trigger call (.item item) i.affinity ⟨i.source, i.writes⟩ : Engine Unit).Keeps
        (passes 0) :=
    keeps_get_bind fun x => Keeps.bind (record_aside rfl) (fun _ => Keeps.bind
      (Keeps.bind (record_aside rfl) fun _ => forward_keeps passes_calm.delivering hc _ _)
      fun _ => keeps_pure ()) x
  have hv := (hrest _).holds hu.orderly hs
  exact ⟨(hb.weaken.done_trans h.orderly hk).done_trans h.orderly hv.weaken, hu.frame hv⟩

theorem write_passes (item : Nat) (value : Value) :
    (write call item value).Keeps (passes 0) := by
  intro w (hw : w.Orderly)
  refine keepsAt_get_bind (entering_keepsAt hc (fun a => hw.sound.chains) fun {r u} hr => ?_) hw
  refine ensure_closes hc hr.taking.orderly fun {o v} hv => ?_
  split at hv
  · next hp =>
    have hn : r.refusedBy = none := by simpa [PassRecord.pass, Pass.permitted] using hp
    obtain ⟨hk, htk⟩ := storeValue_spec hc hr.taking hr.waiting hr.phase hn (hr.whole hn) hv
    exact ⟨hk, _, htk, rfl, hr.waiting.left, hr.waiting.told, hr.whole⟩
  · have hk := ((record_aside (y := .notice _) rfl).bind (fun _ => record_aside rfl) u).holds
      hr.taking.orderly hv
    exact ⟨hk.weaken, r, hr.taking.frame hk, rfl, hr.waiting.left, hr.waiting.told, hr.whole⟩

theorem readWithin_passes (item retries : Nat) :
    (readWithin call item retries).Keeps (passes 0) := by
  induction retries with
  | zero =>
    intro w (hw : w.Orderly)
    unfold readWithin
    refine keepsAt_get_bind (entering_keepsAt hc (fun a => hw.sound.chains) fun {r u} hr => ?_) hw
    have hl := leave_closes hc hr.taking hr.waiting.left hr.waiting.told hr.whole
    have ho := hr.taking.orderly
    refine closes_get_bind ?_
    split
    · exact hl.bind ho fun _ => (record_aside rfl).bind fun _ => (record_aside rfl).bind fun _ =>
        keeps_pure _
    · exact hl.bind ho fun _ => (record_aside rfl).bind fun _ => keeps_pure _
  | succ retries ih =>
    intro w (hw : w.Orderly)
    unfold readWithin
    refine keepsAt_get_bind (entering_keepsAt hc (fun a => hw.sound.chains) fun {r u} hr => ?_) hw
    have hl := leave_closes hc hr.taking hr.waiting.left hr.waiting.told hr.whole
    have ho := hr.taking.orderly
    refine closes_get_bind ?_
    split
    · exact hl.bind ho fun _ => (record_aside rfl).bind fun _ => (record_aside rfl).bind fun _ =>
        keeps_pure _
    · dsimp only
      split
      · refine closes_record_bind ho rfl ?_
        have hm := (World.beside_mark (y := .notice (.readSuperseded (w.item item).descriptor
          (readAttempts - (retries + 1)))) rfl ho.sound).holds 0 ho
        have htk := hr.taking.frame hm
        refine closes_record_bind htk.orderly rfl ?_
        have hm := (World.beside_mark (y := .concluded item r.access .superseded) rfl
          htk.orderly.sound).holds 0 htk.orderly
        have htk := htk.frame hm
        exact (leave_closes hc htk hr.waiting.left hr.waiting.told hr.whole).bind htk.orderly
          fun _ => ih
      · exact hl.bind ho fun _ => (record_aside rfl).bind fun _ => keeps_pure _

end Engine

end GuardedStore
