import GuardedStore.Proofs.Passes.Marks

/-!
Asking one aspect, and telling one.

Either comes down to one entry on the record. An aspect is asked, whatever its scripts do meanwhile,
and then its answer is entered; that it is told is entered, and then it does whatever it does.
-/
namespace GuardedStore

namespace Lock

theorem acquire_taken {l k : Lock} {t : Nat} (h : l.acquire t = .taken k) :
    l.holder = none ∧ k = { l with holder := some t } := by
  unfold acquire at h
  split at h
  · next hf =>
    cases h
    exact ⟨hf, rfl⟩
  · split at h <;> cases h

theorem acquire_refused {l k : Lock} {t : Nat} (h : l.acquire t = .refused k) :
    k.holder = l.holder := by
  unfold acquire at h
  split at h
  · cases h
  · split at h <;> cases h
    rfl

theorem release?_some {l k : Lock} {t : Nat} (h : l.release? t = some k) :
    l.holder = some t ∧ k = { l with holder := none } := by
  unfold release? at h
  split at h
  · next hf =>
    cases h
    exact ⟨hf, rfl⟩
  · cases h

theorem release?_none {l : Lock} {t : Nat} (h : l.release? t = none) : l.holder ≠ some t := by
  unfold release? at h
  split at h
  · cases h
  · next hf => exact hf

end Lock

namespace World

theorem beside_setAspect {x : Nat} {a : Aspect Nat} {w : World}
    (hk : a.isLock = (w.aspect x).isLock)
    (hl : ∀ l, a = .lock l → ∃ l₀, w.aspect x = .lock l₀ ∧ l₀.holder = l.holder) (hw : w.Sound) :
    w.Beside (w.setAspect x a) where
  grows := grows_setAspect x a w
  sound := sound_setAspect x a hw
  tickets := rfl
  passages := rfl
  isLock {z} _ := by
    rw [aspect_setAspect]
    split
    · next h => rw [hk, h]
    · rfl
  locks {z l} hz := by
    rw [aspect_setAspect] at hz
    split at hz
    · next h => exact .inl (h ▸ hl l hz)
    · exact .inl ⟨l, hz, rfl⟩
  history := ⟨[], by simp, rfl⟩

theorem beside_mark {y : Happening} (hy : y.ticket? = none) {w : World} (hw : w.Sound) :
    w.Beside (w.mark y) where
  grows := grows_mark y w
  sound := sound_mark y hw
  tickets := rfl
  passages := rfl
  isLock _ := rfl
  locks {x l} hx := .inl ⟨l, hx, rfl⟩
  history := ⟨[y], by simpa using hy, rfl⟩

end World

namespace Engine

variable {call : Nat → Engine Unit}

theorem record_aside {y : Happening} (hy : y.ticket? = none) : (record y).Keeps (passes 0) :=
  fun _ => keepsAt_modify fun hw => (World.beside_mark hy hw.sound).holds 0 hw

/-- An aspect that is no lock is written anew. -/
theorem setAspect_aside {x : Nat} {a b : Aspect Nat} {w : World} (hx : w.aspect x = b)
    (hb : b.isLock = false) (ha : a.isLock = false) : (setAspect x a).KeepsAt (passes 0) w := by
  refine keepsAt_modify fun hw => (World.beside_setAspect ?_ ?_ hw.sound).holds 0 hw
  · rw [ha, hx, hb]
  · rintro l rfl
    cases ha

variable (hc : ∀ r, (call r).Keeps (passes 0))

include hc

theorem probeHook_keeps_passes (p : Probe Nat) (hook : Hook) (permitted : Option Bool)
    (access : Access) : (probeHook call p hook permitted access).Keeps (passes 0) := by
  have ha := callAny_keeps hc (p.script hook)
  unfold probeHook
  split
  · exact ha
  · exact (report_keeps passes_calm.delivering.toSignalling rfl).bind fun _ => ha

/-- An aspect that is not a lock is asked. -/
theorem answer_keeps_passes {x : Nat} {phase : Phase} {access : Access} {w : World}
    (hx : ∀ l, w.aspect x ≠ .lock l) :
    (answer call x phase access).KeepsAt (passes 0) w := by
  refine keepsAt_get_bind ?_
  split
  · exact keeps_pure _ w
  · exact keeps_pure _ w
  · next l h => exact absurd h (hx l)
  · next h =>
    split
    · exact keeps_pure _ w
    · exact (setAspect_aside h rfl rfl).bind fun _ v _ _ =>
        (record_aside rfl).bind (fun _ => keeps_pure _) v
    · exact (setAspect_aside h rfl rfl).bind fun _ v _ _ =>
        (record_aside rfl).bind (fun _ => keeps_pure _) v
  · next h =>
    exact (setAspect_aside h rfl rfl).bind fun _ v _ _ =>
      (probeHook_keeps_passes hc _ _ _ _).bind (fun _ => keeps_pure _) v

/-- An aspect that is not a lock is told. -/
theorem settle_keeps_passes {x : Nat} {phase : Phase} {access : Access} {b : Bool} {w : World}
    (hx : ∀ l, w.aspect x ≠ .lock l) :
    (settle call x phase access b).KeepsAt (passes 0) w := by
  refine keepsAt_get_bind ?_
  split
  · next h => exact (setAspect_aside h rfl rfl).bind fun _ v _ _ => record_aside rfl v
  · next l h => exact absurd h (hx l)
  · exact keeps_pure _ w
  · exact keeps_pure _ w
  · exact probeHook_keeps_passes hc _ _ _ _ w

/-- However asking an aspect ends, the answer, if there is one, is the last thing entered. -/
theorem ask_cases {x : Nat} {phase : Phase} {a : Access} {w : World} (hw : w.Orderly)
    (hx : x < w.aspects.next) (hh : 1 ≤ a.ticket → ¬ Heard x a.ticket w.history)
    {o : Outcome Bool} {w' : World} (h : ask call x phase a w = (o, w')) :
    (∃ b u, o = .done b ∧ (passes 0).Holds w .done u ∧ u.Marks (.admitted x phase a b) w') ∨
      o.ending ≠ .done ∧ (passes 0).Holds w o.ending w' := by
  by_cases hl : ∃ l, w.aspect x = .lock l
  · obtain ⟨l, hl⟩ := hl
    unfold ask answer at h
    rw [bind_apply, bind_apply] at h
    dsimp only [get] at h
    rw [hl] at h
    dsimp only at h
    cases hq : l.acquire a.ticket with
    | taken k =>
      obtain ⟨hf, rfl⟩ := Lock.acquire_taken hq
      rw [hq] at h
      cases h
      exact .inl ⟨true, w, rfl, ⟨hw, .refl⟩, World.marks_take hw hx hl hf hh⟩
    | refused k =>
      have hf := Lock.acquire_refused hq
      rw [hq] at h
      cases h
      have hs := (World.beside_setAspect (x := x) (a := .lock k)
        (by rw [hl]; rfl) (fun m hm => ⟨l, hl, by cases hm; exact hf.symm⟩) hw.sound).holds 0 hw
      have hn := (World.beside_mark (y := .notice (.lockTimedOut a.descriptor phase
        k.patience.inMilliseconds)) rfl hs.1.sound).holds 0 hs.1
      refine .inl ⟨false, _, rfl, hs.done_trans hw hn, World.marks_mark hn.1 rfl ?_ ?_ ?_⟩
      · rintro _ _ _ _ ⟨⟩
        exact hx
      · rintro _ _ _ _ ⟨⟩
      · rintro _ _ _ _ _ ⟨⟩
    | waiting =>
      rw [hq] at h
      cases h
      exact .inr ⟨by simp, hw, passes_calm.stuck hw⟩
  · have hx' : ∀ l, w.aspect x ≠ .lock l := fun l h => hl ⟨l, h⟩
    have hk := @answer_keeps_passes call hc x phase a w hx'
    unfold ask at h
    rw [bind_apply] at h
    rcases ha : answer call x phase a w with ⟨b | text | _, u⟩ <;> rw [ha] at h
    · have hu := hk.holds hw ha
      cases h
      refine .inl ⟨b, u, rfl, hu, World.marks_mark hu.1 rfl ?_ ?_ ?_⟩
      · rintro _ _ _ _ ⟨⟩
        exact Nat.lt_of_lt_of_le hx hu.2.grows.aspects
      · rintro z _ _ k ⟨⟩ hk'
        have := hu.2.isLock hx
        rw [hk'] at this
        cases hb : w.aspect x <;> rw [hb] at this <;> cases this
        exact hx' _ hb
      · rintro _ _ _ _ _ ⟨⟩
    · cases h
      exact .inr ⟨by simp, hk.holds hw ha⟩
    · cases h
      exact .inr ⟨by simp, hk.holds hw ha⟩

/-- That an aspect is told is entered along with a lock's being given back, and before anything
else. -/
theorem tell_cases {x : Nat} {phase : Phase} {a : Access} {b : Bool} {w : World} (hw : w.Orderly)
    {o : Outcome Unit} {w' : World} (h : tell call x phase a b w = (o, w')) :
    ∃ u, w.Marks (.told x phase a b) u ∧ (u.Orderly → (passes 0).Holds u o.ending w') := by
  change settle call x phase a b (w.mark (.told x phase a b)) = (o, w') at h
  by_cases hl : ∃ l, w.aspect x = .lock l
  · obtain ⟨l, hl⟩ := hl
    unfold settle at h
    rw [bind_apply] at h
    dsimp only [get] at h
    rw [show (w.mark (.told x phase a b)).aspect x = .lock l from hl] at h
    dsimp only at h
    cases hq : l.release? a.ticket with
    | some k =>
      obtain ⟨hf, rfl⟩ := Lock.release?_some hq
      rw [hq] at h
      cases h
      exact ⟨_, World.marks_give hw hl hf, fun hu => ⟨hu, .refl⟩⟩
    | none =>
      rw [hq] at h
      refine ⟨_, World.marks_ignore hw hl (Lock.release?_none hq), fun hu => ?_⟩
      exact (record_aside rfl _).holds hu h
  · have hx : ∀ l, w.aspect x ≠ .lock l := fun l h => hl ⟨l, h⟩
    have hk := @settle_keeps_passes call hc x phase a b (w.mark (.told x phase a b)) hx
    refine ⟨_, World.marks_mark hw rfl ?_ ?_ ?_, fun hu => hk.holds hu h⟩
    · rintro _ _ _ _ ⟨⟩
    · rintro _ _ _ _ ⟨⟩
    · rintro z _ _ _ l ⟨⟩
      exact hx l

end Engine

end GuardedStore
