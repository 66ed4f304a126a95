import GuardedStore.Proofs.Refusal.Accesses
import GuardedStore.Proofs.Run.Moments

/-!
Every run keeps the law of a lock that one item has to itself: accesses to the item go by whether
the lock is held, and everybody else passes it by.
-/
namespace GuardedStore

variable {x i : Nat}

/-- Aspects do as they like. -/
theorem refusing_reforms (x i : Nat) : (refusing x i).Reforms fun _ _ => True where
  stuck _ := ⟨.refl _, .refl _⟩
  reform _ ha hw := (World.bypasses_of_remote (World.grows_setAspect _ _ _)
    (World.sound_setAspect _ _ (World.Unshared.sound hw)) (World.sameForms_setAspect ha) rfl
    ⟨[], by simp, rfl⟩).holds hw
  note hh hw := (World.bypasses_remote (Happening.remote_of_ofAspect hh)
    (World.Unshared.sound hw)).holds hw

/-- Somebody else than the item may call on the aspect. -/
def World.Callable (x i : Nat) (w : World) (y : Nat) : Prop :=
  y < w.aspects.next ∧ (w.Sole x i → y ≠ x)

namespace Engine

variable {call : Nat → Engine Unit} {w : World} (hc : ∀ r, (call r).Keeps (refusing x i))

include hc

theorem ask_refusing {y : Nat} (hy : w.Callable x i y) (phase : Phase) (access : Access) :
    (ask call y phase access).KeepsAt (refusing x i) w := by
  intro hw
  refine ((answer_reforms (refusing_reforms x i) hc trivial phase access).bind
    fun b u _ hu => ?_) hw
  refine (keepsAt_modify fun hu' => ?_).bind fun _ v _ _ => keeps_pure b v
  exact (World.bypasses_mark (y := .admitted y phase access b) (fun hs => hy.2 (hs.of_holds hw hu))
    (by rintro _ ⟨⟩) (World.Unshared.sound hu')).holds hu'

theorem tell_refusing {y : Nat} (hy : w.Callable x i y) (phase : Phase) (access : Access)
    (permitted : Bool) : (tell call y phase access permitted).KeepsAt (refusing x i) w := by
  have hm : (record (.told y phase access permitted)).KeepsAt (refusing x i) w :=
    keepsAt_modify fun hw => (World.bypasses_mark (y := .told y phase access permitted) hy.2
      (by rintro _ ⟨⟩) (World.Unshared.sound hw)).holds hw
  exact hm.bind fun _ u _ _ =>
    settle_reforms (refusing_reforms x i) hc trivial phase access permitted

theorem refusing_guides : Guides call (refusing x i) (World.Callable x i) where
  sound hw := World.Unshared.sound hw
  grows h := h.1
  stuck _ := ⟨.refl _, .refl _⟩
  still hy hw h := ⟨Nat.lt_of_lt_of_le hy.1 h.2.1.aspects, fun hs => hy.2 (hs.of_holds hw h)⟩
  ask phase access hy := ask_refusing hc hy phase access
  tell phase access permitted hy := tell_refusing hc hy phase access permitted
  begin {w} chain phase access hch hw := by
    have hb : w.Bypasses x i (w.begin chain phase access) := {
      grows := World.grows_begin chain phase access w
      sound := World.sound_begin chain phase access (World.Unshared.sound hw)
      forms := World.sameForms_of_aspects rfl
      passages := rfl
      history := by
        refine ⟨[_], rfl, fun y hy => ?_⟩
        obtain rfl := List.mem_singleton.mp hy
        refine ⟨fun hs hx => (hch x hx).2 ?_ rfl, by rintro _ ⟨⟩⟩
        exact hs.of_grows (World.Unshared.sound hw) (World.grows_begin chain phase access w)
          (World.sameForms_of_aspects rfl) }
    exact hb.holds hw
  mark hh hw := (World.bypasses_remote (Happening.remote_of_ofEnd hh)
    (World.Unshared.sound hw)).holds hw
  visited chain hch hw := (World.bypasses_mark (y := .visited chain) (fun _ => trivial)
    (by rintro _ ⟨⟩; exact fun y hy => (World.Unshared.sound hw).names.calls (hch y hy))
    (World.Unshared.sound hw)).holds hw
  visit _ hch hv hy := ⟨hch _ hy, fun hs h => hs.unvisited hv (h ▸ hy)⟩
  held hw hp hy := by
    refine ⟨(World.Unshared.sound hw).names.passages hp hy, ?_⟩
    rintro hs rfl
    obtain ⟨chain, hv, hch⟩ := World.Unshared.passages hw hp
    exact hs.unvisited hv (hch _ hy)
  passing {w f} hf hw := by
    refine ⟨?_, World.grows_passing, World.sameForms_of_aspects rfl⟩
    exact {
      sound := World.sound_passing (fun hq => (hf hq).elim
        (fun hq _ ha => (World.Unshared.sound hw).names.passages hq ha) And.left)
          (World.Unshared.sound hw)
      visited := World.Unshared.visited hw
      passages := fun hq => (hf hq).elim (World.Unshared.passages hw) And.right
      attended := fun hs => by
        have ha := World.Unshared.attended hw (hs.of_grows (World.Unshared.sound hw)
          World.grows_passing (World.sameForms_of_aspects rfl))
        exact ⟨ha.began, ha.course, ha.asked, ha.told⟩ }

/-- The item's own pass is left. -/
theorem leave_refusing {p : Pass} (h1 : 1 ≤ p.access.ticket) (hle : p.access.ticket ≤ w.tickets)
    (hi : i < w.items.next) (hp : ∀ y ∈ p.entered, y ∈ (w.item i).chain) :
    (leave call p).KeepsAt (refusing x i) w := by
  intro (hw : w.Unshared x i)
  by_cases hx : w.Sole x i
  · obtain ⟨audits, hch, hf⟩ := hx.fences hi
    have hhas : w.Has (audits ++ [x]) := fun y hy => hw.sound.chains (hch ▸ hy)
    obtain ⟨v, marks, hv, hk, hl, hm⟩ := @leave_fenced call w x audits p hf hhas (hch ▸ hp)
    refine keepsAt_of_eq hv (fun hw => ?_) hw
    refine World.Unshared.walked hw hx hk hi h1 (Nat.le_trans hle hk.tickets) (hm _) (.inl ?_)
    exact ⟨p.access, true, rfl, hk.history ▸ List.mem_append_left _ hl⟩
  · refine leave_guided (refusing_guides hc) (fun y hy => ?_) hw
    exact ⟨hw.sound.chains (hp y hy), fun hs => absurd hs hx⟩

/-- The item's own pass is left whatever comes of what was to be done before. -/
theorem ensure_leave_refusing {m : Engine Unit} {p : Pass} (hm : m.Keeps (refusing x i))
    (h1 : 1 ≤ p.access.ticket) (hle : p.access.ticket ≤ w.tickets) (hi : i < w.items.next)
    (hp : ∀ y ∈ p.entered, y ∈ (w.item i).chain) :
    (ensure m (leave call p)).KeepsAt (refusing x i) w :=
  (hm w).ensure fun _ _ _ hu _ => leave_refusing hc h1 (Nat.le_trans hle hu.2.1.tickets)
    (Nat.lt_of_lt_of_le hi hu.2.1.items) fun y hy => hu.2.1.chain hi ▸ hp y hy

omit hc in
theorem issuing_refusing (item : Nat) (a : Access) (hw : w.Unshared x i) :
    (refusing x i).Holds w .done (w.issuing item a) :=
  (World.bypasses_of_remote (World.grows_issuing item a) (World.sound_issuing item a hw.sound)
    (World.sameForms_of_aspects rfl) rfl ⟨[_, _, _], by simp [Happening.remote], rfl⟩).holds hw

/-- A write that finds the lock free stores its value, and goes on from there. -/
theorem write_stores (hw : w.Unshared x i) (hx : w.Sole x i) (hi : i < w.items.next)
    (hh : w.holder x = none) (value : Value) : ∃ (v : World) (m : Engine Unit),
      write call i value w = m v ∧ (refusing x i).Holds w .done v ∧
      .stored i ⟨(w.item i).descriptor, value, w.tickets + 1⟩ ∈ v.history ∧
      m.KeepsAt (refusing x i) v := by
  obtain ⟨audits, hch, hf⟩ := hx.fences hi
  obtain ⟨v, marks, hv, hk, ht, ha, hn, hm⟩ := @write_free call w x i audits hf hch hh value
  have hin : v.Inside x (w.tickets + 1) := by
    refine ⟨⟨.write, _, rfl, hk.history ▸ List.mem_append_left _ ha⟩, ?_⟩
    rintro ⟨phase, b, c, hb, hm⟩
    rw [hk.history, List.mem_append] at hm
    have hle := (hw.attended hx).told (hm.resolve_left (hn phase b c))
    omega
  have hv' := hw.walked (a := ⟨_, value, w.tickets + 1⟩) hx hk hi (Nat.succ_pos _)
    (Nat.le_of_eq ht.symm) hm (.inr hin)
  have hz := hv'.done_trans hw
    (issuing_refusing i ⟨(w.item i).descriptor, value, w.tickets + 1⟩ hv'.1)
  refine ⟨_, _, hv, hz, ?_, ensure_leave_refusing hc (fun u => ?_) (Nat.succ_pos _)
    (Nat.le_of_eq ht.symm) (Nat.lt_of_lt_of_le hi hz.2.1.items) fun y hy => ?_⟩
  · rw [World.history_issuing]
    simp
  · exact (forward_keeps (refusing_calm x i).delivering hc _ _ u).bind fun _ u _ _ =>
      keeps_pure () u
  · rw [hz.2.1.chain hi, hch]
    simpa [or_comm] using hy

theorem write_refusing {j : Nat} (value : Value) (hj : j < w.items.next) :
    (write call j value).KeepsAt (refusing x i) w := by
  intro (hw : w.Unshared x i)
  by_cases hx : w.Sole x i ∧ j = i
  · obtain ⟨hx, rfl⟩ := hx
    cases hh : w.holder x with
    | some t =>
      obtain ⟨audits, hch, hf⟩ := hx.fences hj
      obtain ⟨v, marks, hv, hk, ht, -, hl, hm⟩ := @write_held call w x j audits hf hch
        (fun y hy => hw.sound.chains (hch ▸ hy)) t hh value
      exact keepsAt_of_eq hv (fun hw => World.Unshared.made hw hx hk hj ht rfl hl hm) hw
    | none =>
      obtain ⟨v, m, hv, hwv, -, hm⟩ := write_stores hc hw hx hj hh value
      rw [hv]
      exact hwv.done_trans hw (hm hwv.1)
  · refine write_guided (refusing_guides hc) value (fun y hy => ?_)
      (fun p v _ _ => storeValue_keepsAt (issuing_refusing j p.access)
        (forward_keeps (refusing_calm x i).delivering hc _ _ _)) hw
    exact ⟨hw.sound.chains hy, fun hs => hs.mem_chain hj (fun h => hx ⟨hs, h⟩) y hy⟩

theorem read_refusing {j : Nat} (hj : j < w.items.next) :
    (read call j).KeepsAt (refusing x i) w := by
  intro (hw : w.Unshared x i)
  have hr (access : Access) (passes : Nat) :
      (record (.concluded j access (.returned passes))).Keeps (refusing x i) := fun _ =>
    keepsAt_modify fun hv => (World.bypasses_remote rfl (World.Unshared.sound hv)).holds hv
  by_cases hx : w.Sole x i ∧ j = i
  · obtain ⟨hx, rfl⟩ := hx
    obtain ⟨audits, hch, hf⟩ := hx.fences hj
    have hhas : w.Has (audits ++ [x]) := fun y hy => hw.sound.chains (hch ▸ hy)
    cases hh : w.holder x with
    | some t =>
      obtain ⟨v, marks, hv, hk, ht, -, hl, hm⟩ := @read_held call w x j audits hf hch hhas t hh _
      exact keepsAt_of_eq hv (fun hw => World.Unshared.made hw hx hk hj ht rfl hl hm) hw
    | none =>
      obtain ⟨v, marks, n, hv, hk, ht, hl, hm⟩ := @read_free call w x j audits hf hch hhas hh _
      refine keepsAt_of_eq hv (fun hw => ?_) hw
      have hv' := World.Unshared.made hw hx hk hj ht rfl hl hm
      exact hv'.done_trans hw (hr _ n v hv'.1)
  · refine readWithin_guided (refusing_guides hc) _ hr (fun v hv y hy => ?_) hw
    refine ⟨World.Sound.chains hv.1.sound hy, fun hs => ?_⟩
    exact hs.mem_chain (Nat.lt_of_lt_of_le hj hv.2.1.items)
      (fun h => hx ⟨hs.of_holds hw hv, h⟩) y hy

end Engine

theorem panic_keeps_refusing (x i : Nat) (text : String) :
    (Engine.panic text).Keeps (refusing x i) := by
  intro w (hw : w.Unshared x i)
  unfold Engine.panic
  split
  · exact ⟨hw, .refl _, .refl _⟩
  · exact (World.bypasses_of_remote (World.grows_raise text) (World.sound_raise text hw.sound)
      (World.sameForms_of_aspects rfl) rfl
      ⟨[.raised text], by simp [Happening.remote], rfl⟩).holds hw

theorem refusing_admits {call : Nat → Engine Unit} (hc : ∀ r, (call r).Keeps (refusing x i)) :
    Engine.Admits call (refusing x i) fun w j => j < w.items.next :=
  (refusing_calm x i).guided hc (Engine.refusing_guides hc)
    (fun h hw => (h.bypasses (World.Unshared.sound hw)).holds hw) (panic_keeps_refusing x i)
    (fun _ _ => Engine.keepsAt_of_eq rfl fun hw =>
      (World.bypasses_of_remote (World.grows_withAspect _)
        (World.sound_withAspect _ (World.Unshared.sound hw)) (World.sameForms_withAspect _) rfl
        ⟨[], by simp, rfl⟩).holds hw)
    (fun hm _ => Engine.keepsAt_of_eq rfl fun hw =>
      (World.bypasses_of_remote (World.grows_withDomain _)
        (World.sound_withDomain hm (World.Unshared.sound hw)) (World.sameForms_of_aspects rfl) rfl
        ⟨[], by simp, rfl⟩).holds hw)
    (fun v hj _ => Engine.write_refusing hc v hj) (fun hj => Engine.read_refusing hc hj)
    (fun _ _ _ _ => World.builds_any _ _ _ _)

namespace World

theorem unshared_unwinding {w : World} (hw : w.Unshared x i) :
    Unshared x i { w with unwinding := false } where
  sound := sound_unwinding false hw.sound
  visited := hw.visited
  passages := hw.passages
  attended hs := by
    have ha := hw.attended (hs.of_grows hw.sound { Grows.refl w with } (sameForms_of_aspects rfl))
    exact ⟨ha.began, ha.course, ha.asked, ha.told⟩

theorem unshared_empty (x i : Nat) : Unshared x i {} where
  sound := sound_empty
  visited h := by cases h
  passages h := by cases h
  attended _ := ⟨nofun, nofun, nofun, nofun⟩

end World

theorem Scenario.reachedOpen_unshared (opens halt : World → Bool) (depth : Nat) (steps : List Step)
    (x i : Nat) : (reachedOpen opens halt depth {} steps).Unshared x i :=
  reachedOpen_inv (fun _ hc => refusing_admits hc) opens (refusing_calm x i).delivering.opens
    (fun _ => World.unshared_unwinding) halt depth steps (World.unshared_empty x i)

end GuardedStore
