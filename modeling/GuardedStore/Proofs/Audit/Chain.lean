import GuardedStore.Proofs.Audit.Law
import GuardedStore.Proofs.Run.Plain

/-!
What a pass through a chain does to the balance.

To enter a chain is even: whoever is asked, nobody is told, unless a panic cuts the pass short, and
then those are told that had admitted it. To leave a pass tells each that admitted it once.
-/
namespace GuardedStore

namespace World

variable {x i own : Nat} {w : World}

/-- One more entry in the history. -/
theorem audited_mark {y : Happening} (hw : w.Audited x)
    (ht : ∀ phase a b, y = .told x phase a b → x < w.aspects.next ∧ (w.aspect x).isAudit = false)
    (ha : ∀ xs phase a, y = .abandoned xs phase a → a.ticket ≤ w.tickets ∧ w.Unnamed a.ticket)
    (hl : ∀ a, y = .left a false → ∀ xs phase, .abandoned xs phase a ∉ w.history) :
    (w.mark y).Audited x where
  sound := sound_mark y hw.sound
  counts {a} hx := by
    have hx : w.aspect x = .audit a := hx
    refine (hw.counts hx).trans (Audit.heard_cons (fun phase b => ?_) w.history).symm
    cases y with
    | told z ph k c =>
      refine if_neg fun hz => ?_
      have hn := (ht ph k c (by rw [hz.1])).2
      have hx : w.aspect x = .audit a := hx
      rw [hx] at hn
      cases hn
    | _ => rfl
  unheard hx phase a b hm := by
    rcases List.mem_cons.mp hm with hm | hm
    · exact absurd hx (Nat.not_le_of_gt (ht _ _ _ hm.symm).1)
    · exact hw.unheard hx phase a b hm
  visited {name p} hp := by
    obtain ⟨hu, chain, hv, hc⟩ := hw.visited hp
    refine ⟨⟨hu.pos, hu.begun, fun hm => ?_⟩, chain, List.mem_cons_of_mem _ hv, hc⟩
    rcases List.mem_cons.mp hm with hm | hm
    · exact (ha _ _ _ hm.symm).2 hp rfl
    · exact hu.uncut hm
  begun hm := by
    rcases List.mem_cons.mp hm with hm | hm
    · exact (ha _ _ _ hm.symm).1
    · exact hw.begun hm
  whole {a older} hs := by
    rcases List.suffix_cons_iff.mp hs with hs | hs
    · obtain ⟨rfl, rfl⟩ := List.cons_eq_cons.mp hs
      exact hl a rfl
    · exact hw.whole hs

theorem tilts_mark (y : Happening)
    (ha : ∀ xs phase a, y = .abandoned xs phase a → 1 ≤ a.ticket ∧ a.ticket = own) :
    w.Tilts x i own (fun phase b => y.due x i phase b) .done (w.mark y) where
  grows := grows_mark y w
  isAudit _ := rfl
  unwinding h := by cases h
  steady h := ⟨(fun hs => by cases hs), h⟩
  abandoned hm := by
    rcases List.mem_cons.mp hm with hm | hm
    · exact .inr (.inr (ha _ _ _ hm.symm))
    · exact .inl hm
  passages hp := .inl ⟨_, hp⟩
  balance _ _ _ phase b := (balance_cons y w.history).trans (Int.add_comm ..)

/-- An audit counts that it is told. -/
theorem audited_count {y : Nat} {c : Audit} {phase : Phase} {a : Access} {b : Bool}
    (hw : w.Audited x) (hy : w.aspect y = .audit c) (hlt : y < w.aspects.next) :
    ((w.setAspect y (.audit (c.count phase b))).mark (.told y phase a b)).Audited x where
  sound := sound_mark _ (sound_setAspect _ _ hw.sound)
  counts {k} hx := by
    change (w.setAspect y (.audit (c.count phase b))).aspect x = .audit k at hx
    change k = Audit.heard x (.told y phase a b :: w.history)
    rw [aspect_setAspect] at hx
    split at hx
    · next h =>
      cases hx
      subst h
      rw [Audit.heard_told, ← hw.counts hy]
    · next h =>
      have hn (ph : Phase) (d : Bool) : (Happening.told y phase a b).tells x ph d = 0 :=
        if_neg fun hz => h hz.1.symm
      exact (hw.counts hx).trans (Audit.heard_cons hn w.history).symm
  unheard hx ph d e hm := by
    rcases List.mem_cons.mp hm with hm | hm
    · cases hm
      exact absurd hx (Nat.not_le_of_gt hlt)
    · exact hw.unheard hx ph d e hm
  visited hp := by
    obtain ⟨hu, chain, hv, hc⟩ := hw.visited hp
    refine ⟨⟨hu.pos, hu.begun, fun hm => ?_⟩, chain, List.mem_cons_of_mem _ hv, hc⟩
    exact hu.uncut ((List.mem_cons.mp hm).resolve_left nofun)
  begun hm := hw.begun ((List.mem_cons.mp hm).resolve_left nofun)
  whole hs := by
    rcases List.suffix_cons_iff.mp hs with hs | hs
    · cases (List.cons_eq_cons.mp hs).1
    · exact hw.whole hs

theorem tilts_setAspect {y : Nat} {a : Aspect Nat} (hy : a.isAudit = (w.aspect y).isAudit) :
    w.Tilts x i own (fun _ _ => 0) .done (w.setAspect y a) where
  grows := grows_setAspect y a w
  isAudit _ := by
    rw [aspect_setAspect]
    split
    · next h => rw [h, hy]
    · rfl
  unwinding h := by cases h
  steady h := ⟨(fun hs => by cases hs), h⟩
  abandoned := .inl
  passages hp := .inl ⟨_, hp⟩
  balance _ _ _ _ _ := (Int.add_zero _).symm

end World

namespace Pass

/-- What it adds to the balance to tell these aspects that the pass is over. -/
def notes (x : Nat) (p : Pass) (aspects : List Nat) (phase : Phase) (permitted : Bool) : Int :=
  if p.phase = phase ∧ p.permitted = permitted then aspects.count x else 0

variable {x i : Nat} {p : Pass}

theorem notes_nil (x : Nat) (p : Pass) : p.notes x [] = fun _ _ => 0 := by
  funext phase b
  simp [notes]

theorem notes_cons (x : Nat) (p : Pass) (y : Nat) (aspects : List Nat) :
    p.notes x (y :: aspects) = fun phase b =>
      (Happening.told y p.phase p.access p.permitted).due x i phase b +
        p.notes x aspects phase b := by
  funext phase b
  simp only [notes, Happening.due, Happening.tells, Happening.ends, Happening.abandons,
    List.count_cons, beq_iff_eq]
  split <;> split <;> grind

theorem notes_abandoned (hn : p.refusedBy = none) (hx : p.entered.count x ≤ 1) (phase : Phase)
    (b : Bool) : p.notes x p.entered phase b +
      (Happening.abandoned p.entered p.phase p.access).due x i phase b = 0 := by
  have hp : p.permitted = true := by rw [permitted, hn]; rfl
  have hc : p.entered.count x = if x ∈ p.entered then 1 else 0 := by
    split
    · next h => exact Nat.le_antisymm hx (List.count_pos_iff.mpr h)
    · next h => exact List.count_eq_zero_of_not_mem h
  simp only [notes, Happening.due, Happening.tells, Happening.ends, Happening.abandons, hp, hc]
  grind

end Pass

namespace Engine

variable {x i own : Nat} {call : Nat → Engine Unit}

theorem impartial_keeps {y : Happening} (hy : y.impartial) : (record y).Keeps (auditing x i 0) :=
  fun _ => keepsAt_modify fun hw => (World.apart_mark hy (World.Audited.sound hw)).holds hw

theorem setAspect_auditing {y : Nat} {a b : Aspect Nat} {w : World} (hy : w.aspect y = b)
    (hb : b.isAudit = false) (ha : a.isAudit = false) :
    (setAspect y a).KeepsAt (auditing x i 0) w :=
  keepsAt_modify fun hw =>
    (World.apart_setAspect (hy ▸ hb) ha (World.Audited.sound hw)).holds hw

section Calls

variable (hc : ∀ r, (call r).Keeps (auditing x i 0))

include hc

theorem probeHook_auditing (p : Probe Nat) (hook : Hook) (permitted : Option Bool)
    (access : Access) : (probeHook call p hook permitted access).Keeps (auditing x i 0) := by
  have ha := callAny_keeps hc (p.script hook)
  unfold probeHook
  split
  · exact ha
  · exact (report_keeps (auditing_calm x i).delivering.toSignalling rfl).bind fun _ => ha

theorem answer_auditing (y : Nat) (phase : Phase) (access : Access) :
    (answer call y phase access).Keeps (auditing x i 0) := by
  refine keeps_get_bind fun w => ?_
  split
  · exact keeps_pure _ w
  · exact keeps_pure _ w
  · next h =>
    split
    · exact (setAspect_auditing h rfl rfl).bind fun _ v _ _ => keeps_pure _ v
    · exact (setAspect_auditing h rfl rfl).bind fun _ v _ _ =>
        (impartial_keeps rfl).bind (fun _ => keeps_pure _) v
    · exact fun hw => ⟨hw, (auditing_calm x i).stuck hw⟩
  · next h =>
    split
    · exact keeps_pure _ w
    · exact (setAspect_auditing h rfl rfl).bind fun _ v _ _ =>
        (impartial_keeps rfl).bind (fun _ => keeps_pure _) v
    · exact (setAspect_auditing h rfl rfl).bind fun _ v _ _ =>
        (impartial_keeps rfl).bind (fun _ => keeps_pure _) v
  · next h =>
    exact (setAspect_auditing h rfl rfl).bind fun _ v _ _ =>
      (probeHook_auditing hc _ _ _ _).bind (fun _ => keeps_pure _) v

theorem ask_auditing (y : Nat) (phase : Phase) (access : Access) :
    (ask call y phase access).Keeps (auditing x i 0) :=
  (answer_auditing hc y phase access).bind fun _ => (impartial_keeps rfl).bind fun _ =>
    keeps_pure _

/-- An aspect that is no audit is told. -/
theorem settle_auditing {y : Nat} {phase : Phase} {access : Access} {b : Bool} {w : World}
    (hy : (w.aspect y).isAudit = false) :
    (settle call y phase access b).KeepsAt (auditing x i 0) w := by
  refine keepsAt_get_bind ?_
  split
  · next h =>
    rw [h] at hy
    cases hy
  · next h =>
    split
    · exact setAspect_auditing h rfl rfl
    · exact impartial_keeps rfl w
  · exact keeps_pure _ w
  · exact keeps_pure _ w
  · exact probeHook_auditing hc _ _ _ _ w

/-- Whoever is told, it adds to the balance of the aspect told. -/
theorem tell_tilts {y : Nat} {phase : Phase} {a : Access} {b : Bool} {w w' : World}
    {o : Outcome Unit} (hw : w.Audited x) (hy : y < w.aspects.next)
    (h : tell call y phase a b w = (o, w')) :
    w'.Audited x ∧ w.Tilts x i 0
      (fun ph c => (Happening.told y phase a b).due x i ph c) o.ending w' := by
  have hm : w.Tilts x i 0 (fun ph c => (Happening.told y phase a b).due x i ph c) .done
      (w.mark (.told y phase a b)) := World.tilts_mark _ (by rintro _ _ _ ⟨⟩)
  change settle call y phase a b (w.mark (.told y phase a b)) = (o, w') at h
  by_cases ha : (w.aspect y).isAudit
  · cases hk : w.aspect y with
    | audit c =>
      have hu : ((w.setAspect y (.audit (c.count phase b))).mark (.told y phase a b)).Audited x :=
        World.audited_count hw hk hy
      have hs : (w.mark (.told y phase a b)).Tilts x i 0 (fun _ _ => 0) .done
          ((w.setAspect y (.audit (c.count phase b))).mark (.told y phase a b)) :=
        World.tilts_setAspect (w := w.mark (.told y phase a b)) (by
          rw [show (w.mark (.told y phase a b)).aspect y = .audit c from hk]
          rfl)
      unfold settle at h
      rw [bind_apply] at h
      dsimp only [get] at h
      rw [show (w.mark (.told y phase a b)).aspect y = .audit c from hk] at h
      have hn := (impartial_keeps (x := x) (i := i)
        (y := .notice (.audited phase a.descriptor b)) rfl _).holds hu h
      exact ⟨hn.1, ((hm.trans hs).trans hn.2).congr fun _ _ _ _ _ => by simp only [Int.add_zero]⟩
    | _ => simp [hk, Aspect.isAudit] at ha
  · have hu : (w.mark (.told y phase a b)).Audited x := by
      refine World.audited_mark hw ?_ (by rintro _ _ _ ⟨⟩) (by rintro _ ⟨⟩)
      rintro _ _ _ ⟨⟩
      exact ⟨hy, by simpa using ha⟩
    have hs : (settle call y phase a b).KeepsAt (auditing x i 0) (w.mark (.told y phase a b)) :=
      settle_auditing hc (show (w.aspect y).isAudit = false by simpa using ha)
    have hk := hs.holds hu h
    exact ⟨hk.1, (hm.trans hk.2).congr fun _ _ _ _ _ => Int.add_zero _⟩

/-- The aspects given are told, unless a panic or waiting comes in between. -/
theorem tellAll_tilts {p : Pass} {xs : List Nat} : ∀ {w w' : World} {o : Outcome Unit},
    w.Audited x → w.Has xs → tellAll call p xs w = (o, w') →
    w'.Audited x ∧ ∃ δ, w.Tilts x i 0 δ o.ending w' ∧ (o.ending = .done → δ = p.notes x xs) := by
  induction xs with
  | nil =>
    rintro w w' o hw - ⟨⟩
    exact ⟨hw, _, .refl, fun _ => (p.notes_nil x).symm⟩
  | cons y xs ih =>
    intro w w' o hw hy h
    unfold tellAll at h
    rw [bind_apply] at h
    rcases ht : tell call y p.phase p.access p.permitted w with ⟨_ | _ | _, u⟩ <;> rw [ht] at h <;>
      obtain ⟨hu, hk⟩ := tell_tilts hc (i := i) hw (hy y List.mem_cons_self) ht
    · obtain ⟨hw', δ, hk', hd⟩ := ih hu (hy.tail.mono hk.grows.aspects) h
      refine ⟨hw', _, hk.trans hk', fun ho => ?_⟩
      rw [hd ho, p.notes_cons x y xs]
    · cases h
      exact ⟨hu, _, hk, nofun⟩
    · cases h
      exact ⟨hu, _, hk, nofun⟩

/-- A pass is left: completely, if a panic is on its way out already or cut the pass short. -/
theorem leave_tilts {p : Pass} {w w' : World} {o : Outcome Unit} (hw : w.Audited x)
    (hp : w.Has p.entered) (hu : w.unwinding ∨ w.Uncut p) (h : leave call p w = (o, w')) :
    w'.Audited x ∧ w.Tilts x i 0 (p.notes x p.entered) o.ending w' ∧
      (o.ending = .panicked → .left p.access false ∈ w'.history) := by
  unfold leave at h
  rw [bind_apply] at h
  unfold onUnwind at h
  rcases ht : tellAll call p p.entered w with ⟨_ | text | _, v⟩ <;> rw [ht] at h <;>
    obtain ⟨hv, δ, hk, hd⟩ := tellAll_tilts hc (i := i) hw hp ht
  · cases h
    have hm : v.Tilts x i 0 _ .done (v.mark (.left p.access true)) :=
      World.tilts_mark _ (by rintro _ _ _ ⟨⟩)
    refine ⟨World.audited_mark hv (by rintro _ _ _ ⟨⟩) (by rintro _ _ _ ⟨⟩) (by rintro _ ⟨⟩), ?_,
      nofun⟩
    rw [← hd rfl]
    exact (hk.trans hm).congr fun _ _ _ _ _ => Int.add_zero _
  · have hp := hu.resolve_left fun hu => (hk.steady hu).1 rfl
    cases h
    have hm : v.Tilts x i 0 _ .done (v.mark (.left p.access false)) :=
      World.tilts_mark _ (by rintro _ _ _ ⟨⟩)
    refine ⟨World.audited_mark hv (by rintro _ _ _ ⟨⟩) (by rintro _ _ _ ⟨⟩) ?_,
      (hk.trans hm).of_untold List.mem_cons_self, fun _ => List.mem_cons_self⟩
    rintro _ ⟨⟩ xs phase
    exact (hp.mono hk (Nat.ne_of_gt hp.pos)).uncut
  · cases h
    exact ⟨hv, hk.congr fun he => absurd rfl he, nofun⟩

/-- A pass that a panic has cut short is left even, since those who admitted it are told. -/
theorem abandon_tilts {p : Pass} {w w' : World} {o : Outcome Unit} (hw : w.Audited x)
    (hu : w.unwinding) (hp : w.Has p.entered) (hn : p.refusedBy = none)
    (ht : 1 ≤ p.access.ticket ∧ p.access.ticket ≤ w.tickets) (hf : w.Unnamed p.access.ticket)
    (hx : w.Private x i → p.entered.count x ≤ 1) (h : abandon call p w = (o, w')) :
    (auditing x i p.access.ticket).Holds w o.ending w' := by
  have hm : w.Tilts x i p.access.ticket
      (fun phase b => (Happening.abandoned p.entered p.phase p.access).due x i phase b) .done
      (w.mark (.abandoned p.entered p.phase p.access)) :=
    World.tilts_mark _ (by rintro _ _ _ ⟨⟩; exact ⟨ht.1, rfl⟩)
  have hv : (w.mark (.abandoned p.entered p.phase p.access)).Audited x :=
    World.audited_mark hw (by rintro _ _ _ ⟨⟩) (by rintro _ _ _ ⟨⟩; exact ⟨ht.2, hf⟩)
      (by rintro _ ⟨⟩)
  obtain ⟨hw', hk, -⟩ := leave_tilts hc (i := i) hv hp (.inl hu) h
  have hk := hm.trans hk.weaken
  refine ⟨hw', hk.congr fun _ hx' _ phase b => ?_⟩
  rw [← p.notes_abandoned hn (hx (hx'.of_tilts hk))]
  exact Int.add_comm ..

/-- The rest of the chain is asked. Unless a panic comes out of it, the pass is not cut short. -/
theorem proceed_tilts {aspects : List Nat} : ∀ {p : Pass} {w w' : World} {o : Outcome Pass},
    w.Audited x → w.Has p.entered → w.Has aspects → p.refusedBy = none →
    1 ≤ p.access.ticket ∧ p.access.ticket ≤ w.tickets → w.Unnamed p.access.ticket →
    (w.Private x i → (p.entered ++ aspects).count x ≤ 1) → proceed call p aspects w = (o, w') →
    (auditing x i p.access.ticket).Holds w o.ending w' ∧
      (o.ending = .done → (auditing x i 0).Holds w .done w') := by
  induction aspects with
  | nil =>
    rintro p w w' o hw - - - - - - ⟨⟩
    exact ⟨⟨hw, .refl⟩, fun _ => ⟨hw, .refl⟩⟩
  | cons y aspects ih =>
    intro p w w' o hw hp hy hn ht hf hx h
    unfold proceed at h
    rw [bind_apply] at h
    unfold onUnwind at h
    have hxe : w.Private x i → p.entered.count x ≤ 1 := fun hp =>
      Nat.le_trans (List.Sublist.count_le x (List.sublist_append_left ..)) (hx hp)
    rcases ha : ask call y p.phase p.access w with ⟨b | text | _, u⟩ <;> rw [ha] at h <;>
      have hk := (ask_auditing hc (i := i) y p.phase p.access w).holds hw ha
    · cases b with
      | true =>
        have hu : u.Has (y :: p.entered) := fun z hz => by
          rcases List.mem_cons.mp hz with rfl | hz
          · exact (hy.mono hk.2.grows.aspects) z List.mem_cons_self
          · exact (hp.mono hk.2.grows.aspects) z hz
        obtain ⟨hl, hd⟩ := ih (p := { p with entered := y :: p.entered }) hk.1 hu
          (hy.tail.mono hk.2.grows.aspects) hn ⟨ht.1, Nat.le_trans ht.2 hk.2.grows.tickets⟩
          (hf.mono hk.2 ht.2 (Nat.ne_of_gt ht.1)) (fun hp => by
            have hc := hx (hp.of_tilts hk.2)
            simp only [List.count_append, List.count_cons, List.cons_append] at hc ⊢
            omega) h
        exact ⟨hk.weaken_audit.done_trans hw hl, fun ho => hk.done_trans hw (hd ho)⟩
      | false =>
        cases h
        exact ⟨hk.weaken_audit, fun _ => hk⟩
    · dsimp only at h
      have hl {o : Outcome Unit} {v : World} (hv : abandon call p u = (o, v)) :
          (auditing x i p.access.ticket).Holds u o.ending v :=
        abandon_tilts hc hk.1 (hk.2.unwinding rfl) (hp.mono hk.2.grows.aspects) hn
          ⟨ht.1, Nat.le_trans ht.2 hk.2.grows.tickets⟩ (hf.mono hk.2 ht.2 (Nat.ne_of_gt ht.1))
          (fun hp => hxe (hp.of_tilts hk.2)) hv
      rcases hv : abandon call p u with ⟨_ | _ | _, v⟩ <;> rw [hv] at h <;> cases h <;>
        exact ⟨hk.weaken_audit.trans hw (by simp) (hl hv), fun h => by cases h⟩
    · cases h
      exact ⟨hk.weaken_audit, fun h => by cases h⟩

omit hc in
/-- Whoever is not asked any more admits no more. -/
theorem count_of_proceed {aspects : List Nat} : ∀ {p p' : Pass} {w w' : World}, x ∉ aspects →
    proceed call p aspects w = (.done p', w') → p'.entered.count x = p.entered.count x := by
  induction aspects with
  | nil =>
    rintro p p' w w' - ⟨⟩
    rfl
  | cons y aspects ih =>
    intro p p' w w' hx h
    obtain ⟨hy, hx⟩ := not_or.mp (mt List.mem_cons.mpr hx)
    obtain ⟨b, u, -, h⟩ := proceed_cons_done h
    cases b with
    | true => exact (ih hx h).trans (List.count_cons_of_ne (Ne.symm hy))
    | false =>
      obtain ⟨rfl, -⟩ := h
      rfl

omit hc in
/-- An audit admits whatever it is asked. -/
theorem ask_audit {y : Nat} {phase : Phase} {a : Access} {w w' : World} {b : Bool}
    (hy : (w.aspect y).isAudit) (h : ask call y phase a w = (.done b, w')) : b = true := by
  cases hk : w.aspect y with
  | audit c =>
    unfold ask answer at h
    rw [bind_apply, bind_apply] at h
    dsimp only [get] at h
    rw [hk] at h
    cases h
    rfl
  | _ => simp [hk, Aspect.isAudit] at hy

omit hc in
/-- Every pass that is begun for the item is one the audit has admitted, and no other. -/
theorem count_of_enter {j : Nat} {phase : Phase} {a : Access} {p : Pass} {w w' : World}
    (hx : w.Private x i) (hj : j < w.items.next) (hs : w.Sound)
    (h : enter call (w.item j).chain phase a w = (.done p, w')) :
    p.entered.count x = if j = i then 1 else 0 := by
  change proceed call ⟨phase, { a with ticket := w.tickets + 1 }, [], none⟩ (w.item j).chain
    (w.begin (w.item j).chain phase a) = (.done p, w') at h
  split
  · next hji =>
    subst hji
    obtain ⟨rest, hch, hr⟩ := hx.first hj
    have hlt : x < w.aspects.next := hs.chains (i := j) (by rw [hch]; exact List.mem_cons_self)
    rw [hch] at h
    obtain ⟨b, u, ha, h⟩ := proceed_cons_done h
    obtain rfl := ask_audit (w := w.begin (x :: rest) phase a) (hx.audit hlt) ha
    exact (count_of_proceed hr h).trans (by simp)
  · next hji => exact count_of_proceed (hx.alone hj hji) h

/-- A pass that is begun tilts nothing. -/
theorem enter_tilts {chain : List Nat} {phase : Phase} {access : Access} {w w' : World}
    {o : Outcome Pass} (hw : w.Audited x) (hch : w.Has chain)
    (hx : w.Private x i → chain.count x ≤ 1) (h : enter call chain phase access w = (o, w')) :
    (auditing x i 0).Holds w o.ending w' ∧
      ∀ p, o = .done p → w'.Uncut p ∧ w.tickets < p.access.ticket := by
  have hb : w.Apart x (w.begin chain phase access) := World.apart_begin chain phase access hw.sound
  have hbk : (auditing x i (w.tickets + 1)).Holds w .done (w.begin chain phase access) :=
    hb.holds hw
  have hf : w.Unnamed (w.tickets + 1) := fun {name p} hp he =>
    Nat.not_succ_le_self w.tickets (Nat.le_trans (Nat.le_of_eq he.symm) (hw.visited hp).1.begun)
  change proceed call ⟨phase, { access with ticket := w.tickets + 1 }, [], none⟩ chain
    (w.begin chain phase access) = (o, w') at h
  obtain ⟨hk, hd⟩ := proceed_tilts hc (i := i)
    (p := ⟨phase, { access with ticket := w.tickets + 1 }, [], none⟩) hbk.1
    (fun _ h => by cases h) (hch.mono hb.grows.aspects) rfl ⟨Nat.succ_pos _, Nat.le_refl _⟩ hf
    (fun hp => hx (hp.of_tilts hbk.2)) h
  have hwk := hbk.done_trans hw hk
  refine ⟨⟨hwk.1, hwk.2.disown (Nat.lt_succ_self _)⟩, fun p hp => ?_⟩
  subst hp
  have hu : (w.begin chain phase access).Uncut p := by
    constructor
    · rw [access_of_proceed h]
      exact Nat.succ_pos _
    · rw [access_of_proceed h]
      exact Nat.le_refl _
    · intro xs phase ha
      rw [access_of_proceed h] at ha
      exact Nat.not_succ_le_self _ (hw.begun ((List.mem_cons.mp ha).resolve_left nofun))
  exact ⟨hu.mono (hd rfl).2 (Nat.ne_of_gt hu.pos), by
    rw [access_of_proceed h]
    exact Nat.lt_succ_self _⟩

end Calls

end Engine

end GuardedStore
