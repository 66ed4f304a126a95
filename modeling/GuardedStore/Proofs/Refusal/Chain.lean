import GuardedStore.Proofs.Audit.Law
import GuardedStore.Proofs.Exclusion.Holding
import GuardedStore.Proofs.Run.Plain

/-!
Ways through a chain that no script hangs on.

Audits and locks run no scripts. So a pass through audits and a lock behind them is made at one go:
it is admitted if the lock is free and refused if it is held, whoever holds it, and leaving it never
panics.
-/
namespace GuardedStore

/-- Whether the aspect runs no scripts. -/
def Aspect.scriptless {σ : Type} : Aspect σ → Bool
  | .probe _ => false
  | _ => true

theorem Aspect.scriptless_form {σ : Type} (a : Aspect σ) : a.form.scriptless = a.scriptless := by
  cases a <;> rfl

namespace World

variable {u v w w' : World} {x : Nat}

/-- Somebody went through guards, who changed within their forms and left these marks. -/
structure Walked (w : World) (marks : List Happening) (w' : World) : Prop where
  items : w'.items = w.items
  domains : w'.domains = w.domains
  stores : w'.stores = w.stores
  unwinding : w'.unwinding = w.unwinding
  held : w'.held = w.held
  names : w'.names = w.names
  next : w'.aspects.next = w.aspects.next
  forms : w.SameForms w'
  tickets : w.tickets ≤ w'.tickets
  history : w'.history = marks ++ w.history

namespace Walked

variable {marks marks' : List Happening}

theorem refl (w : World) : w.Walked [] w :=
  ⟨rfl, rfl, rfl, rfl, rfl, rfl, rfl, .refl w, Nat.le_refl _, rfl⟩

theorem item (h : w.Walked marks w') (i : Nat) : w'.item i = w.item i := by
  rw [World.item, World.item, h.items]

theorem guarding (h : w.Walked marks w') (hm : ∀ y ∈ marks, y.ofGuards) : w.Guarding w' :=
  .of_names h.names h.items h.next h.domains h.stores h.tickets h.unwinding
    ⟨marks, hm, h.history⟩ h.held

theorem grows (h : w.Walked marks w') : w.Grows w' where
  items := Nat.le_of_eq (by rw [h.items])
  aspects := Nat.le_of_eq h.next.symm
  domains := Nat.le_of_eq (by rw [h.domains])
  stores := Nat.le_of_eq (by rw [h.stores])
  tickets := h.tickets
  history := ⟨marks, h.history.symm⟩
  descriptor _ := by rw [h.item]
  chain _ := by rw [h.item]
  id _ := by rw [store, store, h.stores]
  kind _ := by rw [domain, domain, h.domains]

theorem trans (h : u.Walked marks v) (h' : v.Walked marks' w) :
    u.Walked (marks' ++ marks) w where
  items := h'.items.trans h.items
  domains := h'.domains.trans h.domains
  stores := h'.stores.trans h.stores
  unwinding := h'.unwinding.trans h.unwinding
  held := h'.held.trans h.held
  names := h'.names.trans h.names
  next := h'.next.trans h.next
  forms := h.forms.trans h.grows h'.forms
  tickets := Nat.le_trans h.tickets h'.tickets
  history := by rw [h'.history, h.history, List.append_assoc]

theorem mark (h : w.Walked marks w') (y : Happening) : w.Walked (y :: marks) (w'.mark y) := by
  have hy : w'.Walked [y] (w'.mark y) := { refl w' with history := rfl }
  exact h.trans hy

theorem setAspect (h : w.Walked marks w') {a : Aspect Nat} (ha : a.form = (w'.aspect x).form) :
    w.Walked marks (w'.setAspect x a) := by
  have hx : w'.Walked [] (w'.setAspect x a) := { refl w' with
    next := rfl
    forms := sameForms_setAspect ha }
  exact h.trans hx

theorem begin (w : World) (chain : List Nat) (phase : Phase) (access : Access) :
    w.Walked [.began chain phase { access with ticket := w.tickets + 1 }]
      (w.begin chain phase access) :=
  { refl w with
    tickets := Nat.le_succ _
    history := rfl }

end Walked

/-- Audits, and behind them a lock that waits no longer than some time. -/
structure Fences (w : World) (audits : List Nat) (x : Nat) : Prop where
  audits : ∀ y ∈ audits, (w.aspect y).isAudit
  lock : ∃ l n, w.aspect x = .lock l ∧ l.patience = .milliseconds n

theorem Fences.not_mem {audits : List Nat} (h : w.Fences audits x) : x ∉ audits := by
  intro hx
  obtain ⟨l, n, hl, -⟩ := h.lock
  have ha := h.audits x hx
  rw [hl] at ha
  cases ha

end World

namespace Engine

variable {call : Nat → Engine Unit} {w : World} {x : Nat}

theorem ask_of_isAudit (hx : (w.aspect x).isAudit) (phase : Phase) (a : Access) :
    ask call x phase a w = (.done true, w.mark (.admitted x phase a true)) := by
  cases hb : w.aspect x with
  | audit b =>
    unfold ask answer
    rw [bind_apply, bind_apply]
    dsimp only [get]
    rw [hb]
    rfl
  | _ => simp [hb, Aspect.isAudit] at hx

/-- Audits admit whoever comes. -/
theorem proceed_audits {rest audits : List Nat} : ∀ {p : Pass} {w : World},
    (∀ y ∈ audits, (w.aspect y).isAudit) → ∃ v,
      proceed call p (audits ++ rest) w =
        proceed call { p with entered := audits.reverse ++ p.entered } rest v ∧
      w.Walked (audits.reverse.map (.admitted · p.phase p.access true)) v ∧
      v.aspects = w.aspects ∧ v.tickets = w.tickets := by
  induction audits with
  | nil => exact fun _ => ⟨_, rfl, .refl _, rfl, rfl⟩
  | cons y audits ih =>
    intro p w hy
    obtain ⟨v, hv, hk, ha, ht⟩ := @ih { p with entered := y :: p.entered }
      (w.mark (.admitted y p.phase p.access true)) fun z hz => hy z (List.mem_cons_of_mem y hz)
    refine ⟨v, ?_, ?_, ha, ht⟩
    · rw [List.cons_append, proceed, bind_apply, onUnwind,
        ask_of_isAudit (hy y List.mem_cons_self)]
      simpa using hv
    · simpa using ((World.Walked.refl w).mark _).trans hk

/-- A pass through fences is admitted when the lock is free. -/
theorem enter_free {audits : List Nat} (hf : w.Fences audits x) (hh : w.holder x = none)
    (phase : Phase) (access : Access) : ∃ v,
      enter call (audits ++ [x]) phase access w =
        (.done ⟨phase, { access with ticket := w.tickets + 1 }, x :: audits.reverse, none⟩, v) ∧
      v.tickets = w.tickets + 1 ∧ w.Walked
        ((x :: audits.reverse).map
            (.admitted · phase { access with ticket := w.tickets + 1 } true) ++
          [.began (audits ++ [x]) phase { access with ticket := w.tickets + 1 }]) v := by
  obtain ⟨l, n, hl, hn⟩ := hf.lock
  obtain ⟨v, hv, hk, ha, ht⟩ := @proceed_audits call [x] audits
    ⟨phase, { access with ticket := w.tickets + 1 }, [], none⟩
    (w.begin (audits ++ [x]) phase access) hf.audits
  have hx : v.aspect x = .lock l := by
    rw [World.aspect, ha]
    exact hl
  have hfree : l.holder = none := by
    rw [World.holder, hl] at hh
    exact hh
  refine ⟨v.markAspect x (.lock { l with holder := some (w.tickets + 1) })
    (.admitted x phase { access with ticket := w.tickets + 1 } true), ?_, ?_, ?_⟩
  · change proceed call _ (audits ++ [x]) (w.begin (audits ++ [x]) phase access) = _
    rw [hv, proceed, bind_apply, onUnwind, ask_free hx hfree]
    simp [proceed]
  · exact ht
  · exact (((World.Walked.begin w _ _ _).trans hk).setAspect (by rw [hx]; rfl)).mark _

/-- It is refused when the lock is held. -/
theorem enter_held {audits : List Nat} (hf : w.Fences audits x) {t : Nat}
    (hh : w.holder x = some t) (phase : Phase) (access : Access) : ∃ v n,
      enter call (audits ++ [x]) phase access w =
        (.done ⟨phase, { access with ticket := w.tickets + 1 }, audits.reverse, some x⟩, v) ∧
      v.tickets = w.tickets + 1 ∧ w.Walked
        (.admitted x phase { access with ticket := w.tickets + 1 } false ::
          .notice (.lockTimedOut access.descriptor phase n) ::
            (audits.reverse.map (.admitted · phase { access with ticket := w.tickets + 1 } true) ++
              [.began (audits ++ [x]) phase { access with ticket := w.tickets + 1 }])) v := by
  obtain ⟨l, n, hl, hn⟩ := hf.lock
  obtain ⟨v, hv, hk, ha, ht⟩ := @proceed_audits call [x] audits
    ⟨phase, { access with ticket := w.tickets + 1 }, [], none⟩
    (w.begin (audits ++ [x]) phase access) hf.audits
  have hx : v.aspect x = .lock l := by
    rw [World.aspect, ha]
    exact hl
  have hheld : l.holder = some t := by
    rw [World.holder, hl] at hh
    exact hh
  refine ⟨((v.setAspect x (.lock { l with timeouts := l.timeouts + 1 })).mark
    (.notice (.lockTimedOut access.descriptor phase l.patience.inMilliseconds))).mark
      (.admitted x phase { access with ticket := w.tickets + 1 } false), l.patience.inMilliseconds,
    ?_, ?_, ?_⟩
  · change proceed call _ (audits ++ [x]) (w.begin (audits ++ [x]) phase access) = _
    rw [hv, proceed, bind_apply, onUnwind, ask_held hx hheld hn]
    simp
  · exact ht
  · exact ((((World.Walked.begin w _ _ _).trans hk).setAspect (by rw [hx]; rfl)).mark _).mark _

theorem settle_scriptless (hx : (w.aspect x).scriptless) (phase : Phase) (a : Access)
    (permitted : Bool) : ∃ v notes, settle call x phase a permitted w = (.done (), v) ∧
      w.Walked notes v ∧ ∀ y ∈ notes, y.ofAspect := by
  unfold settle
  rw [bind_apply]
  dsimp only [get]
  cases hb : w.aspect x with
  | audit b =>
    have hk := ((World.Walked.refl w).setAspect (x := x) (a := .audit (b.count phase permitted))
      (by rw [hb]; rfl)).mark (.notice (.audited phase a.descriptor permitted))
    exact ⟨_, _, rfl, hk, by simp [Happening.ofAspect, Notice.ofGuards]⟩
  | lock l =>
    dsimp only
    cases hl : l.release? a.ticket with
    | some k =>
      obtain ⟨-, rfl⟩ := Lock.release?_some hl
      have hk := (World.Walked.refl w).setAspect (x := x) (a := .lock { l with holder := none })
        (by rw [hb]; rfl)
      exact ⟨_, _, rfl, hk, by simp⟩
    | none =>
      have hk := (World.Walked.refl w).mark (.notice (.releaseIgnored a.descriptor a.ticket))
      exact ⟨_, _, rfl, hk, by simp [Happening.ofAspect, Notice.ofGuards]⟩
  | validation v => exact ⟨_, _, rfl, .refl w, by simp⟩
  | plain name => exact ⟨_, _, rfl, .refl w, by simp⟩
  | probe p => simp [hb, Aspect.scriptless] at hx

/-- Aspects that run no scripts are told at one go. -/
theorem tellAll_scriptless {p : Pass} {xs : List Nat} : ∀ {w : World},
    (∀ x ∈ xs, x < w.aspects.next ∧ (w.aspect x).scriptless) → ∃ v marks,
      tellAll call p xs w = (.done (), v) ∧ w.Walked marks v ∧ ∀ y ∈ marks,
        y.ofAspect ∨ ∃ x ∈ xs, y = .told x p.phase p.access p.permitted := by
  induction xs with
  | nil => exact fun {w} _ => ⟨w, [], rfl, .refl w, by simp⟩
  | cons x xs ih =>
    intro w hx
    have hw := (World.Walked.refl w).mark (.told x p.phase p.access p.permitted)
    obtain ⟨u, notes, hu, hk, hn⟩ := @settle_scriptless call
      (w.mark (.told x p.phase p.access p.permitted)) x (hx x List.mem_cons_self).2 p.phase
      p.access p.permitted
    have hwu := hw.trans hk
    obtain ⟨v, marks, hv, hk', hm⟩ := @ih u fun z hz => by
      obtain ⟨hlt, hs⟩ := hx z (List.mem_cons_of_mem x hz)
      refine ⟨hwu.next ▸ hlt, ?_⟩
      rw [← Aspect.scriptless_form, hwu.forms z hlt, Aspect.scriptless_form, hs]
    have ht : tell call x p.phase p.access p.permitted w = (.done (), u) := hu
    refine ⟨v, _, ?_, hwu.trans hk', ?_⟩
    · rw [tellAll, bind_of_done ht, hv]
    · intro y hy
      simp only [List.mem_append, List.mem_singleton] at hy
      grind

/-- So a pass that only such aspects admitted is left at one go. -/
theorem leave_scriptless {p : Pass}
    (hp : ∀ x ∈ p.entered, x < w.aspects.next ∧ (w.aspect x).scriptless) : ∃ v marks,
      leave call p w = (.done (), v) ∧ w.Walked (.left p.access true :: marks) v ∧
        ∀ y ∈ marks, y.ofAspect ∨ ∃ x ∈ p.entered, y = .told x p.phase p.access p.permitted := by
  obtain ⟨v, marks, hv, hk, hm⟩ := @tellAll_scriptless call p p.entered w hp
  refine ⟨_, marks, ?_, hk.mark (.left p.access true), hm⟩
  have hu : onUnwind (tellAll call p p.entered) (record (.left p.access false)) w =
      (.done (), v) := by
    rw [onUnwind, hv]
  rw [leave, bind_of_done hu]
  rfl

end Engine

end GuardedStore
