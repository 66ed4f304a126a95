import GuardedStore.Proofs.Passes.Pairing
import Mathlib.Logic.Relation

/-!
Passes in any order.

A crowd is a world in which any number of passes are under way at the same time. A move is one call
of a hook by one of the passes, or anything that is done beside them: hooks called outside any
chain, and whole steps of a scenario. Every move is made of the computations that `Engine.enter` and
`Engine.leave` are made of, so these are moves in a row; but other moves may come in between. A
waiting pass is one that does not move.

However the moves are put in order, each pass has a record of its own, as it would have alone.
-/
namespace GuardedStore

/-- How far a pass has come. -/
inductive Stage where
  /-- Some aspects may have to be asked yet. -/
  | asking (ahead : List Nat)
  /-- The pass is ending, and some aspects have to be told so yet. -/
  | telling (untold : List Nat)
  deriving DecidableEq

/-- A pass under way. -/
structure Transit where
  pass : Pass
  stage : Stage
  deriving DecidableEq

namespace Transit

def ticket (tr : Transit) : Nat :=
  tr.pass.access.ticket

/-- The pass after its next aspect `x` was asked. A panic out of that ends the pass. -/
def answered (p : Pass) (x : Nat) (ahead : List Nat) : Outcome Bool → Transit
  | .done true => ⟨{ p with entered := x :: p.entered }, .asking ahead⟩
  | .done false => ⟨{ p with refusedBy := some x }, .asking []⟩
  | _ => ⟨p, .telling p.entered⟩

/-- The world after an aspect of the pass was asked. A panic out of that cuts the pass short. -/
def noted (p : Pass) : Outcome Bool → World → World
  | .panicked _, w => w.mark (.abandoned p.entered p.phase p.access)
  | _, w => w

@[simp] theorem ticket_answered (p : Pass) (x : Nat) (ahead : List Nat) (o : Outcome Bool) :
    (answered p x ahead o).ticket = p.access.ticket := by
  rcases o with (_ | _) | _ | _ <;> rfl

end Transit

structure Crowd where
  world : World
  transits : List Transit := []

/-- A pass is added that has just begun in the world `w`. -/
def Crowd.join (chain : List Nat) (phase : Phase) (access : Access) (c : Crowd) : Crowd where
  world := c.world.begin chain phase access
  transits := c.transits ++
    [⟨⟨phase, { access with ticket := c.world.tickets + 1 }, [], none⟩, .asking chain⟩]

inductive Crowd.Moves (call : Nat → Engine Unit) : Crowd → Crowd → Prop where
  /-- It is another's turn, for whom a panic may be on its way out. -/
  | turn {w ts} (unwinding : Bool) : Moves call ⟨w, ts⟩ ⟨{ w with unwinding }, ts⟩
  | step {w w' ts s o} : Performing.answer call s w = (o, w') → o.ending ≠ .stuck →
      Moves call ⟨w, ts⟩ ⟨w', ts⟩
  /-- A hook is called outside any chain. -/
  | ask {w w' ts x phase access o} : x < w.aspects.next → access.ticket = 0 →
      Engine.ask call x phase access w = (o, w') → o.ending ≠ .stuck → Moves call ⟨w, ts⟩ ⟨w', ts⟩
  | tell {w w' ts x phase access permitted o} : access.ticket = 0 →
      Engine.tell call x phase access permitted w = (o, w') → o.ending ≠ .stuck →
      Moves call ⟨w, ts⟩ ⟨w', ts⟩
  | begin {c} (chain phase access) : c.world.Has chain → Moves call c (c.join chain phase access)
  /-- The next aspect of a pass is asked. -/
  | passAsk {w w' before after p x ahead o} :
      Engine.ask call x p.phase p.access w = (o, w') → o.ending ≠ .stuck →
      Moves call ⟨w, before ++ ⟨p, .asking (x :: ahead)⟩ :: after⟩
        ⟨Transit.noted p o w', before ++ Transit.answered p x ahead o :: after⟩
  /-- A pass of which nobody is left to be asked begins to end. -/
  | passLeave {w before after p} : Moves call ⟨w, before ++ ⟨p, .asking []⟩ :: after⟩
      ⟨w, before ++ ⟨p, .telling p.entered⟩ :: after⟩
  | passTell {w w' before after p x untold} :
      Engine.tell call x p.phase p.access p.permitted w = (.done (), w') →
      Moves call ⟨w, before ++ ⟨p, .telling (x :: untold)⟩ :: after⟩
        ⟨w', before ++ ⟨p, .telling untold⟩ :: after⟩
  /-- A panic out of an aspect that is told leaves the others untold. -/
  | passCut {w w' before after p x untold text} :
      Engine.tell call x p.phase p.access p.permitted w = (.panicked text, w') →
      Moves call ⟨w, before ++ ⟨p, .telling (x :: untold)⟩ :: after⟩
        ⟨w'.mark (.left p.access false), before ++ after⟩
  | passOver {w before after p} : Moves call ⟨w, before ++ ⟨p, .telling []⟩ :: after⟩
      ⟨w.mark (.left p.access true), before ++ after⟩

namespace World

/-- The record of a pass under way says how far the pass has come. -/
inductive Fits (w : World) : Transit → Prop where
  | asking {r ahead} : w.Taking r → r.Waiting → w.Has ahead →
      (r.refusedBy = none → r.entered.reverse ++ ahead = r.chain) →
      (r.refusedBy ≠ none → ahead = []) → Fits w ⟨r.pass, .asking ahead⟩
  | telling {r untold} : w.Taking r → r.left = none → r.told ++ untold = r.entered →
      r.Whole ∨ r.abandoned → Fits w ⟨r.pass, .telling untold⟩

variable {w w' : World} {tr : Transit}

theorem Fits.taking (h : w.Fits tr) : ∃ r, w.Taking r ∧ r.pass = tr.pass := by
  cases h with
  | asking h => exact ⟨_, h, rfl⟩
  | telling h => exact ⟨_, h, rfl⟩

/-- Whatever is done for another pass, this one stays as it was. -/
theorem Fits.beside {own : Nat} {e : Ending} (h : w.Fits tr) (hne : tr.ticket ≠ own)
    (h' : (passes own).Holds w e w') : w'.Fits tr := by
  cases h with
  | asking htk hr has hch hn =>
    exact .asking (htk.beside hne h') hr (has.mono h'.2.grows.aspects) hch hn
  | telling htk hl ht hwh =>
    exact .telling (htk.beside hne h') hl ht hwh

end World

namespace Crowd

/-- Each pass under way is as its record says, and there are no others but those held open. -/
structure Tidy (c : Crowd) : Prop where
  orderly : c.world.Orderly
  fits : ∀ tr ∈ c.transits, c.world.Fits tr
  distinct : (c.transits.map Transit.ticket).Nodup
  accounted : ∀ {t}, 1 ≤ t → t ≤ c.world.tickets →
    c.world.Open t ∨ c.world.Over t ∨ t ∈ c.transits.map Transit.ticket

/-- The second crowd comes after the first in the course of a run. -/
structure Leads (c c' : Crowd) : Prop where
  tidy : c'.Tidy
  proceeds : ∃ own e, c.world.Proceeds own e c'.world

variable {w w' : World} {before after ts : List Transit} {tr tr' : Transit} {e : Ending}

/-- Something is done beside the passes under way. -/
theorem Tidy.aside (h : Tidy ⟨w, ts⟩) (h' : (passes 0).Holds w e w') (he : e ≠ .stuck) :
    Leads ⟨w, ts⟩ ⟨w', ts⟩ where
  tidy := {
    orderly := h'.1
    fits := fun tr hm => by
      obtain ⟨r, htk, hp⟩ := (h.fits tr hm).taking
      refine (h.fits tr hm).beside ?_ h'
      rw [Transit.ticket, ← hp]
      exact Nat.ne_of_gt htk.shows.pos
    distinct := h.distinct
    accounted := fun {t} h1 ht => by
      rcases Nat.lt_or_ge w.tickets t with hlt | hle
      · exact or_assoc.mp (.inl (h'.2.closed he h1 ht (by omega) (.inl hlt)))
      · rcases or_assoc.mpr (h.accounted h1 hle) with hc | hm
        · exact or_assoc.mp (.inl (h'.2.closed he h1 ht (by omega) (.inr hc)))
        · exact .inr (.inr hm) }
  proceeds := ⟨0, e, h'.2⟩

/-- The other passes stay as they were. -/
theorem Tidy.others (h : Tidy ⟨w, before ++ tr :: after⟩) (h' : (passes tr.ticket).Holds w e w') :
    ∀ x ∈ before ++ after, w'.Fits x := by
  have hd := h.distinct
  simp only [List.map_append, List.map_cons, List.nodup_append, List.nodup_cons] at hd
  intro x hx
  refine (h.fits x (by grind)).beside (fun hxt => ?_) h'
  rcases List.mem_append.mp hx with hx | hx
  · exact hd.2.2 _ (List.mem_map_of_mem hx) _ List.mem_cons_self hxt
  · exact hd.2.1.1 (hxt ▸ List.mem_map_of_mem hx)

theorem Tidy.others_accounted (h : Tidy ⟨w, before ++ tr :: after⟩)
    (h' : (passes tr.ticket).Holds w e w') (he : e ≠ .stuck) {t : Nat} (h1 : 1 ≤ t)
    (ht : t ≤ w'.tickets) (hne : t ≠ tr.ticket) :
    (w'.Open t ∨ w'.Over t) ∨ t ∈ (before ++ after).map Transit.ticket := by
  rcases Nat.lt_or_ge w.tickets t with hlt | hle
  · exact .inl (h'.2.closed he h1 ht hne (.inl hlt))
  · rcases or_assoc.mpr (h.accounted h1 hle) with hc | hm
    · exact .inl (h'.2.closed he h1 ht hne (.inr hc))
    · refine .inr ?_
      simp only [List.map_append, List.map_cons, List.mem_append, List.mem_cons] at hm ⊢
      exact hm.imp_right fun hm => hm.resolve_left hne

/-- A pass under way goes on. -/
theorem Tidy.move (h : Tidy ⟨w, before ++ tr :: after⟩) (h' : (passes tr.ticket).Holds w e w')
    (he : e ≠ .stuck) (ht : tr'.ticket = tr.ticket) (hf : w'.Fits tr') :
    Leads ⟨w, before ++ tr :: after⟩ ⟨w', before ++ tr' :: after⟩ where
  tidy := {
    orderly := h'.1
    fits := fun x hx => by
      rcases List.mem_append.mp hx with hm | hm
      · exact h.others h' x (List.mem_append_left _ hm)
      · rcases List.mem_cons.mp hm with rfl | hm
        · exact hf
        · exact h.others h' x (List.mem_append_right _ hm)
    distinct := by simpa [ht] using h.distinct
    accounted := fun {t} h1 hle => by
      by_cases hto : t = tr.ticket
      · exact .inr (.inr (by simp [hto, ht]))
      · refine or_assoc.mp ((h.others_accounted h' he h1 hle hto).imp_right fun hm => ?_)
        simp only [List.map_append, List.map_cons, List.mem_append, List.mem_cons] at hm ⊢
        exact hm.imp_right .inr }
  proceeds := ⟨tr.ticket, e, h'.2⟩

/-- A pass under way ends. -/
theorem Tidy.finish (h : Tidy ⟨w, before ++ tr :: after⟩) (h' : (passes tr.ticket).Holds w e w')
    (he : e ≠ .stuck) (ho : w'.Over tr.ticket) :
    Leads ⟨w, before ++ tr :: after⟩ ⟨w', before ++ after⟩ where
  tidy := {
    orderly := h'.1
    fits := h.others h'
    distinct := h.distinct.sublist (by simp)
    accounted := fun {t} h1 hle => by
      by_cases hto : t = tr.ticket
      · exact .inr (.inl (hto ▸ ho))
      · exact or_assoc.mp (h.others_accounted h' he h1 hle hto) }
  proceeds := ⟨tr.ticket, e, h'.2⟩

theorem Tidy.join {c : Crowd} (h : c.Tidy) {chain : List Nat} (hch : c.world.Has chain)
    (phase : Phase) (access : Access) : c.Leads (c.join chain phase access) := by
  have hb := @World.begin_proceeds chain phase access c.world h.orderly
  have hf : (c.world.begin chain phase access).Fits
      ⟨⟨phase, { access with ticket := c.world.tickets + 1 }, [], none⟩, .asking chain⟩ :=
    .asking (World.begin_taking h.orderly) ⟨rfl, rfl, rfl, rfl⟩ hch (fun _ => rfl)
      (fun hn => absurd rfl hn)
  have hlt {x : Transit} (hx : x ∈ c.transits) : x.ticket ≤ c.world.tickets := by
    obtain ⟨r, htk, hp⟩ := (h.fits x hx).taking
    rw [Transit.ticket, ← hp]
    exact htk.shows.begun
  refine ⟨?_, _, _, hb.2⟩
  constructor
  · exact hb.1
  · intro x hx
    rcases List.mem_append.mp hx with hx | hx
    · exact (h.fits x hx).beside (by have := hlt hx; omega) hb
    · rw [List.mem_singleton.mp hx]
      exact hf
  · simp only [Crowd.join, List.map_append, List.nodup_append]
    refine ⟨h.distinct, by simp, ?_⟩
    simp only [List.mem_map, List.map_cons, List.map_nil, List.mem_singleton]
    rintro _ ⟨x, hx, rfl⟩ _ rfl hxt
    have := hlt hx
    rw [hxt] at this
    exact Nat.not_succ_le_self _ this
  · intro t h1 ht
    have ht : t ≤ c.world.tickets + 1 := ht
    rcases Nat.lt_or_ge c.world.tickets t with hlt | hle
    · have : t = c.world.tickets + 1 := by omega
      exact .inr (.inr (by simp [Crowd.join, Transit.ticket, this]))
    · rcases h.accounted h1 hle with hc | hc | hm
      · exact .inl hc
      · exact .inr (.inl (hc.mono hb.2.grows))
      · exact .inr (.inr (by simp only [Crowd.join, List.map_append, List.mem_append, hm, true_or]))

theorem tidy_empty : Tidy ⟨{}, []⟩ where
  orderly := World.orderly_empty
  fits _ h := by cases h
  distinct := List.nodup_nil
  accounted h1 ht := absurd ht (Nat.not_le_of_gt h1)

variable {call : Nat → Engine Unit} (hc : ∀ r, (call r).Keeps (GuardedStore.passes 0))

include hc

theorem Tidy.answered {p : Pass} {x : Nat} {ahead : List Nat} {o : Outcome Bool}
    (h : Tidy ⟨w, before ++ ⟨p, .asking (x :: ahead)⟩ :: after⟩)
    (ha : Engine.ask call x p.phase p.access w = (o, w')) (ho : o.ending ≠ .stuck) :
    Leads ⟨w, before ++ ⟨p, .asking (x :: ahead)⟩ :: after⟩
      ⟨Transit.noted p o w', before ++ Transit.answered p x ahead o :: after⟩ := by
  rcases h.fits ⟨p, .asking (x :: ahead)⟩ (by simp) with @⟨r, _, htk, hr, has, hch, hn⟩
  have hnone : r.refusedBy = none :=
    Decidable.byContradiction fun hne => List.cons_ne_nil _ _ (hn hne)
  have hx : r.entered.reverse ++ [x] <+: r.chain := ⟨ahead, by rw [← hch hnone]; simp⟩
  rcases Engine.ask_cases hc htk.orderly (has x (by simp)) (fun _ => htk.not_heard hr.told x) ha with
    ⟨b, u, rfl, hu, hm⟩ | ⟨hne, hv⟩
  · obtain ⟨htk', hk⟩ := Engine.asked_spec (htk.frame hu) hr hnone hx hm
    have hwv := hu.weaken.done_trans htk.orderly hk
    refine h.move hwv (by simp) (Transit.ticket_answered ..) ?_
    cases b with
    | true =>
      exact .asking (r := { r with entered := x :: r.entered }) htk'
        ⟨hr.abandoned, hr.stored, hr.told, hr.left⟩ (has.tail.mono hwv.2.grows.aspects)
        (fun _ => by simp [← hch hnone]) fun hne => absurd hnone hne
    | false =>
      exact .asking (r := { r with refusedBy := some x }) htk'
        ⟨hr.abandoned, hr.stored, hr.told, hr.left⟩ (fun _ h => by cases h) (fun h => by cases h)
        fun _ => rfl
  · cases o with
    | done b => exact absurd rfl hne
    | stuck => exact absurd rfl ho
    | panicked text =>
      obtain ⟨newer, text', hh, hm⟩ := hv.2.raised rfl
      obtain ⟨htk', hk⟩ := Engine.abandoned_spec (htk.frame hv) hr hnone hx
        ⟨text', hh ▸ List.mem_append_left _ hm⟩
      exact h.move (hv.weaken.trans htk.orderly nofun hk) nofun (Transit.ticket_answered ..)
        (.telling (r := { r with abandoned := true }) htk' hr.left (by rw [hr.told]; rfl)
          (.inr rfl))

theorem Tidy.told {p : Pass} {x : Nat} {untold : List Nat} {o : Outcome Unit}
    (h : Tidy ⟨w, before ++ ⟨p, .telling (x :: untold)⟩ :: after⟩)
    (ht : Engine.tell call x p.phase p.access p.permitted w = (o, w')) :
    (o = .done () → Leads ⟨w, before ++ ⟨p, .telling (x :: untold)⟩ :: after⟩
      ⟨w', before ++ ⟨p, .telling untold⟩ :: after⟩) ∧
    ∀ text, o = .panicked text → Leads ⟨w, before ++ ⟨p, .telling (x :: untold)⟩ :: after⟩
      ⟨w'.mark (.left p.access false), before ++ after⟩ := by
  rcases h.fits ⟨p, .telling (x :: untold)⟩ (by simp) with _ | @⟨r, _, htk, hl, hr, hwh⟩
  have hx : r.told ++ [x] <+: r.entered := ⟨untold, by rw [← hr]; simp⟩
  obtain ⟨hk, htk', hp⟩ := Engine.tell_spec hc htk hl hx hwh ht
  constructor
  · rintro rfl
    exact h.move hk nofun rfl (.telling (r := { r with told := r.told ++ [x] }) htk' hl
      (by simp [← hr]) hwh)
  · rintro text rfl
    obtain ⟨later, text', earlier, hh, hm⟩ := hp rfl
    obtain ⟨hlast, hk'⟩ := Engine.left_spec false htk' hl hwh nofun fun _ =>
      ⟨by simp, later, x, r.phase, _, text', earlier, hh, hm⟩
    have hover := Engine.over_of_taking hlast rfl
    exact h.finish (hk.trans htk.orderly nofun hk') nofun hover

omit hc in
theorem Tidy.ended {p : Pass} (h : Tidy ⟨w, before ++ ⟨p, .telling []⟩ :: after⟩) :
    Leads ⟨w, before ++ ⟨p, .telling []⟩ :: after⟩
      ⟨w.mark (.left p.access true), before ++ after⟩ := by
  rcases h.fits ⟨p, .telling []⟩ (by simp) with _ | @⟨r, _, htk, hl, hr, hwh⟩
  rw [List.append_nil] at hr
  obtain ⟨hlast, hk⟩ := Engine.left_spec true htk hl hwh (fun _ => hr) nofun
  have hover := Engine.over_of_taking hlast rfl
  exact h.finish hk nofun hover

omit hc in
theorem Tidy.leaving {p : Pass} (h : Tidy ⟨w, before ++ ⟨p, .asking []⟩ :: after⟩) :
    Leads ⟨w, before ++ ⟨p, .asking []⟩ :: after⟩
      ⟨w, before ++ ⟨p, .telling p.entered⟩ :: after⟩ := by
  rcases h.fits ⟨p, .asking []⟩ (by simp) with @⟨r, _, htk, hr, has, hch, hn⟩ | _
  exact h.move ⟨htk.orderly, .refl⟩ nofun rfl (.telling htk hr.left (by rw [hr.told]; rfl)
    (.inl fun hnone => by rw [← hch hnone, List.append_nil]))

/-- Whichever move comes next, all stays tidy. -/
theorem Tidy.leads {c c' : Crowd} (h : c.Tidy) (hm : Moves call c c') : c.Leads c' := by
  cases hm with
  | turn b =>
    exact h.aside ((World.beside_unwinding b h.orderly.sound).holds 0 h.orderly) nofun
  | step ha ho =>
    exact h.aside ((Performing.answer_keeps (passes_admits hc) _ _).holds h.orderly ha) ho
  | ask hx ht ha ho => exact h.aside ((Engine.ask_outside hc hx ht).holds h.orderly ha) ho
  | tell ht ha ho => exact h.aside ((Engine.tell_outside hc ht).holds h.orderly ha) ho
  | begin chain phase access hch => exact h.join hch phase access
  | passAsk ha ho => exact h.answered hc ha ho
  | passLeave => exact h.leaving
  | passTell ht => exact (h.told hc ht).1 rfl
  | passCut ht => exact (h.told hc ht).2 _ rfl
  | passOver => exact h.ended

end Crowd

end GuardedStore
