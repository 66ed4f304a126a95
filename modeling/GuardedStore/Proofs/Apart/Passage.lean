import GuardedStore.Proofs.Apart.Tracks

/-!
Ways through chains of the side.

The aspects of a twin chain give the same answers in the same order, and their twins are left in the
same state. The scripts of probes are followed, whatever it is that runs them.
-/
namespace GuardedStore

variable {c : Side} {lone : Bool} {t : Twins}

theorem Aspect.Twin.name {a' a : Aspect Nat} (h : a'.Twin t a) : a'.name = a.name := by
  cases h with
  | probe h => exact h.name
  | _ => rfl

theorem Validation.verdict_congr (v : Validation) (flags : String → Bool) (phase : Phase)
    {a' a : Access} (h : a'.value = a.value) :
    v.verdict flags phase a' = v.verdict flags phase a := by
  unfold verdict Access.cast?
  rw [h]

theorem Lock.Twin.release? {n m : Nat} (hlinks : Links t.tickets n m) {l' l : Lock}
    (h : l'.Twin t l) {i j : Nat} (hij : t.tickets i j) :
    Option.Rel (Lock.Twin t) (l'.release? i) (l.release? j) := by
  unfold Lock.release?
  have hiff : l'.holder = some i ↔ l.holder = some j := by
    obtain ⟨hk, hl⟩ | ⟨k, l, hk, hl, hkl⟩ := rel_cases h.holder
    · simp [hk, hl]
    · simpa [hk, hl] using hlinks.iff hkl hij
  split
  · next hi =>
    rw [if_pos (hiff.mp hi)]
    exact .some { h with holder := .none }
  · next hi =>
    rw [if_neg (mt hiff.mpr hi)]
    exact .none

namespace World.Alike

variable {u' u : World} (h : u'.Alike c lone t u)

include h

theorem flag : u'.flag = u.flag := by
  funext name
  unfold World.flag
  rw [h.names.flags]

theorem aspectNames {chain' chain : List Nat} (hchain : List.Forall₂ t.aspects chain' chain) :
    u'.aspectNames chain' = u.aspectNames chain := by
  unfold World.aspectNames
  induction hchain with
  | nil => rfl
  | cons ha _ ih => rw [List.map_cons, List.map_cons, ih, (h.aspects ha).name]

theorem vetoedBy {p' p : Pass} (hp : p'.Twin t p) : u'.vetoedBy p' = u.vetoedBy p := by
  unfold World.vetoedBy
  obtain ⟨hx, hy⟩ | ⟨x, y, hx, hy, hxy⟩ := rel_cases hp.refusedBy
  · rw [hx, hy]
    rfl
  · rw [hx, hy, Option.map_some, Option.map_some, (h.aspects hxy).name]

end World.Alike

theorem Pass.Twin.permitted {p' p : Pass} (h : p'.Twin t p) : p'.permitted = p.permitted := by
  unfold Pass.permitted
  rw [← Option.not_isSome, ← Option.not_isSome, rel_isSome h.refusedBy]

namespace Engine

variable {call : Nat → Engine Unit}

/-- Routines that stand for one another do the same. -/
def Follows (c : Side) (lone : Bool) (call : Nat → Engine Unit) : Prop :=
  ∀ t i j, t.routines i j → Tracks c lone t (call i) (call j) Twins.Any

variable (follows : Follows c lone call)

include follows

theorem tracks_callAny {r' r : Option Nat} (hr : Option.Rel t.routines r' r) :
    Tracks c lone t (callAny call r') (callAny call r) Twins.Any := by
  cases hr with
  | none => exact tracks_unit
  | some hr =>
    refine tracks_get_bind fun s u' u hs hu => ?_
    rw [hu.muted]
    split
    · exact tracks_unit
    · exact follows s _ _ (hs.2.2.1 hr)

theorem tracks_probeHook {p' p : Probe Nat} (hp : p'.Twin t p) (hook : Hook)
    (permitted : Option Bool) (a' a : Access) :
    Tracks c lone t (probeHook call p' hook permitted a') (probeHook call p hook permitted a)
      Twins.Any := by
  unfold probeHook
  have last := tracks_callAny follows (hp.script hook)
  rw [hp.quiet]
  dsimp only
  split
  · exact last
  · exact (tracks_report (fun _ => rfl) fun _ => rfl).seq fun _ _ => last

section Asking

variable {i j : Nat} (hij : t.aspects i j) {a' a : Access} (ha : a'.Twin t a)

include hij ha

/-- An aspect of the side answers the same in both worlds. -/
theorem tracks_answer (phase : Phase) :
    Tracks c lone t (answer call i phase a') (answer call j phase a) Twins.Same := by
  refine tracks_get_bind fun s u' u hs hu => ?_
  have hij := hs.2.1 hij
  have ha := ha.mono hs
  have set {x' x : Aspect Nat} (hx : x'.Twin s x) (n' n : Notice) (b : Bool) :
      Tracks c lone s (do setAspect i x'; notice n'; return b)
        (do setAspect j x; notice n; return b) Twins.Same :=
    (tracks_setAspect hij hx).seq fun _ _ => tracks_notice.seq fun _ _ => tracks_pure fun _ _ => rfl
  have hx := hu.aspects hij
  generalize u'.aspect i = x', u.aspect j = x at hx
  cases hx with
  | audit _ => exact tracks_pure fun _ _ => rfl
  | plain _ => exact tracks_pure fun _ _ => rfl
  | @lock l' l hl =>
    obtain ⟨patience', holder', timeouts'⟩ := l'
    obtain ⟨patience, holder, timeouts⟩ := l
    obtain ⟨hp, hholder, ht⟩ := hl
    dsimp only at hp hholder ht
    subst hp ht
    cases hholder with
    | none =>
      have taken : Lock.Twin s ⟨patience', some a'.ticket, timeouts'⟩
          ⟨patience', some a.ticket, timeouts'⟩ := ⟨rfl, .some ha.ticket, rfl⟩
      exact (tracks_setAspect hij (.lock taken)).seq fun _ _ => tracks_pure fun _ _ => rfl
    | @some k' k hh =>
      cases patience' with
      | milliseconds n =>
        have refused : Lock.Twin s ⟨.milliseconds n, some k', timeouts' + 1⟩
            ⟨.milliseconds n, some k, timeouts' + 1⟩ := ⟨rfl, .some hh, rfl⟩
        exact set (.lock refused) _ _ false
      | unlimited => exact tracks_wait
  | validation v =>
    dsimp only
    rw [hu.flag, v.verdict_congr _ _ ha.value]
    split
    · exact tracks_pure fun _ _ => rfl
    · exact set (.validation _) _ _ false
    · exact set (.validation _) _ _ false
  | @probe p' p hp =>
    have hasked : (p'.asked phase).Twin s (p.asked phase) := by
      cases phase
      · exact { hp with readsAsked := congrArg (· + 1) hp.readsAsked }
      · exact { hp with writesAsked := congrArg (· + 1) hp.writesAsked }
    have hadmits : p'.admits phase = p.admits phase := by
      unfold Probe.admits
      rw [hp.reads, hp.readsAsked, hp.writes, hp.writesAsked]
    exact (tracks_setAspect hij (.probe hasked)).seq fun _ _ =>
      (tracks_probeHook follows hp _ _ _ _).seq fun _ _ => tracks_pure fun _ _ => hadmits

theorem tracks_ask (phase : Phase) :
    Tracks c lone t (ask call i phase a') (ask call j phase a) Twins.Same :=
  (tracks_answer follows hij ha phase).bind fun _ _ _ _ hb =>
    (tracks_record (fun _ => rfl) fun _ => rfl).seq fun _ _ => tracks_pure fun _ _ => hb

theorem tracks_settle (phase : Phase) (permitted : Bool) :
    Tracks c lone t (settle call i phase a' permitted) (settle call j phase a permitted)
      Twins.Any := by
  refine tracks_get_bind fun s u' u hs hu => ?_
  have hij := hs.2.1 hij
  have hx := hu.aspects hij
  generalize u'.aspect i = x', u.aspect j = x at hx
  cases hx with
  | audit x => exact (tracks_setAspect hij (.audit _)).seq fun _ _ => tracks_notice
  | lock hl =>
    dsimp only
    obtain ⟨hk, hl⟩ | ⟨_, _, hk, hl, hkl⟩ :=
      rel_cases (hl.release? hu.ticketLinks (hs.2.2.2 ha.ticket))
    · rw [hk, hl]
      exact tracks_notice
    · rw [hk, hl]
      exact tracks_setAspect hij (.lock hkl)
  | validation _ => exact tracks_unit
  | plain _ => exact tracks_unit
  | probe hp => exact tracks_probeHook follows hp _ _ _ _

theorem tracks_tell (phase : Phase) (permitted : Bool) :
    Tracks c lone t (tell call i phase a' permitted) (tell call j phase a permitted) Twins.Any :=
  (tracks_record (fun _ => rfl) fun _ => rfl).seq fun _ _ =>
    tracks_settle follows hij ha phase permitted

end Asking

theorem tracks_tellAll {p' p : Pass} (hp : p'.Twin t p) {l' l : List Nat}
    (hl : List.Forall₂ t.aspects l' l) :
    Tracks c lone t (tellAll call p' l') (tellAll call p l) Twins.Any := by
  induction hl with
  | nil => exact tracks_unit
  | cons ha _ ih =>
    unfold tellAll
    rw [hp.phase, hp.permitted]
    exact (tracks_tell follows ha hp.access _ _).seq fun _ _ => ih

theorem tracks_leave {p' p : Pass} (hp : p'.Twin t p) :
    Tracks c lone t (leave call p') (leave call p) Twins.Any :=
  (tracks_tellAll follows hp hp.entered).onUnwind.seq fun _ _ =>
    tracks_record (fun _ => rfl) fun _ => rfl

/-- The rest of a chain admits or refuses a pass in both worlds. -/
theorem tracks_proceed {p' p : Pass} (hp : p'.Twin t p) {l' l : List Nat}
    (hl : List.Forall₂ t.aspects l' l) :
    Tracks c lone t (proceed call p' l') (proceed call p l) fun s q' q => q'.Twin s q := by
  induction l generalizing t p' p l' with
  | nil =>
    cases hl
    exact tracks_pure fun s hs => hp.mono hs
  | cons j l ih =>
    cases hl with
    | @cons i _ l' _ hij hl =>
      unfold proceed
      have asked : Tracks c lone t (ask call i p'.phase p'.access) (ask call j p.phase p.access)
          Twins.Same := by
        rw [hp.phase]
        exact tracks_ask follows hij hp.access p.phase
      refine asked.onUnwind.bind fun s b' b hs hb => ?_
      rw [show b' = b from hb]
      have hp := hp.mono hs
      have admitted : Pass.Twin s { p' with entered := i :: p'.entered }
          { p with entered := j :: p.entered } :=
        { hp with entered := .cons (hs.2.1 hij) hp.entered }
      have refused : Pass.Twin s { p' with refusedBy := some i } { p with refusedBy := some j } :=
        { hp with refusedBy := .some (hs.2.1 hij) }
      split
      · exact ih admitted (chain_mono hs hl)
      · exact tracks_pure fun r hr => refused.mono hr

theorem tracks_enter {chain' chain : List Nat} (hchain : List.Forall₂ t.aspects chain' chain)
    (phase : Phase) {a' a : Access} (hd : a'.descriptor = a.descriptor) (hv : a'.value = a.value) :
    Tracks c lone t (enter call chain' phase a') (enter call chain phase a)
      fun s p' p => p'.Twin s p := by
  refine tracks_newTicket.bind fun s i j hs hij => ?_
  have begun : Pass.Twin s ⟨phase, { a' with ticket := i }, [], none⟩
      ⟨phase, { a with ticket := j }, [], none⟩ := ⟨rfl, ⟨hd, hv, hij⟩, .nil, .none⟩
  exact (tracks_record (fun _ => rfl) fun _ => rfl).seq fun _ _ =>
    tracks_proceed follows begun (chain_mono hs hchain)

end Engine

end GuardedStore
