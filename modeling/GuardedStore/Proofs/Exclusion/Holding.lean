import GuardedStore.Proofs.Exclusion.Crowd

/-!
Mutual exclusion among passes in any order.

A pass is inside a lock from when the lock admitted it until the lock is told that the pass is over.
Custody says of every world in order that a pass holds just the locks it is inside of. A crowd stays
in order whichever way its passes move, so no two passes are ever inside one lock, and a lock held
by a pass changes hands only when it is told about that pass.
-/
namespace GuardedStore

namespace World

/-- The pass with this ticket was admitted by the lock, which was not told yet that it is over. -/
def Inside (w : World) (x ticket : Nat) : Prop :=
  Took x ticket w.history ∧ ¬ Heard x ticket w.history

variable {w w' : World} {x t : Nat} {l : Lock}

theorem Orderly.inside_iff (hw : w.Orderly) (hx : w.aspect x = .lock l) (h1 : 1 ≤ t) :
    l.holder = some t ↔ w.Inside x t :=
  hw.custody hx h1

/-- A lock stays with its holder while it is not told that the holder's pass is over. -/
theorem Orderly.holder_or_heard (hw : w.Orderly) (hw' : w'.Orderly) (hg : w.Grows w')
    (hl : (w'.aspect x).isLock) (hx : w.aspect x = .lock l) (h1 : 1 ≤ t)
    (hh : l.holder = some t) : w'.holder x = some t ∨ Heard x t w'.history := by
  by_cases ht : Heard x t w'.history
  · exact .inr ht
  · obtain ⟨newer, hn⟩ := hg.history
    have htook : Took x t w'.history := hn ▸ ((hw.custody hx h1).mp hh).1.mono
    cases hx' : w'.aspect x with
    | lock l' => exact .inl (holder_eq_some.mpr ⟨l', hx', (hw'.custody hx' h1).mpr ⟨htook, ht⟩⟩)
    | _ => simp [hx', Aspect.isLock] at hl

/-- A lock that nobody is inside of is free, if nobody took it outside a pass. -/
theorem Orderly.free_iff (hw : w.Orderly) (hx : w.aspect x = .lock l)
    (h0 : ¬ Took x 0 w.history) : l.holder = none ↔ ∀ t, 1 ≤ t → ¬ w.Inside x t := by
  constructor
  · intro hf t h1 hi
    rw [← hw.inside_iff hx h1, hf] at hi
    cases hi
  · intro h
    cases hh : l.holder with
    | none => rfl
    | some t =>
      rcases Nat.eq_zero_or_pos t with rfl | h1
      · exact absurd (hw.taken hx hh) h0
      · exact absurd ((hw.inside_iff hx h1).mp hh) (h t h1)

/-- Whoever is inside a lock is not over, unless a panic came out of telling an aspect. -/
theorem Orderly.not_over_of_inside (hw : w.Orderly) (hp : ¬ Panicked w.history) (h1 : 1 ≤ t)
    (hi : w.Inside x t) : ¬ w.Over t := by
  intro ho
  obtain ⟨phase, a, rfl, hm⟩ := hi.1
  obtain ⟨r, hr, hrt, hm⟩ := hw.shown hm rfl h1
  have htold := (hr.pairs hw hp).ended (hrt ▸ ho)
  rw [List.reverse_reverse] at htold
  refine hi.2 (hrt ▸ hr.heard.mpr ?_)
  rw [htold]
  exact (PassRecord.admitted_mem.mp hm).1

end World

namespace Engine

variable {call : Nat → Engine Unit}

/-- A free lock is taken by whoever asks. -/
theorem ask_free {w : World} {x : Nat} {l : Lock} (hx : w.aspect x = .lock l)
    (hf : l.holder = none) (phase : Phase) (a : Access) :
    ask call x phase a w = (.done true,
      w.markAspect x (.lock { l with holder := some a.ticket }) (.admitted x phase a true)) := by
  unfold ask answer
  rw [bind_apply, bind_apply]
  dsimp only [get]
  rw [hx]
  simp only [Lock.acquire, hf]
  rfl

/-- A held lock refuses whoever asks once its patience is over. -/
theorem ask_held {w : World} {x t : Nat} {l : Lock} {n : UInt64} (hx : w.aspect x = .lock l)
    (hh : l.holder = some t) (hp : l.patience = .milliseconds n) (phase : Phase) (a : Access) :
    ask call x phase a w = (.done false,
      ((w.setAspect x (.lock { l with timeouts := l.timeouts + 1 })).mark
        (.notice (.lockTimedOut a.descriptor phase l.patience.inMilliseconds))).mark
          (.admitted x phase a false)) := by
  unfold ask answer
  rw [bind_apply, bind_apply]
  dsimp only [get]
  rw [hx]
  simp only [Lock.acquire, hh, hp]
  rfl

end Engine

namespace Crowd

variable {call : Nat → Engine Unit}

/-- Moves in a row. -/
def Reaches (call : Nat → Engine Unit) : Crowd → Crowd → Prop :=
  Relation.ReflTransGen (Moves call)

section Runs

variable {w w' : World} {before after ts : List Transit}

theorem tellAll_reaches {p : Pass} {untold : List Nat} : ∀ {w w' : World} {o : Outcome Unit},
    o.ending ≠ .stuck →
    Engine.onUnwind (Engine.tellAll call p untold) (Engine.record (.left p.access false)) w =
      (o, w') →
    (o = .done () → Reaches call ⟨w, before ++ ⟨p, .telling untold⟩ :: after⟩
      ⟨w', before ++ ⟨p, .telling []⟩ :: after⟩) ∧
    ∀ text, o = .panicked text → Reaches call ⟨w, before ++ ⟨p, .telling untold⟩ :: after⟩
      ⟨w', before ++ after⟩ := by
  induction untold with
  | nil =>
    intro w w' o _ h
    cases h
    exact ⟨fun _ => .refl, by rintro _ ⟨⟩⟩
  | cons x untold ih =>
    intro w w' o ho h
    unfold Engine.onUnwind Engine.tellAll at h
    rw [Engine.bind_apply] at h
    rcases hx : Engine.tell call x p.phase p.access p.permitted w with ⟨_ | text | _, u⟩ <;>
      rw [hx] at h
    · obtain ⟨hd, hp⟩ := ih ho h
      exact ⟨fun he => .head (.passTell hx) (hd he), fun text he => .head (.passTell hx) (hp text he)⟩
    · cases h
      exact ⟨by rintro ⟨⟩, fun _ _ => .single (.passCut hx)⟩
    · cases h
      exact absurd rfl ho

/-- To leave a pass is to make the moves of telling everyone. -/
theorem leave_reaches {p : Pass} {o : Outcome Unit} (ho : o.ending ≠ .stuck)
    (h : Engine.leave call p w = (o, w')) :
    Reaches call ⟨w, before ++ ⟨p, .telling p.entered⟩ :: after⟩ ⟨w', before ++ after⟩ := by
  unfold Engine.leave at h
  rw [Engine.bind_apply] at h
  rcases hu : Engine.onUnwind (Engine.tellAll call p p.entered)
    (Engine.record (.left p.access false)) w with ⟨_ | text | _, u⟩ <;> rw [hu] at h <;> cases h
  · exact .tail ((tellAll_reaches (by simp) hu).1 rfl) .passOver
  · exact (tellAll_reaches (by simp) hu).2 _ rfl
  · exact absurd rfl ho

/-- To abandon a pass is to enter that it is cut short and to make the moves of leaving it. -/
theorem abandon_reaches {p : Pass} {o : Outcome Unit} (ho : o.ending ≠ .stuck)
    (h : Engine.abandon call p w = (o, w')) :
    Reaches call ⟨w.mark (.abandoned p.entered p.phase p.access),
      before ++ ⟨p, .telling p.entered⟩ :: after⟩ ⟨w', before ++ after⟩ :=
  leave_reaches ho h

/-- To take a pass on through its chain is to make the moves of asking everyone, and if a panic
comes out of that, those of leaving the pass. -/
theorem proceed_reaches {rest : List Nat} : ∀ {p : Pass} {w w' : World} {o : Outcome Pass},
    o.ending ≠ .stuck → Engine.proceed call p rest w = (o, w') →
    (∀ p', o = .done p' → Reaches call ⟨w, before ++ ⟨p, .asking rest⟩ :: after⟩
      ⟨w', before ++ ⟨p', .asking []⟩ :: after⟩) ∧
    ∀ text, o = .panicked text → Reaches call ⟨w, before ++ ⟨p, .asking rest⟩ :: after⟩
      ⟨w', before ++ after⟩ := by
  induction rest with
  | nil =>
    intro p w w' o _ h
    cases h
    exact ⟨by rintro _ ⟨⟩; exact .refl, by rintro _ ⟨⟩⟩
  | cons x rest ih =>
    intro p w w' o ho h
    unfold Engine.proceed at h
    rw [Engine.bind_apply] at h
    unfold Engine.onUnwind at h
    rcases hx : Engine.ask call x p.phase p.access w with ⟨b | text | _, u⟩ <;> rw [hx] at h
    · have hmove : Moves call ⟨w, before ++ ⟨p, .asking (x :: rest)⟩ :: after⟩
          ⟨u, before ++ Transit.answered p x rest (.done b) :: after⟩ := .passAsk hx (by simp)
      cases b with
      | true =>
        obtain ⟨hd, hp⟩ := ih ho h
        exact ⟨fun p' he => .head hmove (hd p' he), fun text he => .head hmove (hp text he)⟩
      | false =>
        cases h
        exact ⟨by rintro _ ⟨⟩; exact .single hmove, by rintro _ ⟨⟩⟩
    · have hmove : Moves call ⟨w, before ++ ⟨p, .asking (x :: rest)⟩ :: after⟩
          ⟨u.mark (.abandoned p.entered p.phase p.access),
            before ++ ⟨p, .telling p.entered⟩ :: after⟩ := .passAsk hx (by simp)
      dsimp only at h
      rcases hl : Engine.abandon call p u with ⟨_ | _ | _, v⟩ <;> rw [hl] at h <;> cases h
      · exact ⟨by simp, fun _ _ => .head hmove (abandon_reaches (by simp) hl)⟩
      · exact ⟨by simp, fun _ _ => .head hmove (abandon_reaches (by simp) hl)⟩
      · exact absurd rfl ho
    · cases h
      exact absurd rfl ho

/-- To enter a chain is to begin a pass and to make the moves of asking everyone. -/
theorem enter_reaches {chain : List Nat} {phase : Phase} {access : Access} {p : Pass}
    (hch : w.Has chain) (h : Engine.enter call chain phase access w = (.done p, w')) :
    Reaches call ⟨w, ts⟩ ⟨w', ts ++ [⟨p, .asking []⟩]⟩ :=
  .head (.begin chain phase access hch) ((proceed_reaches (by simp) h).1 p rfl)

end Runs

/-- A pass that has not moved has told nobody in the meantime. -/
theorem told_of_fits {w w' : World} {tr : Transit} (h : w.Fits tr) (h' : w'.Fits tr) :
    ∃ r r', w.Shows r ∧ w'.Shows r' ∧ r.pass = tr.pass ∧ r'.pass = tr.pass ∧ r'.told = r.told := by
  cases h with
  | @asking r _ htk hr =>
    generalize hq : r.pass = q at h'
    cases h' with
    | @asking r' _ htk' hr' =>
      exact ⟨r, r', htk.shows, htk'.shows, hq, rfl, hr'.told.trans hr.told.symm⟩
  | @telling r untold htk _ hr =>
    generalize hq : r.pass = q at h'
    cases h' with
    | @telling r' _ htk' _ hr' =>
      have he : r'.entered = r.entered := (congrArg Pass.entered hq).symm
      exact ⟨r, r', htk.shows, htk'.shows, hq, rfl, by
        rw [← hr, ← hr'] at he
        exact List.append_cancel_right he⟩

/-- A pass that has not moved still holds what it held. -/
theorem Tidy.holder_of_still {c c' : Crowd} (h : c.Tidy) (h' : c'.Tidy) {x : Nat} {l : Lock}
    (hx : c.world.aspect x = .lock l) (hl : (c'.world.aspect x).isLock) {tr : Transit}
    (hm : tr ∈ c.transits) (hm' : tr ∈ c'.transits) (hh : l.holder = some tr.ticket) :
    c'.world.holder x = some tr.ticket := by
  obtain ⟨r, r', hr, hr', hp, hp', ht⟩ := told_of_fits (h.fits tr hm) (h'.fits tr hm')
  have hrt : r.access.ticket = tr.ticket := congrArg (·.access.ticket) hp
  have hrt' : r'.access.ticket = tr.ticket := congrArg (·.access.ticket) hp'
  have he : r'.entered = r.entered := (congrArg Pass.entered (hp'.trans hp.symm))
  have hi := (h.orderly.holder_iff hr (x := x)).mp (World.holder_eq_some.mpr ⟨l, hx, hrt ▸ hh⟩)
  rw [← hrt', h'.orderly.holder_iff hr', he, ht]
  exact ⟨hl, hi.2⟩

end Crowd

namespace Scenario

theorem callWithin_keeps_passes (depth : Nat) : ∀ r, (callWithin depth r).Keeps (passes 0) := by
  rw [← callUntil_never]
  exact callUntil_keeps (fun _ hc => passes_admits hc) _ depth

theorem tidy_of_reaches {depth : Nat} {c : Crowd}
    (h : Crowd.Reaches (callWithin depth) ⟨{}, []⟩ c) : c.Tidy := by
  induction h with
  | refl => exact Crowd.tidy_empty
  | tail _ hm ih => exact (ih.leads (callWithin_keeps_passes depth) hm).tidy

/-- However passes and hooks called outside passes come in between one another: a lock has at most
one pass inside; only being told about that pass takes the lock from it, whatever else moves; asking
a held lock leaves its holder alone and counts one more timeout; and without panics, and if nobody
takes the lock outside a pass, the lock is free just while no pass is inside. -/
theorem locks_exclude_passes (depth : Nat) {c : Crowd}
    (h : Crowd.Reaches (callWithin depth) ⟨{}, []⟩ c) {x : Nat} {l : Lock}
    (hx : c.world.aspect x = .lock l) :
    (∀ t t', 1 ≤ t → 1 ≤ t' → c.world.Inside x t → c.world.Inside x t' → t = t') ∧
    (∀ t, 1 ≤ t → l.holder = some t → ∀ c', Crowd.Moves (callWithin depth) c c' →
      (c'.world.holder x = some t ∨ Heard x t c'.world.history) ∧
      ∀ tr ∈ c.transits, tr.ticket = t → tr ∈ c'.transits → c'.world.holder x = some t) ∧
    (∀ n phase a, l.patience = .milliseconds n →
      ∃ w', Engine.ask (callWithin depth) x phase a c.world = (.done l.holder.isNone, w') ∧
        w'.aspect x = .lock (if l.holder.isNone then { l with holder := some a.ticket }
          else { l with timeouts := l.timeouts + 1 }) ∧
        ∀ z, z ≠ x → w'.aspect z = c.world.aspect z) ∧
    (¬ Panicked c.world.history → ¬ Took x 0 c.world.history →
      (l.holder = none ↔ ∀ t, 1 ≤ t → ¬ c.world.Inside x t) ∧
      ∀ t, 1 ≤ t → c.world.Inside x t →
        c.world.Open t ∨ ∃ tr ∈ c.transits, tr.ticket = t) := by
  have hc := tidy_of_reaches h
  have hw := hc.orderly
  refine ⟨fun t t' h1 h1' hi hi' => ?_, fun t h1 hh c' hm => ?_, fun n phase a hp => ?_,
    fun hp h0 => ⟨hw.free_iff hx h0, fun t h1 hi => ?_⟩⟩
  · rw [← hw.inside_iff hx h1] at hi
    rw [← hw.inside_iff hx h1', hi] at hi'
    exact Option.some.inj hi'
  · obtain ⟨hc', own, e, hpr⟩ := hc.leads (callWithin_keeps_passes depth) hm
    have hl : (c'.world.aspect x).isLock := by
      obtain ⟨phase, a, -, ha⟩ := hw.taken hx hh
      rw [hpr.isLock (hw.asked ha), hx]
      rfl
    refine ⟨hw.holder_or_heard hc'.orderly hpr.grows hl hx h1 hh, ?_⟩
    rintro tr ht rfl ht'
    exact hc.holder_of_still hc' hx hl ht ht' hh
  · cases hh : l.holder with
    | none =>
      refine ⟨_, Engine.ask_free hx hh phase a, ?_, fun z hz => ?_⟩
      · rw [World.aspect_markAspect, if_pos rfl]
        rfl
      · rw [World.aspect_markAspect, if_neg hz]
    | some t =>
      refine ⟨_, Engine.ask_held hx hh hp phase a, ?_, fun z hz => ?_⟩
      · refine (World.aspect_setAspect ..).trans ?_
        rw [if_pos rfl, hh]
        rfl
      · exact (World.aspect_setAspect ..).trans (if_neg hz)
  · obtain ⟨phase, a, rfl, hm⟩ := id hi.1
    obtain ⟨r, hr, hrt, -⟩ := hw.shown hm rfl h1
    rcases hc.accounted h1 (hrt ▸ hr.begun) with ho | ho | hm
    · exact .inl ho
    · exact absurd ho (hw.not_over_of_inside hp h1 hi)
    · obtain ⟨tr, htr, ht⟩ := List.mem_map.mp hm
      exact .inr ⟨tr, htr, ht⟩

/-- A world with one lock. -/
def lockWorld : World :=
  (Performing.answer (callWithin maxDepth) (.aspect "l" (.lock (.milliseconds 1))) {}).2

/-- Two passes through chains that share the lock have begun, and one of them was admitted. -/
def contested : Crowd :=
  let begun := (Crowd.join [0] .write default
    (Crowd.join [0, 0] .read default { world := lockWorld }))
  let first : Pass := ⟨.read, { (default : Access) with ticket := 1 }, [], none⟩
  let second : Pass := ⟨.write, { (default : Access) with ticket := 2 }, [], none⟩
  let asked := Engine.ask (callWithin maxDepth) 0 first.phase first.access begun.world
  ⟨asked.2, [Transit.answered first 0 [0] asked.1, ⟨second, .asking [0]⟩]⟩

theorem contested_reached : Crowd.Reaches (callWithin maxDepth) ⟨{}, []⟩ contested := by
  refine .head (.step (s := .aspect "l" (.lock (.milliseconds 1))) rfl (by simp)) ?_
  have has (n : Nat) (x : Nat) (hx : x ∈ List.replicate n 0) : x < 1 := by
    rw [List.eq_of_mem_replicate hx]
    exact Nat.one_pos
  refine .head (.begin [0, 0] .read default (has 2)) ?_
  refine .head (.begin [0] .write default (has 1)) ?_
  exact .single (@Crowd.Moves.passAsk _ _ _ [] _ _ _ _ _ rfl (by decide))

/-- The pass that was admitted first is inside, and the lock refuses the other. -/
theorem contested_excludes :
    contested.world.holder 0 = some 1 ∧
    ∃ w', Engine.ask (callWithin maxDepth) 0 .write { (default : Access) with ticket := 2 }
      contested.world = (.done false, w') ∧ w'.holder 0 = some 1 := by
  have hx : contested.world.aspect 0 =
      .lock { patience := .milliseconds 1, holder := some 1 } := rfl
  refine ⟨rfl, ?_⟩
  obtain ⟨w', ha, hl, -⟩ := (locks_exclude_passes maxDepth contested_reached hx).2.2.1 1 .write
    { (default : Access) with ticket := 2 } rfl
  exact ⟨w', ha, World.holder_eq_some.mpr ⟨_, hl, rfl⟩⟩

end Scenario

end GuardedStore
