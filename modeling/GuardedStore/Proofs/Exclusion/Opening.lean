import GuardedStore.Proofs.Exclusion.Keeper

/-!
Who can open a lock.

A lock goes by tickets. The accesses of passes have tickets of their own, so a lock that a pass took
is opened for the pass alone, whoever else calls its hooks. Accesses that never entered a chain
share the ticket 0: to a lock they are one and the same, and each of them opens it for any other.
-/
namespace GuardedStore

namespace World

/-- A hook may be called for the access: it is outside any chain, or that of a pass. -/
def Presents (w : World) (a : Access) : Prop :=
  a.ticket = 0 ∨ ∃ chain phase, .began chain phase a ∈ w.history

variable {w : World} {x : Nat} {a b : Access}

/-- The ticket of a pass tells its access from any other that aspects are told of. -/
theorem Orderly.eq_of_ticket {phase : Phase} (hw : w.Orderly)
    (ha : .admitted x phase a true ∈ w.history) (h1 : a.ticket ≠ 0) (ht : b.ticket = a.ticket)
    (hb : (∃ chain phase, .began chain phase b ∈ w.history) ∨
      ∃ phase permitted, .told x phase b permitted ∈ w.history) : b = a := by
  obtain ⟨r, hr, -, hm⟩ := hw.shown ha rfl (Nat.pos_of_ne_zero h1)
  obtain ⟨-, -, rfl⟩ := PassRecord.admitted_mem.mp hm
  rcases hb with ⟨chain, phase, hb⟩ | ⟨phase, permitted, hb⟩
  · exact (PassRecord.began_mem.mp ((hr.mem (by rw [Happening.ticket?, ht])).mp hb)).2.2
  · exact (PassRecord.told_mem.mp ((hr.mem (by rw [Happening.ticket?, ht])).mp hb)).2.2.1

theorem kept_empty : Kept {} where
  sound := sound_empty
  asked h := by cases h
  kept h := by cases h

end World

namespace Crowd

variable {call : Nat → Engine Unit} {c c' : Crowd}

/-- Whichever move comes next, every lock stays with its keeper. -/
theorem Tidy.keepsLocks (hc : ∀ r, (call r).Keeps keepers) (h : c.Tidy) (hk : c.world.Kept)
    (hm : Moves call c c') : c'.world.Kept ∧ c.world.KeepsLocks c'.world := by
  have mark {w w' : World} {e : Ending} {y : Happening} (hw : w.Kept)
      (h : keepers.Holds w e w') (he : e ≠ .stuck) (hy : y.keepless) :
      keepers.Holds w (e.andThen .done) (w'.mark y) :=
    h.trans hw he ((World.sparesLocks_mark hy h.1.sound).holds h.1)
  cases hm with
  | turn b => exact (World.beside_unwinding b hk.sound).sparesLocks.holds hk
  | step ha ho => exact (Performing.answer_keeps (keepers_admits hc) _ _).holds hk ha
  | ask hx _ ha ho => exact (Engine.ask_keepers hc hx _ _).holds hk ha
  | tell _ ha ho => exact (Engine.tell_keepers hc _ _ _).holds hk ha
  | begin chain phase access hch =>
    exact (Engine.keepers_guides hc).begin chain phase access hch hk
  | @passAsk w w' before after p x ahead o ha ho =>
    have hx : x < w.aspects.next := by
      rcases h.fits ⟨p, .asking (x :: ahead)⟩ (by simp) with @⟨r, _, _, _, has, _, _⟩
      exact has x List.mem_cons_self
    have hw' := (Engine.ask_keepers hc hx p.phase p.access).holds hk ha
    cases o with
    | panicked text => exact mark hk hw' (by simp) rfl
    | done b => exact hw'
    | stuck => exact hw'
  | passLeave => exact ⟨hk, .refl _⟩
  | passTell ht => exact (Engine.tell_keepers hc _ _ _).holds hk ht
  | passCut ht => exact mark hk ((Engine.tell_keepers hc _ _ _).holds hk ht) (by simp) rfl
  | passOver => exact (World.sparesLocks_mark rfl hk.sound).holds hk

end Crowd

namespace Scenario

theorem callWithin_keeps_keepers (depth : Nat) : ∀ r, (callWithin depth r).Keeps keepers := by
  rw [← callUntil_never]
  exact callUntil_keeps (fun _ hc => keepers_admits hc) _ depth

theorem kept_of_reaches {depth : Nat} {c c' : Crowd} (hc : c.Tidy) (hk : c.world.Kept)
    (h : Crowd.Reaches (callWithin depth) c c') :
    c'.Tidy ∧ c'.world.Kept ∧ c.world.KeepsLocks c'.world := by
  induction h with
  | refl => exact ⟨hc, hk, .refl _⟩
  | tail _ hm ih =>
    obtain ⟨ht, hk', hr⟩ := ih
    have hm' := ht.keepsLocks (callWithin_keeps_keepers depth) hk' hm
    exact ⟨(ht.leads (callWithin_keeps_passes depth) hm).tidy, hm'.1, hr.trans hk hm'.2⟩

/-- At every moment, whichever way passes and hooks called outside of passes come in between one
another, a lock has the ticket of its keeper, and stays with the keeper until it is told of an
access with that ticket. If that is the ticket of a pass, no hook that may be called for another
access opens the lock, now or later; if it is not, each hook for an access outside any chain does. -/
theorem opened_by_keeper_iff (depth : Nat) {c : Crowd}
    (h : Crowd.Reaches (callWithin depth) ⟨{}, []⟩ c) {x : Nat} {l : Lock}
    (hx : c.world.aspect x = .lock l) :
    l.holder = (keeper x c.world.history).map Access.ticket ∧
    ∀ a, keeper x c.world.history = some a →
      (a.ticket ≠ 0 ↔ ∀ phase b permitted, b ≠ a → c.world.Presents b →
        ∃ w', Engine.tell (callWithin depth) x phase b permitted c.world = (.done (), w') ∧
          w'.holder x = some a.ticket) ∧
      (∀ c', Crowd.Reaches (callWithin depth) c c' →
        keeper x c'.world.history = some a ∧ c'.world.holder x = some a.ticket ∨
          ∃ newer phase b permitted, c'.world.history = newer ++ c.world.history ∧
            .told x phase b permitted ∈ newer ∧ b.ticket = a.ticket ∧ (a.ticket ≠ 0 → b = a)) ∧
      ∀ phase b permitted, b.ticket = a.ticket →
        ∃ w', Engine.tell (callWithin depth) x phase b permitted c.world = (.done (), w') ∧
          w'.holder x = none := by
  obtain ⟨hc, hk, -⟩ := kept_of_reaches Crowd.tidy_empty World.kept_empty h
  have hf := hk.kept hx
  have opens {a : Access} (ha : keeper x c.world.history = some a) (phase : Phase) (b : Access)
      (permitted : Bool) (hb : b.ticket = a.ticket) : ∃ w',
      Engine.tell (callWithin depth) x phase b permitted c.world = (.done (), w') ∧
        w'.holder x = none := by
    refine ⟨_, Engine.tell_held hx (by rw [hf, ha, hb]; rfl) phase permitted, ?_⟩
    rw [World.holder, World.aspect_markAspect, if_pos rfl]
  refine ⟨hf, fun a ha => ⟨⟨fun h1 phase b permitted hb hp => ?_, fun hs h0 => ?_⟩,
    fun c' hc' => ?_, opens ha⟩⟩
  · have hbt : b.ticket ≠ a.ticket := by
      intro hbt
      rcases hp with hp | hp
      · exact h1 (hbt ▸ hp)
      · obtain ⟨_, hm⟩ := admitted_of_keeper ha
        exact hb (hc.orderly.eq_of_ticket hm h1 hbt (.inl hp))
    have hh : l.holder = some a.ticket := by rw [hf, ha]; rfl
    refine ⟨_, Engine.tell_other hx (fun h => hbt (Option.some.inj (h.symm.trans hh))) phase
      permitted, World.holder_eq_some.mpr ⟨l, hx, hh⟩⟩
  · -- any other access outside a chain would open the lock
    let b : Access := { a with descriptor := { a.descriptor with name := a.descriptor.name ++ "!" } }
    have hb : b ≠ a := fun he => by
      have := congrArg (·.descriptor.name.length) he
      simp [b] at this
    obtain ⟨w', hw', hh⟩ := hs .write b true hb (.inl h0)
    obtain ⟨u, hu, hn⟩ := opens ha .write b true rfl
    cases hw'.symm.trans hu
    rw [hn] at hh
    cases hh
  · obtain ⟨ht', hk', hr⟩ := kept_of_reaches hc hk hc'
    have hl : (c.world.aspect x).isLock := by rw [hx]; rfl
    rcases hr.keeps hl ha with hn | ⟨newer, hn, phase, b, permitted, hb, hm⟩
    · refine .inl ⟨hn, ?_⟩
      have hl' : (c'.world.aspect x).isLock := by rw [hr.same x (hk.lt_of_keeper ha), hl]
      cases hx' : c'.world.aspect x with
      | lock k => exact World.holder_eq_some.mpr ⟨k, hx', by rw [hk'.kept hx', hn]; rfl⟩
      | _ => rw [hx'] at hl'; cases hl'
    · refine .inr ⟨newer, phase, b, permitted, hn, hm, hb, fun h1 => ?_⟩
      obtain ⟨_, ha⟩ := admitted_of_keeper ha
      exact ht'.orderly.eq_of_ticket (hr.grows.history.subset ha) h1 hb
        (.inr ⟨phase, permitted, hn ▸ List.mem_append_left _ hm⟩)

/-- The lock of `contested` stays with the pass that it admitted when a hook is called for another
access, outside any chain. -/
theorem contested_unopened :
    ∃ w', Engine.tell (callWithin maxDepth) 0 .read default true contested.world = (.done (), w') ∧
      w'.holder 0 = some 1 := by
  have hk : keeper 0 contested.world.history = some { (default : Access) with ticket := 1 } := rfl
  exact (((opened_by_keeper_iff maxDepth contested_reached (x := 0)
    (l := { patience := .milliseconds 1, holder := some 1 }) rfl).2 _ hk).1.mp
      (by decide) .read default true (by decide) (.inl rfl))

/-- An access that never entered a chain. -/
def outsider (name : String) (value : Int64) : Access where
  descriptor := { store := .given .zero, id := ⟨0, 0⟩, name, type := .int64 }
  value := .int64 value
  ticket := 0

/-- A lock is taken for one access outside any chain, and then told of another. -/
def outsideLock : List Step :=
  [.aspect "l" (.lock (.milliseconds 1)),
    .hook "l" .beforeWrite true { value := .int 1, descriptor := { name := "a" } },
    .hook "l" .afterRead true { value := .int 2, descriptor := { name := "b" } },
    .aspectInfo "l"]

/-- The lock that one of the accesses took is opened for the other. -/
theorem outsideLock_opened :
    let taken := reached (fun _ => false) maxDepth {} (outsideLock.take 2)
    let told := reached (fun _ => false) maxDepth {} (outsideLock.take 3)
    outsider "b" 2 ≠ outsider "a" 1 ∧
      keeper 0 taken.history = some (outsider "a" 1) ∧ taken.holder 0 = some 0 ∧
      told.history.head? = some (.told 0 .read (outsider "b" 2) true) ∧ told.holder 0 = none ∧
      (run outsideLock).map Report.answer =
        [.ok, .truth true, .ok, .aspect (.lock { patience := .milliseconds 1 })] := by
  decide +kernel

end Scenario

end GuardedStore
