import GuardedStore.Proofs.Passes.Pairing
import GuardedStore.Proofs.Refusal.Steps
import GuardedStore.Proofs.Refusal.Stock

/-!
When the accesses to an item are refused.

The lock that an item has to itself is held just as long as an access to the item is in progress. So
an access is refused if and only if it is made from within another access to the same item.
-/
namespace GuardedStore

namespace World

/-- An access to the item is in progress. -/
def Busy (w : World) (i : Nat) : Prop :=
  ∃ phase a, .began (w.item i).chain phase a ∈ w.history ∧ ¬ w.Over a.ticket

/-- Guards have left their marks, and every access in progress still is: nobody has refused it, and
it holds its item's lock. -/
structure Unnoticed (w v : World) : Prop where
  guarding : w.Guarding v
  ongoing : ∀ j < w.items.next, w.Stocked j → ∀ phase a,
    .began (w.item j).chain phase a ∈ w.history → ¬ w.Over a.ticket →
      ¬ v.Over a.ticket ∧ (∀ z, .admitted z phase a false ∉ v.history) ∧
        ∃ x ∈ (w.item j).chain, v.holder x = some a.ticket

variable {w v : World} {i x t : Nat} {audits : List Nat}

section Holder

variable (ho : w.Orderly) (hu : w.Unshared x i) (hs : w.Sole x i)
  (hc : (w.item i).chain = audits ++ [x]) (hf : w.Fences audits x)

include ho hu hs hc hf

/-- An access in progress has been admitted by the lock and holds it. -/
theorem holder_of_ongoing {phase : Phase} {a : Access}
    (hb : .began (w.item i).chain phase a ∈ w.history) (hn : ¬ w.Over a.ticket) :
    w.holder x = some a.ticket := by
  obtain ⟨l, n, hl, -⟩ := hf.lock
  have hin := ((hu.attended hs).course hb (by simp [hc])).resolve_left hn
  exact holder_eq_some.mpr ⟨l, hl, (ho.inside_iff hl (ho.pos_of_began hb)).mpr hin⟩

/-- Whoever holds the lock is an access in progress. -/
theorem ongoing_of_holder (hh : w.holder x = some t) :
    ∃ phase a, .began (w.item i).chain phase a ∈ w.history ∧ a.ticket = t ∧ ¬ w.Over t := by
  obtain ⟨l, hl, hh'⟩ := holder_eq_some.mp hh
  obtain ⟨phase, a, rfl, ha⟩ := ho.taken hl hh'
  obtain ⟨r, hr, hrt, ha⟩ := ho.shown ha rfl ((hu.attended hs).asked ha)
  rw [← hrt] at hh ⊢
  obtain ⟨-, he, ht⟩ := (ho.holder_iff hr).mp hh
  have hb : .began r.chain r.phase r.access ∈ w.history :=
    (hr.mem rfl).mpr (PassRecord.began_mem.mpr ⟨rfl, rfl, rfl⟩)
  have hpre : r.entered.reverse <+: r.chain :=
    (List.prefix_append _ _).trans hr.lawful.asked
  have hch := ((hu.attended hs).began hb (hpre.subset (List.mem_reverse.mpr he))).2
  refine ⟨r.phase, r.access, hch ▸ hb, rfl, fun hover => ?_⟩
  -- the lock is asked last and so is told first
  have hentered : r.entered = x :: audits.reverse := by
    rw [hch, hc, List.prefix_concat_iff] at hpre
    rcases hpre with hpre | hpre
    · rw [← List.reverse_reverse r.entered, hpre]
      simp
    · exact absurd (hpre.subset (List.mem_reverse.mpr he)) hf.not_mem
  obtain ⟨c, hleft⟩ := Option.ne_none_iff_exists'.mp (hr.over_iff.mp hover)
  cases c with
  | true => exact ht (hr.lawful.complete hleft ▸ he)
  | false =>
    have hne := hr.lawful.incomplete hleft
    have htold := hr.lawful.told
    rw [hentered] at htold
    obtain ⟨y, ys, hys⟩ := List.exists_cons_of_ne_nil hne
    rw [hys, List.cons_prefix_cons] at htold
    exact ht (by simp [hys, htold.1])

/-- The lock is held just while an access to the item is in progress. -/
theorem busy_iff_holder : w.Busy i ↔ w.holder x ≠ none := by
  constructor
  · rintro ⟨phase, a, hb, hn⟩
    rw [holder_of_ongoing ho hu hs hc hf hb hn]
    simp
  · intro hh
    obtain ⟨t, ht⟩ := Option.ne_none_iff_exists'.mp hh
    obtain ⟨phase, a, hb, rfl, hn⟩ := ongoing_of_holder ho hu hs hc hf ht
    exact ⟨phase, a, hb, hn⟩

omit hc hf in
/-- A pass that the lock has admitted is not held open. -/
theorem not_open_of_took (ht : Took x t w.history) : ¬ w.Open t := by
  rintro ⟨name, p, hp, rfl⟩
  obtain ⟨r, hr, rfl, -⟩ := ho.waiting hp
  obtain ⟨chain, hv, hch⟩ := hu.passages hp
  exact hs.unvisited hv (hch x (hr.took.mp ht))

/-- An access in progress is undisturbed by what is done meanwhile. -/
theorem ongoing_of_holds {e : Ending} (hk : (passes 0).Holds w e v) {phase : Phase} {a : Access}
    (hb : .began (w.item i).chain phase a ∈ w.history) (hn : ¬ w.Over a.ticket) :
    ¬ v.Over a.ticket ∧ (∀ z, .admitted z phase a false ∉ v.history) ∧
      v.holder x = some a.ticket := by
  have hv : v.Orderly := hk.1
  have h1 := ho.pos_of_began hb
  have hin := ((hu.attended hs).course hb (by simp [hc])).resolve_left hn
  obtain ⟨r, hr, hrc, rfl, rfl⟩ := ho.shown_began hb
  -- what happens meanwhile happens under other tickets
  have hframe := (hk.2.frame h1 hr.begun (Nat.ne_of_gt h1)
    (not_open_of_took ho hu hs hin.1)).1
  have old {y : Happening} (hy : y ∈ v.history) (ht : y.ticket? = some r.access.ticket) :
      y ∈ w.history := by
    have hm := mem_ofTicket.mpr ⟨hy, ht⟩
    rw [hframe] at hm
    exact (mem_ofTicket.mp hm).1
  refine ⟨?_, fun z hz => ?_, ?_⟩
  · rintro ⟨b, c, ht, hm⟩
    exact hn ⟨b, c, ht, old hm (congrArg some ht)⟩
  · obtain ⟨hr', -⟩ := PassRecord.refused_mem.mp ((hr.mem rfl).mp (old hz rfl))
    have hasked := hr.lawful.asked
    rw [hr', ← hrc, hc] at hasked
    have hlen := hasked.length_le
    have hpre := (List.prefix_append _ _).trans hasked
    rw [List.prefix_concat_iff] at hpre
    rcases hpre with hpre | hpre
    · simp [hpre] at hlen
    · exact hf.not_mem (hpre.subset (List.mem_reverse.mpr (hr.took.mp hin.1)))
  · obtain ⟨l, n, hl, -⟩ := hf.lock
    obtain ⟨p, b, ht, hm⟩ := hin.1
    have hlock : (v.aspect x).isLock := by
      rw [hk.2.isLock (ho.asked hm), hl]
      rfl
    obtain ⟨newer, hh⟩ := hk.2.grows.history
    cases hx : v.aspect x with
    | lock k =>
      refine holder_eq_some.mpr ⟨k, hx, (hv.inside_iff hx h1).mpr ⟨hh ▸ hin.1.mono, ?_⟩⟩
      rintro ⟨p, b, c, ht, hm⟩
      exact hin.2 ⟨p, b, c, ht, old hm (congrArg some ht)⟩
    | _ => simp [hx, Aspect.isLock] at hlock

end Holder

theorem Stocked.busy_iff (h : w.Stocked i) (ho : w.Orderly) (hu : ∀ x j, w.Unshared x j)
    (hx : (w.item i).chain.getLast? = some x) : w.Busy i ↔ w.holder x ≠ none := by
  obtain ⟨audits, y, hc, hf, hs⟩ := h.sole
  obtain rfl : y = x := by simpa [hc] using hx
  exact busy_iff_holder ho (hu y i) hs hc hf

theorem unnoticed_of_holds {e : Ending} (ho : w.Orderly) (hu : ∀ x j, w.Unshared x j)
    (hg : w.Guarding v) (hk : (passes 0).Holds w e v) : w.Unnoticed v where
  guarding := hg
  ongoing j _ hj phase a hb hn := by
    obtain ⟨audits, x, hc, hf, hs⟩ := hj.sole
    obtain ⟨hover, hpermitted, hh⟩ := ongoing_of_holds ho (hu x j) hs hc hf hk hb hn
    exact ⟨hover, hpermitted, x, by simp [hc], hh⟩

/-- What is in progress when a computation has come to an end was in progress before it. -/
theorem busy_of_holds {e : Ending} (ho : w.Orderly) (hk : (passes 0).Holds w e v) (he : e ≠ .stuck)
    (hu : ∀ x j, v.Unshared x j) (hi : i < w.items.next) (hst : v.Stocked i) (hb : v.Busy i) :
    w.Busy i := by
  have hv : v.Orderly := hk.1
  obtain ⟨phase, a, hb, hn⟩ := hb
  obtain ⟨audits, x, hc, -, hs⟩ := hst.sole
  have hin := (((hu x i).attended hs).course hb (by simp [hc])).resolve_left hn
  obtain ⟨r, hr, hrc, rfl, rfl⟩ := hv.shown_began hb
  rcases Nat.lt_or_ge w.tickets r.access.ticket with hlt | hle
  · -- a pass that has begun meanwhile is over
    exact (hk.2.closed he hr.pos hr.begun (Nat.ne_of_gt hr.pos) (.inl hlt)).elim
      (fun h => absurd h (not_open_of_took hv (hu x i) hs hin.1)) fun h => absurd h hn
  · obtain ⟨q, hqt, hq⟩ := ho.records hr.pos hle
    have hbegan : .began q.chain q.phase q.access ∈ w.history :=
      (hq.mem rfl).mpr (PassRecord.began_mem.mpr ⟨rfl, rfl, rfl⟩)
    have hsame := PassRecord.began_mem.mp
      ((hr.mem (y := .began _ _ _) (congrArg some hqt)).mp (hk.2.grows.history.subset hbegan))
    refine ⟨q.phase, q.access, ?_, fun h => hn (hqt ▸ h.mono hk.2.grows)⟩
    rwa [hsame.1, ← hrc, hk.2.grows.chain hi] at hbegan

/-- An access to the item is refused just while another is in progress, and that other one does not
notice. -/
structure RefusesWhileBusy (call : Nat → Engine Unit) (w : World) (i : Nat) : Prop where
  writeBusy : w.Busy i → ∀ value, ∃ v, Engine.write call i value w = (.done (), v) ∧
    w.Unnoticed v ∧
      .concluded i ⟨(w.item i).descriptor, value, w.tickets + 1⟩ .vetoed ∈ v.history
  readBusy : w.Busy i → ∃ v,
    Engine.read call i w = (.done (.error (Engine.refusal (w.item i).descriptor "lock")), v) ∧
      w.Unnoticed v
  writeIdle : ¬ w.Busy i → ∀ value o v, Engine.write call i value w = (o, v) →
    .stored i ⟨(w.item i).descriptor, value, w.tickets + 1⟩ ∈ v.history ∧
      ∀ z, .admitted z .write ⟨(w.item i).descriptor, value, w.tickets + 1⟩ false ∉ v.history
  readIdle : ¬ w.Busy i → ∃ v, Engine.read call i w = (.done (.ok (w.item i).value), v)

section Calls

variable {call : Nat → Engine Unit} (ho : w.Orderly) (hu : ∀ x j, w.Unshared x j)
  (hc : ∀ r, (call r).Keeps (passes 0)) (hr : ∀ x j r, (call r).Keeps (refusing x j))

include ho hu hc hr

theorem refusesWhileBusy (hi : i < w.items.next) (hst : w.Stocked i) :
    w.RefusesWhileBusy call i := by
  obtain ⟨audits, x, hch, hf, hs⟩ := hst.sole
  have hhas : w.Has (audits ++ [x]) := fun y hy => ho.sound.chains (hch ▸ hy)
  have hbusy := busy_iff_holder ho (hu x i) hs hch hf
  constructor
  · intro hb value
    obtain ⟨t, ht⟩ := Option.ne_none_iff_exists'.mp (hbusy.mp hb)
    obtain ⟨v, marks, hv, hk, -, hm, -, hg⟩ := @Engine.write_held call w x i audits hf hch hhas t ht
      value
    refine ⟨v, hv, ?_, hk.history ▸ List.mem_append_left _ hm⟩
    exact unnoticed_of_holds ho hu (hk.guarding fun y hy => (hg y hy).1)
      ((Engine.write_passes hc i value w).holds ho hv)
  · intro hb
    obtain ⟨t, ht⟩ := Option.ne_none_iff_exists'.mp (hbusy.mp hb)
    obtain ⟨v, marks, hv, hk, -, -, -, hg⟩ := @Engine.read_held call w x i audits hf hch hhas t ht _
    refine ⟨v, hv, unnoticed_of_holds ho hu (hk.guarding fun y hy => (hg y hy).1)
      ((Engine.readWithin_passes hc i _ w).holds ho hv)⟩
  · intro hn value o v hv
    have hh : w.holder x = none := by simpa [hbusy] using hn
    obtain ⟨u, m, hm, hwu, hstored, hk⟩ := Engine.write_stores (hr x i) (hu x i) hs hi hh value
    replace hstored := ((hk.holds hwu.1 (hm.symm.trans hv)).2.1.history.subset hstored : _ ∈ _)
    refine ⟨hstored, fun z hz => ?_⟩
    -- what was stored was refused by nobody
    have hvo : v.Orderly := ((Engine.write_passes hc i value w).holds ho hv).1
    obtain ⟨r, hr, hrt, hm⟩ := hvo.shown hstored rfl (Nat.succ_pos _)
    obtain ⟨hrs, -⟩ := PassRecord.stored_mem.mp hm
    obtain ⟨-, hnone, -⟩ := hr.lawful.stored (by rw [hrs]; rfl)
    have hrefused := (PassRecord.refused_mem.mp
      ((hr.mem (y := .admitted z _ _ _) (congrArg some hrt.symm)).mp hz)).1
    rw [hnone] at hrefused
    cases hrefused
  · intro hn
    have hh : w.holder x = none := by simpa [hbusy] using hn
    obtain ⟨v, marks, n, hv, -⟩ := @Engine.read_free call w x i audits hf hch hhas hh _
    exact ⟨_, hv⟩

end Calls

end World

namespace Scenario

/-- At every moment of every run, an access to an item that a default factory has stocked with a
lock is refused if and only if another access to the same item is in progress. A refused write
changes neither an item nor a domain, a refused read finds the content corrupt, and neither disturbs
any access in progress: it is permitted and holds its lock as before. What is in progress is what
the access is nested in: a step leaves no access in progress that was not so before it, and between
the steps of the run, also after panics, none is. Whatever item is made with the aspects of a
configuration with locking is stocked with them, and those made before remain so. -/
theorem refused_while_busy (opens opens' halt halt' : World → Bool) (depth depth' : Nat)
    (steps : List Step) :
    ∀ w, reachedOpen opens halt depth {} steps = w →
      (∀ i < w.items.next, w.Stocked i →
        (∀ s, (w.share s).RefusesWhileBusy (callOpenUntil opens' halt' depth') i) ∧
        (∀ step o v, Performing.answer (callOpenUntil opens' halt' depth') step w = (o, v) →
          o.ending ≠ .stuck → v.Stocked i → v.Busy i → w.Busy i) ∧
        (settledOpen opens depth {} steps = some w → ¬ w.Busy i)) ∧
      ∀ c item chain u, c.locking = true → Performing.configured c w = (.done chain, u) →
        item.chain = chain → (u.withItem item).Stocked w.items.next ∧
          ∀ i < w.items.next, w.Stocked i → (u.withItem item).Stocked i := by
  rintro w rfl
  have ho := reachedOpen_orderly opens halt depth steps
  have hu := reachedOpen_unshared opens halt depth steps
  have hc := callOpenUntil_keeps_passes opens' halt' depth'
  have hr (x i : Nat) := callOpenUntil_keeps (fun _ hc => refusing_admits (x := x) (i := i) hc)
    opens' (refusing_calm x i).delivering.opens halt' depth'
  refine ⟨fun i hi hst => ⟨fun s => ?_, fun step o v hv he => ?_, fun hs => ?_⟩,
    fun c item chain u hl h hchain =>
      World.stocked_withItem ho.sound (fun _ => (hu 0 0).has_visits) hl h hchain⟩
  · have hq := World.quiet_share s (reachedOpen opens halt depth {} steps)
    exact World.refusesWhileBusy (passes_calm.quiet hq ho).1
      (fun x j => ((refusing_calm x j).quiet hq (hu x j)).1) hc hr hi ⟨hst.made, hst.alone⟩
  · have hk := (Performing.answer_keeps (passes_admits hc) step _).holds ho hv
    exact World.busy_of_holds ho hk he (fun x j =>
      ((Performing.answer_keeps (refusing_admits (hr x j)) step _).holds (hu x j) hv).1) hi
  · rintro ⟨phase, a, hb, hn⟩
    obtain ⟨audits, x, hch, -, hsole⟩ := hst.sole
    obtain ⟨r, hr, -, -, rfl⟩ := ho.shown_began hb
    have hin := (((hu x i).attended hsole).course hb (by simp [hch])).resolve_left hn
    exact (settledOpen_passes hs hr.pos hr.begun).elim
      (World.not_open_of_took ho (hu x i) hsole hin.1) hn

/-- Three items of a store that is bound to an immediate domain. Whenever something is written
later, the domain writes the first item, reads it, writes the second one and panics. -/
def reentrant : List Step :=
  [.domain "d" "d" (.immediate (some (Script.window 3 none
      [.write "a" none (.int 9), .read "a" none, .write "b" none (.int 4), .panic "boom"]))),
    .store "s" (.builder [.affinity (some "d")]),
    .create "s" "a" "l" .int64 (.int 1) none .store,
    .create "s" "b" "m" .int64 (.int 2) none .store,
    .create "s" "c" "n" .int64 (.int 3) none .store,
    .write "a" none (.int 5)]

/-- The domain that delivers the write of the second item from within the write of the first refuses
reads of both, which leaves the writes be. The third item admits reads, and after the panic so do
the others. -/
theorem reentrant_refused :
    let call := callOpenUntil (fun _ => true) (fun _ => false) maxDepth
    let w := reachedOpen (fun _ => true) (fun w => (w.holder 3).isSome) maxDepth {} reentrant
    let v := reachedOpen (fun _ => true) (fun _ => false) maxDepth {} reentrant
    (w.holder 1 = some 4 ∧ w.holder 3 = some 7 ∧ w.Busy 0 ∧ w.Busy 1 ∧
      ∃ u, Engine.read call 0 (w.share 0) =
        (.done (.error (Engine.refusal (w.item 0).descriptor "lock")), u) ∧
          (w.share 0).Unnoticed u) ∧
    (¬ w.Busy 2 ∧ ∃ u, Engine.read call 2 (w.share 0) = (.done (.ok (.int64 3)), u)) ∧
    .raised "boom" ∈ v.history ∧ ¬ v.Busy 0 := by
  intro call w v
  have chains : ((w.item 0).chain = [0, 1] ∧ 0 < w.items.next) ∧
      ((w.item 1).chain = [2, 3] ∧ 1 < w.items.next) ∧
        (w.item 2).chain = [4, 5] ∧ 2 < w.items.next := by decide +kernel
  have made : ((w.aspect 0).isAudit ∧ (w.aspect 1).patience? = some (.milliseconds 100)) ∧
      ((w.aspect 2).isAudit ∧ (w.aspect 3).patience? = some (.milliseconds 100)) ∧
        (w.aspect 4).isAudit ∧ (w.aspect 5).patience? = some (.milliseconds 100) := by
    decide +kernel
  have alone : w.Alone 0 ∧ w.Alone 1 ∧ w.Alone 2 := by decide +kernel
  have found : w.holder 1 = some 4 ∧ w.holder 3 = some 7 ∧ w.holder 5 = none ∧
      (w.item 2).value = .int64 3 := by
    decide +kernel
  have chain : (v.item 0).chain = [0, 1] ∧ 0 < v.items.next := by decide +kernel
  have made' : (v.aspect 0).isAudit ∧ (v.aspect 1).patience? = some (.milliseconds 100) := by
    decide +kernel
  have alone' : v.Alone 0 := by decide +kernel
  have panicked : .raised "boom" ∈ v.history := by decide +kernel
  have ended : settledOpen (fun _ => true) maxDepth {} reentrant = some v :=
    settledOpen_eq_some (by decide +kernel)
  have refused := (refused_while_busy (fun _ => true) (fun _ => true)
    (fun w => (w.holder 3).isSome) (fun _ => false) maxDepth maxDepth reentrant w rfl).1
  have later := (refused_while_busy (fun _ => true) (fun _ => true) (fun _ => false)
    (fun _ => false) maxDepth maxDepth reentrant v rfl).1
  have orderly : w.Orderly := reachedOpen_orderly _ _ _ _
  have unshared : ∀ x i, w.Unshared x i := reachedOpen_unshared _ _ _ _
  clear_value w v
  have stocked : w.Stocked 0 ∧ w.Stocked 1 ∧ w.Stocked 2 :=
    ⟨World.stocked_of_pair chains.1.1 made.1.1 made.1.2 alone.1,
      World.stocked_of_pair chains.2.1.1 made.2.1.1 made.2.1.2 alone.2.1,
      World.stocked_of_pair chains.2.2.1 made.2.2.1 made.2.2.2 alone.2.2⟩
  have busy : w.Busy 0 ∧ w.Busy 1 ∧ ¬ w.Busy 2 := by
    rw [stocked.1.busy_iff orderly unshared (x := 1) (by rw [chains.1.1]; rfl),
      stocked.2.1.busy_iff orderly unshared (x := 3) (by rw [chains.2.1.1]; rfl),
      stocked.2.2.busy_iff orderly unshared (x := 5) (by rw [chains.2.2.1]; rfl), found.1,
      found.2.1, found.2.2.1]
    simp
  have stocked' : v.Stocked 0 := World.stocked_of_pair chain.1 made'.1 made'.2 alone'
  refine ⟨⟨found.1, found.2.1, busy.1, busy.2.1,
      ((refused 0 chains.1.2 stocked.1).1 0).readBusy busy.1⟩,
    ⟨busy.2.2, ?_⟩, panicked, (later 0 chain.2 stocked').2.2 ended⟩
  obtain ⟨u, hu⟩ := ((refused 2 chains.2.2.2 stocked.2.2).1 0).readIdle busy.2.2
  exact ⟨u, found.2.2.2 ▸ hu⟩

end Scenario

end GuardedStore
