import GuardedStore.Proofs.Ledger.Reads

/-!
How fresh the value is that a read hands out.

A pass of a read shows the aspects what was in the cell when the pass began, and the read begins
again if a value was stored before all of them had admitted it. So no aspect, and in particular no
lock, admits a read that hands out a value which was overwritten by then. Only a read that was begun
again as often as it may be settles on what its last pass began with.
-/
namespace GuardedStore

/-- A pass is admitted by an aspect at most as often as that comes up in the chain. -/
theorem PassRecord.count_admitted_le {r : PassRecord} (hr : r.Lawful) (x : Nat) :
    r.happenings.count (.admitted x r.phase r.access true) ≤
      (r.chain.map (Happening.admitted · r.phase r.access true)).count
        (.admitted x r.phase r.access true) := by
  have hp : r.entered.reverse <+: r.chain := (List.prefix_append ..).trans hr.asked
  have he : r.happenings.count (.admitted x r.phase r.access true) =
      (r.entered.map (Happening.admitted · r.phase r.access true)).count
        (.admitted x r.phase r.access true) := by
    cases hab : r.abandoned <;> simp [happenings, hab, List.count_append, count_map_of_ne]
  rw [he, ← List.count_reverse, ← List.map_reverse]
  exact (hp.sublist.map _).count_le _

variable {item n x : Nat} {chain : List Nat} {a : Access}
  {newer asked before earlier : List Happening}

/-- Whoever admitted a read that handed out a value was asked where the snapshot says. -/
theorem World.Orderly.admitted_of_snapshot {w : World} (hw : w.Orderly)
    (hh : w.history = newer ++ (asked ++ .began chain .read a :: earlier))
    (hs : Snapshot item chain a n asked earlier) :
    .admitted x .read a true ∉ newer ∧ .admitted x .read a true ∉ earlier := by
  have hb : .began chain .read a ∈ w.history := by
    rw [hh]
    simp
  obtain ⟨r, hr, rfl, hp, rfl⟩ := hw.shown_began hb
  have hcount : w.history.count (.admitted x .read r.access true) ≤
      asked.count (.admitted x .read r.access true) := by
    calc w.history.count (.admitted x .read r.access true)
      _ = (ofTicket r.access.ticket w.history).count (.admitted x .read r.access true) :=
        (List.count_filter (by simp [Happening.ticket?])).symm
      _ ≤ (r.chain.map (Happening.admitted · .read r.access true)).count
            (.admitted x .read r.access true) := by
        rw [hr.record, hp]
        exact PassRecord.count_admitted_le hr.lawful x
      _ ≤ asked.count (.admitted x .read r.access true) := by
        rw [← List.count_reverse]
        exact hs.admitted.count_le _
  rw [hh, List.count_append, List.count_append, List.count_cons] at hcount
  constructor <;> refine List.count_eq_zero.mp ?_ <;> omega

/-- When the read was admitted by `x`, the cell held what it held when its last pass began. -/
theorem Snapshot.inCell (hs : Snapshot item chain a n asked earlier)
    (hn : n < Engine.readAttempts) (hx : .admitted x .read a true ∉ earlier)
    (hb : .admitted x .read a true :: before <:+ asked ++ .began chain .read a :: earlier) :
    InCell item before a.value := by
  have hall : storedIn item (asked ++ .began chain .read a :: earlier) = storedIn item earlier := by
    rw [storedIn_append, hs.current hn, List.append_nil, storedIn_cons]
    exact List.append_nil _
  have hbefore := storedIn_earlier ((List.suffix_cons _ before).trans hb) item
  have hearlier : earlier <:+ before := by
    obtain ⟨l, hl⟩ := hb
    rcases List.append_eq_append_iff.mp hl with ⟨k, rfl, hk⟩ | ⟨k, rfl, hk⟩
    · cases k with
      | nil => cases hk
      | cons y k =>
        obtain ⟨-, rfl⟩ := List.cons_eq_cons.mp hk
        exact (List.suffix_cons _ earlier).trans (List.suffix_append ..)
    · have hm : .admitted x .read a true ∈ .began chain .read a :: earlier := by
        rw [hk]
        simp
      exact absurd ((List.mem_cons.mp hm).resolve_left nofun) hx
  have heq : storedIn item before = storedIn item earlier :=
    (hall ▸ hbefore).eq_of_length_le (storedIn_earlier hearlier item).length_le
  obtain ⟨i, hm, hv⟩ := hs.found
  exact ⟨i, hearlier.subset hm, heq ▸ hv⟩

namespace Scenario

open ReadPass

/-- A read hands out what was in the cell when its last pass began. If it could have begun again,
that is also what was in the cell when any aspect of the chain, such as a lock, admitted the pass:
the value stored last, or the one that the item was made with. A read begins again only after a pass
that was superseded by a write stored meanwhile, so it makes its eighth pass, after which it cannot
begin again, only when seven passes were superseded. -/
theorem reads_current (opens opens' halt halt' : World → Bool) (depth depth' : Nat)
    (steps : List Step) :
    ∀ w, reachedOpen opens halt depth {} steps = w →
      (∀ newer i a n older, w.history = newer ++ .concluded i a (.returned n) :: older →
        n ≤ Engine.readAttempts ∧
        (∃ earlier, .began (w.item i).chain .read a :: earlier <:+ older ∧
          InCell i earlier a.value) ∧
        ∀ x ∈ (w.item i).chain, .admitted x .read a true ∈ older ∧
          ∀ before, .admitted x .read a true :: before <:+ older →
            n < Engine.readAttempts → InCell i before a.value) ∧
      ∀ i < w.items.next, ∀ s r v,
        Engine.read (callOpenUntil opens' halt' depth') i (w.share s) = (.done (.ok r), v) →
          ∃ (superseded : List ReadPass) (p : ReadPass),
            superseded.length < Engine.readAttempts ∧
            Restarts (callOpenUntil opens' halt' depth') i 1 (w.share s) superseded p.start ∧
            p.Shown (callOpenUntil opens' halt' depth') i ∧ p.pass.refusedBy = none ∧
            (p.Current i ∨ superseded.length + 1 = Engine.readAttempts) ∧
            r = p.pass.access.value ∧
            v = p.finish.mark (.concluded i p.pass.access (.returned (superseded.length + 1))) := by
  rintro w rfl
  have inStep := reachedOpen_inStep opens halt depth steps
  have orderly := reachedOpen_orderly opens halt depth steps
  constructor
  · intro newer i a n older hh
    obtain ⟨later, asked, earlier, rfl, hs⟩ := inStep.handed _ _ _ _ _ hh
    refine ⟨hs.passes, ⟨earlier, ?_, hs.found⟩, fun x hx => ⟨?_, fun before hb hn => ?_⟩⟩
    · exact (List.suffix_append ..).trans (List.suffix_append ..)
    · have hm : .admitted x .read a true ∈ asked := by
        refine hs.admitted.subset (List.mem_reverse.mpr ?_)
        exact List.mem_map_of_mem hx
      simp [hm]
    · have hall : (reachedOpen opens halt depth {} steps).history =
          (newer ++ .concluded i a (.returned n) :: later) ++ (asked ++
            .began ((reachedOpen opens halt depth {} steps).item i).chain .read a :: earlier) := by
        rw [hh]
        simp
      obtain ⟨hl, he⟩ := orderly.admitted_of_snapshot (x := x) hall hs
      obtain ⟨l, hl'⟩ := hb
      obtain ⟨k, -, hk⟩ := older_of_append hl'.symm fun hm => hl (by simp [hm])
      exact hs.inCell hn he ⟨k, hk.symm⟩
  · intro i made s r v h
    have quiet := World.quiet_share s (reachedOpen opens halt depth {} steps)
    obtain ⟨superseded, z, few, restarts, settles⟩ := Engine.readWithin_settles
      (callOpenUntil_keeps_passes opens' halt' depth')
      (callOpenUntil_keeps_ledger opens' halt' depth') (Engine.readAttempts - 1) (n := 1) rfl
      (passes_calm.quiet quiet orderly).1 (ledger_calm.quiet quiet inStep).1 made h
    rw [Nat.add_comm] at settles
    cases settles with
    | returned start shown admitted current left =>
      subst start
      exact ⟨superseded, _, Nat.lt_succ_of_le few, restarts, shown, admitted, current, rfl, rfl⟩

/-- An item with a lock behind probes that write the item when they are asked of reads, each as long
as it says. -/
def overwritable (writers : List (Nat × Option Nat × Int)) : List Step :=
  [.store "s" .standard,
    .create "s" "k" "n" .int64 (.int 0) none (.custom false false (.links
      (writers.map (fun (skip, times, value) => .fresh (.probe {
          name := "p"
          script := fun h => if h = .beforeRead then
            some (Script.window skip times [.write "k" none (.int value)]) else none })) ++
        [.fresh (.lock (.milliseconds 1))])))]

/-- A read of such an item. -/
def overwritten (writers : List (Nat × Option Nat × Int)) : List Step :=
  overwritable writers ++ [.read "k" none]

/-- The last pass of that read. -/
def overwrittenAccess (ticket : Nat) : Access where
  descriptor := { store := .drawn 0, id := ⟨0, 0⟩, name := "n", type := .int64 }
  value := .int64 1
  ticket := ticket

theorem exists_suffix {h : List Happening} {y : Happening}
    (hy : (h.dropWhile (· ≠ y)).head? = some y) : ∃ before, y :: before <:+ h := by
  obtain ⟨before, hb⟩ := List.head?_eq_some_iff.mp hy
  exact ⟨before, hb ▸ List.dropWhile_suffix _⟩

/-- The item is written while the read is asked for the first time, so the read begins again and
hands out the value that was in the cell when the lock admitted it. -/
theorem overwritten_once_current :
    let call := callOpenUntil (fun _ => true) (fun _ => false) maxDepth
    let reach := reachedOpen (fun _ => true) (fun _ => false) maxDepth {}
    (∃ older before, (reach (overwritten [(0, some 1, 1)])).history =
        .concluded 0 (overwrittenAccess 4) (.returned 2) :: older ∧
      .admitted 1 .read (overwrittenAccess 4) true :: before <:+ older ∧
      InCell 0 before (.int64 1)) ∧
    ∃ (first last : ReadPass) (v : World),
      Engine.read call 0 ((reach (overwritable [(0, some 1, 1)])).share 0) =
        (.done (.ok (.int64 1)), v) ∧
      first.Superseded call 0 1 ∧ first.finish = last.start ∧ last.Shown call 0 ∧
      last.Current 0 := by
  intro call reach
  constructor
  · have hh : (reach (overwritten [(0, some 1, 1)])).history =
        .concluded 0 (overwrittenAccess 4) (.returned 2) ::
          (reach (overwritten [(0, some 1, 1)])).history.tail := by
      decide +kernel
    obtain ⟨before, hb⟩ := exists_suffix (y := .admitted 1 .read (overwrittenAccess 4) true)
      (h := (reach (overwritten [(0, some 1, 1)])).history.tail) (by decide +kernel)
    have h := (reads_current (fun _ => true) (fun _ => true) (fun _ => false) (fun _ => false)
      maxDepth maxDepth (overwritten [(0, some 1, 1)]) _ rfl).1 [] 0 (overwrittenAccess 4) 2 _ hh
    exact ⟨_, before, hh, hb, (h.2.2 1 (by decide +kernel)).2 before hb (by decide)⟩
  · obtain ⟨v, read, passes⟩ : ∃ v,
        Engine.read call 0 ((reach (overwritable [(0, some 1, 1)])).share 0) =
          (.done (.ok (.int64 1)), v) ∧
        v.history.head? = some (.concluded 0 (overwrittenAccess 4) (.returned 2)) :=
      ⟨_, Engine.eq_of_outcome (by decide +kernel), by decide +kernel⟩
    obtain ⟨superseded, last, few, restarts, shown, -, current, -, rfl⟩ :=
      (reads_current (fun _ => true) (fun _ => true) (fun _ => false) (fun _ => false)
        maxDepth maxDepth (overwritable [(0, some 1, 1)]) _ rfl).2 0 (by decide +kernel) 0 _ _ read
    have count : superseded.length + 1 = 2 :=
      Upshot.returned.inj (Happening.concluded.inj (Option.some.inj passes)).2.2
    obtain ⟨first, rfl⟩ := List.length_eq_one_iff.mp (Nat.succ.inj count)
    obtain ⟨-, overtaken, next⟩ := restarts
    exact ⟨first, last, _, read, overtaken, next, shown,
      current.resolve_right (by simp [Engine.readAttempts])⟩

/-- The item is written during each of eight passes. The read hands out 1, but the lock has admitted
it when the value stored last was 2, and nothing was stored after that. -/
theorem overwritten_always_stale :
    let steps := overwritten [(0, some 7, 1), (7, none, 2)]
    let w := reachedOpen (fun _ => true) (fun _ => false) maxDepth {} steps
    let y := Happening.admitted 2 .read (overwrittenAccess 16) true
    settledOpen (fun _ => true) maxDepth {} steps = some w ∧ ¬ Panicked w.history ∧
      ((run steps).map Report.answer).getLast? = some (.value (.int64 1)) ∧
      w.history.head? = some (.concluded 0 (overwrittenAccess 16) (.returned 8)) ∧
      (w.history.dropWhile (· ≠ y)).head? = some y ∧
      (storedIn 0 (w.history.dropWhile (· ≠ y))).getLast?.map (·.value) = some (.int64 2) ∧
      storedIn 0 (w.history.takeWhile (· ≠ y)) = [] := by
  refine ⟨settledOpen_eq_some (by decide +kernel), ?_⟩
  decide +kernel

end Scenario

end GuardedStore
