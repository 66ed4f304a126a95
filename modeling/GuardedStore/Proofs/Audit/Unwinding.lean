import GuardedStore.Proofs.Audit.Trail

/-!
What aspects are told when a panic comes out of asking one of them.

Those that had admitted the access are told that it is over, each once and the last one first, but
the decision they are told is the one reached so far, that nobody has refused. So an audit counts a
write that a panic cut short as one that was stored.
-/
namespace GuardedStore

namespace World

variable {w : World} {r : PassRecord} {x : Nat}

/-- The decision is told truthfully but where a panic cut the pass short. -/
theorem Shows.truthful_iff (hr : w.Shows r) (ht : r.told ≠ []) :
    r.refusedBy.isNone = decide (r.entered.reverse = r.chain) ↔ r.abandoned = false := by
  constructor
  · intro h
    refine Bool.eq_false_iff.mpr fun ha => ?_
    obtain ⟨hn, hne⟩ := hr.lawful.unanswered ha
    rw [hn, Option.isNone_none, eq_comm, decide_eq_true_iff] at h
    exact hne h
  · intro ha
    have hwh := (hr.whole (.inl ht)).resolve_right (by simp [ha])
    cases hn : r.refusedBy with
    | none => simp [hwh hn]
    | some y =>
      have hy := hr.lawful.asked
      rw [hn] at hy
      simp [ne_of_shorter hy]

/-- A pass that a panic cut short is not held open. -/
theorem Orderly.not_open_of_abandoned (hw : w.Orderly) (hr : w.Shows r) (ha : r.abandoned) :
    ¬ w.Open r.access.ticket := by
  rintro ⟨name, p, hp, ht⟩
  obtain ⟨q, hq, rfl, -, -, hwh⟩ := hw.waiting hp
  have hm : .abandoned r.entered r.phase r.access ∈ q.happenings := by
    rw [← hq.record, show q.access.ticket = r.access.ticket from ht, hr.record]
    exact PassRecord.abandoned_mem.mpr ⟨ha, rfl, rfl, rfl⟩
  obtain ⟨hn, hne⟩ := hq.lawful.unanswered (PassRecord.abandoned_mem.mp hm).1
  exact hne (hwh hn)

/-- Nobody is left untold of a pass that a panic cut short. -/
theorem Shows.told_of_abandoned (hr : w.Shows r) (hx : w.Audited x) (ha : r.abandoned)
    (ho : w.Over r.access.ticket) : r.told = r.entered := by
  obtain ⟨complete, hc⟩ := Option.ne_none_iff_exists'.mp (hr.over_iff.mp ho)
  cases complete with
  | true => exact hr.lawful.complete hc
  | false =>
    obtain ⟨newer, older, hh, -, -, hrest⟩ : ∃ newer older, w.history =
        newer ++ .left r.access false :: older ∧ _ ∧ _ ∧ ofTicket r.access.ticket older = _ :=
      List.filter_eq_cons_iff.mp (hr.record.trans (by rw [PassRecord.happenings, hc]; rfl))
    refine absurd ?_ (hx.whole ⟨newer, hh.symm⟩ r.entered r.phase)
    have hm : .abandoned r.entered r.phase r.access ∈ ofTicket r.access.ticket older := by
      rw [hrest]
      simp [ha]
    exact (mem_ofTicket.mp hm).1

end World

namespace Scenario

/-- At every moment, whoever is told that an access is over is told truthfully whether all have
admitted it, unless a panic cut the pass short. In that case those that had admitted it are told
that it was permitted, each once and the last one first. An audit of an item's own counts these
passes along with those that end in a value stored. -/
theorem cut_short_told_permitted (depth : Nat) (steps : List Step) :
    (∀ halt w, reached halt depth {} steps = w →
      ∀ chain phase a, .began chain phase a ∈ w.history → ∃ admitted refusedBy told,
        hookCalls a.ticket w.history = asking phase a admitted refusedBy ++
          telling phase a refusedBy.isNone told ∧
        admitted ++ refusedBy.toList <+: chain ∧ told <+: admitted.reverse ∧
        (told ≠ [] → (refusedBy.isNone = decide (admitted = chain) ↔
          ∀ xs, .abandoned xs phase a ∉ w.history))) ∧
    ∀ w, settled depth {} steps = some w →
      (∀ xs phase a, .abandoned xs phase a ∈ w.history → ∃ chain y,
        .began chain phase a ∈ w.history ∧ xs.reverse ++ [y] <+: chain ∧
        hookCalls a.ticket w.history = asking phase a xs.reverse none ++ telling phase a true xs) ∧
      ∀ x i a, w.OwnAudit x i a → EveryoneTold w.history →
        a.writes = (w.item i).writes + cutShort x .write w.history ∧
        (a.writes = (w.item i).writes ↔ ∀ xs b, .abandoned xs .write b ∈ w.history → x ∉ xs) := by
  constructor
  · rintro halt w rfl chain phase a hb
    obtain ⟨r, hr, rfl, rfl, rfl⟩ := (reached_orderly halt depth steps).shown_began hb
    refine ⟨_, _, _, hr.hookCalls, hr.lawful.asked, by simpa using hr.lawful.told, fun ht => ?_⟩
    rw [hr.truthful_iff ht]
    constructor
    · intro ha xs hm
      have := (PassRecord.abandoned_mem.mp ((hr.mem rfl).mp hm)).1
      rw [ha] at this
      cases this
    · intro hn
      refine Bool.eq_false_iff.mpr fun ha => hn r.entered ?_
      exact (hr.mem rfl).mpr (PassRecord.abandoned_mem.mpr ⟨ha, rfl, rfl, rfl⟩)
  · intro w hs
    have hw : w.Orderly := reached_of_settled hs ▸ reached_orderly _ _ _
    constructor
    · intro xs phase a hm
      obtain ⟨r, hr, ha, rfl, rfl, rfl⟩ := hw.shown_abandoned hm
      obtain ⟨hn, y, hy⟩ := hr.lawful.abandoned ha
      have ho := (settled_passes hs hr.pos hr.begun).resolve_left
        (hw.not_open_of_abandoned hr ha)
      refine ⟨r.chain, y, (hr.mem rfl).mpr (PassRecord.began_mem.mpr ⟨rfl, rfl, rfl⟩), hy, ?_⟩
      rw [hr.hookCalls, hn, PassRecord.permitted, hn,
        hr.told_of_abandoned (reached_of_settled hs ▸ reached_audited 0 _ _ _) ha ho]
      rfl
    · intro x i a hx hl
      have h := settled_accounted hs hx hl
      refine ⟨h.writes, ?_⟩
      rw [h.writes, Nat.add_eq_left, cutShort_eq_zero_iff]

/-- The probe panics when it is asked of the second write. -/
def disturbed : List Step :=
  watched {
    name := "p"
    script := fun h => if h = .beforeWrite then
      some (Script.window 1 (some 1) [.panic "boom"]) else none }
    [.write "k" none (.int 1)]

/-- The second write of `disturbed`. -/
def disturbedAccess : Access where
  descriptor := { store := .drawn 0, id := ⟨0, 0⟩, name := "n", type := .int64 }
  value := .int64 1
  ticket := 2

theorem disturbed_ownAudit :
    (reached (fun _ => false) maxDepth {} disturbed).OwnAudit 0 0 ⟨2, 0, 0, 0⟩ :=
  ownAudit_of_only (r := [1]) (by decide +kernel) (by decide +kernel) (by decide +kernel)
    (by decide) (by decide +kernel)

theorem disturbed_accounts :
    let w := reached (fun _ => false) maxDepth {} disturbed
    hookCalls 2 w.history = asking .write disturbedAccess [0] none ++
      telling .write disturbedAccess true [0] ∧
    2 = (w.item 0).writes + cutShort 0 .write w.history := by
  have hs : settled maxDepth {} disturbed =
      some (reached (fun _ => false) maxDepth {} disturbed) := settled_eq_some (by decide +kernel)
  obtain ⟨ht, hc⟩ := (cut_short_told_permitted maxDepth disturbed).2 _ hs
  obtain ⟨_, _, -, -, hk⟩ := ht [0] .write disturbedAccess (by decide +kernel)
  exact ⟨hk, (hc 0 0 _ disturbed_ownAudit (by decide +kernel)).1⟩

/-- The audit, the first of the two aspects of the chain, is told that the write was permitted,
though the second never answered, and counts it as stored. -/
theorem disturbed_write_counted :
    let w := reached (fun _ => false) maxDepth {} disturbed
    settled maxDepth {} disturbed = some w ∧ .began [0, 1] .write disturbedAccess ∈ w.history ∧
      .told 0 .write disturbedAccess true ∈ w.history ∧
      .admitted 1 .write disturbedAccess true ∉ w.history ∧
      w.OwnAudit 0 0 ⟨2, 0, 0, 0⟩ ∧ (w.item 0).writes = 1 ∧ (storedIn 0 w.history).length = 1 :=
  ⟨settled_eq_some (by decide +kernel), by decide +kernel, by decide +kernel, by decide +kernel,
    disturbed_ownAudit, by decide +kernel, by decide +kernel⟩

end Scenario

end GuardedStore
