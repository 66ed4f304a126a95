import GuardedStore.Proofs.Rounds.Settled

/-!
What a run leaves behind when a panic ends it.

The events of a round are taken from the queue for good, and who was notified is known to nobody but
the run. So whoever has not been notified by then hears nothing of these events any more, and whoever
was notified and has not acted waits until the domain notifies them again.
-/
namespace GuardedStore

variable {d : Nat}

namespace Engine

variable {call : Nat → Engine Unit} {w v z : World}

/-- A run that was cut short: of what it took nothing is queued again, and nobody is held any more
on its account. Unless other runs of the domain began meanwhile, this much was handed out, and
nothing was counted. -/
structure Forgets (d : Nat) (w : World) (legs : List (Event × List Subscriber)) (v : World) :
    Prop where
  held : v.held = w.held
  meanwhile : ∃ newer others, v.history = newer ++ w.history ∧
    takenBy d newer = (w.domain d).queue :: others ∧
    others.flatten ++ (v.domain d).queue = (requestsTo d newer).map (·.2) ∧
    (v.domain d).books.received = (w.domain d).books.received + (requestsTo d newer).length ∧
    (others = [] → handedBy d newer = legs ∧
      (v.domain d).books.runs = (w.domain d).books.runs ∧
      (v.domain d).books.executions = (w.domain d).books.executions)

theorem forgets_of_dealt (hc : ∀ r, (call r).Keeps (docket d True)) (hw : (docket d False).inv w)
    (hd : d < w.domains.next) (hk : (w.domain d).kind = .cooperative) {text : String}
    {legs : List (Event × List Subscriber)} {n : List Happening}
    (h : runPending call d w = (.panicked text, z.letGo d w.held))
    (hn : (w.taking d).Dealt d z legs n) : Forgets d w legs (z.letGo d w.held) := by
  have hv := (runPending_docket hc hd hk).holds hw h
  obtain ⟨newer, hb, -⟩ := hv.2.2 fun _ => (hv.2.1.kind hd).trans hk
  obtain rfl : newer = .released d w.held :: n ++ [.taken d (w.domain d).queue] := by
    refine List.append_cancel_right (hb.history.symm.trans ?_)
    show _ :: z.history = _
    rw [hn.history]
    simp [World.taking]
  have htn : takenBy d (.released d w.held :: n ++ [.taken d (w.domain d).queue]) =
      (w.domain d).queue :: takenBy d n := by
    simp [takenBy, Happening.takenBy?]
  have hq := hb.queue
  rw [htn, ← Domain.queue_books, List.flatten_cons, Domain.queue_books, List.append_assoc] at hq
  refine ⟨rfl, _, _, hb.history, htn, ?_, hb.received, fun ht => ⟨?_, ?_, ?_⟩⟩
  · rw [← Domain.queue_books]
    exact List.append_cancel_left hq
  · rw [handedBy_append, handedBy_cons, ← hn.handed ht]
    simp [handedBy, Happening.handedBy?]
  · exact (hn.runs ht).trans (by rw [books_taking])
  · exact (hn.executions ht).trans (by rw [books_taking])

end Engine

namespace Scenario

/-- A run that a panic ends has delivered the events of its queue up to the one that the panic came
out of, and this one only to those before whoever panicked; the events after it are lost. If the
panic came later all were delivered, but only those before whoever panicked have acted. The next run
that comes to its end delivers what is queued then, and has those act whom it notifies itself. -/
theorem runPending_unwound (depth d : Nat) {w v : World} {text : String} (hw : w.Sound)
    (hd : d < w.domains.next) (hk : (w.domain d).kind = .cooperative)
    (h : Engine.runPending (callWithin depth) d w = (.panicked text, v)) :
    ((∃ legs e before s after later z, v = z.letGo d w.held ∧
        Engine.Breaks (callWithin depth) d (w.taking d) legs e before s after later
          (.panicked text) (w.domain d).queue z ∧
        Engine.Forgets d w (legs ++ [(e, before ++ s :: after)]) v) ∨
      ∃ r before s after z, r.taken = (w.domain d).queue ∧ v = z.letGo d w.held ∧
        Engine.Stalls (callWithin depth) d (w.taking d) r before s after (.panicked text) z ∧
        Engine.Forgets d w r.legs v) ∧
    ∀ u stats v', Engine.runPending (callWithin depth) d u = (.done stats, v') →
      ∃ r : Round, stats = r.stats ∧ Engine.Completes (callWithin depth) d u r v' ∧
        ∀ x, x ∈ r.woken ↔ ∃ leg ∈ r.legs, x ∈ leg.2 := by
  refine ⟨?_, fun u stats v' hu => ?_⟩
  · have hc := callWithin_docket d depth
    have hi : (docket d False).inv w := ⟨hw, fun h => absurd hd (Nat.not_lt.mpr h)⟩
    have hkt := (Engine.kind_taking w d d).trans hk
    obtain ⟨z, hv, hz⟩ := Engine.course_of_failed rfl ((Engine.runPending_apply ..).symm.trans h)
    rw [if_neg (by simp)] at hv
    subst hv
    rcases hz with ⟨legs, e, before, s, after, later, hz⟩ | ⟨r, before, s, after, hr, hz⟩
    · obtain ⟨n, hn, -⟩ := Engine.dealt_of_breaks hc (w := w.taking d) hd hkt
        (Engine.inv_taking hd hi) hz
      exact .inl ⟨legs, e, before, s, after, later, z, rfl, hz,
        Engine.forgets_of_dealt hc hi hd hk h hn⟩
    · obtain ⟨n, hn, -⟩ := Engine.dealt_of_stalls hc (w := w.taking d) hd hkt
        (Engine.inv_taking hd hi) hz
      exact .inr ⟨r, before, s, after, z, hr, rfl, hz, Engine.forgets_of_dealt hc hi hd hk h hn⟩
  · obtain ⟨r, hs, hr⟩ := Engine.completes_of_done hu
    exact ⟨r, hs, hr, fun x => by simp [Round.woken, Round.notified, List.mem_eraseDups]⟩

/-- One of two dependents panics when it is notified; each hears of a source of its own. -/
def faultyDependent : List Step :=
  [.domain "d" "d" .cooperative,
    .store "s" .standard,
    .store "t" .standard,
    .dependent "p" (some fun _ => [.panic "boom"]) none,
    .dependent "q" none none,
    .subscribe (some "d") (.store "s") "p",
    .subscribe (some "d") (.store "t") "q",
    .trigger (some "d") (.store "s") 1,
    .trigger (some "d") (.store "t") 1]

theorem faultyDependent_unwound :
    let w := reached (fun _ => false) maxDepth {} faultyDependent
    (Engine.runPending (callWithin maxDepth) 0 w).1 = .panicked "boom" ∧
    ∃ legs v, Engine.Forgets 0 w legs v := by
  have hw := (reached_inStep (fun _ => false) maxDepth faultyDependent).sound
  have hp : (Engine.runPending (callWithin maxDepth) 0
      (reached (fun _ => false) maxDepth {} faultyDependent)).1 = .panicked "boom" := by
    decide +kernel
  refine ⟨hp, ?_⟩
  obtain ⟨⟨_, _, _, _, _, _, _, -, -, h⟩ | ⟨_, _, _, _, _, -, -, -, h⟩, -⟩ :=
    runPending_unwound maxDepth 0 hw (by decide +kernel) (by decide +kernel)
      (Engine.eq_of_outcome hp)
  · exact ⟨_, _, h⟩
  · exact ⟨_, _, h⟩

/-- The event that waited behind the one that the dependent panicked over is lost: it was taken from
the queue and is not queued again, its subscriber was not notified, and the next run, which comes to
its end, takes nothing and has nobody act. -/
theorem faultyDependent_loses :
    let w := reached (fun _ => false) maxDepth {} faultyDependent
    let v := reached (fun _ => false) maxDepth {} (faultyDependent ++ [.runPending "d"])
    ((w.domain 0).queue = [⟨.store (.drawn 0), 1⟩, ⟨.store (.drawn 1), 1⟩] ∧
      w.liveSubscribers 0 (.store (.drawn 1)) = [.dependent 1]) ∧
    ((v.domain 0).queue = [] ∧
      handedBy 0 v.history = [(⟨.store (.drawn 0), 1⟩, [.dependent 0])] ∧
      v.liveSubscribers 0 (.store (.drawn 1)) = [.dependent 1]) ∧
    (Engine.runPending (callWithin maxDepth) 0 v).1 = .done {} := by
  decide +kernel

end Scenario

end GuardedStore
