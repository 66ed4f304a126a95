import GuardedStore.Proofs.Rounds.Requests

/-!
Runs keep the docket.

From taking the queue to letting go of those who were held, a run is made of calls that keep the
docket and of the events handed out between them. As long as no other run of the domain takes
anything, these are the legs of the round, and the round is complete when the run comes to its end.
-/
namespace GuardedStore

variable {d : Nat}

namespace World

variable {u v w : World}

/-- In the course of a run nobody is released unless another run has begun. Without another run
these are the legs handed out, and nothing was counted. -/
structure Dealt (d : Nat) (w w' : World) (legs : List (Event × List Subscriber))
    (newer : List Happening) : Prop where
  history : w'.history = newer ++ w.history
  kept : ∀ m, m <:+ newer → takenBy d m = [] → ∀ y ∈ m, y.releases d = false
  handed : takenBy d newer = [] → handedBy d newer = legs
  runs : takenBy d newer = [] → (w'.domain d).books.runs = (w.domain d).books.runs
  executions : takenBy d newer = [] →
    (w'.domain d).books.executions = (w.domain d).books.executions

theorem Dealt.refl (w : World) : w.Dealt d w [] [] where
  history := rfl
  kept m hm _ y hy := by
    rw [List.suffix_nil.mp hm] at hy
    cases hy
  handed _ := rfl
  runs _ := rfl
  executions _ := rfl

theorem Dealt.trans {legs legs' : List (Event × List Subscriber)} {n n' : List Happening}
    (h : u.Dealt d v legs n) (h' : v.Dealt d w legs' n') :
    u.Dealt d w (legs ++ legs') (n' ++ n) where
  history := by rw [h'.history, h.history, List.append_assoc]
  kept m hm ht y hy := by
    rcases suffix_append_cases hm with hm | ⟨k, hk, rfl⟩
    · exact h.kept m hm ht y hy
    · rw [takenBy_append, List.append_eq_nil_iff] at ht
      exact (List.mem_append.mp hy).elim (h'.kept k hk ht.2 y)
        (h.kept n (List.suffix_refl n) ht.1 y)
  handed ht := by
    rw [takenBy_append, List.append_eq_nil_iff] at ht
    rw [handedBy_append, h.handed ht.1, h'.handed ht.2]
  runs ht := by
    rw [takenBy_append, List.append_eq_nil_iff] at ht
    rw [h'.runs ht.2, h.runs ht.1]
  executions ht := by
    rw [takenBy_append, List.append_eq_nil_iff] at ht
    rw [h'.executions ht.2, h.executions ht.1]

theorem Ordered.dealt {e : Ending} {n : List Happening} (h : u.Ordered d e v n)
    (hb : u.Booked d e v n) : u.Dealt d v [] n where
  history := hb.history
  kept m hm ht := (h.opened m hm ht).2
  handed ht := (h.opened n (List.suffix_refl n) ht).1
  runs := h.runs
  executions := h.executions

theorem dealt_dealing (w : World) (e : Event) :
    w.Dealt d (w.dealing d e) [(e, w.liveSubscribers d e.source)]
      [.handed d e (w.liveSubscribers d e.source)] where
  history := rfl
  kept m hm _ y hy := by
    rw [List.mem_singleton.mp (hm.subset hy)]
    rfl
  handed _ := by simp [handedBy, Happening.handedBy?]
  runs _ := rfl
  executions _ := rfl

/-- What is done strictly while the domain is cooperative. -/
theorem dealt_of_holds {e : Ending} (h : (docket d True).Holds w e v) (hd : d < w.domains.next)
    (hk : (w.domain d).kind = .cooperative) : ∃ n, w.Dealt d v [] n := by
  obtain ⟨n, hb, ho⟩ := h.2.2 fun _ => (h.2.1.kind hd).trans hk
  exact ⟨n, (ho trivial).dealt hb⟩

/-- While a round is open, no other run takes anything if runs are not nested. -/
theorem Dealt.takenBy_eq_nil {legs : List (Event × List Subscriber)} {n : List Happening}
    (h : w.Dealt d v legs n) (hu : Unnested d v.history) (hr : running d w.history = true) :
    takenBy d n = [] := by
  rw [h.history] at hu
  exact hu.takenBy_eq_nil hr h.kept

theorem Dealt.rounds {legs : List (Event × List Subscriber)} {n : List Happening}
    (h : w.Dealt d v legs n) (ht : takenBy d n = []) :
    rounds d v.history = (rounds d w.history).modifyHead (Round.hand legs) := by
  rw [h.history, rounds_append ht, h.handed ht]

end World

namespace Engine

variable {call : Nat → Engine Unit} {w v : World}

theorem docket_dealing (hw : (docket d False).inv w) (e : Event) :
    (docket d False).Holds w .done (w.dealing d e) :=
  have c := docket_handing d False
  have h := c.handing e (fun h => h.elim) hw
  h.done_trans hw (c.takeHold _ h.1)

section Strict

variable (hc : ∀ r, (call r).Keeps (docket d True))

include hc

/-- What becomes of the domain in the deliveries of a run. -/
theorem dealt_of_delivers {legs : List (Event × List Subscriber)}
    (h : Delivers call d w legs v) (hd : d < w.domains.next)
    (hk : (w.domain d).kind = .cooperative) (hw : (docket d False).inv w) :
    (docket d False).Holds w .done v ∧ ∃ n, w.Dealt d v legs n := by
  induction h with
  | nil w => exact ⟨⟨hw, (docket d False).refl hw⟩, [], .refl w⟩
  | @cons w u v e legs hn _ ih =>
    have h := docket_dealing hw e
    have ht : ((w.liveSubscribers d e.source).forM (notify call · e)).Keeps (docket d True) :=
      keeps_forM fun s _ =>
        notify_keeps (docket_handing d True).toSignalling hc (fun _ _ => trivial) e
    have hu := (ht _).holds h.1 hn
    have hg := h.2.1.trans hu.2.1
    obtain ⟨hv, n, hrest⟩ := ih (Nat.lt_of_lt_of_le hd hg.domains) ((hg.kind hd).trans hk) hu.1
    obtain ⟨n', hleg⟩ := World.dealt_of_holds hu (Nat.lt_of_lt_of_le hd h.2.1.domains)
      ((h.2.1.kind hd).trans hk)
    exact ⟨h.done_trans hw ((docket_weaken hu).done_trans h.1 hv), _,
      ((World.dealt_dealing w e).trans hleg).trans hrest⟩

theorem executes_docket (subscribers : List Subscriber) :
    (subscribers.forM (execute call)).Keeps (docket d True) :=
  keeps_forM fun _ _ => execute_keeps (docket_handing d True).toSignalling hc fun _ _ => trivial

/-- What becomes of the domain when all was delivered and some of those who were notified have
acted. -/
theorem dealt_of_course {legs : List (Event × List Subscriber)} {subscribers : List Subscriber}
    {u : World} (hd : d < w.domains.next) (hk : (w.domain d).kind = .cooperative)
    (hw : (docket d False).inv w) (hu : Delivers call d w legs u)
    (hv : subscribers.forM (execute call) u = (.done (), v)) :
    (docket d False).Holds w .done v ∧ ∃ n, w.Dealt d v legs n := by
  obtain ⟨h, n, hn⟩ := dealt_of_delivers hc hu hd hk hw
  have hx := (executes_docket hc subscribers u).holds h.1 hv
  obtain ⟨n', hn'⟩ := World.dealt_of_holds hx (Nat.lt_of_lt_of_le hd h.2.1.domains)
    ((h.2.1.kind hd).trans hk)
  exact ⟨h.done_trans hw (docket_weaken hx), n' ++ n, by simpa using hn.trans hn'⟩

omit hc in
/-- What becomes of the domain when the calls for some subscribers end with one that fails. -/
theorem dealt_of_failure {f : Subscriber → Engine Unit} (hf : ∀ s, (f s).Keeps (docket d True))
    {z : World} {before : List Subscriber} {s : Subscriber} {o : Outcome Unit} {x : Outcome Empty}
    (hd : d < w.domains.next) (hk : (w.domain d).kind = .cooperative)
    (hw : (docket d False).inv w) (hb : before.forM f w = (.done (), z)) (hs : f s z = (o, v))
    (hx : o.failure? = some x) : ∃ n, w.Dealt d v [] n ∧ (x ≠ .stuck → Panicked n) := by
  have hall : (docket d True).Holds w .done z := (keeps_forM (fun s _ => hf s) w).holds hw hb
  have h := Law.Holds.done_trans (L := docket d True) hw hall ((hf s z).holds hall.1 hs)
  obtain ⟨n, hb, ho⟩ := h.2.2 fun _ => (h.2.1.kind hd).trans hk
  refine ⟨n, (ho trivial).dealt hb, fun hne => hb.raised ?_⟩
  cases o with
  | done => cases hx
  | panicked => rfl
  | stuck => exact absurd (Option.some.inj hx).symm hne

/-- What becomes of the domain in a delivery that fails. -/
theorem dealt_of_breaks {legs : List (Event × List Subscriber)} {e : Event}
    {before after : List Subscriber} {s : Subscriber} {later events : List Event} {x : Outcome Empty}
    (hd : d < w.domains.next) (hk : (w.domain d).kind = .cooperative)
    (hw : (docket d False).inv w)
    (h : Breaks call d w legs e before s after later x events v) :
    ∃ n, w.Dealt d v (legs ++ [(e, before ++ s :: after)]) n ∧ (x ≠ .stuck → Panicked n) := by
  obtain ⟨u, z, o, hu, he, hb, hs, hx⟩ := h.course
  obtain ⟨hu, n, hn⟩ := dealt_of_delivers hc hu hd hk hw
  have hg := hu.2.1
  obtain ⟨n', hn', hp⟩ := dealt_of_failure (w := u.dealing d e)
    (fun _ => notify_keeps (docket_handing d True).toSignalling hc (fun _ _ => trivial) e)
    (Nat.lt_of_lt_of_le hd hg.domains) ((hg.kind hd).trans hk) (docket_dealing hu.1 e).1 hb hs hx
  have hall := (hn.trans (World.dealt_dealing u e)).trans hn'
  rw [he, List.append_nil] at hall
  exact ⟨_, hall, fun hne => (hp hne).imp fun _ => List.mem_append_left _⟩

/-- What becomes of the domain when somebody who was notified fails to act. -/
theorem dealt_of_stalls {r : Round} {before after : List Subscriber} {s : Subscriber}
    {x : Outcome Empty} (hd : d < w.domains.next) (hk : (w.domain d).kind = .cooperative)
    (hw : (docket d False).inv w) (h : Stalls call d w r before s after x v) :
    ∃ n, w.Dealt d v r.legs n ∧ (x ≠ .stuck → Panicked n) := by
  obtain ⟨u, z, o, hu, hb, hs, hx⟩ := h.course
  obtain ⟨hu, n, hn⟩ := dealt_of_delivers hc hu hd hk hw
  have hg := hu.2.1
  obtain ⟨n', hn', hp⟩ := dealt_of_failure
    (fun _ => execute_keeps (docket_handing d True).toSignalling hc fun _ _ => trivial)
    (Nat.lt_of_lt_of_le hd hg.domains) ((hg.kind hd).trans hk) hu.1 hb hs hx
  have hall := hn.trans hn'
  rw [List.append_nil] at hall
  exact ⟨_, hall, fun hne => (hp hne).imp fun _ => List.mem_append_left _⟩

end Strict

theorem inv_taking (hd : d < w.domains.next) (hw : (docket d False).inv w) :
    (docket d False).inv (w.taking d) :=
  ⟨(w.quiet_taking d).sound hw.1, fun h => absurd hd (Nat.not_lt.mpr h)⟩

theorem kind_taking (w : World) (d r : Nat) : ((w.taking d).domain r).kind = (w.domain r).kind :=
  (w.quiet_taking d).kind r

theorem books_taking (w : World) (d : Nat) :
    ((w.taking d).domain d).books = { (w.domain d).books with queue := [] } := by
  rw [World.domain_taking, if_pos rfl, Domain.books_emptyQueue]

theorem running_taking (hne : (w.domain d).queue ≠ []) :
    running d (w.taking d).history = true := by
  show running d (.taken d _ :: w.history) = _
  rw [running, if_pos rfl]
  simpa using hne

/-- To take the queue is in keeping with the docket of the domain, unless it is meant strictly. -/
theorem docket_taking (hd : d < w.domains.next) (hw : (docket d False).inv w) :
    (docket d False).Holds w .done (w.taking d) := by
  have ht : takenBy d [.taken d (w.domain d).queue] = [(w.domain d).queue] := by
    simp [takenBy, Happening.takenBy?]
  refine ⟨inv_taking hd hw, (w.quiet_taking d).grows, fun _ =>
    ⟨[.taken d (w.domain d).queue], ⟨rfl, (fun h => by cases h), ?_, ?_⟩, False.elim⟩⟩
  · rw [ht, books_taking, ← Domain.queue_books]
    simp [requestsTo, Happening.requestTo?]
  · rw [books_taking]
    rfl

/-- To count a run is in keeping with the docket of the domain, unless it is meant strictly. -/
theorem docket_countRun (stats : RunStats) :
    (modifyDomain d fun d => d.countRun stats).Keeps (docket d False) := by
  intro w
  refine keepsAt_modify fun hw => ?_
  have hb : ((w.modifyDomain d fun d => d.countRun stats).domain d).books =
      ((w.domain d).countRun stats).books := by
    rw [World.domain_modifyDomain, if_pos rfl]
  refine (w.quiet_sameTable d fun x => x.sameTable_countRun stats).docket_within [] rfl
    rfl rfl ?_ ?_ id hw <;> rw [hb, Domain.books_countRun] <;> split <;> rfl

/-- A run of another domain is no concern of the docket. -/
theorem runPending_other {call : Nat → Engine Unit} {strict : Prop}
    (hc : ∀ r, (call r).Keeps (docket d strict)) {r : Nat} (hr : r ≠ d) :
    (runPending call r).Keeps (docket d strict) := by
  intro w
  have hsame {f : Domain → Domain} (u : World) : (u.modifyDomain r f).domain d = u.domain d := by
    rw [World.domain_modifyDomain, if_neg (Ne.symm hr)]
  have ht : (modify (World.taking r)).KeepsAt (docket d strict) w := keepsAt_modify fun hw =>
    ((w.quiet_taking r).offDocket hw.1 (congrArg Domain.books (hsame w))
      ⟨[_], by simp [Happening.ofDomain, hr], rfl⟩).holds hw
  have hs (stats : RunStats) :
      (modifyDomain r fun d => d.countRun stats).Keeps (docket d strict) := fun u =>
    keepsAt_modify fun hu => ((u.quiet_sameTable r fun x => x.sameTable_countRun stats).offDocket
      hu.1 (congrArg Domain.books (hsame u)) ⟨[], by simp, rfl⟩).holds hu
  have hrun := runTaken_keeps (docket_handing d strict) hc (fun _ => hr) hs
    (w.domain r).label (w.domain r).queue
  exact KeepsAt.congr (ht.bind fun _ v _ _ => hrun v) (runPending_apply call r w)

/-- Apart from what it delivers and counts, a run keeps the docket however it ends. -/
theorem runPending_loosely {call : Nat → Engine Unit} (hc : ∀ r, (call r).Keeps (docket d False))
    {w : World} (hd : d < w.domains.next) : (runPending call d).KeepsAt (docket d False) w := by
  have ht : (modify (World.taking d)).KeepsAt (docket d False) w :=
    keepsAt_modify (docket_taking hd)
  have hrun := runTaken_keeps (docket_handing d False) hc (fun h => h.elim)
    docket_countRun (w.domain d).label (w.domain d).queue
  exact KeepsAt.congr (ht.bind fun _ v _ _ => hrun v) (runPending_apply call d w)

/-- A run that finds its queue empty tells nobody. -/
theorem Completes.of_empty {call : Nat → Engine Unit} {r : Round} (h : Completes call d w r v)
    (he : (w.domain d).queue = []) : r = ⟨[], []⟩ ∧ v = w.taking d := by
  obtain ⟨taken, legs⟩ := r
  obtain rfl : taken = [] := h.taken.trans he
  obtain rfl : legs = [] := List.map_eq_nil_iff.mp h.complete
  obtain ⟨u, hu, hv⟩ := h.course
  cases hu
  exact ⟨rfl, hv⟩

theorem rounded_of_empty (he : (w.domain d).queue = []) :
    w.Rounded d (w.taking d) [⟨[], []⟩] where
  rounds := (if_pos rfl).trans (by rw [he]; rfl)
  closed := (if_pos rfl).trans (by rw [he]; rfl)
  complete r hr := by
    rw [List.mem_singleton.mp hr]
    rfl
  runs := by
    rw [books_taking]
    rfl
  executions := by
    rw [books_taking]
    rfl

/-- A run is counted when its delivery is over. -/
theorem books_concluded (hk : (w.domain d).kind = .cooperative) (held : List Subscriber)
    (stats : RunStats) (notice : Notice) :
    ((((w.letGo d held).modifyDomain d fun x => x.countRun stats).mark
      (.notice notice)).domain d).books = { (w.domain d).books with
        runs := (w.domain d).books.runs + 1
        executions := (w.domain d).books.executions + stats.executed } := by
  show ((World.modifyDomain d _ (w.letGo d held)).domain d).books = _
  rw [World.domain_modifyDomain, if_pos rfl, Domain.books_countRun]
  exact if_pos hk

variable {call : Nat → Engine Unit} (hc : ∀ r, (call r).Keeps (docket d True))

include hc

/-- What a run that comes to its end adds to the rounds and to the books, if no other run took
anything while it was going on. -/
theorem rounded_of_completes {w v : World} {r : Round} (hd : d < w.domains.next)
    (hk : (w.domain d).kind = .cooperative) (hw : (docket d False).inv w)
    (h : Completes call d w r v)
    (ht : (w.domain d).queue ≠ [] → ∀ u n, (w.taking d).Dealt d u r.legs n →
      u.history <:+ v.history → takenBy d n = []) :
    w.Rounded d v [r] ∧ ∃ newer, v.history = newer ++ w.history ∧ takenBy d newer = [r.taken] ∧
      handedBy d newer = r.legs := by
  by_cases hne : (w.domain d).queue = []
  · obtain ⟨rfl, rfl⟩ := h.of_empty hne
    refine ⟨rounded_of_empty hne, [.taken d (w.domain d).queue], rfl, ?_, rfl⟩
    rw [hne]
    simp [takenBy, Happening.takenBy?]
  obtain ⟨u, hu, hv⟩ := h.course
  rw [h.taken, if_neg hne] at hv
  obtain ⟨z, hz, rfl⟩ := hv
  have hlt : d < (w.taking d).domains.next := hd
  have hkt := (kind_taking w d d).trans hk
  obtain ⟨hx, n, hn⟩ := dealt_of_course hc hlt hkt (inv_taking hd hw) hu hz
  have htn := ht hne z n hn ⟨[_, _], rfl⟩
  have hrounds : rounds d z.history = r :: rounds d w.history := by
    have htaking : rounds d (w.taking d).history = ⟨r.taken, []⟩ :: rounds d w.history :=
      (if_pos rfl).trans (by rw [h.taken])
    rw [hn.rounds htn, htaking]
    rfl
  have hbooks := books_concluded ((hx.2.1.kind hlt).trans hkt) w.held r.stats
    (.runComplete (w.domain d).label r.stats)
  refine ⟨⟨hrounds, if_pos rfl, by simpa using h.complete, ?_, ?_⟩,
    .notice (.runComplete (w.domain d).label r.stats) :: .released d w.held :: n ++
      [.taken d (w.domain d).queue], ?_, ?_, ?_⟩
  · have hcount : [r].countP (fun r => !r.taken.isEmpty) = 1 := by simp [h.taken, hne]
    rw [hbooks, hn.runs htn, books_taking, hcount]
  · rw [hbooks, hn.executions htn, books_taking]
    rfl
  · show _ :: _ :: z.history = _
    rw [hn.history]
    simp [World.taking]
  · rw [takenBy_concluded, htn, h.taken]
  · rw [handedBy_concluded, hn.handed htn]

/-- A run that comes to its end completes a round and counts it, if no other run of the domain begins
meanwhile. -/
theorem rounded_of_runPending {w v : World} {stats : RunStats} (hd : d < w.domains.next)
    (hk : (w.domain d).kind = .cooperative) (hw : (docket d False).inv w)
    (hu : Unnested d v.history) (h : runPending call d w = (.done stats, v)) :
    ∃ rs, w.Rounded d v rs := by
  obtain ⟨r, -, h⟩ := completes_of_done h
  -- the round is open from the taking of the queue on, and nothing closes it before the end
  exact ⟨[r], (rounded_of_completes hc hd hk hw h fun hne u n hn hs =>
    hn.takenBy_eq_nil (hu.of_suffix hs) (running_taking hne)).1⟩

/-- How far a run has come that fails: it has handed out the first part of what it took. -/
theorem dealt_of_failed {w v : World} {o : Outcome RunStats} {x : Outcome Empty}
    (hd : d < w.domains.next) (hk : (w.domain d).kind = .cooperative) (hw : (docket d False).inv w)
    (hx : o.failure? = some x) (h : runPending call d w = (o, v)) :
    (w.domain d).queue ≠ [] ∧ ∃ z legs n, v = (if x = .stuck then z else z.letGo d w.held) ∧
      (w.taking d).Dealt d z legs n ∧ legs.map (·.1) <+: (w.domain d).queue ∧
        (x ≠ .stuck → Panicked n) := by
  rw [runPending_apply] at h
  refine ⟨fun he => ?_, ?_⟩
  · rw [runTaken, if_pos (by simp [he])] at h
    cases h
    cases hx
  obtain ⟨z, hv, hz⟩ := course_of_failed hx h
  have hkt := (kind_taking w d d).trans hk
  have hi := inv_taking hd hw
  rcases hz with ⟨legs, e, before, s, after, later, hz⟩ | ⟨r, before, s, after, hr, hz⟩
  · obtain ⟨n, hn, hp⟩ := dealt_of_breaks hc (w := w.taking d) hd hkt hi hz
    exact ⟨z, _, n, hv, hn, ⟨later, by simp [hz.events]⟩, hp⟩
  · obtain ⟨n, hn, hp⟩ := dealt_of_stalls hc (w := w.taking d) hd hkt hi hz
    exact ⟨z, _, n, hv, hn, hr ▸ hz.complete.straight, hp⟩

/-- A run that a panic ends was disturbed. -/
theorem not_undisturbed_of_panicked {w v : World} {text : String} (hd : d < w.domains.next)
    (hk : (w.domain d).kind = .cooperative) (hw : (docket d False).inv w)
    (h : runPending call d w = (.panicked text, v)) : ¬ Undisturbed d v.history := by
  intro hu
  obtain ⟨hne, z, legs, n, hv, hn, -, hp⟩ := dealt_of_failed hc hd hk hw rfl h
  replace hu := hu.of_suffix (h := z.history) ⟨[.released d w.held], by rw [hv]; rfl⟩
  have ht := hn.takenBy_eq_nil hu.unnested (running_taking hne)
  rw [hn.history] at hu
  exact hu.not_panicked (running_taking hne) ht (hn.kept n (List.suffix_refl n) ht) (hp (by simp))

/-- A run that fails leaves an open round behind only where it waits for ever. -/
theorem straight_of_failed {w v : World} {o : Outcome RunStats} {x : Outcome Empty}
    (hd : d < w.domains.next) (hk : (w.domain d).kind = .cooperative) (hw : (docket d False).inv w)
    (hu : Unnested d v.history) (hx : o.failure? = some x) (h : runPending call d w = (o, v)) :
    w.Straight d o.ending v := by
  obtain ⟨hne, z, legs, n, hv, hn, hl, -⟩ := dealt_of_failed hc hd hk hw hx h
  have hs : rounds d v.history = rounds d z.history ∧ z.history <:+ v.history ∧
      (x ≠ .stuck → running d v.history = false) := by
    by_cases hxs : x = .stuck
    · rw [hv, if_pos hxs]
      exact ⟨rfl, List.suffix_refl _, (absurd hxs ·)⟩
    · rw [hv, if_neg hxs]
      exact ⟨rfl, ⟨[_], rfl⟩, fun _ => if_pos rfl⟩
  obtain ⟨hr, hsuf, hc⟩ := hs
  have ht := hn.takenBy_eq_nil (hu.of_suffix hsuf) (running_taking hne)
  refine ⟨⟨[⟨(w.domain d).queue, legs⟩], ?_, by simpa [Round.Straight] using hl⟩, fun he => hc ?_⟩
  · have htaking : rounds d (w.taking d).history =
        ⟨(w.domain d).queue, []⟩ :: rounds d w.history := if_pos rfl
    rw [hr, hn.rounds ht, htaking]
    rfl
  · rintro rfl
    cases o with
    | stuck => exact he rfl
    | _ => cases hx

/-- What a run leaves behind, once it is known that it began with taking the queue. -/
theorem ordered_of_runPending {w v : World} {o : Outcome RunStats} {q : List Event}
    {m : List Happening} (hd : d < w.domains.next) (hk : (w.domain d).kind = .cooperative)
    (hw : (docket d False).inv w) (h : runPending call d w = (o, v)) :
    w.Ordered d o.ending v (m ++ [.taken d q]) where
  opened := opened_of_taken m q
  straight hu _ := by
    cases o with
    | done stats =>
      obtain ⟨rs, hr⟩ := rounded_of_runPending hc hd hk hw hu h
      exact ⟨⟨rs, hr.rounds, fun r h => (hr.complete r h).straight⟩, fun _ => hr.closed⟩
    | _ => exact straight_of_failed hc hd hk hw hu rfl h
  runs ht := absurd ht (takenBy_taken_ne_nil m q)
  executions ht := absurd ht (takenBy_taken_ne_nil m q)
  rounded he hu _ := by
    cases o with
    | done stats => exact rounded_of_runPending hc hd hk hw hu.unnested h
    | panicked => exact absurd hu (not_undisturbed_of_panicked hc hd hk hw h)
    | stuck => exact absurd rfl he

/-- A run of the domain keeps its docket. -/
theorem runPending_docket {w : World} (hd : d < w.domains.next)
    (hk : (w.domain d).kind = .cooperative) : (runPending call d).KeepsAt (docket d True) w := by
  intro hw
  have hc' (r : Nat) := (hc r).docket_weaken
  have ht := docket_taking hd hw
  have hl := (runTaken_keeps (docket_handing d False) hc' (fun h => h.elim)
    docket_countRun (w.domain d).label (w.domain d).queue (w.taking d)) ht.1
  have h := runPending_loosely hc' hd hw
  rw [← runPending_apply] at hl
  generalize hr : runPending call d w = x at h hl ⊢
  obtain ⟨o, v⟩ := x
  obtain ⟨m, hm⟩ := hl.2.1.history
  refine ⟨h.1, h.2.1, fun hco => ?_⟩
  obtain ⟨newer, hb, -⟩ := h.2.2 hco
  -- the first thing that happens is that the queue is taken
  have hnewer : newer = m ++ [.taken d (w.domain d).queue] := by
    refine (List.append_left_inj w.history).mp (hb.history.symm.trans ?_)
    rw [List.append_assoc]
    exact hm.symm
  subst hnewer
  exact ⟨m ++ [.taken d (w.domain d).queue], hb, fun _ => ordered_of_runPending hc hd hk hw hr⟩

end Engine

end GuardedStore
