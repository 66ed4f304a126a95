import GuardedStore.Proofs.Rounds.Record
import GuardedStore.Proofs.Run.Making
import GuardedStore.Proofs.Run.Plain
import GuardedStore.Proofs.Run.Signalling
import GuardedStore.Proofs.Run.Storekeeping
import Mathlib.Algebra.GroupWithZero.Nat

/-!
The law of a cooperative domain's docket.

Whatever is requested of the domain is queued until a run takes it, in order, and is counted. A
computation that ends without a panic while no run is going on hands out all that its runs take, and
the domain counts its runs and whom they woke.

The run itself does this only in the end, and what it does in between is held to the first half
alone; so the law has a parameter, which says whether the second half is meant too.
-/
namespace GuardedStore

variable {d : Nat}

namespace World

/-- If the domain is there, it is cooperative. -/
def Cooperates (w : World) (d : Nat) : Prop :=
  d < w.domains.next → (w.domain d).kind = .cooperative

theorem Cooperates.of_grows {w w' : World} (h : w'.Cooperates d) (hg : w.Grows w') :
    w.Cooperates d :=
  fun hd => (hg.kind hd).symm.trans (h (Nat.lt_of_lt_of_le hd hg.domains))

/-- What was queued or has been requested was taken or is queued, in order, and was counted. -/
structure Booked (d : Nat) (w : World) (e : Ending) (w' : World) (newer : List Happening) :
    Prop where
  history : w'.history = newer ++ w.history
  raised : e = .panicked → Panicked newer
  queue : (takenBy d newer).flatten ++ (w'.domain d).books.queue =
    (w.domain d).books.queue ++ (requestsTo d newer).map (·.2)
  received : (w'.domain d).books.received =
    (w.domain d).books.received + (requestsTo d newer).length

/-- These are the rounds since, latest first; no round is open, and all were completed and
counted. -/
structure Rounded (d : Nat) (w w' : World) (rs : List Round) : Prop where
  rounds : rounds d w'.history = rs ++ rounds d w.history
  closed : running d w'.history = false
  complete : ∀ r ∈ rs, r.Complete
  runs : (w'.domain d).books.runs =
    (w.domain d).books.runs + rs.countP fun r => !r.taken.isEmpty
  executions : (w'.domain d).books.executions =
    (w.domain d).books.executions + (rs.map fun r => r.woken.length).sum

/-- The rounds since have handed out what they took, in order, as far as they came; one is open only
where the computation waits for ever. -/
structure Straight (d : Nat) (w : World) (e : Ending) (w' : World) : Prop where
  rounds : ∃ rs, rounds d w'.history = rs ++ rounds d w.history ∧ ∀ r ∈ rs, r.Straight
  closed : e ≠ .stuck → running d w'.history = false

/-- Nothing is delivered or counted outside of a run, and runs are completed. -/
structure Ordered (d : Nat) (w : World) (e : Ending) (w' : World) (newer : List Happening) :
    Prop where
  opened : Opened d newer
  straight : Unnested d w'.history → running d w.history = false → w.Straight d e w'
  runs : takenBy d newer = [] → (w'.domain d).books.runs = (w.domain d).books.runs
  executions : takenBy d newer = [] →
    (w'.domain d).books.executions = (w.domain d).books.executions
  rounded : e ≠ .stuck → Undisturbed d w'.history → running d w.history = false →
    ∃ rs, w.Rounded d w' rs

variable {u v w : World}

theorem Booked.refl {e : Ending} (he : e ≠ .panicked) (w : World) : w.Booked d e w [] :=
  ⟨rfl, (absurd · he), by simp [takenBy, requestsTo], rfl⟩

theorem Rounded.refl (hr : running d w.history = false) : w.Rounded d w [] where
  rounds := rfl
  closed := hr
  complete := nofun
  runs := rfl
  executions := rfl

theorem Straight.refl (e : Ending) (hr : running d w.history = false) : w.Straight d e w where
  rounds := ⟨[], rfl, nofun⟩
  closed _ := hr

theorem Ordered.refl (e : Ending) (w : World) : w.Ordered d e w [] where
  opened := opened_of_ofDomain (by simp)
  straight _ hr := .refl e hr
  runs _ := rfl
  executions _ := rfl
  rounded _ _ hr := ⟨[], .refl hr⟩

theorem Booked.trans {n n' : List Happening} {e e' : Ending} (h : u.Booked d e v n)
    (h' : v.Booked d e' w n') : u.Booked d (e.andThen e') w (n' ++ n) where
  history := by rw [h'.history, h.history, List.append_assoc]
  raised he := by
    rcases Ending.andThen_eq_panicked he with he | he
    · exact (h.raised he).imp fun _ => List.mem_append_right _
    · exact (h'.raised he).imp fun _ => List.mem_append_left _
  queue := by
    rw [takenBy_append, requestsTo_append, List.flatten_append, List.append_assoc, h'.queue,
      ← List.append_assoc, h.queue, List.map_append, List.append_assoc]
  received := by
    rw [h'.received, h.received, requestsTo_append, List.length_append]
    omega

theorem Rounded.trans {rs rs' : List Round} (h : u.Rounded d v rs) (h' : v.Rounded d w rs') :
    u.Rounded d w (rs' ++ rs) where
  rounds := by rw [h'.rounds, h.rounds, List.append_assoc]
  closed := h'.closed
  complete r hr := (List.mem_append.mp hr).elim (h'.complete r) (h.complete r)
  runs := by
    rw [h'.runs, h.runs, List.countP_append]
    omega
  executions := by
    rw [h'.executions, h.executions, List.map_append, List.sum_append]
    omega

theorem Straight.trans {e e' : Ending} (h : u.Straight d e v) (h' : v.Straight d e' w) :
    u.Straight d (e.andThen e') w where
  rounds := by
    obtain ⟨rs, hrs, hs⟩ := h.rounds
    obtain ⟨rs', hrs', hs'⟩ := h'.rounds
    refine ⟨rs' ++ rs, by rw [hrs', hrs, List.append_assoc], fun r hr => ?_⟩
    exact (List.mem_append.mp hr).elim (hs' r) (hs r)
  closed he := h'.closed (Ending.ne_stuck_of_andThen he).2

theorem Ordered.trans {n n' : List Happening} {e e' : Ending} (h : u.Ordered d e v n)
    (he : e ≠ .stuck) (h' : v.Ordered d e' w n') (hb : v.Booked d e' w n') :
    u.Ordered d (e.andThen e') w (n' ++ n) where
  opened := h.opened.append h'.opened
  straight hu hr := by
    have hv := h.straight (hu.of_suffix ⟨n', hb.history.symm⟩) hr
    exact hv.trans (h'.straight hu (hv.closed he))
  runs ht := by
    rw [takenBy_append, List.append_eq_nil_iff] at ht
    rw [h'.runs ht.2, h.runs ht.1]
  executions ht := by
    rw [takenBy_append, List.append_eq_nil_iff] at ht
    rw [h'.executions ht.2, h.executions ht.1]
  rounded he hu hr := by
    obtain ⟨hd, hd'⟩ := Ending.ne_stuck_of_andThen he
    obtain ⟨rs, hrs⟩ := h.rounded hd (hu.of_suffix ⟨n', hb.history.symm⟩) hr
    obtain ⟨rs', hrs'⟩ := h'.rounded hd' hu hrs.closed
    exact ⟨rs' ++ rs, hrs.trans hrs'⟩

end World

/-- The law of the docket of the domain at an address, strict or not. -/
def docket (d : Nat) (strict : Prop) : Law where
  inv w := w.Sound ∧ (w.domains.next ≤ d → (w.domain d).kind = .recording)
  rel w e w' := w.Grows w' ∧
    (w'.Cooperates d → ∃ newer, w.Booked d e w' newer ∧ (strict → w.Ordered d e w' newer))
  refl {w} _ := ⟨.refl w, fun _ => ⟨[], .refl (by decide) w, fun _ => .refl .done w⟩⟩
  trans := by
    rintro u v w e e' - - ⟨hg, h⟩ he ⟨hg', h'⟩
    refine ⟨hg.trans hg', fun hc => ?_⟩
    obtain ⟨n, hb, ho⟩ := h (hc.of_grows hg')
    obtain ⟨n', hb', ho'⟩ := h' hc
    exact ⟨n' ++ n, hb.trans hb', fun hs => (ho hs).trans he (ho' hs) hb'⟩

variable {strict : Prop} {w w' : World} {e : Ending}

theorem docket_weaken (h : (docket d strict).Holds w e w') : (docket d False).Holds w e w' :=
  ⟨h.1, h.2.1, fun hc => (h.2.2 hc).imp fun _ hn => ⟨hn.1, False.elim⟩⟩

theorem Engine.Keeps.docket_weaken {α : Type} {m : Engine α} (h : m.Keeps (docket d strict)) :
    m.Keeps (docket d False) :=
  fun w hw => GuardedStore.docket_weaken (h w hw)

/-- Nothing is said of a domain that is not cooperative. -/
theorem docket_of_not_cooperates (h : (docket d False).Holds w e w') (hc : ¬ w'.Cooperates d) :
    (docket d strict).Holds w e w' :=
  ⟨h.1, h.2.1, fun h' => absurd h' hc⟩

namespace World

/-- Nothing has been requested of the domain, and it delivered nothing. -/
structure OffDocket (d : Nat) (w w' : World) : Prop where
  grows : w.Grows w'
  sound : w'.Sound
  kind : w'.domains.next ≤ d → (w'.domain d).kind = (w.domain d).kind
  books : (w'.domain d).books = (w.domain d).books
  history : ∃ newer, (∀ y ∈ newer, y.ofDomain d = false) ∧ w'.history = newer ++ w.history

theorem OffDocket.holds (h : w.OffDocket d w') (hw : (docket d strict).inv w) :
    (docket d strict).Holds w .done w' := by
  obtain ⟨newer, hn, hh⟩ := h.history
  have hs := silent_of_ofDomain hn
  refine ⟨⟨h.sound, fun hd => (h.kind hd).trans (hw.2 (Nat.le_trans h.grows.domains hd))⟩, h.grows,
    fun _ => ⟨newer, ⟨hh, (fun h => by cases h), ?_, ?_⟩, fun _ => ?_⟩⟩
  · rw [hs.taken, hs.requests, h.books]
    simp
  · rw [hs.requests, h.books]
    rfl
  · have hrounds : rounds d w'.history = rounds d w.history := by
      rw [hh, rounds_append hs.taken, hs.handed]
      cases rounds d w.history <;> simp
    have hrunning : running d w'.history = running d w.history := by
      rw [hh, running_append hs.taken hs.releases]
    exact ⟨opened_of_ofDomain hn, fun _ hr => ⟨⟨[], hrounds, by simp⟩, fun _ => hrunning.trans hr⟩,
      fun _ => by rw [h.books], fun _ => by rw [h.books], fun _ _ hr =>
        ⟨[], hrounds, hrunning.trans hr, by simp, by rw [h.books]; rfl, by rw [h.books]; rfl⟩⟩

theorem ofDomain_of_ofStore {s : Nat} {y : Happening} (hy : y.ofStore s) :
    y.ofDomain d = false := by
  cases y <;> first | rfl | cases hy

theorem ofDomain_of_ofGuards {y : Happening} (hy : y.ofGuards) : y.ofDomain d = false := by
  cases y <;> first | rfl | cases hy

theorem ofDomain_of_inTrace {y : Happening} (hy : y.inTrace) : y.ofDomain d = false := by
  cases y <;> first | rfl | cases hy

theorem ofDomain_of_ofSignals {T : Nat → Prop} {y : Happening} (hy : y.ofSignals T) :
    y.ofDomain d = false := by
  cases y <;> first | rfl | cases hy

theorem Keeping.offDocket {s : Nat} (h : w.Keeping s w') (hw : w.Sound) : w.OffDocket d w' where
  grows := h.grows
  sound := h.sound hw
  kind _ := h.kind d
  books := h.books d
  history := by
    obtain ⟨notes, hn, hh⟩ := h.notes
    exact ⟨notes, fun y hy => ofDomain_of_ofStore (hn y hy), hh⟩

theorem Guarding.offDocket (h : w.Guarding w') (hw : w.Sound) : w.OffDocket d w' where
  grows := h.grows
  sound := h.sound hw
  kind _ := by rw [domain, domain, h.domains]
  books := by rw [domain, domain, h.domains]
  history := by
    obtain ⟨marks, hm, hh⟩ := h.history
    exact ⟨marks, fun y hy => ofDomain_of_ofGuards (hm y hy), hh⟩

theorem Idle.offDocket (h : w.Idle w') (hw : w.Sound) : w.OffDocket d w' where
  grows := h.grows
  sound := h.sound hw
  kind _ := by rw [domain, domain, h.domains]
  books := by rw [domain, domain, h.domains]
  history := by
    obtain ⟨notes, hn, hh⟩ := h.history
    exact ⟨notes, fun y hy => ofDomain_of_inTrace (hn y hy), hh⟩

theorem Signalling.offDocket {T : Nat → Prop} (h : w.Signalling T w') (hw : w.Sound) :
    w.OffDocket d w' where
  grows := h.grows
  sound := h.sound hw
  kind _ := h.kind d
  books := h.books d
  history := by
    obtain ⟨notes, hn, hh⟩ := h.notes
    exact ⟨notes, fun y hy => ofDomain_of_ofSignals (hn y hy), hh⟩

/-- No domain has changed. -/
theorem offDocket_of_same (hg : w.Grows w') (hs : w'.Sound) (hd : w'.domains = w.domains)
    (hh : ∃ newer, (∀ y ∈ newer, y.ofDomain d = false) ∧ w'.history = newer ++ w.history) :
    w.OffDocket d w' where
  grows := hg
  sound := hs
  kind _ := by rw [domain, domain, hd]
  books := by rw [domain, domain, hd]
  history := hh

/-- What is done about the tables and the books of others. -/
theorem Quiet.offDocket (h : w.Quiet w') (hw : w.Sound)
    (hb : (w'.domain d).books = (w.domain d).books)
    (hh : ∃ newer, (∀ y ∈ newer, y.ofDomain d = false) ∧ w'.history = newer ++ w.history) :
    w.OffDocket d w' :=
  ⟨h.grows, h.sound hw, fun _ => h.kind d, hb, hh⟩

theorem offDocket_mark {y : Happening} (hy : y.ofDomain d = false) (hw : w.Sound) :
    w.OffDocket d (w.mark y) :=
  offDocket_of_same (grows_mark y w) (sound_mark y hw) rfl ⟨[y], by simpa using hy, rfl⟩

theorem books_fresh {label : String} {mode : DomainMode} (hm : mode.Fresh) :
    ({ label, mode } : Domain).books = {} := by
  cases hm <;> rfl

theorem offDocket_withDomain {label : String} {mode : DomainMode} (hm : mode.Fresh)
    (hw : (docket d strict).inv w) : w.OffDocket d (w.withDomain { label, mode }) where
  grows := grows_withDomain _
  sound := sound_withDomain hm hw.1
  kind hd := by rw [domain_withDomain, if_neg (Nat.ne_of_gt hd)]
  books := by
    rw [domain_withDomain]
    split
    · next hd => rw [books_fresh hm, Domain.books_of_recording (hw.2 (Nat.le_of_eq hd.symm))]
    · rfl
  history := ⟨[], by simp, rfl⟩

end World

theorem docket_stuck (_ : (docket d strict).inv w) : (docket d strict).rel w .stuck w :=
  ⟨.refl w, fun _ => ⟨[], .refl (by decide) w, fun _ => .refl .stuck w⟩⟩

theorem docket_storekeeping (d : Nat) (strict : Prop) :
    (docket d strict).Storekeeping fun _ => True where
  sound hw := hw.1
  grows h := h.1
  tending _ h hw := (h.toKeeping.offDocket hw.1).holds hw
  keeping _ h hw := (h.offDocket hw.1).holds hw
  stuck := docket_stuck
  newStore _ hid ha hd _ := Engine.keepsAt_of_eq rfl fun hw =>
    (World.offDocket_of_same (World.grows_withStore _) (World.sound_withStore hid ha hd hw.1) rfl
      ⟨[], by simp, rfl⟩).holds hw
  newItem {w i r} _ hr hid hc hd _ _ := Engine.keepsAt_of_eq rfl fun hw =>
    (World.offDocket_of_same (World.grows_withItem _)
      (World.sound_withItem ⟨r, hr, hid⟩ hc hd hw.1) rfl
      ⟨[_], by simp [Happening.ofDomain], rfl⟩).holds hw

theorem docket_renames (d : Nat) (strict : Prop) : (docket d strict).Renames := fun _ hn _ hw =>
  (World.offDocket_of_same World.grows_rename (World.sound_rename hn hw.1) rfl
    ⟨[], by simp, rfl⟩).holds hw

theorem docket_plain (d : Nat) (strict : Prop) : (docket d strict).Plain where
  sound hw := hw.1
  grows h := h.1
  guarding h hw := (h.offDocket hw.1).holds hw
  stuck := docket_stuck

theorem docket_panic (text : String) : (Engine.panic text).Keeps (docket d strict) := by
  intro w hw
  unfold Engine.panic
  split
  · exact ⟨hw, (docket d strict).refl hw⟩
  · have h : (docket d strict).Holds w .done (w.raise text) :=
      (World.offDocket_of_same (World.grows_raise text) (World.sound_raise text hw.1) rfl
        ⟨[_], by simp [Happening.ofDomain], rfl⟩).holds hw
    refine ⟨h.1, h.2.1, fun hc => ?_⟩
    obtain ⟨newer, hb, ho⟩ := h.2.2 hc
    obtain rfl : newer = [.raised text] := List.append_cancel_right hb.history.symm
    exact ⟨_, { hb with raised := fun _ => ⟨text, List.mem_singleton_self _⟩ }, fun hs =>
      { ho hs with
        straight := fun hu hr =>
          have h := (ho hs).straight hu hr
          ⟨h.rounds, fun _ => h.closed (by decide)⟩
        rounded := fun _ => (ho hs).rounded (by decide) }⟩

theorem docket_basics (d : Nat) (strict : Prop) : Engine.Basics (docket d strict) where
  sound hw := hw.1
  grows h := h.1
  stuck := docket_stuck
  idle h hw := (h.offDocket hw.1).holds hw
  panic := docket_panic
  newAspect _ _ := Engine.keepsAt_of_eq rfl fun hw =>
    (World.offDocket_of_same (World.grows_withAspect _) (World.sound_withAspect _ hw.1) rfl
      ⟨[], by simp, rfl⟩).holds hw

/-- What the domain does in the course of a run, when the law is not meant to be strict. -/
theorem World.Quiet.docket_within (h : w.Quiet w') (newer : List Happening)
    (hh : w'.history = newer ++ w.history) (ht : takenBy d newer = [])
    (hr : requestsTo d newer = []) (hq : (w'.domain d).books.queue = (w.domain d).books.queue)
    (hv : (w'.domain d).books.received = (w.domain d).books.received) (hs : ¬ strict)
    (hw : (docket d strict).inv w) : (docket d strict).Holds w .done w' := by
  refine ⟨⟨h.sound hw.1, fun hd => ?_⟩, h.grows, fun _ =>
    ⟨newer, ⟨hh, (fun h => by cases h), ?_, ?_⟩, (absurd · hs)⟩⟩
  · exact (h.kind d).trans (hw.2 (Nat.le_trans h.grows.domains hd))
  · rw [ht, hr, hq]
    simp
  · rw [hr, hv]
    rfl

/-- Other domains hand out events and release subscribers at any time. -/
theorem docket_handing (d : Nat) (strict : Prop) :
    (docket d strict).Handing fun r => strict → r ≠ d where
  signalling h hw := (h.offDocket hw.1).holds hw
  stuck := docket_stuck
  takeHold subs hw := ((World.quiet_takeHold subs _).offDocket hw.1 rfl ⟨[], by simp, rfl⟩).holds hw
  handing {w r} e hr hw := by
    by_cases hs : strict
    · exact (World.offDocket_mark (by simp [Happening.ofDomain, hr hs]) hw.1).holds hw
    · exact (World.quiet_record rfl w).docket_within [_] rfl rfl rfl rfl rfl hs hw
  letGo {w r} held hr hw := by
    have hq := World.quiet_letGo r held w
    by_cases hs : strict
    · exact (hq.offDocket hw.1 rfl ⟨[_], by simp [Happening.ofDomain, hr hs], rfl⟩).holds hw
    · exact hq.docket_within [_] rfl rfl rfl rfl rfl hs hw

end GuardedStore
