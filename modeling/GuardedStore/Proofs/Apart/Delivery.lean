import GuardedStore.Proofs.Apart.Passage

/-!
Triggers of the side, and those they reach.

Events of the side are taken by the same domains in both worlds and delivered to the same stores,
which are the side's: nobody else is subscribed to its sources. What a domain has accepted from
others, and who is subscribed to their sources, makes no difference.
-/
namespace GuardedStore

variable {c : Side} {lone : Bool} {t : Twins}

namespace Domain

theorem kind_gate (d : Domain) : d.gate.1 = d.kind := by
  unfold gate kind
  cases d.mode <;> rfl

@[simp] theorem label_subscribe (d : Domain) (source : Source) (x : Subscriber) :
    (d.subscribe source x).label = d.label := by
  unfold subscribe
  cases d.mode <;> rfl

@[simp] theorem label_unsubscribe (d : Domain) (source : Source) :
    (d.unsubscribe source).label = d.label := by
  unfold unsubscribe
  cases d.mode <;> rfl

@[simp] theorem label_accept (d : Domain) (e : Event) : (d.accept e).label = d.label := by
  unfold accept
  cases d.mode <;> rfl

@[simp] theorem label_setDelivering (d : Domain) (b : Bool) :
    (d.setDelivering b).label = d.label := by
  unfold setDelivering
  cases d.mode <;> rfl

@[simp] theorem label_emptyQueue (d : Domain) : d.emptyQueue.label = d.label := by
  unfold emptyQueue
  cases d.mode <;> rfl

@[simp] theorem label_countRun (d : Domain) (s : RunStats) : (d.countRun s).label = d.label := by
  unfold countRun
  cases d.mode <;> rfl

@[simp] theorem gate_emptyQueue (d : Domain) : d.emptyQueue.gate = d.gate := by
  unfold emptyQueue gate
  cases hm : d.mode <;> simp [hm]

@[simp] theorem gate_countRun (d : Domain) (s : RunStats) : (d.countRun s).gate = d.gate := by
  unfold countRun gate
  cases hm : d.mode <;> simp [hm]

theorem queue_of_books {d e : Domain} (h : e.books = d.books) : e.queue = d.queue := by
  rw [← queue_books, ← queue_books, h]

theorem queue_accept (d : Domain) (e : Event) :
    (d.accept e).queue = if d.kind = .cooperative then d.queue ++ [e] else d.queue := by
  rw [← queue_books, books_accept, ← queue_books]
  split <;> rfl

theorem gate_setDelivering {d d' : Domain} (h : d'.gate = d.gate) (b : Bool) :
    (d'.setDelivering b).gate = (d.setDelivering b).gate := by
  unfold setDelivering gate at *
  cases hm : d.mode <;> cases hm' : d'.mode <;> simp_all

theorem script_setDelivering (d : Domain) (b : Bool) :
    (d.setDelivering b).gate.2.1 = d.gate.2.1 := by
  unfold setDelivering gate
  cases hm : d.mode <;> simp [hm]

/-- A domain that was not delivering is not delivering any more. -/
theorem gate_restored {d e : Domain} (hd : d.gate.2.2 = false)
    (he : e.gate = (d.setDelivering true).gate) : (e.setDelivering false).gate = d.gate := by
  unfold setDelivering gate at *
  cases hm : d.mode <;> cases hm' : e.mode <;> simp_all

namespace Twin

variable {d' d : Domain} (h : d'.Twin c d)

include h

theorem kind : d'.kind = d.kind := by
  rw [← kind_gate, ← kind_gate, h.gate]

theorem subscribe (source : Source) {n : Nat} (hn : c.stores n) :
    (d'.subscribe source (.store n)).Twin c (d.subscribe source (.store n)) where
  label := by rw [label_subscribe, label_subscribe, h.label]
  gate := by rw [gate_subscribe, gate_subscribe, h.gate]
  script := by rw [gate_subscribe, h.script]
  subscribers hs := by
    rw [subscribers_subscribe, subscribers_subscribe, h.kind, h.subscribers hs]
  own {src x} hs hx := by
    rw [subscribers_subscribe] at hx
    split at hx
    · rcases List.mem_append.mp hx with hx | hx
      · exact h.own hs hx
      · exact ⟨n, by simpa using hx, hn⟩
    · exact h.own hs hx

theorem unsubscribe (source : Source) : (d'.unsubscribe source).Twin c (d.unsubscribe source) where
  label := by rw [label_unsubscribe, label_unsubscribe, h.label]
  gate := by rw [gate_unsubscribe, gate_unsubscribe, h.gate]
  script := by rw [gate_unsubscribe, h.script]
  subscribers hs := by
    rw [subscribers_unsubscribe, subscribers_unsubscribe, h.subscribers hs]
  own hs hx := by
    rw [subscribers_unsubscribe] at hx
    split at hx
    · cases hx
    · exact h.own hs hx

theorem accept (e : Event) : (d'.accept e).Twin c (d.accept e) where
  label := by rw [label_accept, label_accept, h.label]
  gate := by rw [gate_accept, gate_accept, h.gate]
  script := by rw [gate_accept, h.script]
  subscribers hs := by
    rw [(d'.sameTable_accept e).subscribers, (d.sameTable_accept e).subscribers, h.subscribers hs]
  own hs hx := h.own hs ((d.sameTable_accept e).subscribers _ ▸ hx)

theorem emptyQueue : d'.emptyQueue.Twin c d.emptyQueue where
  label := by rw [label_emptyQueue, label_emptyQueue, h.label]
  gate := by rw [gate_emptyQueue, gate_emptyQueue, h.gate]
  script := by rw [gate_emptyQueue, h.script]
  subscribers hs := by
    rw [d'.sameTable_emptyQueue.subscribers, d.sameTable_emptyQueue.subscribers, h.subscribers hs]
  own hs hx := h.own hs (d.sameTable_emptyQueue.subscribers _ ▸ hx)

theorem countRun (s' s : RunStats) : (d'.countRun s').Twin c (d.countRun s) where
  label := by rw [label_countRun, label_countRun, h.label]
  gate := by rw [gate_countRun, gate_countRun, h.gate]
  script := by rw [gate_countRun, h.script]
  subscribers hs := by
    rw [(d'.sameTable_countRun s').subscribers, (d.sameTable_countRun s).subscribers,
      h.subscribers hs]
  own hs hx := h.own hs ((d.sameTable_countRun s).subscribers _ ▸ hx)

theorem setDelivering (b : Bool) : (d'.setDelivering b).Twin c (d.setDelivering b) where
  label := by rw [label_setDelivering, label_setDelivering, h.label]
  gate := gate_setDelivering h.gate b
  script := by rw [script_setDelivering, h.script]
  subscribers hs := by
    rw [(d'.sameTable_setDelivering b).subscribers, (d.sameTable_setDelivering b).subscribers,
      h.subscribers hs]
  own hs hx := h.own hs ((d.sameTable_setDelivering b).subscribers _ ▸ hx)

end Twin

theorem confined_subscribe (d : Domain) {source : Source} (hf : c.fires source) (x : Subscriber) :
    d.Confined c (d.subscribe source x) where
  label := d.label_subscribe source x
  gate := d.gate_subscribe source x
  subscribers {src} hs := by
    rw [subscribers_subscribe, if_neg]
    rintro ⟨-, rfl⟩
    simp [hf] at hs
  queue := ⟨[], by simp, by rw [queue_of_books (d.books_subscribe source x), List.append_nil]⟩

theorem confined_unsubscribe (d : Domain) {source : Source} (hf : c.fires source) :
    d.Confined c (d.unsubscribe source) where
  label := d.label_unsubscribe source
  gate := d.gate_unsubscribe source
  subscribers {src} hs := by
    rw [subscribers_unsubscribe, if_neg]
    rintro rfl
    simp [hf] at hs
  queue := ⟨[], by simp, by rw [queue_of_books (d.books_unsubscribe source), List.append_nil]⟩

theorem confined_accept (d : Domain) {e : Event} (hf : c.fires e.source) :
    d.Confined c (d.accept e) where
  label := d.label_accept e
  gate := d.gate_accept e
  subscribers _ := (d.sameTable_accept e).subscribers _
  queue := by
    rw [queue_accept]
    split
    · exact ⟨[e], by simpa using hf, rfl⟩
    · exact ⟨[], by simp, by rw [List.append_nil]⟩

theorem confined_countRun (d : Domain) (s : RunStats) : d.Confined c (d.countRun s) where
  label := d.label_countRun s
  gate := d.gate_countRun s
  subscribers _ := (d.sameTable_countRun s).subscribers _
  queue := ⟨[], by simp, by rw [queue_countRun, List.append_nil]⟩

theorem Confined.restored {d e : Domain} (hd : d.gate.2.2 = false)
    (h : (d.setDelivering true).Confined c e) : d.Confined c (e.setDelivering false) where
  label := by rw [label_setDelivering, h.label, label_setDelivering]
  gate := gate_restored hd h.gate
  subscribers hs := by
    rw [(e.sameTable_setDelivering false).subscribers, h.subscribers hs,
      (d.sameTable_setDelivering true).subscribers]
  queue := by
    obtain ⟨events, hev, hq⟩ := h.queue
    refine ⟨events, hev, ?_⟩
    rw [queue_of_books (e.books_setDelivering false), hq,
      queue_of_books (d.books_setDelivering true)]

end Domain

namespace World.Alike

variable {u' u : World} (h : u'.Alike c lone t u) {source : Source} (hf : c.fires source)

include h

/-- Nobody but stores of the side is subscribed to a source of the side. -/
theorem served (d : Nat) (hf : c.fires source) :
    ∀ x ∈ u.liveSubscribers d source, ∃ n, x = .store n ∧ c.stores n := by
  intro x hx
  exact (h.domains d).own hf (List.mem_of_mem_filter hx)

theorem alive {n : Nat} (hn : c.stores n) : u'.alive (.store n) = u.alive (.store n) := by
  unfold World.alive
  dsimp only
  rw [(h.stores hn).dropped]
  congr 1
  rw [Bool.eq_iff_iff, List.contains_iff_mem, List.contains_iff_mem, h.held hn]

theorem liveSubscribers (d : Nat) (hf : c.fires source) :
    u'.liveSubscribers d source = u.liveSubscribers d source := by
  unfold World.liveSubscribers
  rw [(h.domains d).subscribers hf]
  refine List.filter_congr fun x hx => ?_
  obtain ⟨n, rfl, hn⟩ := (h.domains d).own hf hx
  exact h.alive hn

theorem setDelivering (d : Nat) (b : Bool) :
    World.Alike c lone t (u'.modifyDomain d fun x => x.setDelivering b)
      (u.modifyDomain d fun x => x.setDelivering b) :=
  h.changeDomain d ((h.domains d).setDelivering b) fun hl => by
    rw [Domain.queue_of_books (Domain.books_setDelivering ..),
      Domain.queue_of_books (Domain.books_setDelivering ..), h.queues hl]

/-- Stores of the side are taken hold of. -/
theorem hold {xs : List Subscriber} (hxs : ∀ x ∈ xs, ∃ n, x = .store n ∧ c.stores n) :
    Onward c lone t u' u t { u' with held := u'.held ++ xs } { u with held := u.held ++ xs } := by
  refine Alike.onward { h with held := ?_ } ⟨rfl, rfl, rfl⟩ { Confined.refl c _ u with held := ?_ }
  · intro n hn
    rw [List.mem_append, List.mem_append, h.held hn]
  · intro n hn
    show _ ∈ u.held ++ xs ↔ _
    rw [List.mem_append]
    refine or_iff_left fun hx => ?_
    obtain ⟨m, hm, hc⟩ := hxs _ hx
    cases hm
    simp [hc] at hn

end World.Alike

namespace Engine

variable {call : Nat → Engine Unit}

theorem tracks_subscribe (affinity : Option Nat) {source : Source} (hf : c.fires source) {n : Nat}
    (hn : c.stores n) :
    Tracks c lone t (subscribe affinity source (.store n)) (subscribe affinity source (.store n))
      Twins.Any := by
  cases affinity with
  | none => exact tracks_unit
  | some d =>
    refine tracks_modify fun s u' u _ hu => hu.modifyDomain d ((hu.domains d).subscribe source hn) ?_
      (Domain.confined_subscribe _ hf _)
    intro hl
    rw [Domain.queue_of_books (Domain.books_subscribe ..),
      Domain.queue_of_books (Domain.books_subscribe ..), hu.queues hl]

theorem tracks_unsubscribe (affinity : Option Nat) {source : Source} (hf : c.fires source) :
    Tracks c lone t (unsubscribe affinity source) (unsubscribe affinity source) Twins.Any := by
  cases affinity with
  | none => exact tracks_unit
  | some d =>
    refine tracks_modify fun s u' u _ hu => hu.modifyDomain d ((hu.domains d).unsubscribe source) ?_
      (Domain.confined_unsubscribe _ hf)
    intro hl
    rw [Domain.queue_of_books (Domain.books_unsubscribe ..),
      Domain.queue_of_books (Domain.books_unsubscribe ..), hu.queues hl]

theorem tracks_accept (d : Nat) {e : Event} (hf : c.fires e.source) :
    Tracks c lone t (modifyDomain d fun x => x.accept e) (modifyDomain d fun x => x.accept e)
      Twins.Any := by
  refine tracks_modify fun s u' u _ hu => hu.modifyDomain d ((hu.domains d).accept e) ?_
    (Domain.confined_accept _ hf)
  intro hl
  rw [Domain.queue_accept, Domain.queue_accept, (hu.domains d).kind, hu.queues hl]
  split
  · simp [List.filter_append, hf]
  · rfl

variable (follows : Follows c lone call)

theorem tracks_notify (n : Nat) (hn : c.stores n) (event : Event) :
    Tracks c lone t (notify call (.store n) event) (notify call (.store n) event) Twins.Any :=
  (tracks_record (fun _ => rfl) fun _ => rfl).seq fun _ _ =>
    tracks_modifySignal hn fun _ _ _ _ hx =>
      { hx with triggered := rfl, pending := congrArg (· + 1) hx.pending }

theorem tracks_prompt {n : Nat} (hn : c.stores n) (event : Event) :
    Tracks c lone t (prompt call n event) (prompt call n event) Twins.Any :=
  (tracks_record (fun _ => rfl) fun _ => rfl).seq fun _ _ => tracks_notify n hn event

include follows

theorem tracks_runHook {n : Nat} (hn : c.stores n) (triggers : Nat) {k' k : ModelHook}
    (hk : k'.Twin t k) :
    Tracks c lone t (runHook call n triggers k') (runHook call n triggers k) Twins.Any := by
  refine Tracks.seq (Q := Twins.Any) (tracks_modify fun s u' u _ hu => hu.noteRun hn hk.label)
    fun _ _ => (tracks_report (fun _ => rfl) fun _ => rfl).seq fun _ _ => ?_
  intro s u' u hs
  refine tracksAt_get_bind fun _ => Tracks.around (fun hu => ?_)
    ((tracks_callAny follows hk.script).mono hs) fun r v' v hu hv => ?_
  · exact { hu with depths := ⟨congrArg (· + 1) hu.depths.1, hu.depths.2⟩ }
  · exact { hv with
      right := { hv.right with depths := ⟨rfl, hv.right.depths.2⟩ }
      alike := { hv.alike with depths := ⟨hu.depths.1, hv.alike.depths.2⟩ } }

/-- A store of the side executes in both worlds, or in neither. -/
theorem tracks_executeStore {n : Nat} (hn : c.stores n) :
    Tracks c lone t (executeStore call n) (executeStore call n) Twins.Same := by
  refine tracks_get_bind fun s u' u hs hu => ?_
  obtain ⟨ht, hp, -, hooks, hr⟩ := (hu.stores hn).signal
  dsimp only
  rw [ht, hp, hr]
  split
  · exact tracks_pure fun _ _ => rfl
  refine Tracks.seq (tracks_modifySignal hn fun _ _ _ _ hx =>
    { hx with triggered := rfl, pending := rfl }) fun _ _ => ?_
  refine Tracks.seq (tracks_record (fun _ => rfl) fun _ => rfl) fun _ _ => ?_
  split
  · exact tracks_wait_bind
  refine Tracks.seq (tracks_modifySignal hn fun _ _ _ _ hx => { hx with running := rfl })
    fun _ _ => ?_
  refine Tracks.seq (Tracks.ensure
    (tracks_forM (fun _ _ hk => tracks_runHook follows hn _ hk) hooks) (fun _ _ => trivial)
    (tracks_modifySignal hn fun _ _ _ _ hx => { hx with running := rfl })) fun _ _ => ?_
  refine Tracks.seq (tracks_modifySignal hn fun _ _ _ _ hx =>
    { hx with executions := congrArg (· + 1) hx.executions }) fun _ _ => ?_
  exact Tracks.seq tracks_notice fun _ _ => tracks_pure fun _ _ => rfl

theorem tracks_deliverAtOnce (event : Event) {xs : List Subscriber}
    (hxs : ∀ x ∈ xs, ∃ n, x = .store n ∧ c.stores n) :
    Tracks c lone t (deliverAtOnce call event xs) (deliverAtOnce call event xs) Twins.Any := by
  refine tracks_forM (A := fun a b => a = b ∧ ∃ n, b = .store n ∧ c.stores n) ?_
    (List.forall₂_same.mpr fun x hx => ⟨rfl, hxs x hx⟩)
  rintro _ _ ⟨rfl, n, rfl, hn⟩
  exact (tracks_notify n hn event).seq fun _ _ =>
    (tracks_executeStore follows hn).seq fun _ _ => tracks_unit

omit follows in
/-- What is taken hold of in the course of a delivery is let go again. -/
theorem tracks_releasing {α β : Type} {m' : Engine α} {m : Engine β} {Q : Twins → α → β → Prop}
    (hm : Tracks c lone t m' m Q) (domain : Nat) :
    Tracks c lone t (releasing domain m') (releasing domain m) Q := by
  intro s u' u hs hu b v hr
  refine (hm.mono hs).ensure_modify hu (fun r v' v hv => ?_) hr
  have back : World.Onward c lone s u' u r { v' with held := u'.held } { v with held := u.held } :=
    { hv with
      right := { hv.right with held := fun _ => .rfl }
      alike := { hv.alike with held := hu.held } }
  exact back.trans (back.alike.note (fun _ => rfl) fun _ => rfl)

/-- A domain delivers an event of the side in both worlds, or drops it in both. -/
theorem tracksAt_deliver {u' u : World} (d : Nat) {i' i : Immediate}
    (script : i'.script = none ∧ i.script = none) (delivering : i'.delivering = i.delivering)
    (gate : (u.domain d).gate.2.2 = i.delivering) {event : Event} (hf : c.fires event.source)
    (label : String) :
    TracksAt c lone t u' u (deliver call d label i' event) (deliver call d label i event)
      Twins.Any := by
  refine tracksAt_get_bind fun hu => ?_
  rw [hu.depths.1, delivering, script.1, script.2]
  split
  · exact Tracks.at (tracks_report (fun _ => rfl) fun _ => rfl)
  · next hidle =>
    refine TracksAt.bind (Tracks.at (tracks_report (fun _ => rfl) fun _ => rfl))
      fun s _ _ v' v hv _ => ?_
    have idle : (v.domain d).gate.2.2 = false := by
      rw [(hv.right.domains d).gate, gate]
      have hidle : u.modelDepth = 0 ∧ i.delivering = false := by simpa using hidle
      exact hidle.2
    refine Tracks.around (Q := Twins.Any) (fun hx => hx.setDelivering d true)
      (tracks_releasing (Tracks.seq tracks_unit fun _ _ => ?_) d) fun r y' y hx hy => ?_
    · refine tracks_get_bind fun q x' x _ hx => ?_
      rw [hx.liveSubscribers d hf]
      refine Tracks.seq (tracks_record (fun _ => rfl) fun _ => rfl) fun _ _ => ?_
      refine Tracks.seq (tracks_modify fun _ _ _ _ hz => hz.hold (hx.served d hf)) fun _ _ => ?_
      exact tracks_deliverAtOnce follows event (hx.served d hf)
    · refine { hy with
        right := { hy.right with domains := fun e => ?_ }
        alike := hy.alike.setDelivering d false }
      have he := hy.right.domains e
      rw [World.domain_modifyDomain] at he ⊢
      split at he
      · next heq =>
        subst heq
        rw [if_pos rfl]
        exact he.restored idle
      · next hne =>
        rw [if_neg hne]
        exact he

theorem tracks_forward (domain : Option Nat) {event : Event} (hf : c.fires event.source) :
    Tracks c lone t (forward call domain event) (forward call domain event) Twins.Same := by
  cases domain with
  | none => exact tracks_notice.seq fun _ _ => tracks_pure fun _ _ => rfl
  | some d =>
    refine fun s u' u hs => tracksAt_get_bind fun hu => ?_
    have gate := (hu.domains d).gate
    have script := (hu.domains d).script
    have same : Tracks c lone s (pure true) (pure true) Twins.Same := tracks_pure fun _ _ => rfl
    unfold Domain.gate at gate script
    dsimp only
    cases hm : (u.domain d).mode <;> cases hm' : (u'.domain d).mode <;>
      rw [hm, hm'] at gate <;> rw [hm] at script
    case recording.recording => exact ((tracks_accept d hf).seq fun _ _ => same).at
    case cooperative.cooperative =>
      exact (tracks_notice.seq fun _ _ => (tracks_accept d hf).seq fun _ _ => same).at
    case immediate.immediate i i' =>
      dsimp only at gate script
      injection gate with _ gate
      injection gate with scripts delivering
      have hi : (u.domain d).gate.2.2 = i.delivering := by
        unfold Domain.gate
        rw [hm]
      rw [(hu.domains d).label]
      exact TracksAt.bind
        (tracksAt_deliver follows d ⟨scripts.trans script, script⟩ delivering hi hf _)
        fun r _ _ v' v hv _ => Tracks.at (tracks_pure fun _ _ => rfl)
    all_goals cases gate

theorem tracks_trigger {x y : Issuer} (domain : Option Nat) {event : Event}
    (hf : c.fires event.source) :
    Tracks c lone t (trigger call x domain event) (trigger call y domain event) Twins.Same :=
  (tracks_record (fun _ => rfl) fun _ => rfl).seq fun _ _ => tracks_forward follows domain hf

end Engine

end GuardedStore
