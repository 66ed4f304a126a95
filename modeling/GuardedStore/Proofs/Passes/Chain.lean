import GuardedStore.Proofs.Passes.Hooks

/-!
A pass through a chain, from its ticket to its end.

While a computation takes on a pass, nothing that scripts do changes the pass's record. So the
record grows entry by entry as the aspects are asked and told, whatever happens in between, and
however the chain is left in the end, the pass is over then.
-/
namespace GuardedStore

namespace PassRecord

/-- All that has been done is to ask aspects. -/
structure Waiting (r : PassRecord) : Prop where
  abandoned : r.abandoned = false
  stored : r.stored = none
  told : r.told = []
  left : r.left = none

end PassRecord

namespace World

/-- The running computation is taking on the pass of which this is the record. -/
structure Taking (w : World) (r : PassRecord) : Prop where
  orderly : w.Orderly
  shows : w.Shows r
  closed : ¬ w.Open r.access.ticket

/-- Whatever is done for another pass, this one stays as it was. -/
theorem Taking.beside {own : Nat} {w w' : World} {r : PassRecord} {e : Ending} (h : w.Taking r)
    (hne : r.access.ticket ≠ own) (h' : (passes own).Holds w e w') : w'.Taking r := by
  have hr := h.shows
  obtain ⟨hrec, ho⟩ := h'.2.frame hr.pos hr.begun hne h.closed
  exact ⟨h'.1, ⟨hr.lawful, hr.pos, Nat.le_trans hr.begun h'.2.grows.tickets,
    hrec.trans hr.record, hr.whole, fun ha => h'.2.grows.panicked (hr.panicked ha)⟩, ho⟩

/-- Whatever scripts do, the pass stays as it was. -/
theorem Taking.frame {w w' : World} {r : PassRecord} {e : Ending} (h : w.Taking r)
    (h' : (passes 0).Holds w e w') : w'.Taking r :=
  h.beside (Nat.ne_of_gt h.shows.pos) h'

theorem Taking.marks {w w' : World} {r r' : PassRecord} {y : Happening} (h : w.Taking r)
    (hm : w.Marks y w') (hl : r'.Lawful) (ha : r'.access = r.access)
    (hy : y.ticket? = some r.access.ticket) (hh : r'.happenings = y :: r.happenings)
    (hwh : r'.Ending → r'.Whole ∨ r'.abandoned) (hp : r'.abandoned → Panicked w.history)
    (he : ∀ a, y = .left a false → ∃ later aspect phase b text earlier,
      w.history = later ++ .told aspect phase a b :: earlier ∧ .raised text ∈ later) :
    w'.Taking r' ∧ (passes r.access.ticket).Holds w .done w' := by
  have hw := hm.orderly h.orderly h.shows h.closed hl ha hy hh hwh hp he
  refine ⟨⟨hw, hm.shows h.shows hl ha hy hh hwh hp, ?_⟩, hw, hm.proceeds fun t _ ht => ?_⟩
  · rw [ha, hm.open_iff]
    exact h.closed
  · rw [hy] at ht
    exact (Option.some.inj ht).symm

/-- Nobody was told yet. -/
theorem Taking.not_heard {w : World} {r : PassRecord} (h : w.Taking r) (ht : r.told = []) (x : Nat) :
    ¬ Heard x r.access.ticket w.history := by
  rintro ⟨phase, a, b, ha, hm⟩
  have hr : .told x phase a b ∈ r.happenings := by
    rw [← h.shows.record, mem_ofTicket]
    exact ⟨hm, by rw [Happening.ticket?, ha]⟩
  have := (PassRecord.told_mem.mp hr).1
  rw [ht] at this
  cases this

end World

namespace World

/-- The ticket of an open pass was drawn before. -/
theorem Orderly.open_le {w : World} (hw : w.Orderly) {t : Nat} (ho : w.Open t) : t ≤ w.tickets := by
  obtain ⟨name, p, hp, rfl⟩ := ho
  obtain ⟨r, hr, rfl, -⟩ := hw.waiting hp
  exact hr.begun

variable {chain : List Nat} {phase : Phase} {access : Access} {w : World}

theorem ofTicket_begin {t : Nat} (ht : t ≤ w.tickets) :
    ofTicket t (w.begin chain phase access).history = ofTicket t w.history := by
  refine ofTicket_cons_of_ne ?_ _
  simp only [Happening.ticket?, ne_eq, Option.some.injEq]
  omega

theorem shows_begin {r : PassRecord} (hr : w.Shows r) : (w.begin chain phase access).Shows r where
  lawful := hr.lawful
  pos := hr.pos
  begun := Nat.le_succ_of_le hr.begun
  record := (ofTicket_begin hr.begun).trans hr.record
  whole := hr.whole
  panicked ha := (grows_begin ..).panicked (hr.panicked ha)

theorem shows_begun (hw : w.Orderly) : (w.begin chain phase access).Shows
    { chain, phase, access := { access with ticket := w.tickets + 1 } } where
  lawful := by constructor <;> simp
  pos := Nat.succ_pos _
  begun := Nat.le_refl _
  record := by
    refine (ofTicket_cons_self rfl _).trans ?_
    have hf : ofTicket (w.tickets + 1) w.history = [] := hw.fresh (Nat.lt_succ_self _)
    exact congrArg (_ :: ·) hf
  whole he := by simp [PassRecord.Ending] at he
  panicked ha := by cases ha

theorem begin_orderly (hw : w.Orderly) : (w.begin chain phase access).Orderly where
  sound := sound_begin _ _ _ hw.sound
  records {t} h1 ht := by
    rcases Nat.lt_or_ge w.tickets t with hlt | hle
    · have : t ≤ w.tickets + 1 := ht
      exact ⟨_, by dsimp only; omega, shows_begun hw⟩
    · obtain ⟨r, hrt, hr⟩ := hw.records h1 hle
      exact ⟨r, hrt, shows_begin hr⟩
  fresh {t} ht := by
    have ht : w.tickets + 1 < t := ht
    refine (ofTicket_cons_of_ne ?_ _).trans (hw.fresh (by omega))
    simp only [Happening.ticket?, ne_eq, Option.some.injEq]
    omega
  begun := by
    have hb : (w.tickets + 1) :: begunTickets w.history = (List.range' 1 (w.tickets + 1)).reverse := by
      rw [hw.begun, List.range'_concat]
      simp [Nat.add_comm]
    exact hb
  outside hx := hw.outside (by rwa [ofTicket_begin (Nat.zero_le _)] at hx)
  waiting hp := by
    obtain ⟨r, hr, hrest⟩ := hw.waiting hp
    exact ⟨r, shows_begin hr, hrest⟩
  distinct := hw.distinct
  asked hm := by
    rcases List.mem_cons.mp hm with hm | hm
    · cases hm
    · exact hw.asked hm
  custody {x l t} hl h1 := by
    show _ ↔ Took x t (_ :: w.history) ∧ ¬ Heard x t (_ :: w.history)
    rw [hw.custody hl h1, took_cons, heard_cons]
    simp
  taken hl hh := took_cons.mpr (.inr (hw.taken hl hh))
  excused := hw.excused.cons (by rintro a ⟨⟩)

theorem begin_taking (hw : w.Orderly) : (w.begin chain phase access).Taking
    { chain, phase, access := { access with ticket := w.tickets + 1 } } where
  orderly := begin_orderly hw
  shows := shows_begun hw
  closed ho := by
    have : w.tickets + 1 ≤ w.tickets := hw.open_le ho
    omega

theorem begin_proceeds (hw : w.Orderly) :
    (passes (w.tickets + 1)).Holds w .done (w.begin chain phase access) := by
  refine ⟨begin_orderly hw, grows_begin .., fun _ => rfl, fun _ ht _ ho => ⟨ofTicket_begin ht, ho⟩,
    fun _ t _ ht hne hc => ?_, fun he => by cases he⟩
  rcases hc with hc | hc | hc
  · have : t ≤ w.tickets + 1 := ht
    omega
  · exact .inl hc
  · exact .inr (hc.mono (grows_begin ..))

end World

theorem Law.Holds.weaken {own : Nat} {w w' : World} {e : Ending} (h : (passes 0).Holds w e w') :
    (passes own).Holds w e w' :=
  ⟨h.1, h.2.weaken⟩

namespace Engine

variable {call : Nat → Engine Unit} (hc : ∀ r, (call r).Keeps (passes 0))

include hc

/-- One more aspect is told. -/
theorem tell_spec {r : PassRecord} {x : Nat} {w w' : World} {o : Outcome Unit} (h : w.Taking r)
    (hl : r.left = none) (hx : r.told ++ [x] <+: r.entered)
    (hwh : r.Whole ∨ r.abandoned)
    (ht : tell call x r.phase r.access r.permitted w = (o, w')) :
    (passes r.access.ticket).Holds w o.ending w' ∧ w'.Taking { r with told := r.told ++ [x] } ∧
      (o.ending = .panicked → ∃ later text earlier,
        w'.history = later ++ .told x r.phase r.access r.permitted :: earlier ∧
          .raised text ∈ later) := by
  obtain ⟨u, hm, hk⟩ := tell_cases hc h.orderly ht
  have hlaw : PassRecord.Lawful { r with told := r.told ++ [x] } :=
    { h.shows.lawful with
      told := hx
      complete := fun hc => by rw [hl] at hc; cases hc
      incomplete := fun hc => by rw [hl] at hc; cases hc }
  have hh : PassRecord.happenings { r with told := r.told ++ [x] } =
      .told x r.phase r.access r.permitted :: r.happenings := by
    simp [PassRecord.happenings, PassRecord.permitted, hl]
  obtain ⟨hu, hwu⟩ := h.marks hm hlaw rfl rfl hh (fun _ => hwh) h.shows.panicked
    (by rintro a ⟨⟩)
  have hk' := hk hwu.1
  refine ⟨hwu.done_trans h.orderly hk'.weaken, hu.frame hk', fun he => ?_⟩
  obtain ⟨later, text, hl', hr⟩ := hk'.2.raised he
  exact ⟨later, text, w.history, by rw [hl', hm.history], hr⟩

/-- The rest of the aspects are told, or a panic comes out of telling one of them. -/
theorem tellAll_spec {rest : List Nat} : ∀ {r : PassRecord} {w w' : World} {o : Outcome Unit},
    w.Taking r → r.left = none → r.Whole ∨ r.abandoned → r.told ++ rest = r.entered →
    tellAll call r.pass rest w = (o, w') →
    (passes r.access.ticket).Holds w o.ending w' ∧
      (o.ending = .done → w'.Taking { r with told := r.entered }) ∧
      (o.ending = .panicked → ∃ told, told <+: r.entered ∧ told ≠ [] ∧
        w'.Taking { r with told } ∧ ∃ later aspect phase b text earlier,
          w'.history = later ++ .told aspect phase r.access b :: earlier ∧
            .raised text ∈ later) := by
  induction rest with
  | nil =>
    intro r w w' o h _ _ hr ht
    cases ht
    rw [List.append_nil] at hr
    have hr' : { r with told := r.entered } = r := by
      cases r
      cases hr
      rfl
    exact ⟨⟨h.orderly, .refl⟩, fun _ => hr'.symm ▸ h, fun he => by cases he⟩
  | cons x rest ih =>
    intro r w w' o h hl hwh hr ht
    have hx : r.told ++ [x] <+: r.entered := ⟨rest, by rw [← hr]; simp⟩
    unfold tellAll at ht
    rw [bind_apply] at ht
    rcases hu : tell call x r.pass.phase r.pass.access r.pass.permitted w with ⟨_ | text | _, u⟩
      <;> rw [hu] at ht <;> obtain ⟨hk, htk, hp⟩ := tell_spec hc h hl hx hwh hu
    · have hrest := ih htk hl hwh (by rw [← hr]; simp) ht
      exact ⟨hk.done_trans h.orderly hrest.1, hrest.2⟩
    · cases ht
      obtain ⟨later, text', earlier, hh, ht'⟩ := hp rfl
      exact ⟨hk, nofun, fun _ =>
        ⟨r.told ++ [x], hx, by simp, htk, later, x, r.phase, _, text', earlier, hh, ht'⟩⟩
    · cases ht
      exact ⟨hk, nofun, nofun⟩

omit hc in
/-- The last entry of a record. -/
theorem left_spec {r : PassRecord} {w : World} (complete : Bool) (h : w.Taking r)
    (hl : r.left = none) (hwh : r.Whole ∨ r.abandoned) (hc : complete = true → r.told = r.entered)
    (hi : complete = false → r.told ≠ [] ∧ ∃ later aspect phase b text earlier,
      w.history = later ++ .told aspect phase r.access b :: earlier ∧ .raised text ∈ later) :
    let w' := w.mark (.left r.access complete)
    w'.Taking { r with left := some complete } ∧ (passes r.access.ticket).Holds w .done w' := by
  have hm : w.Marks (.left r.access complete) (w.mark (.left r.access complete)) := by
    refine World.marks_mark h.orderly rfl ?_ ?_ ?_
    · rintro _ _ _ _ ⟨⟩
    · rintro _ _ _ _ ⟨⟩
    · rintro _ _ _ _ _ ⟨⟩
  refine h.marks hm ?_ rfl rfl ?_ (fun _ => hwh) h.shows.panicked ?_
  · exact { h.shows.lawful with
      complete := fun he => hc (Option.some.inj he)
      incomplete := fun he => (hi (Option.some.inj he)).1 }
  · simp [PassRecord.happenings, PassRecord.permitted, hl]
  · rintro a ⟨⟩
    exact (hi rfl).2

omit hc in
theorem over_of_taking {r : PassRecord} {complete : Bool} {w : World} (h : w.Taking r)
    (hl : r.left = some complete) : w.Over r.access.ticket := by
  have hm : .left r.access complete ∈ r.happenings := PassRecord.left_mem.mpr ⟨hl, rfl⟩
  rw [← h.shows.record] at hm
  exact ⟨r.access, complete, rfl, (mem_ofTicket.mp hm).1⟩

/-- However a pass is left, it is over then. -/
theorem leave_spec {r : PassRecord} {w w' : World} {o : Outcome Unit} (h : w.Taking r)
    (hl : r.left = none) (ht : r.told = []) (hwh : r.Whole ∨ r.abandoned)
    (hr : leave call r.pass w = (o, w')) :
    (passes r.access.ticket).Holds w o.ending w' ∧
      (o.ending ≠ .stuck → w'.Over r.access.ticket) := by
  unfold leave at hr
  rw [bind_apply] at hr
  unfold onUnwind at hr
  rcases hu : tellAll call r.pass r.pass.entered w with ⟨_ | text | _, u⟩ <;> rw [hu] at hr <;>
    obtain ⟨hk, hd, hp⟩ := tellAll_spec hc h hl hwh (by rw [ht]; rfl) hu
  · have hlast := left_spec true (hd rfl) hl hwh (fun _ => rfl) nofun
    have hover := over_of_taking hlast.1 rfl
    cases hr
    exact ⟨hk.done_trans h.orderly hlast.2, fun _ => hover⟩
  · obtain ⟨told, -, hne, htk, hrest⟩ := hp rfl
    have hlast := left_spec false htk hl hwh nofun fun _ => ⟨hne, hrest⟩
    have hover := over_of_taking hlast.1 rfl
    cases hr
    exact ⟨hk.trans h.orderly (by simp) hlast.2, fun _ => hover⟩
  · cases hr
    exact ⟨hk, fun he => absurd rfl he⟩

omit hc in
/-- An answer is entered. -/
theorem asked_spec {r : PassRecord} {x : Nat} {b : Bool} {w w' : World} (h : w.Taking r)
    (hr : r.Waiting) (hn : r.refusedBy = none) (hx : r.entered.reverse ++ [x] <+: r.chain)
    (hm : w.Marks (.admitted x r.phase r.access b) w') :
    let r' := if b then { r with entered := x :: r.entered } else { r with refusedBy := some x }
    w'.Taking r' ∧ (passes r.access.ticket).Holds w .done w' := by
  have hl := hr.left
  have ht := hr.told
  have hs := hr.stored
  have hab := hr.abandoned
  -- a pass whose aspects are being asked is not ending
  have hend {r' : PassRecord} (ht' : r'.told = r.told) (hl' : r'.left = r.left) (he : r'.Ending) :
      r'.Whole ∨ r'.abandoned := by
    simp [PassRecord.Ending, ht', hl', ht, hl] at he
  cases b with
  | true =>
    refine h.marks hm ?_ rfl rfl ?_ (hend rfl rfl) h.shows.panicked (by rintro a ⟨⟩)
    · constructor <;> simp [hl, ht, hs, hab, hn, hx]
    · simp [PassRecord.happenings, PassRecord.permitted, hl, ht, hs, hab, hn]
  | false =>
    refine h.marks hm ?_ rfl rfl ?_ (hend rfl rfl) h.shows.panicked (by rintro a ⟨⟩)
    · constructor <;> simp [hl, ht, hs, hab, hx]
    · simp [PassRecord.happenings, PassRecord.permitted, hl, ht, hs, hab, hn]

omit hc in
/-- A panic cuts a pass short before `x` has answered. -/
theorem abandoned_spec {r : PassRecord} {x : Nat} {w : World} (h : w.Taking r) (hr : r.Waiting)
    (hn : r.refusedBy = none) (hx : r.entered.reverse ++ [x] <+: r.chain)
    (hp : Panicked w.history) :
    let w' := w.mark (.abandoned r.entered r.phase r.access)
    w'.Taking { r with abandoned := true } ∧ (passes r.access.ticket).Holds w .done w' := by
  have hl := hr.left
  have ht := hr.told
  have hs := hr.stored
  have hab := hr.abandoned
  have hm : w.Marks (.abandoned r.entered r.phase r.access)
      (w.mark (.abandoned r.entered r.phase r.access)) := by
    refine World.marks_mark h.orderly rfl ?_ ?_ ?_
    · rintro _ _ _ _ ⟨⟩
    · rintro _ _ _ _ ⟨⟩
    · rintro _ _ _ _ _ ⟨⟩
  refine h.marks hm ?_ rfl rfl ?_ (fun _ => .inr rfl) (fun _ => hp) (by rintro a ⟨⟩)
  · exact { h.shows.lawful with
      abandoned := fun _ => ⟨hn, x, hx⟩ }
  · simp [PassRecord.happenings, PassRecord.permitted, hl, ht, hs, hab, hn]

/-- However a pass that a panic has cut short is left, it is over then. -/
theorem abandon_spec {r : PassRecord} {x : Nat} {w w' : World} {o : Outcome Unit}
    (h : w.Taking r) (hr : r.Waiting) (hn : r.refusedBy = none)
    (hx : r.entered.reverse ++ [x] <+: r.chain) (hp : Panicked w.history)
    (ha : abandon call r.pass w = (o, w')) :
    (passes r.access.ticket).Holds w o.ending w' ∧
      (o.ending ≠ .stuck → w'.Over r.access.ticket) := by
  obtain ⟨htk, hu⟩ := abandoned_spec h hr hn hx hp
  obtain ⟨hk, ho⟩ := leave_spec hc htk hr.left hr.told (.inr rfl) ha
  exact ⟨hu.done_trans h.orderly hk, ho⟩

/-- What a pass is like when its aspects have been asked. -/
structure Ready (r r' : PassRecord) (w : World) : Prop where
  taking : w.Taking r'
  waiting : r'.Waiting
  chain : r'.chain = r.chain
  phase : r'.phase = r.phase
  access : r'.access = r.access
  whole : r'.Whole

theorem proceed_spec {rest : List Nat} : ∀ {r : PassRecord} {w w' : World} {o : Outcome Pass},
    w.Taking r → r.Waiting → r.refusedBy = none → r.entered.reverse ++ rest = r.chain →
    w.Has rest → proceed call r.pass rest w = (o, w') →
    (passes r.access.ticket).Holds w o.ending w' ∧
      (∀ p, o = .done p → ∃ r', r'.pass = p ∧ Ready r r' w') ∧
      (o.ending = .panicked → w'.Over r.access.ticket) := by
  induction rest with
  | nil =>
    intro r w w' o h hr _ hch _ hp
    cases hp
    rw [List.append_nil] at hch
    exact ⟨⟨h.orderly, .refl⟩, fun p he => ⟨r, Outcome.done.inj he, h, hr, rfl, rfl, rfl,
      fun _ => hch⟩, fun h => by cases h⟩
  | cons x rest ih =>
    intro r w w' o h hr hn hch has hp
    have hx : r.entered.reverse ++ [x] <+: r.chain := ⟨rest, by rw [← hch]; simp⟩
    unfold proceed at hp
    rw [bind_apply] at hp
    unfold onUnwind at hp
    rcases ha : ask call x r.pass.phase r.pass.access w with ⟨b | text | _, u⟩ <;>
      rw [ha] at hp <;>
      have hask := ask_cases hc h.orderly (has x (by simp)) (fun _ => h.not_heard hr.told x) ha
    · rcases hask with ⟨_, v, ⟨⟩, hv, hm⟩ | ⟨hne, -⟩
      · have hvt := h.frame hv
        obtain ⟨htk, hu⟩ := asked_spec hvt hr hn hx hm
        have hwu := hv.weaken.done_trans h.orderly hu
        cases b with
        | true =>
          have hch' : (x :: r.entered).reverse ++ rest = r.chain := by rw [← hch]; simp
          have hrest := ih (r := { r with entered := x :: r.entered }) htk
            ⟨hr.abandoned, hr.stored, hr.told, hr.left⟩ hn hch'
            ((has.tail).mono hwu.2.grows.aspects) hp
          refine ⟨hwu.done_trans h.orderly hrest.1, fun p he => ?_, hrest.2.2⟩
          obtain ⟨r', hr', hready⟩ := hrest.2.1 p he
          exact ⟨r', hr', hready.taking, hready.waiting, hready.chain, hready.phase,
            hready.access, hready.whole⟩
        | false =>
          cases hp
          exact ⟨hwu, fun p he => ⟨{ r with refusedBy := some x }, Outcome.done.inj he, htk,
            ⟨hr.abandoned, hr.stored, hr.told, hr.left⟩, rfl, rfl, rfl,
            fun h => by cases h⟩, fun h => by cases h⟩
      · simp at hne
    · rcases hask with ⟨_, _, ⟨⟩, _⟩ | ⟨-, hv⟩
      have hvt := h.frame hv
      have hraised : Panicked u.history := by
        obtain ⟨newer, text, hh, hm⟩ := hv.2.raised rfl
        exact ⟨text, hh ▸ List.mem_append_left _ hm⟩
      dsimp only at hp
      rcases hl : abandon call r.pass u with ⟨_ | _ | _, v⟩ <;> rw [hl] at hp <;> cases hp <;>
        obtain ⟨hk, hover⟩ := abandon_spec hc hvt hr hn hx hraised hl
      · exact ⟨hv.weaken.trans h.orderly (by simp) hk, (fun _ he => by cases he),
          fun _ => hover (by simp)⟩
      · exact ⟨hv.weaken.trans h.orderly (by simp) hk, (fun _ he => by cases he),
          fun _ => hover (by simp)⟩
      · exact ⟨hv.weaken.trans h.orderly (by simp) hk, (fun _ he => by cases he),
          fun h => by cases h⟩
    · rcases hask with ⟨_, _, ⟨⟩, _⟩ | ⟨-, hv⟩
      cases hp
      exact ⟨hv.weaken, (fun _ he => by cases he), fun h => by cases h⟩

/-- A pass that has been entered waits to be left, or else it is over. -/
theorem enter_spec {chain : List Nat} {phase : Phase} {access : Access} {w w' : World}
    {o : Outcome Pass} (hw : w.Orderly) (hch : w.Has chain)
    (he : enter call chain phase access w = (o, w')) :
    (passes (w.tickets + 1)).Holds w o.ending w' ∧
      (∀ p, o = .done p → ∃ r, r.pass = p ∧
        Ready { chain, phase, access := { access with ticket := w.tickets + 1 } } r w') ∧
      (o.ending = .panicked → w'.Over (w.tickets + 1)) := by
  have hb := @World.begin_proceeds chain phase access w hw
  have hp := proceed_spec hc (World.begin_taking hw) ⟨rfl, rfl, rfl, rfl⟩ rfl rfl hch he
  exact ⟨hb.done_trans hw hp.1, hp.2⟩

end Engine

end GuardedStore
