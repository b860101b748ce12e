import Recon.Proofs.Station.Happening

/-!
# What an inquiry tells

An inquiry looks at the slot twice and at the task after that, and others take turns in between.  So
what it tells is of three moments.  It says that nothing is at work and shows a task that is, only
if that task was started between the two looks or its run has broken off; and it says that a task is
at work and shows one at its end, only if that task has come to its end since the first look.
-/

namespace Recon

namespace Callers

variable {s s' : Callers} {i : Incident} {e : Option CallerEvent} {c k : Nat} {t : StartedTask}
  {w : Bool}

structure Passage where
  before : Callers
  incident : Incident
  after : Callers
  event : Option CallerEvent

inductive Course (a : Callers) : List Passage → Callers → Prop
  | start : Course a [] a
  | pass {h s i s' e} (hc : Course a h s) (hi : s.happen i = some (s', e)) :
      Course a (h ++ [⟨s, i, s', e⟩]) s'

/-- The state that some incidents lead to, one after the other, and what callers get by them. -/
def followAll (s : Callers) : List Incident → Option (Callers × List CallerEvent)
  | [] => some (s, [])
  | i :: is => (s.happen i).bind fun (s', e) =>
      (s'.followAll is).map fun (s'', es) => (s'', e.toList ++ es)

/-- The last passage of a history with an incident, and what has happened since. -/
structure LastOf (i : Incident) (h early : List Passage) (x : Passage) (since : List Passage) :
    Prop where
  eq : h = early ++ x :: since
  incident : x.incident = i
  last : ∀ y ∈ since, y.incident ≠ i

/-- A caller has made its first look, and has learnt whether there was an active task. -/
def HasAsked (c : Nat) (w : Bool) (h : List Passage) : Prop :=
  ∃ early ask since, LastOf (.step (.ask c)) h early ask since ∧
    w = ask.after.slot.active.isSome

/-- What an inquiry has been so far: a first look, with which the caller has learnt whether there
was an active task, and a second look, with which it has learnt which task was current. -/
structure Inquiry (c : Nat) (w : Bool) (k : Nat) (h early : List Passage) (first : Passage)
    (between : List Passage) (second : Passage) (later : List Passage) : Prop where
  asked : LastOf (.step (.ask c)) h early first (between ++ second :: later)
  working : w = first.after.slot.active.isSome
  looked : LastOf (.step (.which c)) h (early ++ first :: between) second later
  current : second.after.slot.current? = some k

variable {a : Callers} {h : List Passage} {x y : Passage} {n : Nat} {u : Status}
  {early between since later : List Passage} {first second : Passage}

theorem LastOf.here (h : List Passage) (hx : x.incident = i) : LastOf i (h ++ [x]) h x [] :=
  ⟨rfl, hx, by simp⟩

theorem LastOf.snoc (hl : LastOf i h early x since) (hy : y.incident ≠ i) :
    LastOf i (h ++ [y]) early x (since ++ [y]) := by
  refine ⟨by simp [hl.eq], hl.incident, ?_⟩
  intro z hz
  rcases List.mem_append.mp hz with hz | hz
  · exact hl.last z hz
  · rwa [List.mem_singleton.mp hz]

namespace Course

theorem split (hc : Course a h s) {pre post : List Passage} (hx : h = pre ++ x :: post) :
    Course a pre x.before ∧ x.before.Happening x.incident x.after x.event ∧
      Course x.after post s := by
  induction hc generalizing post with
  | start => simp at hx
  | @pass h s i s' e hc hi ih =>
    rcases List.eq_nil_or_concat post with rfl | ⟨post', y, rfl⟩
    · -- it is the last passage
      obtain ⟨rfl, hlast⟩ := List.append_inj' hx rfl
      cases hlast
      exact ⟨hc, happening_of_happen hi, .start⟩
    · -- it is an earlier one, and the last passage is put back
      have hx' : h ++ [⟨s, i, s', e⟩] = (pre ++ x :: post') ++ [y] := by simpa using hx
      obtain ⟨hpre, hlast⟩ := List.append_inj' hx' rfl
      cases hlast
      obtain ⟨hpre, hh, hpost⟩ := ih hpre
      exact ⟨hpre, hh, List.concat_eq_append ▸ hpost.pass hi⟩

theorem sane (hc : Course a h s) (ha : a.Sane) : s.Sane := by
  induction hc with
  | start => exact ha
  | pass _ hi ih => exact (happening_of_happen hi).sane ih

theorem stays (hc : Course a h s) (ht : a.tasks[k]? = some t) :
    ∃ t', s.tasks[k]? = some t' ∧ (t.IsDone → t'.IsDone) := by
  induction hc with
  | start => exact ⟨t, ht, id⟩
  | pass _ hi ih =>
    obtain ⟨u, hu, hd⟩ := ih
    obtain ⟨t', ht', hg⟩ := (happening_of_happen hi).stays hu
    exact ⟨t', ht', fun h => hg.isDone (hd h)⟩

/-- A task has been started in the course of things, or was there before. -/
theorem origin (hc : Course a h s) (ht : s.tasks[k]? = some t) :
    (∃ y ∈ h, y.event = some (.started k)) ∨ ∃ t₀, a.tasks[k]? = some t₀ := by
  induction hc generalizing t with
  | start => exact .inr ⟨t, ht⟩
  | pass _ hi ih =>
    rcases (happening_of_happen hi).task ht with ⟨he, _⟩ | ⟨u, hu, _⟩
    · exact .inl ⟨_, List.mem_concat_self, he⟩
    · exact (ih hu).imp (fun ⟨y, hy, he⟩ => ⟨y, List.mem_append_left _ hy, he⟩) id

/-- A task at its end has come to it in the course of things, or was at it before. -/
theorem ended (hc : Course a h s) (ht : s.tasks[k]? = some t)
    (hend : t.status.isTerminal = true) :
    (∃ y ∈ h, y.incident = .step (.turn k t.status)) ∨
      ∃ t₀, a.tasks[k]? = some t₀ ∧ t₀.status.isTerminal = true := by
  induction hc generalizing t with
  | start => exact .inr ⟨t, ht, hend⟩
  | pass _ hi ih =>
    rcases (happening_of_happen hi).task ht with ⟨_, _, _, rfl⟩ | ⟨u, hu, hg⟩
    · cases hend
    · rcases hg.status with hs | ⟨_, hturn⟩
      · rw [hs] at hend ⊢
        exact (ih hu hend).imp (fun ⟨y, hy, he⟩ => ⟨y, List.mem_append_left _ hy, he⟩) id
      · exact .inl ⟨_, List.mem_concat_self, hturn⟩

/-- A run that is back before its task is at its end has broken off. -/
theorem broken (hc : Course (.start n) h s) (ht : s.tasks[k]? = some t)
    (hback : t.isBack = true) (hn : t.status.isTerminal = false) :
    ∃ y ∈ h, y.incident = .breakOff k := by
  induction hc generalizing t with
  | start => simp [Callers.start] at ht
  | pass _ hi ih =>
    rcases (happening_of_happen hi).task ht with ⟨_, _, _, rfl⟩ | ⟨u, hu, hg⟩
    · cases hback
    · have hnu : u.status.isTerminal = false := by
        rcases hg.status with hs | ⟨hu, _⟩
        · rwa [← hs]
        · exact hu
      rcases hg.broken hback with hb | hend | hbreak
      · obtain ⟨y, hy, he⟩ := ih hu hb hnu
        exact ⟨y, List.mem_append_left _ hy, he⟩
      · rw [hnu] at hend
        cases hend
      · exact ⟨_, List.mem_concat_self, hbreak⟩

theorem current?_le (hc : Course a h s) (ha : a.Sane) (hk : a.slot.current? = some k) :
    ∃ m, s.slot.current? = some m ∧ k ≤ m := by
  induction hc with
  | start => exact ⟨k, hk, Nat.le_refl k⟩
  | pass hc hi ih =>
    obtain ⟨m, hm, hle⟩ := ih
    obtain ⟨m', hm', hle'⟩ := (happening_of_happen hi).current?_le (hc.sane ha) hm
    exact ⟨m', hm', Nat.le_trans hle hle'⟩

theorem hasAsked (hc : Course (.start n) h s) (hp : s.phases[c]? = some (.asking w)) :
    HasAsked c w h := by
  induction hc with
  | start => cases List.eq_of_mem_replicate (List.mem_of_getElem? hp)
  | pass _ hi ih =>
    rcases (happening_of_happen hi).asking hp with ⟨rfl, hw⟩ | ⟨hne, hp⟩
    · exact ⟨_, _, [], .here _ rfl, hw⟩
    · obtain ⟨early, ask, since, hl, hw⟩ := ih hp
      exact ⟨early, ask, _, hl.snoc hne, hw⟩

theorem inquiry (hc : Course (.start n) h s) (hp : s.phases[c]? = some (.looking w k)) :
    ∃ early first between second later, Inquiry c w k h early first between second later := by
  induction hc with
  | start => cases List.eq_of_mem_replicate (List.mem_of_getElem? hp)
  | pass hc hi ih =>
    rcases (happening_of_happen hi).looking hp with ⟨rfl, hp, hk⟩ | ⟨⟨hwhich, hask⟩, hp⟩
    · obtain ⟨early, first, between, hl, hw⟩ := hc.hasAsked hp
      have heq := hl.eq
      subst heq
      exact ⟨early, first, between, _, [], hl.snoc (by simp), hw, .here _ rfl, hk⟩
    · obtain ⟨early, first, between, second, later, hin⟩ := ih hp
      refine ⟨early, first, between, second, _, ?_, hin.working, hin.looked.snoc hwhich,
        hin.current⟩
      simpa using hin.asked.snoc hask

/-- Where there has been no task at the second look, none was active at the first. -/
theorem idle_of_no_task (hc : Course (.start n) h s) (ha : HasAsked c w h)
    (hnone : s.slot.current? = none) : w = false := by
  obtain ⟨early, first, since, hl, rfl⟩ := ha
  obtain ⟨hpre, hh, hpost⟩ := hc.split hl.eq
  have hsane := hh.sane (hpre.sane (.init n))
  cases hact : first.after.slot.active with
  | none => rfl
  | some k =>
    have hcur : first.after.slot.current? = some k := by simp [Slot.current?, hact]
    obtain ⟨m, hm, _⟩ := hpost.current?_le hsane hcur
    rw [hnone] at hm
    cases hm

theorem statusOf_of_inquiry (hc : Course (.start n) h s)
    (hin : Inquiry c w k h early first between second later) : ∃ u, s.statusOf k = some u := by
  obtain ⟨hpre, hsecond, hpost⟩ := hc.split hin.looked.eq
  have hknown := (hsecond.sane (hpre.sane (.init n))).known k hin.current
  obtain ⟨t, ht, _⟩ := hpost.stays (List.getElem?_eq_getElem hknown)
  exact ⟨t.status, statusOf_eq_some.mpr ⟨t, ht, rfl⟩⟩

/-- A task at work is shown after a first look that has found none only if it was started between
the looks, or its run has broken off. -/
theorem at_work_of_idle (hc : Course (.start n) h s)
    (hin : Inquiry c false k h early first between second later) (hu : s.statusOf k = some u)
    (hn : u.isTerminal = false) :
    (∃ y ∈ between, y.event = some (.started k)) ∨ ∃ y ∈ h, y.incident = .breakOff k := by
  obtain ⟨t, ht, rfl⟩ := statusOf_eq_some.mp hu
  obtain ⟨hpre, hfirst, hpost⟩ := hc.split hin.asked.eq
  have hsane := hfirst.sane (hpre.sane (.init n))
  obtain ⟨hmid, hsecond, _⟩ := hpost.split rfl
  have hknown := (hsecond.sane (hmid.sane hsane)).known k hin.current
  rcases hsecond.task (List.getElem?_eq_getElem hknown) with ⟨he, _⟩ | ⟨t₁, ht₁, _⟩
  · -- the second look starts no task
    rw [hin.looked.incident] at hsecond
    exact absurd he hsecond.event_ne_started
  refine (hmid.origin ht₁).imp id ?_
  rintro ⟨t₀, ht₀⟩
  -- a task that was there at the first look was done then
  have hidle : first.after.slot.active = none := by simpa using hin.working.symm
  have hdone : t₀.IsDone := hsane.left k t₀ ht₀ (by simp [hidle])
  obtain ⟨t', ht', hstays⟩ := hpost.stays ht₀
  cases ht.symm.trans ht'
  rcases hstays hdone with hend | hback
  · rw [hn] at hend
    cases hend
  · exact hc.broken ht hback hn

/-- A task at its end is shown after a first look that has found one active only if it has come to
its end since. -/
theorem at_end_of_working (hc : Course (.start n) h s)
    (hin : Inquiry c true k h early first between second later) (hu : s.statusOf k = some u)
    (hend : u.isTerminal = true) :
    ∃ y ∈ between ++ second :: later, y.incident = .step (.turn k u) := by
  obtain ⟨t, ht, rfl⟩ := statusOf_eq_some.mp hu
  obtain ⟨hpre, hfirst, hpost⟩ := hc.split hin.asked.eq
  have hsane := hfirst.sane (hpre.sane (.init n))
  refine (hpost.ended ht hend).resolve_right ?_
  rintro ⟨t₀, ht₀, hend₀⟩
  obtain ⟨hmid, hsecond, _⟩ := hpost.split rfl
  obtain ⟨m, hm⟩ := Option.isSome_iff_exists.mp hin.working.symm
  -- the task that is shown was not there at the first look, unless it was the active one
  have hle : m ≤ k := by
    have hcur : first.after.slot.current? = some m := by simp [Slot.current?, hm]
    obtain ⟨m₁, hm₁, hle₁⟩ := hmid.current?_le hsane hcur
    obtain ⟨m₂, hm₂, hle₂⟩ := hsecond.current?_le (hmid.sane hsane) hm₁
    rw [hin.current] at hm₂
    cases hm₂
    exact Nat.le_trans hle₁ hle₂
  have hlt := (List.getElem?_eq_some_iff.mp ht₀).1
  have hnewest := hsane.newest m hm
  have hk : m = k := by omega
  subst hk
  rw [hin.asked.incident] at hfirst
  rw [hfirst.not_over_of_ask hm ht₀] at hend₀
  cases hend₀

/-- If an inquiry tells of no task, it says that nothing is at work.  Else it shows the status that
the task has which was current at the second look.  If it says that nothing is at work and shows a
status that is not the last one, then that task was started between the looks, or its run has broken
off; if it says that a task is at work and shows a last status, then the task has come to that since
the first look. -/
theorem told_by_inquiry (hc : Course (.start n) h s) {pre post : List Passage}
    {shown : Option Status} (hx : h = pre ++ x :: post)
    (he : x.event = some (.informed w shown)) :
    (shown = none ∧ w = false) ∨
    ∃ c k u early first between second later,
      x.incident = .step (.snapshot c) ∧ Inquiry c w k pre early first between second later ∧
      shown = some u ∧ x.before.statusOf k = some u ∧
      (w = false → u.isTerminal = false →
        (∃ y ∈ between, y.event = some (.started k)) ∨ ∃ y ∈ pre, y.incident = .breakOff k) ∧
      (w = true → u.isTerminal = true →
        ∃ y ∈ between ++ second :: later, y.incident = .step (.turn k u)) := by
  obtain ⟨hpre, hh, _⟩ := hc.split hx
  rw [he] at hh
  obtain ⟨c, ⟨_, hp, hnone, rfl⟩ | ⟨k, hi, hp, rfl⟩⟩ := hh.informed
  · exact .inl ⟨rfl, hpre.idle_of_no_task (hpre.hasAsked hp) hnone⟩
  · obtain ⟨early, first, between, second, later, hin⟩ := hpre.inquiry hp
    obtain ⟨u, hu⟩ := hpre.statusOf_of_inquiry hin
    refine .inr ⟨c, k, u, early, first, between, second, later, hi, hin, hu, hu, ?_, ?_⟩
    · rintro rfl hn
      exact hpre.at_work_of_idle hin hu hn
    · rintro rfl hend
      exact hpre.at_end_of_working hin hu hend

theorem followAll (hc : Course a h s) (is : List Incident) (s' : Callers) (es : List CallerEvent)
    (hf : s.followAll is = some (s', es)) :
    ∃ h', Course a (h ++ h') s' ∧ h'.map Passage.incident = is ∧
      h'.filterMap Passage.event = es := by
  induction is generalizing h s es with
  | nil =>
    cases hf
    exact ⟨[], by simpa using hc, rfl, rfl⟩
  | cons i is ih =>
    obtain ⟨⟨s₁, e⟩, hi, hf⟩ := Option.bind_eq_some_iff.mp hf
    obtain ⟨⟨s₂, es₂⟩, hrest, heq⟩ := Option.map_eq_some_iff.mp hf
    cases heq
    obtain ⟨h', hc', his, hes⟩ := ih (hc.pass hi) es₂ hrest
    refine ⟨⟨s, i, s₁, e⟩ :: h', by simpa using hc', by rw [List.map_cons, his], ?_⟩
    cases e <;> simp [hes]

theorem exists_of_events (is : List Incident) (got : CallerEvent) {es : List CallerEvent}
    (hf : Callers.followAll (.start n) is = some (s, es)) (hgot : got ∈ es) :
    ∃ h x, Course (.start n) h s ∧ h.map Passage.incident = is ∧ x ∈ h ∧ x.event = some got := by
  obtain ⟨h, hc, his, rfl⟩ := Course.start.followAll is s es hf
  obtain ⟨x, hx, hxe⟩ := List.mem_filterMap.mp hgot
  exact ⟨h, x, hc, his, hx, hxe⟩

end Course

namespace Sample

def overtaken : List Incident :=
  [.step (.ask 0), .step .offer, .step (.turn 0 .running), .step (.which 0), .step (.snapshot 0)]

def outlived : List Incident :=
  [.step .offer, .step (.turn 0 .running), .step (.ask 0), .step (.turn 0 .success),
    .step (.which 0), .step (.snapshot 0)]

def afterBreak : List Incident :=
  [.step .offer, .step (.turn 0 .running), .breakOff 0, .step (.beginWait 0), .step (.seeEnd 0),
    .step (.endWait 0), .step (.ask 0), .step (.which 0), .step (.snapshot 0)]

/-- Of an inquiry that tells of a task at work while nothing is, the task was started between the
looks, as no run has broken off. -/
theorem told_by_inquiry_of_overtaken : ∃ h s pre x post, Course (.start 1) h s ∧
    h.map Passage.incident = overtaken ∧ h = pre ++ x :: post ∧
    x.event = some (.informed false (some .running)) ∧
    ∃ c k early first between second later,
      Inquiry c false k pre early first between second later ∧
      ∃ y ∈ between, y.event = some (.started k) := by
  obtain ⟨h, x, hc, his, hmem, he⟩ := Course.exists_of_events (n := 1) overtaken
    (.informed false (some .running)) rfl (by decide)
  obtain ⟨pre, post, hx⟩ := List.append_of_mem hmem
  refine ⟨h, _, pre, x, post, hc, his, hx, he, ?_⟩
  rcases hc.told_by_inquiry hx he with
    ⟨hshown, _⟩ | ⟨c, k, u, early, first, between, second, later, _, hin, hshown, _, hwork, _⟩
  · cases hshown
  · cases hshown
    rcases hwork rfl rfl with hstarted | ⟨y, hy, hbreak⟩
    · exact ⟨c, k, early, first, between, second, later, hin, hstarted⟩
    · have hmem : y.incident ∈ overtaken := by
        rw [← his, hx]
        exact List.mem_map_of_mem (List.mem_append_left _ hy)
      rw [hbreak] at hmem
      simp [overtaken] at hmem

/-- What an inquiry tells can be at odds with itself, in each of the ways there are: it says that
nothing is at work and shows a task that is, overtaken by a start or after a break, and it says that
a task is at work and shows one at its end. -/
theorem told_at_odds :
    (∃ h s x, Course (.start 1) h s ∧ h.map Passage.incident = overtaken ∧ x ∈ h ∧
      x.event = some (.informed false (some .running))) ∧
    (∃ h s x, Course (.start 1) h s ∧ h.map Passage.incident = outlived ∧ x ∈ h ∧
      x.event = some (.informed true (some .success))) ∧
    ∃ h s x, Course (.start 1) h s ∧ h.map Passage.incident = afterBreak ∧ x ∈ h ∧
      x.event = some (.informed false (some .running)) := by
  refine ⟨?_, ?_, ?_⟩
  · obtain ⟨h, x, hx⟩ := Course.exists_of_events (n := 1) overtaken
      (.informed false (some .running)) rfl (by decide)
    exact ⟨h, _, x, hx⟩
  · obtain ⟨h, x, hx⟩ := Course.exists_of_events (n := 1) outlived
      (.informed true (some .success)) rfl (by decide)
    exact ⟨h, _, x, hx⟩
  · obtain ⟨h, x, hx⟩ := Course.exists_of_events (n := 1) afterBreak
      (.informed false (some .running)) rfl (by decide)
    exact ⟨h, _, x, hx⟩

end Sample

end Callers

end Recon
