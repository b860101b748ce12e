import Recon.Proofs.Station.Occupancy
import Recon.Station.Incident

/-!
# What happens at a station

However callers take turns and runs break off, only the active task of a station can be at work, but
for those whose run has broken off.  A task that is at its end stays so, the current task is never
followed by an earlier one, and a caller that makes an inquiry has made its looks one after the
other.
-/

namespace Recon

/-- Whether a task has come to its end, or its run has broken off. -/
def StartedTask.IsDone (t : StartedTask) : Prop := t.status.isTerminal = true ∨ t.isBack = true

namespace Callers

inductive Happening (s : Callers) : Incident → Callers → Option CallerEvent → Prop
  | moved {a : CallerAction} {s' : Callers} {e : Option CallerEvent} (hm : Move s a s' e) :
      Happening s (.step a) s' e
  | broken {k : Nat} {t : StartedTask} (ht : s.tasks[k]? = some t) (hb : t.isBack = false) :
      Happening s (.breakOff k) { s with tasks := s.tasks.set k { t with isBack := true } } none

variable {s s' : Callers} {i : Incident} {e : Option CallerEvent} {c k : Nat} {p : CallerPhase}
  {t t' : StartedTask} {st : Status} {w : Bool}

theorem happening_of_happen (hi : s.happen i = some (s', e)) : s.Happening i s' e := by
  cases i with
  | step a => exact .moved (move_of_step hi)
  | breakOff k =>
    obtain ⟨s'', hb, he⟩ := Option.map_eq_some_iff.mp hi
    cases he
    unfold breakOff at hb
    split at hb <;> try cases hb
    rename_i ht
    split at hb <;> cases hb
    rename_i hback
    exact .broken ht (by simpa using hback)

@[simp] theorem current?_tidy (s : Callers) : s.tidy.slot.current? = s.slot.current? := by
  rcases tidy_cases s with ⟨k, ha, _, he⟩ | ⟨_, he⟩ <;> rw [he]
  simp [Slot.current?, ha]

theorem isDone_of_isOver (ho : s.isOver k = true) (ht : s.tasks[k]? = some t) : t.IsDone := by
  simp only [isOver, ht, Option.map_some, Option.getD_some] at ho
  exact .inl ho

/-- How a task goes on when something happens: an end stays, and only a break brings a run back
before that. -/
structure GoesOn (i : Incident) (k : Nat) (t t' : StartedTask) : Prop where
  back : t.isBack = true → t'.isBack = true
  status : t'.status = t.status ∨
    t.status.isTerminal = false ∧ i = .step (.turn k t'.status)
  broken : t'.isBack = true → t.isBack = true ∨ t.status.isTerminal = true ∨ i = .breakOff k

theorem GoesOn.refl (i : Incident) (k : Nat) (t : StartedTask) : GoesOn i k t t :=
  ⟨id, .inl rfl, .inl⟩

theorem GoesOn.isDone (h : GoesOn i k t t') (hd : t.IsDone) : t'.IsDone := by
  rcases hd with hd | hd
  · rcases h.status with hs | ⟨hn, _⟩
    · exact .inl (hs ▸ hd)
    · rw [hd] at hn
      cases hn
  · exact .inr (h.back hd)

theorem goesOn_of_set {m : Nat} {u u' : StartedTask} (hu : s.tasks[m]? = some u)
    (ht : (s.tasks.set m u')[k]? = some t') (hg : GoesOn i m u u') :
    ∃ t, s.tasks[k]? = some t ∧ GoesOn i k t t' := by
  by_cases hk : m = k
  · subst hk
    have hlt := (List.getElem?_eq_some_iff.mp hu).1
    rw [List.getElem?_set_self hlt] at ht
    cases ht
    exact ⟨u, hu, hg⟩
  · rw [List.getElem?_set_ne hk] at ht
    exact ⟨t', ht, .refl i k t'⟩

namespace Happening

/-- A task after something has happened is a new one, or has gone on. -/
theorem task (hh : s.Happening i s' e) (ht : s'.tasks[k]? = some t') :
    (e = some (.started k) ∧ k = s.tasks.length ∧ s'.slot.active = some k ∧
      t' = ⟨.init, false⟩) ∨
    ∃ t, s.tasks[k]? = some t ∧ GoesOn i k t t' := by
  cases hh with
  | broken hu hb =>
    exact .inr (goesOn_of_set hu ht ⟨fun _ => rfl, .inl rfl, fun _ => .inr (.inr rfl)⟩)
  | moved hm =>
    cases hm
    case started =>
      rcases Nat.lt_or_ge k s.tasks.length with hlt | hge
      · rw [List.getElem?_append_left hlt] at ht
        exact .inr ⟨t', ht, .refl _ k t'⟩
      · rw [List.getElem?_append_right hge] at ht
        obtain ⟨hz, rfl⟩ := List.getElem?_eq_some_iff.mp ht
        have hk : s.tasks.length = k := by
          simp only [List.length_singleton] at hz
          omega
        exact .inl (by simp [hk])
    case turned hu hn => exact .inr (goesOn_of_set hu ht ⟨id, .inr ⟨hn, rfl⟩, .inl⟩)
    case cameBack hu hend =>
      exact .inr (goesOn_of_set hu ht ⟨fun _ => rfl, .inl rfl, fun _ => .inr (.inl hend)⟩)
    all_goals exact .inr ⟨t', ht, .refl _ k t'⟩

theorem length_le (hh : s.Happening i s' e) : s.tasks.length ≤ s'.tasks.length := by
  cases hh with
  | broken => simp
  | moved hm => cases hm <;> simp [put, tidy]

theorem stays (hh : s.Happening i s' e) (ht : s.tasks[k]? = some t) :
    ∃ t', s'.tasks[k]? = some t' ∧ GoesOn i k t t' := by
  have hlt := (List.getElem?_eq_some_iff.mp ht).1
  have ht' := List.getElem?_eq_getElem (Nat.lt_of_lt_of_le hlt hh.length_le)
  refine ⟨_, ht', ?_⟩
  rcases hh.task ht' with ⟨_, hk, _⟩ | ⟨u, hu, hg⟩
  · omega
  · cases ht.symm.trans hu
    exact hg

end Happening

structure Sane (s : Callers) : Prop where
  newest : ∀ k, s.slot.active = some k → k + 1 = s.tasks.length
  known : ∀ k, s.slot.current? = some k → k < s.tasks.length
  left : ∀ (k : Nat) (t : StartedTask), s.tasks[k]? = some t → s.slot.active ≠ some k → t.IsDone
  seen : ∀ (c k : Nat) (st : Status), s.phases[c]? = some (.seen k st) →
    ∃ t, s.tasks[k]? = some t ∧ t.IsDone

theorem Sane.init (n : Nat) : Sane (.start n) where
  newest := nofun
  known := nofun
  left := by simp [start]
  seen c k st hp := by cases List.eq_of_mem_replicate (List.mem_of_getElem? hp)

def ActiveDone (s : Callers) : Prop :=
  ∀ (k : Nat) (t : StartedTask), s.slot.active = some k → s.tasks[k]? = some t → t.IsDone

theorem activeDone_of_isOver (h : ∀ k, s.slot.active = some k → s.isOver k = true) :
    s.ActiveDone :=
  fun k _ ha ht => isDone_of_isOver (h k ha) ht

theorem active_tidy (s : Callers) :
    s.tidy.slot.active = s.slot.active ∨ s.tidy.slot.active = none ∧ s.ActiveDone := by
  rcases tidy_cases s with ⟨k, ha, ho, he⟩ | ⟨_, he⟩ <;> rw [he]
  · refine .inr ⟨rfl, activeDone_of_isOver ?_⟩
    intro m hm
    rw [ha] at hm
    cases hm
    exact ho
  · exact .inl rfl

theorem not_over_of_active_tidy (ha : s.tidy.slot.active = some k) : s.isOver k = false := by
  rcases tidy_cases s with ⟨m, _, _, he⟩ | ⟨hall, he⟩ <;> rw [he] at ha
  · cases ha
  · exact hall k ha

theorem current?_endWait (s : Slot Nat) (k : Nat) : (s.endWait k).current? = s.current? := by
  unfold Slot.endWait
  split
  · next ha => simp [Slot.current?, ha]
  · rfl

theorem active_endWait (hs : s.Sane) (hp : s.phases[c]? = some (.seen k st)) :
    (s.slot.endWait k).active = s.slot.active ∨
      (s.slot.endWait k).active = none ∧ s.ActiveDone := by
  unfold Slot.endWait
  split
  · next ha =>
    refine .inr ⟨rfl, ?_⟩
    intro m t hm ht
    rw [ha] at hm
    cases hm
    obtain ⟨u, hu, hd⟩ := hs.seen c k st hp
    cases ht.symm.trans hu
    exact hd
  · exact .inl rfl

namespace Happening

/-- What happens to the slot: a task is started in it, or what is current stays and at most a task
that is done leaves it. -/
theorem slot (hh : s.Happening i s' e) (hs : s.Sane) :
    (e = some (.started s.tasks.length) ∧ s'.slot.active = some s.tasks.length ∧
      s'.tasks.length = s.tasks.length + 1 ∧ s.ActiveDone) ∨
    s'.slot.current? = s.slot.current? ∧ s'.tasks.length = s.tasks.length ∧
      (s'.slot.active = s.slot.active ∨ s'.slot.active = none ∧ s.ActiveDone) := by
  cases hh with
  | broken => exact .inr ⟨rfl, by simp, .inl rfl⟩
  | moved hm =>
    cases hm
    case started h => exact .inl ⟨rfl, rfl, by simp, activeDone_of_isOver h⟩
    case looked => exact .inr ⟨current?_tidy s, rfl, active_tidy s⟩
    case asked => exact .inr ⟨current?_tidy s, rfl, active_tidy s⟩
    case told => exact .inr ⟨current?_tidy s, rfl, active_tidy s⟩
    case toldNone => exact .inr ⟨current?_tidy s, rfl, active_tidy s⟩
    case waitEnded hp => exact .inr ⟨current?_endWait s.slot _, rfl, active_endWait hs hp⟩
    case turned => exact .inr ⟨rfl, by simp, .inl rfl⟩
    case cameBack => exact .inr ⟨rfl, by simp, .inl rfl⟩
    all_goals exact .inr ⟨rfl, rfl, .inl rfl⟩

theorem seen (hh : s.Happening i s' e) (hs : s.Sane) (hp : s'.phases[c]? = some (.seen k st)) :
    ∃ t, s.tasks[k]? = some t ∧ t.IsDone := by
  have hold := hs.seen c k st
  cases hh with
  | broken => exact hold hp
  | moved hm =>
    cases hm
    case sawEnd d m hasHandle u hd hu hend =>
      rcases phases_put hp with ⟨rfl, he⟩ | ⟨_, hp⟩
      · -- it sees that the run is back, or else the last status
        cases he
        refine ⟨u, hu, ?_⟩
        cases hasHandle
        · exact .inl hend
        · exact .inr hend
      · exact hold hp
    case started | turnedAway | looked | waitRefused | turned | cameBack => exact hold hp
    all_goals
      rcases phases_put hp with ⟨rfl, he⟩ | ⟨_, hp⟩
      · cases he
      · exact hold hp

theorem sane (hh : s.Happening i s' e) (hs : s.Sane) : s'.Sane where
  newest k ha := by
    rcases hh.slot hs with ⟨_, hact, hlen, _⟩ | ⟨_, hlen, hact | ⟨hact, _⟩⟩
    · rw [hact] at ha
      cases ha
      exact hlen.symm
    · rw [hlen]
      exact hs.newest k (hact ▸ ha)
    · rw [hact] at ha
      cases ha
  known k hk := by
    rcases hh.slot hs with ⟨_, hact, hlen, _⟩ | ⟨hcur, hlen, _⟩
    · have he : s.tasks.length = k := by simpa [Slot.current?, hact] using hk
      omega
    · rw [hlen]
      exact hs.known k (hcur ▸ hk)
  left k t' ht' hne := by
    rcases hh.task ht' with ⟨_, _, hact, _⟩ | ⟨t, ht, hg⟩
    · exact absurd hact hne
    · refine hg.isDone ?_
      -- a task that leaves the slot now is done now, any other was done before
      by_cases ha : s.slot.active = some k
      · rcases hh.slot hs with ⟨_, _, _, hdone⟩ | ⟨_, _, hact | ⟨_, hdone⟩⟩
        · exact hdone k t ha ht
        · exact absurd (hact.trans ha) hne
        · exact hdone k t ha ht
      · exact hs.left k t ht ha
  seen c k st hp := by
    obtain ⟨t, ht, hd⟩ := hh.seen hs hp
    obtain ⟨t', ht', hg⟩ := hh.stays ht
    exact ⟨t', ht', hg.isDone hd⟩

/-- A task is current from its start on, until one that is started later is. -/
theorem current?_le (hh : s.Happening i s' e) (hs : s.Sane) (hk : s.slot.current? = some k) :
    ∃ m, s'.slot.current? = some m ∧ k ≤ m := by
  rcases hh.slot hs with ⟨_, hact, _⟩ | ⟨hcur, _⟩
  · have hlt := hs.known k hk
    exact ⟨s.tasks.length, by simp [Slot.current?, hact], by omega⟩
  · exact ⟨k, hcur.trans hk, Nat.le_refl k⟩

/-- A caller that has made its first look makes it now, or has made it before. -/
theorem asking (hh : s.Happening i s' e) (hp : s'.phases[c]? = some (.asking w)) :
    (i = .step (.ask c) ∧ w = s'.slot.active.isSome) ∨
      i ≠ .step (.ask c) ∧ s.phases[c]? = some (.asking w) := by
  cases hh with
  | broken => exact .inr ⟨nofun, hp⟩
  | moved hm =>
    cases hm
    case asked d hd =>
      rcases phases_put hp with ⟨rfl, he⟩ | ⟨hne, hp⟩
      · cases he
        exact .inl ⟨rfl, rfl⟩
      · exact .inr ⟨by simpa using hne, hp⟩
    case started | turnedAway | looked | waitRefused | turned | cameBack =>
      exact .inr ⟨by simp, hp⟩
    all_goals
      rcases phases_put hp with ⟨rfl, he⟩ | ⟨_, hp⟩
      · cases he
      · exact .inr ⟨by simp, hp⟩

theorem looking (hh : s.Happening i s' e) (hp : s'.phases[c]? = some (.looking w k)) :
    (i = .step (.which c) ∧ s.phases[c]? = some (.asking w) ∧ s'.slot.current? = some k) ∨
      (i ≠ .step (.which c) ∧ i ≠ .step (.ask c)) ∧ s.phases[c]? = some (.looking w k) := by
  cases hh with
  | broken => exact .inr ⟨⟨nofun, nofun⟩, hp⟩
  | moved hm =>
    cases hm
    -- only the second look of an inquiry brings a caller there
    case told d v m hd hcur =>
      rcases phases_put hp with ⟨rfl, he⟩ | ⟨hne, hp⟩
      · cases he
        exact .inl ⟨rfl, hd, hcur⟩
      · exact .inr ⟨⟨by simpa using hne, by simp⟩, hp⟩
    case toldNone d v hd hcur =>
      rcases phases_put hp with ⟨rfl, he⟩ | ⟨hne, hp⟩
      · cases he
      · exact .inr ⟨⟨by simpa using hne, by simp⟩, hp⟩
    case asked d hd =>
      rcases phases_put hp with ⟨rfl, he⟩ | ⟨hne, hp⟩
      · cases he
      · exact .inr ⟨⟨by simp, by simpa using hne⟩, hp⟩
    case started | turnedAway | looked | waitRefused | turned | cameBack =>
      exact .inr ⟨⟨by simp, by simp⟩, hp⟩
    all_goals
      rcases phases_put hp with ⟨rfl, he⟩ | ⟨_, hp⟩
      · cases he
      · exact .inr ⟨⟨by simp, by simp⟩, hp⟩

/-- A caller is told at its second look that there has been no task, or else when it has looked at
the task. -/
theorem informed {shown : Option Status} (hh : s.Happening i s' (some (.informed w shown))) :
    ∃ c, (i = .step (.which c) ∧ s.phases[c]? = some (.asking w) ∧ s.slot.current? = none ∧
        shown = none) ∨
      ∃ k, i = .step (.snapshot c) ∧ s.phases[c]? = some (.looking w k) ∧ shown = s.statusOf k := by
  cases hh with
  | moved hm =>
    cases hm
    case toldNone d hcur hd => exact ⟨d, .inl ⟨rfl, hd, (current?_tidy s).symm.trans hcur, rfl⟩⟩
    case informed d m hd => exact ⟨d, .inr ⟨m, rfl, hd, rfl⟩⟩

theorem event_ne_started (hh : s.Happening (.step (.which c)) s' e) : e ≠ some (.started k) := by
  cases hh with
  | moved hm => cases hm <;> nofun

theorem not_over_of_ask (hh : s.Happening (.step (.ask c)) s' e)
    (ha : s'.slot.active = some k) (ht : s'.tasks[k]? = some t) : t.status.isTerminal = false := by
  cases hh with
  | moved hm =>
    cases hm
    have ho : s.isOver k = false := not_over_of_active_tidy ha
    have ht : s.tasks[k]? = some t := ht
    simpa [isOver, ht] using ho

end Happening

end Callers

end Recon
