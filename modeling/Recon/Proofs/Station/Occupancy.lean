import Recon.Proofs.Station.Move

/-!
# One task at a time

However the callers of a station take turns, all its tasks but the active one are at their end, and
they are retired in the order of their start.  A caller that waits is told how the task has ended
that was active when it began, also when others have been started and retired since; then its
return leaves the slot alone.
-/

namespace Recon

namespace Callers

variable {s s' : Callers} {a : CallerAction} {e : Option CallerEvent} {p : CallerPhase} {c k : Nat}
  {st : Status}

@[simp] theorem put_slot : (s.put c p).slot = s.slot := rfl

theorem statusOf_eq_some :
    s.statusOf k = some st ↔ ∃ t, s.tasks[k]? = some t ∧ t.status = st := by
  simp [statusOf]

theorem lt_length_of_statusOf (h : s.statusOf k = some st) : k < s.tasks.length := by
  obtain ⟨t, ht, _⟩ := statusOf_eq_some.mp h
  exact (List.getElem?_eq_some_iff.mp ht).1

theorem statusOf_append (slot : Slot Nat) (u : StartedTask) (h : s.statusOf k = some st) :
    (Callers.mk slot (s.tasks ++ [u]) s.phases).statusOf k = some st := by
  have hlt := lt_length_of_statusOf h
  rw [statusOf] at h ⊢
  rwa [List.getElem?_append_left hlt]

theorem statusOf_set {t t' : StartedTask} {m : Nat} (ht : s.tasks[m]? = some t) :
    (Callers.mk s.slot (s.tasks.set m t') s.phases).statusOf k =
      if m = k then some t'.status else s.statusOf k := by
  have hlt : m < s.tasks.length := (List.getElem?_eq_some_iff.mp ht).1
  by_cases hk : m = k
  · subst hk
    simp [statusOf, hlt]
  · simp [statusOf, List.getElem?_set_ne hk, hk]

structure Suits (s : Callers) (p : CallerPhase) : Prop where
  known : ∀ k, p.awaited = some k → k < s.tasks.length
  taken : ∀ k, p.awaited = some k → s.slot.active = some k → s.slot.runner = none
  seen : ∀ k st, p = .seen k st → st.isTerminal = true ∧ s.statusOf k = some st

theorem Suits.of_not_awaited (h : p.awaited = none) : s.Suits p := by
  refine ⟨?_, ?_, ?_⟩
  · intro k hk
    rw [h] at hk
    cases hk
  · intro k hk
    rw [h] at hk
    cases hk
  · rintro k st rfl
    cases h

/-- A caller is not concerned where no task is forgotten, the end of a task stays, and a task
becomes active only if it is new. -/
theorem Suits.mono (h : s.Suits p) (hlen : s.tasks.length ≤ s'.tasks.length)
    (hend : ∀ k st, s.statusOf k = some st → st.isTerminal = true → s'.statusOf k = some st)
    (hact : ∀ k, k < s.tasks.length → s'.slot.active = some k →
      s.slot.active = some k ∧ (s.slot.runner = none → s'.slot.runner = none)) : s'.Suits p := by
  refine ⟨?_, ?_, ?_⟩
  · intro k hk
    exact Nat.lt_of_lt_of_le (h.known k hk) hlen
  · intro k hk ha
    obtain ⟨hb, hr⟩ := hact k (h.known k hk) ha
    exact hr (h.taken k hk hb)
  · intro k st he
    obtain ⟨ht, hs⟩ := h.seen k st he
    exact ⟨ht, hend k st hs ht⟩

structure Kept (s : Callers) : Prop where
  newest : ∀ k, s.slot.active = some k → k + 1 = s.tasks.length
  ended : ∀ k st, s.statusOf k = some st → s.slot.active ≠ some k → st.isTerminal = true
  back : ∀ t ∈ s.tasks, t.isBack = true → t.status.isTerminal = true
  runner : ∀ k, s.slot.runner = some k → s.slot.active = some k
  phases : ∀ p ∈ s.phases, s.Suits p

namespace Kept

theorem init (n : Nat) : Kept (.start n) := by
  refine ⟨?_, ?_, ?_, ?_, ?_⟩
  · simp [start, Slot.empty]
  · simp [start, statusOf]
  · simp [start]
  · simp [start, Slot.empty]
  · intro p hp
    rw [List.eq_of_mem_replicate hp]
    exact .of_not_awaited rfl

theorem put (hk : s.Kept) (hp : s.Suits p) : (s.put c p).Kept := by
  refine ⟨hk.newest, hk.ended, hk.back, hk.runner, ?_⟩
  intro q hq
  have hq' : s.Suits q := by
    rcases List.mem_or_eq_of_mem_set hq with hq | rfl
    · exact hk.phases q hq
    · exact hp
  exact ⟨hq'.known, hq'.taken, hq'.seen⟩

theorem retired (hk : s.Kept) (ha : s.slot.active = some k) (ho : s.isOver k = true) :
    Kept { s with slot := ⟨none, none, some k⟩ } := by
  refine ⟨nofun, ?_, hk.back, nofun, ?_⟩
  · intro m st hst _
    by_cases hm : k = m
    · -- the task that has been retired is over
      subst hm
      obtain ⟨st', hst', ht⟩ := isOver_iff.mp ho
      have he : st = st' := Option.some.inj (hst.symm.trans hst')
      rwa [he]
    · refine hk.ended m st hst ?_
      rw [ha]
      simpa using hm
  · intro p hp
    exact (hk.phases p hp).mono (Nat.le_refl _) (fun _ _ h _ => h) nofun

theorem tidy (hk : s.Kept) : s.tidy.Kept := by
  rcases tidy_cases s with ⟨k, ha, ho, he⟩ | ⟨_, he⟩ <;> rw [he]
  · exact hk.retired ha ho
  · exact hk

/-- A task is started where no other is at work. -/
theorem started (hk : s.Kept) (h : ∀ k, s.slot.active = some k → s.isOver k = true)
    (last : Option Nat) :
    Kept ⟨⟨some s.tasks.length, some s.tasks.length, last⟩, s.tasks ++ [⟨.init, false⟩],
      s.phases⟩ := by
  refine ⟨by simp, ?_, ?_, by simp, ?_⟩
  · intro k st hst hne
    have hlt : k < s.tasks.length := by
      have hle := lt_length_of_statusOf hst
      simp only [List.length_append, List.length_singleton] at hle
      have hne' : s.tasks.length ≠ k := by simpa using hne
      omega
    have hst' : s.statusOf k = some st := by
      rwa [statusOf, List.getElem?_append_left hlt] at hst
    -- the task that was active before is over as well
    by_cases ha : s.slot.active = some k
    · obtain ⟨st', he, ht⟩ := isOver_iff.mp (h k ha)
      rw [hst'] at he
      cases he
      exact ht
    · exact hk.ended k st hst' ha
  · intro t ht hb
    rcases List.mem_append.mp ht with ht | ht
    · exact hk.back t ht hb
    · rw [List.mem_singleton.mp ht] at hb
      cases hb
  · intro p hp
    refine (hk.phases p hp).mono (by simp) (fun k st hst _ => statusOf_append _ _ hst) ?_
    intro k hlt ha
    have he : s.tasks.length = k := by simpa using ha
    omega

theorem handleTaken (hk : s.Kept) : Kept { s with slot := { s.slot with runner := none } } := by
  refine ⟨hk.newest, hk.ended, hk.back, nofun, ?_⟩
  intro p hp
  exact (hk.phases p hp).mono (Nat.le_refl _) (fun _ _ h _ => h) fun _ _ ha => ⟨ha, fun _ => rfl⟩

theorem replaced (hk : s.Kept) {t t' : StartedTask} (ht : s.tasks[k]? = some t)
    (hend : t.status.isTerminal = true → t'.status = t.status)
    (hback : t'.isBack = true → t'.status.isTerminal = true) :
    Kept { s with tasks := s.tasks.set k t' } := by
  have hst : s.statusOf k = some t.status := by simp [statusOf, ht]
  refine ⟨by simpa using hk.newest, ?_, ?_, hk.runner, ?_⟩
  · intro m st hm hne
    rw [statusOf_set ht] at hm
    by_cases he : k = m
    · -- a task that is not active was over before, so it has changed nothing but its return
      subst he
      have hover := hk.ended k t.status hst hne
      rw [if_pos rfl, hend hover] at hm
      cases hm
      exact hover
    · rw [if_neg he] at hm
      exact hk.ended m st hm hne
  · intro u hu hb
    rcases List.mem_or_eq_of_mem_set hu with hu | rfl
    · exact hk.back u hu hb
    · exact hback hb
  · intro p hp
    refine (hk.phases p hp).mono (by simp) ?_ fun _ _ ha => ⟨ha, id⟩
    intro m st hm hterm
    rw [statusOf_set ht]
    by_cases he : k = m
    · subst he
      rw [hst] at hm
      cases hm
      rw [if_pos rfl, hend hterm]
    · rw [if_neg he, hm]

/-- The return of a caller retires its task, or leaves the slot alone. -/
theorem slot_endWait (hk : s.Kept) (hp : .seen k st ∈ s.phases) :
    s.slot.endWait k = if s.slot.active = some k then ⟨none, none, some k⟩ else s.slot := by
  by_cases ha : s.slot.active = some k
  · have hr := (hk.phases _ hp).taken k rfl ha
    simp [Slot.endWait, ha, hr]
  · simp [Slot.endWait, ha]

theorem waitEnded (hk : s.Kept) (hp : .seen k st ∈ s.phases) :
    Kept { s with slot := s.slot.endWait k } := by
  rw [hk.slot_endWait hp]
  by_cases ha : s.slot.active = some k
  · rw [if_pos ha]
    obtain ⟨ht, hst⟩ := (hk.phases _ hp).seen k st rfl
    exact hk.retired ha (isOver_iff.mpr ⟨st, hst, ht⟩)
  · rw [if_neg ha]
    exact hk

end Kept

theorem Move.kept (hm : Move s a s' e) (hk : s.Kept) : s'.Kept := by
  cases hm
  case started h => exact hk.started h _
  case turnedAway => exact hk
  case looked => exact hk.tidy
  case waitBegun c k hp ha =>
    refine hk.handleTaken.put ⟨?_, fun _ _ _ => rfl, nofun⟩
    rintro m ⟨⟩
    have hn := hk.newest k ha
    simp only
    omega
  case waitRefused => exact hk
  case sawEnd c k hasHandle t hp ht h =>
    have hold := hk.phases _ (List.mem_of_getElem? hp)
    -- the handle gives the end only when the run is back, so also then the status is the last one
    have hterm : t.status.isTerminal = true := by
      cases hasHandle
      · exact h
      · exact hk.back t (List.mem_of_getElem? ht) h
    refine hk.put ⟨?_, ?_, ?_⟩
    · rintro m ⟨⟩
      exact hold.known k rfl
    · rintro m ⟨⟩
      exact hold.taken k rfl
    · rintro m st ⟨⟩
      exact ⟨hterm, by simp [statusOf, ht]⟩
  case waitEnded hp => exact (hk.waitEnded (List.mem_of_getElem? hp)).put (.of_not_awaited rfl)
  case abandoned => exact hk.put (.of_not_awaited rfl)
  case asked => exact hk.tidy.put (.of_not_awaited rfl)
  case told => exact hk.tidy.put (.of_not_awaited rfl)
  case toldNone => exact hk.tidy.put (.of_not_awaited rfl)
  case informed => exact hk.put (.of_not_awaited rfl)
  case turned k st t ht h =>
    refine hk.replaced ht (by simp [h]) ?_
    intro hb
    have := hk.back t (List.mem_of_getElem? ht) hb
    simp [this] at h
  case cameBack ht h => exact hk.replaced ht (fun _ => rfl) fun _ => h

theorem Move.statusOf_of_terminal (hm : Move s a s' e) (hst : s.statusOf k = some st)
    (ht : st.isTerminal = true) : s'.statusOf k = some st := by
  cases hm
  case started => exact statusOf_append _ _ hst
  case turned m st' t htask h =>
    -- a status that is the last one does not turn
    have hne : m ≠ k := by
      rintro rfl
      rw [statusOf, htask] at hst
      cases hst
      rw [ht] at h
      cases h
    rw [statusOf_set htask, if_neg hne, hst]
  case cameBack m t htask h =>
    rw [statusOf_set htask]
    by_cases he : m = k
    · subst he
      rw [statusOf, htask] at hst
      rwa [if_pos rfl]
    · rw [if_neg he, hst]
  all_goals exact hst

structure Turn where
  before : Callers
  action : CallerAction
  after : Callers
  event : Option CallerEvent

/-- The turns that a station can take with some callers, and where they lead. -/
inductive Run (n : Nat) : List Turn → Callers → Prop
  | start : Run n [] (.start n)
  | turn {h s a s' e} (hr : Run n h s) (hs : s.step a = some (s', e)) :
      Run n (h ++ [⟨s, a, s', e⟩]) s'

def follow (s : Callers) : List CallerAction → Option Callers
  | [] => some s
  | a :: as => (s.step a).bind fun (s', _) => s'.follow as

def Turn.retires (x : Turn) : List Nat :=
  x.before.slot.active.toList.filter fun k => x.after.slot.active != some k

def retired (h : List Turn) : List Nat := h.flatMap Turn.retires

/-- A caller has begun to wait while a task was active, and has neither come back nor given up. -/
def Awaits (c k : Nat) (h : List Turn) : Prop :=
  ∃ pre x post, h = pre ++ x :: post ∧ x.action = .beginWait c ∧ x.before.slot.active = some k ∧
    ∀ y ∈ post, y.action ≠ .beginWait c ∧ y.action ≠ .endWait c ∧ y.action ≠ .abandon c

theorem Awaits.snoc {h : List Turn} {y : Turn} (hw : Awaits c k h)
    (hy : y.action ≠ .beginWait c ∧ y.action ≠ .endWait c ∧ y.action ≠ .abandon c) :
    Awaits c k (h ++ [y]) := by
  obtain ⟨pre, x, post, rfl, hx, ha, hpost⟩ := hw
  refine ⟨pre, x, post ++ [y], by simp, hx, ha, ?_⟩
  intro z hz
  rcases List.mem_append.mp hz with hz | hz
  · exact hpost z hz
  · rwa [List.mem_singleton.mp hz]

/-- What a turn does to the order of the tasks: those that leave the slot are followed by the one
that is in it, and those that enter it are the next ones. -/
def Turn.InOrder (x : Turn) : Prop :=
  ∃ m, x.after.tasks.length = x.before.tasks.length + m ∧
    x.retires ++ x.after.slot.active.toList =
      x.before.slot.active.toList ++ List.range' x.before.tasks.length m ∧
    x.after.slot.last = x.retires.getLast?.or x.before.slot.last

theorem inOrder_of_slot_eq (htasks : s'.tasks.length = s.tasks.length)
    (hact : s'.slot.active = s.slot.active) (hlast : s'.slot.last = s.slot.last) :
    Turn.InOrder ⟨s, a, s', e⟩ := by
  refine ⟨0, htasks, ?_⟩
  cases ha : s.slot.active <;> simp [Turn.retires, hact, hlast, ha]

theorem inOrder_of_retired (htasks : s'.tasks.length = s.tasks.length)
    (ha : s.slot.active = some k) (hs : s'.slot = ⟨none, none, some k⟩) :
    Turn.InOrder ⟨s, a, s', e⟩ := by
  refine ⟨0, htasks, ?_⟩
  simp [Turn.retires, hs, ha]

theorem inOrder_of_tidy (htasks : s'.tasks.length = s.tasks.length)
    (hs : s'.slot = s.tidy.slot) : Turn.InOrder ⟨s, a, s', e⟩ := by
  rcases tidy_cases s with ⟨k, ha, _, he⟩ | ⟨_, he⟩ <;> rw [he] at hs
  · exact inOrder_of_retired htasks ha hs
  · exact inOrder_of_slot_eq htasks (by rw [hs]) (by rw [hs])

theorem Move.inOrder (hm : Move s a s' e) (hk : s.Kept) : Turn.InOrder ⟨s, a, s', e⟩ := by
  cases hm
  case started =>
    refine ⟨1, by simp, ?_⟩
    cases ha : s.slot.active with
    | none => simp [Turn.retires, Slot.current?, ha]
    | some k =>
      -- the task that is over is retired for the new one
      have hne : s.tasks.length ≠ k := by
        have := hk.newest k ha
        omega
      simp [Turn.retires, Slot.current?, ha, hne]
  case looked => exact inOrder_of_tidy rfl rfl
  case asked => exact inOrder_of_tidy rfl rfl
  case told => exact inOrder_of_tidy rfl rfl
  case toldNone => exact inOrder_of_tidy rfl rfl
  case waitEnded c k st hp =>
    have hs := hk.slot_endWait (List.mem_of_getElem? hp)
    by_cases ha : s.slot.active = some k
    · rw [if_pos ha] at hs
      exact inOrder_of_retired rfl ha (by simpa using hs)
    · rw [if_neg ha] at hs
      exact inOrder_of_slot_eq rfl (by simp [hs]) (by simp [hs])
  case turned => exact inOrder_of_slot_eq (by simp) rfl rfl
  case cameBack => exact inOrder_of_slot_eq (by simp) rfl rfl
  all_goals exact inOrder_of_slot_eq rfl rfl rfl

theorem phases_put {d : Nat} {q : CallerPhase} (h : (s.put d q).phases[c]? = some p) :
    (d = c ∧ p = q) ∨ (d ≠ c ∧ s.phases[c]? = some p) := by
  by_cases hd : d = c
  · subst hd
    have hlt := (List.getElem?_eq_some_iff.mp h).1
    simp only [put, List.length_set] at hlt
    simp only [put, List.getElem?_set_self hlt, Option.some.injEq] at h
    exact .inl ⟨rfl, h.symm⟩
  · simp only [put, List.getElem?_set_ne hd] at h
    exact .inr ⟨hd, h⟩

theorem Move.of_waited (hm : Move s a s' (some (.waited k st))) :
    ∃ c, a = .endWait c ∧ s.phases[c]? = some (.seen k st) ∧ s'.slot = s.slot.endWait k := by
  cases hm with
  | @waitEnded c _ _ hp => exact ⟨c, rfl, hp, rfl⟩

/-- A caller waits for a task since it has begun to while that was active. -/
theorem Move.awaited (hm : Move s a s' e) (hp : s'.phases[c]? = some p) (hw : p.awaited = some k) :
    a = .beginWait c ∧ s.slot.active = some k ∨
      (a ≠ .beginWait c ∧ a ≠ .endWait c ∧ a ≠ .abandon c) ∧
        ∃ q, s.phases[c]? = some q ∧ q.awaited = some k := by
  cases hm
  case waitBegun d m hd ha =>
    rcases phases_put hp with ⟨rfl, rfl⟩ | ⟨hne, hp⟩
    · cases hw
      exact .inl ⟨rfl, ha⟩
    · exact .inr ⟨by simp [hne], p, hp, hw⟩
  case waitRefused d hd ha =>
    -- it is idle, so it is another caller
    have hne : d ≠ c := by
      rintro rfl
      rw [hd] at hp
      cases hp
      cases hw
    exact .inr ⟨by simp [hne], p, hp, hw⟩
  case sawEnd d m hasHandle t hd ht h =>
    rcases phases_put hp with ⟨rfl, rfl⟩ | ⟨hne, hp⟩
    · exact .inr ⟨by simp, _, hd, hw⟩
    · exact .inr ⟨by simp, p, hp, hw⟩
  case started | turnedAway | looked | turned | cameBack => exact .inr ⟨by simp, p, hp, hw⟩
  -- the others leave their caller with no task to wait for
  all_goals
    rcases phases_put hp with ⟨rfl, rfl⟩ | ⟨hne, hp⟩
    · cases hw
    · exact .inr ⟨by simp [hne], p, hp, hw⟩

namespace Run

variable {n : Nat} {h : List Turn}

theorem kept (hr : Run n h s) : s.Kept := by
  induction hr with
  | start => exact .init n
  | turn _ hs ih => exact (move_of_step hs).kept ih

/-- The tasks are retired in the order of their start, and the last of them is known. -/
theorem retired_eq (hr : Run n h s) :
    retired h ++ s.slot.active.toList = List.range s.tasks.length ∧
      s.slot.last = (retired h).getLast? := by
  induction hr with
  | start => exact ⟨rfl, rfl⟩
  | @turn h s a s' e hr hs ih =>
    obtain ⟨m, hlen, hact, hlast⟩ := (move_of_step hs).inOrder hr.kept
    obtain ⟨hall, hprev⟩ := ih
    have hsnoc : retired (h ++ [⟨s, a, s', e⟩]) = retired h ++ Turn.retires ⟨s, a, s', e⟩ := by
      simp [retired]
    rw [hsnoc]
    constructor
    · calc retired h ++ Turn.retires ⟨s, a, s', e⟩ ++ s'.slot.active.toList
          = (retired h ++ s.slot.active.toList) ++ List.range' s.tasks.length m := by
            rw [List.append_assoc, hact, List.append_assoc]
        _ = List.range s.tasks.length ++ List.range' s.tasks.length m := by rw [hall]
        _ = List.range s'.tasks.length := by
            rw [hlen, List.range_eq_range', List.range_eq_range', ← List.range'_append_1]
            simp
    · rw [List.getLast?_append, ← hprev]
      exact hlast

theorem awaits (hr : Run n h s) {p : CallerPhase} (hp : s.phases[c]? = some p)
    (hw : p.awaited = some k) : Awaits c k h := by
  induction hr generalizing p with
  | start =>
    have hidle := List.eq_of_mem_replicate (List.mem_of_getElem? hp)
    rw [hidle] at hw
    cases hw
  | @turn h s a s' e hr hs ih =>
    rcases (move_of_step hs).awaited hp hw with ⟨ha, hk⟩ | ⟨ha, q, hq, hw⟩
    · exact ⟨h, ⟨s, a, s', e⟩, [], rfl, ha, hk, by simp⟩
    · exact (ih hq hw).snoc ha

theorem split (hr : Run n h s) {pre post : List Turn} {x : Turn} (hx : h = pre ++ x :: post) :
    Run n pre x.before ∧ Move x.before x.action x.after x.event := by
  induction hr generalizing post with
  | start => simp at hx
  | @turn h s a s' e hr hs ih =>
    rcases List.eq_nil_or_concat post with rfl | ⟨post', y, rfl⟩
    · -- it is the last turn
      obtain ⟨rfl, hlast⟩ := List.append_inj' hx rfl
      cases hlast
      exact ⟨hr, move_of_step hs⟩
    · -- it is an earlier one, and the last turn is dropped
      have hx' : h ++ [⟨s, a, s', e⟩] = (pre ++ x :: post') ++ [y] := by simpa using hx
      exact ih (List.append_inj' hx' rfl).1

/-- A caller that has come back has been told how its task has ended, for good. -/
theorem waited (hr : Run n h s) :
    ∀ x ∈ h, ∀ k st, x.event = some (.waited k st) →
      st.isTerminal = true ∧ s.statusOf k = some st := by
  induction hr with
  | start => simp
  | @turn h s a s' e hr hs ih =>
    have hm := move_of_step hs
    intro x hx k st he
    -- whoever came back before was told a last status, and that has stayed
    rcases List.mem_append.mp hx with hx | hx
    · obtain ⟨ht, hst⟩ := ih x hx k st he
      exact ⟨ht, hm.statusOf_of_terminal hst ht⟩
    · rw [List.mem_singleton.mp hx] at he
      subst he
      obtain ⟨c, _, hp, _⟩ := hm.of_waited
      obtain ⟨ht, hst⟩ := (hr.kept.phases _ (List.mem_of_getElem? hp)).seen k st rfl
      exact ⟨ht, hm.statusOf_of_terminal hst ht⟩

/-- Only the active task of a station can be at work.  A task is started just where there is no
active one at work, and else the offer is turned down and changes nothing.  Whoever comes back from
waiting has begun to wait while that task was active, and is told the last status of it, which all
others are told as well; it retires the task if that is still active, and otherwise leaves the slot
as it is.  The tasks are retired in the order of their start. -/
theorem one_at_a_time (hr : Run n h s) :
    (∀ k st, s.statusOf k = some st → st.isTerminal = false → s.slot.active = some k) ∧
    ((∀ k, s.slot.active = some k → s.isOver k = true) →
      s.step .offer =
        some (⟨⟨some s.tasks.length, some s.tasks.length, s.slot.current?⟩,
          s.tasks ++ [⟨.init, false⟩], s.phases⟩, some (.started s.tasks.length))) ∧
    (∀ k, s.slot.active = some k → s.isOver k = false →
      s.step .offer = some (s, some (.refused .busy))) ∧
    (∀ pre x post k st, h = pre ++ x :: post → x.event = some (.waited k st) →
      (∃ c, x.action = .endWait c ∧ Awaits c k pre) ∧
      st.isTerminal = true ∧ s.statusOf k = some st ∧
      x.after.slot =
        if x.before.slot.active = some k then ⟨none, none, some k⟩ else x.before.slot) ∧
    retired h ++ s.slot.active.toList = List.range s.tasks.length ∧
    s.slot.last = (retired h).getLast? := by
  have hk := hr.kept
  refine ⟨?_, step_offer_of_over, fun k ha ho => step_offer_of_busy ha ho, ?_, hr.retired_eq⟩
  · intro k st hst ht
    by_contra hne
    have hover := hk.ended k st hst hne
    rw [ht] at hover
    cases hover
  · intro pre x post k st hx he
    obtain ⟨hpre, hm⟩ := hr.split hx
    obtain ⟨ht, hst⟩ := hr.waited x (by simp [hx]) k st he
    rw [he] at hm
    obtain ⟨c, ha, hp, hslot⟩ := hm.of_waited
    refine ⟨⟨c, ha, hpre.awaits hp rfl⟩, ht, hst, ?_⟩
    rw [hslot]
    exact hpre.kept.slot_endWait (List.mem_of_getElem? hp)

theorem follow (hr : Run n h s) (as : List CallerAction) (s' : Callers)
    (hf : s.follow as = some s') : ∃ h', Run n (h ++ h') s' ∧ h'.map Turn.action = as := by
  induction as generalizing h s with
  | nil =>
    cases hf
    exact ⟨[], by simpa using hr, rfl⟩
  | cons a as ih =>
    obtain ⟨⟨s₁, e⟩, hs, hf⟩ := Option.bind_eq_some_iff.mp hf
    obtain ⟨h', hr', ha⟩ := ih (hr.turn hs) hf
    exact ⟨⟨s, a, s₁, e⟩ :: h', by simpa using hr', by rw [List.map_cons, ha]⟩

end Run

namespace Sample

def relieved : Callers :=
  ⟨⟨some 1, some 1, some 0⟩, [⟨.success, true⟩, ⟨.pausedManually, false⟩], [.idle, .idle]⟩

/-- Two callers wait for the first task.  One of them sees its end at once and has the next task
started; the other comes back from the run only then, and retires nothing.  So the next offer is
turned down. -/
theorem one_at_a_time_of_late_return : ∃ h, Run 2 h relieved ∧
    h.map Turn.action =
      [.offer, .beginWait 0, .beginWait 1, .turn 0 .running, .turn 0 .success, .seeEnd 1,
        .comeBack 0, .endWait 1, .offer, .seeEnd 0, .turn 1 .pausedManually, .endWait 0] ∧
    retired h = [0] ∧ relieved.step .offer = some (relieved, some (.refused .busy)) := by
  obtain ⟨h, hr, ha⟩ := Run.start.follow (n := 2)
    [.offer, .beginWait 0, .beginWait 1, .turn 0 .running, .turn 0 .success, .seeEnd 1,
      .comeBack 0, .endWait 1, .offer, .seeEnd 0, .turn 1 .pausedManually, .endWait 0]
    relieved rfl
  obtain ⟨_, _, hbusy, _, hall, _⟩ := hr.one_at_a_time
  have hret : retired h ++ [1] = [0] ++ [1] := hall
  exact ⟨h, hr, ha, List.append_cancel_right hret, hbusy 1 rfl rfl⟩

end Sample

end Callers

end Recon
