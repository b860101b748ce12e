import Mathlib.Data.List.Basic
import Mathlib.Data.List.TakeWhile
import Recon.Proofs.Text.Digits
import Recon.Time.Clock

/-!
# Texts of times of day

A text is a time of day when it has two numbers of one or two digits around a colon, each with
blanks before it if need be.  A number that is followed by no digit is read to its end.
-/

namespace Recon.Time

open Recon.Text

variable {cs ds rest : List Char} {n : ℕ} {t : TimeOfDay}

structure IsPair (ds : List Char) (n : ℕ) : Prop where
  length : ds.length = 1 ∨ ds.length = 2
  value : foldDigits 10 digitValue? 0 ds = some n

/-- A text shows a time of day: hours and minutes of one or two digits with a colon between them,
and blanks before either number. -/
def TimeOfDay.Shows (cs : List Char) (t : TimeOfDay) : Prop :=
  ∃ a hours b minutes, (∀ c ∈ a, isBlank c = true) ∧ (∀ c ∈ b, isBlank c = true) ∧
    IsPair hours t.hour ∧ IsPair minutes t.minute ∧ cs = a ++ hours ++ ':' :: (b ++ minutes)

namespace IsPair

/-- Both digits, or the only one. -/
theorem cases (h : IsPair ds n) :
    (∃ c, ds = [c] ∧ digitValue? c = some n) ∨
      ∃ c d tens ones, ds = [c, d] ∧ digitValue? c = some tens ∧ digitValue? d = some ones ∧
        n = tens * 10 + ones := by
  obtain ⟨hlength, hvalue⟩ := h
  rcases hlength with hlength | hlength
  · obtain ⟨c, rfl⟩ := List.length_eq_one_iff.mp hlength
    refine .inl ⟨c, rfl, ?_⟩
    cases hc : digitValue? c with
    | none => simp [foldDigits, hc] at hvalue
    | some d => simpa [foldDigits, hc] using hvalue
  · obtain ⟨c, d, rfl⟩ := List.length_eq_two.mp hlength
    cases hc : digitValue? c with
    | none => simp [foldDigits, hc] at hvalue
    | some tens =>
      cases hd : digitValue? d with
      | none => simp [foldDigits, hc, hd] at hvalue
      | some ones =>
        refine .inr ⟨c, d, tens, ones, rfl, hc, hd, ?_⟩
        simpa [foldDigits, hc, hd] using hvalue.symm

theorem one {c : Char} (h : digitValue? c = some n) : IsPair [c] n where
  length := .inl rfl
  value := by simp [foldDigits, h]

theorem two {c d : Char} {tens ones : ℕ} (hc : digitValue? c = some tens)
    (hd : digitValue? d = some ones) : IsPair [c, d] (tens * 10 + ones) where
  length := .inr rfl
  value := by simp [foldDigits, hc, hd]

/-- A number below a hundred is written as a pair. -/
theorem twoDigits : ∀ n < 100, IsPair (twoDigits n) n := by
  have hall : ∀ n < 100, (Time.twoDigits n).length = 2 ∧
      foldDigits 10 digitValue? 0 (Time.twoDigits n) = some n := by
    decide +kernel
  exact fun n hn => ⟨.inr (hall n hn).1, (hall n hn).2⟩

end IsPair

theorem isBlank_eq_false_of_digit {c : Char} (h : digitValue? c = some n) : isBlank c = false := by
  have hrange := toNat_of_digitValue? (Option.isSome_of_mem h)
  exact isBlank_eq_false (by omega) (by omega)

/-- Blanks and a pair are read, unless the pair goes on. -/
theorem readPair_append {a : List Char} (ha : ∀ c ∈ a, isBlank c = true) (hp : IsPair ds n)
    (hr : ∀ c ∈ rest.head?, digitValue? c = none) : readPair (a ++ ds ++ rest) = .ok (n, rest) := by
  rw [readPair, List.append_assoc, List.dropWhile_append_of_pos ha]
  rcases hp.cases with ⟨c, rfl, hc⟩ | ⟨c, d, tens, ones, rfl, hc, hd, rfl⟩
  · have hblank := isBlank_eq_false_of_digit hc
    cases rest with
    | nil => simp [hblank, hc]
    | cons e es => simp [hblank, hc, hr e rfl]
  · have hblank := isBlank_eq_false_of_digit hc
    simp [hblank, hc, hd]

theorem exists_of_readPair (h : readPair cs = .ok (n, rest)) :
    ∃ a ds, (∀ c ∈ a, isBlank c = true) ∧ IsPair ds n ∧ cs = a ++ ds ++ rest := by
  have hsplit : cs = cs.takeWhile isBlank ++ cs.dropWhile isBlank :=
    List.takeWhile_append_dropWhile.symm
  have hblank : ∀ c ∈ cs.takeWhile isBlank, isBlank c = true := fun c => List.mem_takeWhile_imp
  unfold readPair at h
  split at h
  · cases h
  · next c tail hdrop =>
    rw [hdrop] at hsplit
    split at h
    · cases h
    · next tens hc =>
      split at h
      · cases h
        exact ⟨_, [c], hblank, .one hc, by simpa using hsplit⟩
      · next d tail =>
        split at h
        · cases h
          exact ⟨_, [c], hblank, .one hc, by simpa using hsplit⟩
        · next ones hd =>
          cases h
          exact ⟨_, [c, d], hblank, .two hc hd, by simpa using hsplit⟩

theorem TimeOfDay.shows_of_read (h : TimeOfDay.read cs = .ok t) : t.Shows cs := by
  unfold TimeOfDay.read at h
  split at h
  · cases h
  · next hour rest hhour =>
    split at h
    · split at h
      · cases h
      · next tail =>
        split at h
        · cases h
        · next minute after hminute =>
          split at h
          · split at h
            · next hend =>
              cases h
              cases List.isEmpty_iff.mp hend
              obtain ⟨a, hours, ha, hhours, rfl⟩ := exists_of_readPair hhour
              obtain ⟨b, minutes, hb, hminutes, rfl⟩ := exists_of_readPair hminute
              exact ⟨a, hours, b, minutes, ha, hb, hhours, hminutes, by simp⟩
            · cases h
          · cases h
      · cases h
    · cases h

theorem TimeOfDay.Shows.read_eq (h : t.Shows cs) : TimeOfDay.read cs = .ok t := by
  obtain ⟨a, hours, b, minutes, ha, hb, hhours, hminutes, rfl⟩ := h
  -- neither number goes on: a colon follows the hours, and nothing the minutes
  have hhour : readPair (a ++ hours ++ ':' :: (b ++ minutes)) =
      .ok (t.hour.val, ':' :: (b ++ minutes)) := by
    refine readPair_append ha hhours ?_
    intro c hc
    cases hc
    decide
  have hminute : readPair (b ++ minutes) = .ok (t.minute.val, []) := by
    rw [← List.append_nil (b ++ minutes)]
    exact readPair_append hb hminutes (by simp)
  unfold TimeOfDay.read
  rw [hhour]
  simp [hminute]

/-- A time of day is read from the texts that show it. -/
theorem TimeOfDay.read_eq_ok_iff : TimeOfDay.read cs = .ok t ↔ t.Shows cs :=
  ⟨shows_of_read, Shows.read_eq⟩

theorem TimeOfDay.of_mem_write {c : Char} (hc : c ∈ t.write) :
    c = ':' ∨ (digitValue? c).isSome = true := by
  have hdigit {n : ℕ} (hn : n < 100) : ∀ c ∈ twoDigits n, (digitValue? c).isSome = true :=
    isSome_of_foldDigits (IsPair.twoDigits n hn).value
  rw [write, List.mem_append, List.mem_cons] at hc
  rcases hc with hc | rfl | hc
  · exact .inr (hdigit (by omega) c hc)
  · exact .inl rfl
  · exact .inr (hdigit (by omega) c hc)

theorem TimeOfDay.isBlank_of_mem_write {c : Char} (hc : c ∈ t.write) : isBlank c = false := by
  rcases of_mem_write hc with rfl | hdigit
  · decide
  · obtain ⟨d, hd⟩ := Option.isSome_iff_exists.mp hdigit
    exact isBlank_eq_false_of_digit hd

/-- A written time of day shows it. -/
theorem TimeOfDay.shows_write (t : TimeOfDay) : t.Shows t.write :=
  ⟨[], twoDigits t.hour, [], twoDigits t.minute, by simp, by simp,
    IsPair.twoDigits t.hour (by omega), IsPair.twoDigits t.minute (by omega), by simp [write]⟩

end Recon.Time
