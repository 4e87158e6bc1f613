import HomeScript.Proofs.Automation.TimeOfDay

/-! # Times in digits

A time in digits means itself, so a typed time does not drift when it is read over and over. No
other text means itself.
-/

namespace HomeScript.TimeOfDay

/-- A text `HH:MM:SS` of a time that a day has. -/
def IsTime (clock : String) : Prop :=
  ∃ h < 24, ∃ m < 60, ∃ s < 60, IsClock h m s clock

theorem colon_not_mem_of_isDigit {cs : List Char} (h : ∀ c ∈ cs, c.isDigit) : ':' ∉ cs := by
  intro hcolon
  have hdigit := h ':' hcolon
  simp [Char.isDigit] at hdigit

theorem hasParts_of_digits {clock : String} {hh mm ss : List Char}
    (hclock : clock.toList = hh ++ ':' :: mm ++ ':' :: ss)
    (hdigits : ∀ p ∈ [hh, mm, ss], ∀ c ∈ p, c.isDigit) (hhour : hh ≠ []) (hsecond : ss ≠ []) :
    HasParts clock [hh, mm, ss] := by
  have htrimmed : ∀ p ∈ [hh, mm, ss], Text.IsTrimmed p p := fun p hp =>
    Text.isTrimmed_self fun c hc => Text.isBlank_of_isDigit (hdigits p hp c hc)
  refine ⟨[hh, mm, ss], List.cons_ne_nil _ _,
    fun p hp => colon_not_mem_of_isDigit (hdigits p hp), ?_, List.forall₂_same.2 htrimmed⟩
  have hparts : [':'].intercalate [hh, mm, ss] = clock.toList := by
    simp [hclock, List.intercalate]
  rw [hparts]
  refine ⟨⟨[], [], by simp, by simp, by simp⟩, ?_, ?_⟩
  · intro c hc
    rw [hclock, List.append_assoc, List.head?_append_of_ne_nil _ hhour] at hc
    exact (htrimmed hh (by simp)).first c hc
  · intro c hc
    rw [hclock, List.getLast?_append_of_ne_nil _ (List.cons_ne_nil _ _),
      List.getLast?_cons_of_ne_nil hsecond] at hc
    exact (htrimmed ss (by simp)).last c hc

theorem IsTwoDigits.ne_nil {n : ℕ} {cs : List Char} (h : IsTwoDigits n cs) : cs ≠ [] := by
  rintro rfl
  cases h.1

theorem IsTwoDigits.writes {n : ℕ} {cs : List Char} (h : IsTwoDigits n cs) : Writes cs n :=
  ⟨[], cs, [], .inl rfl, h.ne_nil, h.2.1, by simp [Json.NoDigitFirst], by simp, h.2.2⟩

theorem IsTwoDigits.countsAs {n limit : ℕ} {cs : List Char} (h : IsTwoDigits n cs)
    (hle : n ≤ limit) : CountsAs limit (some cs) n :=
  .written rfl h.writes hle

theorem IsTime.readsAs {clock : String} (h : IsTime clock) : ReadsAs clock (some clock) := by
  obtain ⟨h, hh, m, hm, s, hs, hclock⟩ := h
  obtain ⟨hour, minute, second, hhour, hminute, hsecond, htext⟩ := hclock
  have hdigits : ∀ p ∈ [hour, minute, second], ∀ c ∈ p, c.isDigit := by
    simp only [List.forall_mem_cons]
    exact ⟨hhour.2.1, hminute.2.1, hsecond.2.1, by simp⟩
  exact .time (hasParts_of_digits htext hdigits hhour.ne_nil hsecond.ne_nil) hhour.ne_nil
    (hhour.countsAs (Nat.le_of_lt_succ hh)) (hminute.countsAs (Nat.le_of_lt_succ hm))
    (hsecond.countsAs (Nat.le_of_lt_succ hs))
    ⟨hour, minute, second, hhour, hminute, hsecond, htext⟩

theorem ReadsAs.isTime {text clock : String} (h : ReadsAs text (some clock)) : IsTime clock := by
  cases h with
  | time hps hne hh hm hs hclock =>
    exact ⟨_, Nat.lt_succ_of_le hh.le, _, Nat.lt_succ_of_le hm.le, _, Nat.lt_succ_of_le hs.le,
      hclock⟩

theorem isTime_of_normalize {text clock : String} (h : normalize text = some clock) :
    IsTime clock :=
  (h ▸ readsAs_normalize text).isTime

/-- A typed time in digits is a time of the day, which reading it once more does not change, and
these times are all that reading does not change. -/
theorem normalize_settles :
    (∀ text clock, normalize text = some clock → IsTime clock ∧ normalize clock = some clock)
      ∧ ∀ clock, normalize clock = some clock ↔ IsTime clock := by
  have hself {clock : String} (h : IsTime clock) : normalize clock = some clock :=
    h.readsAs.normalize_eq
  constructor
  · intro text clock h
    have htime := isTime_of_normalize h
    exact ⟨htime, hself htime⟩
  · intro clock
    exact ⟨isTime_of_normalize, hself⟩

end HomeScript.TimeOfDay
