import Mathlib.Data.List.Forall2
import HomeScript.Automation.TimeOfDay
import HomeScript.Proofs.Json.Numeral
import HomeScript.Proofs.Number.Word
import HomeScript.Proofs.Text.Blank
import HomeScript.Proofs.Text.Pieces

/-! # What a typed time means

The parts of a text and the number that each part counts as can be told without words of any
width. The time in digits is the one of the first three parts, and there always is one unless the
hour is missing.
-/

namespace HomeScript.TimeOfDay

/-! ## Parts -/

theorem colon_not_mem_of_mem_splitOn {cs p : List Char} (h : p ∈ List.splitOn ':' cs) :
    ':' ∉ p := by
  rw [List.splitOn_eq_splitOnP] at h
  intro hcolon
  exact absurd (Text.not_isMark_of_mem_splitOnP h ':' hcolon) (by decide)

/-- The parts of a text between its colons, without the blanks around the text and each part. -/
def HasParts (text : String) (ps : List (List Char)) : Prop :=
  ∃ raw, raw ≠ [] ∧ (∀ r ∈ raw, ':' ∉ r) ∧ Text.IsTrimmed text.toList ([':'].intercalate raw)
    ∧ List.Forall₂ Text.IsTrimmed raw ps

theorem forall₂_isTrimmed_iff {raw ps : List (List Char)} :
    List.Forall₂ Text.IsTrimmed raw ps ↔ raw.map Text.trim = ps := by
  have htrim : Text.IsTrimmed = fun cs core => Text.trim cs = core := by
    ext cs core
    exact Text.isTrimmed_iff
  rw [htrim, ← List.forall₂_map_left_iff (R := Eq), List.forall₂_eq_eq_eq]

theorem hasParts_iff {text : String} {ps : List (List Char)} :
    HasParts text ps ↔ parts text = ps := by
  constructor
  · rintro ⟨raw, hne, hcolon, htext, hps⟩
    rw [parts, htext.trim_eq, List.splitOn_intercalate ':' hcolon hne]
    exact forall₂_isTrimmed_iff.1 hps
  · intro h
    refine ⟨List.splitOn ':' (Text.trim text.toList), List.splitOn_ne_nil _ _,
      fun r hr => colon_not_mem_of_mem_splitOn hr, ?_, forall₂_isTrimmed_iff.2 h⟩
    rw [List.intercalate_splitOn]
    exact Text.isTrimmed_trim _

theorem parts_ne_nil (text : String) : parts text ≠ [] := by
  rw [parts, ne_eq, List.map_eq_nil_iff]
  exact List.splitOn_ne_nil _ _

/-! ## Components -/

/-- The number written by the digits at the start of a part, behind a plus sign if there is one. -/
def Writes (part : List Char) (n : ℕ) : Prop :=
  ∃ plus ds rest, (plus = [] ∨ plus = ['+']) ∧ ds ≠ [] ∧ (∀ c ∈ ds, c.isDigit)
    ∧ Json.NoDigitFirst rest ∧ part = plus ++ (ds ++ rest) ∧ Nat.ofDigitChars 10 ds 0 = n

/-- The number that a part counts as: what is written in it, or zero if that is above the limit, if
nothing is written there, or if there is no such part. -/
inductive CountsAs (limit : ℕ) (part : Option (List Char)) : ℕ → Prop where
  | written {p : List Char} {n : ℕ} (hp : part = some p) (hn : Writes p n) (hle : n ≤ limit) :
    CountsAs limit part n
  | unusable (h : ∀ p, part = some p → ∀ n, Writes p n → limit < n) : CountsAs limit part 0

theorem sign_digits {plus ds rest : List Char} (hplus : plus = [] ∨ plus = ['+']) (hne : ds ≠ [])
    (hds : ∀ c ∈ ds, c.isDigit) : Number.sign (plus ++ (ds ++ rest)) = (false, ds ++ rest) := by
  rcases hplus with rfl | rfl
  · obtain ⟨d, ds, rfl⟩ := List.exists_cons_of_ne_nil hne
    have hd := hds d List.mem_cons_self
    rw [List.nil_append, List.cons_append]
    unfold Number.sign
    split
    · next h => simp [(List.cons.inj h).1, Char.isDigit] at hd
    · next h => simp [(List.cons.inj h).1, Char.isDigit] at hd
    · rfl
  · rfl

theorem writes_iff {part : List Char} {n : ℕ} : Writes part n ↔
    ∃ rest, Number.sign part = (false, rest) ∧ (Number.digits rest).1 ≠ []
      ∧ Nat.ofDigitChars 10 (Number.digits rest).1 0 = n := by
  constructor
  · rintro ⟨plus, ds, rest, hplus, hne, hds, hrest, rfl, hn⟩
    refine ⟨ds ++ rest, sign_digits hplus hne hds, ?_⟩
    rw [Json.digits_append hds hrest]
    exact ⟨hne, hn⟩
  · rintro ⟨rest, hsign, hne, hn⟩
    have hplus : ∃ plus, (plus = [] ∨ plus = ['+']) ∧ part = plus ++ rest := by
      unfold Number.sign at hsign
      split at hsign
      · cases hsign
      · cases hsign
        exact ⟨['+'], .inr rfl, rfl⟩
      · cases hsign
        exact ⟨[], .inl rfl, rfl⟩
    obtain ⟨plus, hplus, rfl⟩ := hplus
    refine ⟨plus, _, rest.dropWhile Char.isDigit, hplus, hne, ?_, ?_, ?_, hn⟩
    · exact fun c hc => List.mem_takeWhile_imp hc
    · exact Text.eq_false_of_head?_dropWhile Char.isDigit rest
    · rw [Number.digits, List.takeWhile_append_dropWhile]

theorem Writes.unique {part : List Char} {m n : ℕ} (hm : Writes part m) (hn : Writes part n) :
    m = n := by
  obtain ⟨rest, hsign, -, rfl⟩ := writes_iff.1 hm
  obtain ⟨rest', hsign', -, rfl⟩ := writes_iff.1 hn
  rw [(Prod.mk.inj (hsign.symm.trans hsign')).2]

theorem CountsAs.unique {limit m n : ℕ} {part : Option (List Char)} (hm : CountsAs limit part m)
    (hn : CountsAs limit part n) : m = n := by
  cases hm with
  | written hp hm hle =>
    cases hn with
    | written hp' hn =>
      obtain rfl := Option.some.inj (hp.symm.trans hp')
      exact hm.unique hn
    | unusable h => exact absurd (h _ hp _ hm) (by omega)
  | unusable h =>
    cases hn with
    | written hp hn hle => exact absurd (h _ hp _ hn) (by omega)
    | unusable => rfl

theorem number?_of_writes {part : List Char} {n : ℕ} (h : Writes part n) (u : UInt32) :
    number? part = some u ↔ u.toNat = n := by
  have hlead (w : Int64) : Number.leadingWord? part = some w ↔ w.toInt = n := by
    obtain ⟨rest, hsign, hne, rfl⟩ := writes_iff.1 h
    simp [Number.leadingWord?, hsign, Number.word?_eq_some_iff, hne]
  simp only [number?, Option.bind_eq_some_iff, hlead, Number.unsignedWord?_eq_some_iff]
  constructor
  · rintro ⟨w, hw, hu⟩
    omega
  · rintro rfl
    have hlt := u.toNat_lt
    exact ⟨.ofInt u.toNat, by rw [Int64.toInt_ofInt_of_le (by omega) (by omega)]; simp⟩

/-- Where no number is written, there may still be one behind a minus sign. -/
theorem number?_of_not_writes {part : List Char} (h : ∀ n, ¬ Writes part n) {u : UInt32}
    (hu : number? part = some u) : u = 0 := by
  obtain ⟨w, hw, hu⟩ := Option.bind_eq_some_iff.1 hu
  rw [Number.unsignedWord?_eq_some_iff] at hu
  unfold Number.leadingWord? at hw
  split at hw
  next negative rest hsign =>
  obtain ⟨v, hv, rfl⟩ := Option.map_eq_some_iff.1 hw
  obtain ⟨hne, hv⟩ := Number.word?_eq_some_iff.1 hv
  cases negative with
  | false => exact absurd (writes_iff.2 ⟨rest, hsign, hne, rfl⟩) (h _)
  | true =>
    have hlt := v.toInt_lt
    rw [if_pos rfl, Int64.toInt_neg, Int.bmod_eq_of_le (by omega) (by omega)] at hu
    rw [← UInt32.toNat_inj, UInt32.toNat_zero]
    omega

theorem component_of_none {limit : UInt32} {part : List Char} (h : number? part = none) :
    component limit (some part) = 0 := by
  rw [component, Option.bind_some, h]
  rfl

theorem component_of_some {limit u : UInt32} {part : List Char} (h : number? part = some u) :
    component limit (some part) = if u ≤ limit then u else 0 := by
  rw [component, Option.bind_some, h, Option.filter_some]
  split <;> simp_all

theorem component_eq_zero {limit : UInt32} {part : List Char}
    (h : ∀ u, number? part = some u → limit < u ∨ u = 0) : component limit (some part) = 0 := by
  cases hnumber : number? part with
  | none => exact component_of_none hnumber
  | some u =>
    rw [component_of_some hnumber]
    rcases h u hnumber with hlt | rfl
    · exact if_neg (UInt32.not_le.2 hlt)
    · exact ite_self _

theorem component_of_writes {limit : UInt32} {part : List Char} {n : ℕ} (h : Writes part n) :
    (component limit (some part)).toNat = if n ≤ limit.toNat then n else 0 := by
  split
  · next hle =>
    have hu : (UInt32.ofNat n).toNat = n :=
      UInt32.toNat_ofNat_of_lt' (hle.trans_lt limit.toNat_lt_size)
    have hroom : UInt32.ofNat n ≤ limit := by
      rw [UInt32.le_iff_toNat_le, hu]
      exact hle
    rw [component_of_some ((number?_of_writes h _).2 hu), if_pos hroom, hu]
  · next hle =>
    have hzero : component limit (some part) = 0 := by
      refine component_eq_zero fun u hnumber => .inl ?_
      rw [UInt32.lt_iff_toNat_lt, (number?_of_writes h u).1 hnumber]
      exact not_le.1 hle
    rw [hzero, UInt32.toNat_zero]

theorem component_of_not_writes {limit : UInt32} {part : List Char} (h : ∀ n, ¬ Writes part n) :
    component limit (some part) = 0 :=
  component_eq_zero fun _ hnumber => .inr (number?_of_not_writes h hnumber)

theorem countsAs_component (limit : UInt32) (part : Option (List Char)) :
    CountsAs limit.toNat part (component limit part).toNat := by
  cases part with
  | none => exact .unusable fun p hp => nomatch hp
  | some part =>
    by_cases hwrites : ∃ n, Writes part n
    · obtain ⟨n, hn⟩ := hwrites
      rw [component_of_writes hn]
      split
      · next hle => exact .written rfl hn hle
      · next hle =>
        refine .unusable fun p hp m hm => ?_
        obtain rfl := Option.some.inj hp
        rw [hm.unique hn]
        exact not_le.1 hle
    · have hnone : ∀ n, ¬ Writes part n := not_exists.1 hwrites
      rw [component_of_not_writes hnone]
      refine .unusable fun p hp m hm => ?_
      obtain rfl := Option.some.inj hp
      exact absurd hm (hnone m)

theorem CountsAs.le {limit n : ℕ} {part : Option (List Char)} (h : CountsAs limit part n) :
    n ≤ limit := by
  cases h with
  | written _ _ hle => exact hle
  | unusable => exact Nat.zero_le _

theorem countsAs_iff (limit : UInt32) {part : Option (List Char)} {n : ℕ} :
    CountsAs limit.toNat part n ↔ (component limit part).toNat = n := by
  constructor
  · exact (countsAs_component limit part).unique
  · rintro rfl
    exact countsAs_component limit part

/-! ## Digits -/

theorem digitChar_of_isDigit {c : Char} (h : c.isDigit) :
    Nat.digitChar (c.toNat - '0'.toNat) = c ∧ c.toNat - '0'.toNat < 10 := by
  have hc := Char.isDigit_iff_toNat.1 h
  have hzero : '0'.toNat = 48 := rfl
  have hnine : '9'.toNat = 57 := rfl
  have hlt : c.toNat - '0'.toNat < 10 := by omega
  rw [← Char.toNat_inj, Nat.toNat_digitChar_of_lt_ten hlt]
  omega

/-- A number in two digits. -/
def IsTwoDigits (n : ℕ) (cs : List Char) : Prop :=
  cs.length = 2 ∧ (∀ c ∈ cs, c.isDigit) ∧ Nat.ofDigitChars 10 cs 0 = n

theorem isTwoDigits_iff {n : ℕ} (hn : n < 100) {cs : List Char} :
    IsTwoDigits n cs ↔ cs = twoDigits n := by
  constructor
  · rintro ⟨hlength, hdigits, hvalue⟩
    obtain ⟨a, b, rfl⟩ := List.length_eq_two.1 hlength
    obtain ⟨ha, halt⟩ := digitChar_of_isDigit (hdigits a (by simp))
    obtain ⟨hb, hblt⟩ := digitChar_of_isDigit (hdigits b (by simp))
    have hvalue : 10 * (a.toNat - '0'.toNat) + (b.toNat - '0'.toNat) = n := by
      simpa [Nat.ofDigitChars] using hvalue
    have htens : n / 10 = a.toNat - '0'.toNat := by omega
    have hunits : n % 10 = b.toNat - '0'.toNat := by omega
    rw [twoDigits, htens, hunits, ha, hb]
  · rintro rfl
    have htens : (Nat.digitChar (n / 10)).toNat = 48 + n / 10 :=
      Nat.toNat_digitChar_of_lt_ten (by omega)
    have hunits : (Nat.digitChar (n % 10)).toNat = 48 + n % 10 :=
      Nat.toNat_digitChar_of_lt_ten (by omega)
    have hzero : '0'.toNat = 48 := rfl
    refine ⟨rfl, ?_, ?_⟩
    · have hlt : n / 10 < 10 ∧ n % 10 < 10 := by omega
      simp [twoDigits, Nat.isDigit_digitChar, hlt]
    · rw [twoDigits, Nat.ofDigitChars_cons, Nat.ofDigitChars_cons, Nat.ofDigitChars_nil, htens,
        hunits, hzero]
      omega

/-- A text `HH:MM:SS`. -/
def IsClock (hours minutes seconds : ℕ) (clock : String) : Prop :=
  ∃ hh mm ss, IsTwoDigits hours hh ∧ IsTwoDigits minutes mm ∧ IsTwoDigits seconds ss
    ∧ clock.toList = hh ++ ':' :: mm ++ ':' :: ss

theorem isClock_iff (t : TimeOfDay) {clock : String} :
    IsClock t.hours t.minutes t.seconds clock ↔ t.text = clock := by
  have hhours : (t.hours : ℕ) < 100 := t.hours.isLt.trans (by decide)
  have hminutes : (t.minutes : ℕ) < 100 := t.minutes.isLt.trans (by decide)
  have hseconds : (t.seconds : ℕ) < 100 := t.seconds.isLt.trans (by decide)
  simp only [IsClock, isTwoDigits_iff hhours, isTwoDigits_iff hminutes, isTwoDigits_iff hseconds]
  rw [← String.toList_inj, text, String.toList_ofList]
  constructor
  · rintro ⟨hh, mm, ss, rfl, rfl, rfl, hclock⟩
    exact hclock.symm
  · intro hclock
    exact ⟨_, _, _, rfl, rfl, rfl, hclock.symm⟩

/-! ## Times -/

theorem ofParts?_eq {hours minutes seconds : UInt32} (hh : hours.toNat < 24)
    (hm : minutes.toNat < 60) (hs : seconds.toNat < 60) :
    ofParts? hours minutes seconds
      = some ⟨⟨hours.toNat, hh⟩, ⟨minutes.toNat, hm⟩, ⟨seconds.toNat, hs⟩⟩ :=
  dif_pos ⟨hh, hm, hs⟩

/-- What a text means as a time: nothing without an hour, and else the numbers of its first three
parts, in digits. -/
inductive ReadsAs (text : String) : Option String → Prop where
  | noHour {more : List (List Char)} (hps : HasParts text ([] :: more)) : ReadsAs text none
  | time {hour : List Char} {more : List (List Char)} {h m s : ℕ} {clock : String}
    (hps : HasParts text (hour :: more)) (hne : hour ≠ []) (hh : CountsAs 23 (some hour) h)
    (hm : CountsAs 59 more[0]? m) (hs : CountsAs 59 more[1]? s) (hclock : IsClock h m s clock) :
    ReadsAs text (some clock)

theorem exists_ofParts?_component (hour minute second : Option (List Char)) :
    ∃ t, ofParts? (component 23 hour) (component 59 minute) (component 59 second) = some t
      ∧ t.hours = (component 23 hour).toNat ∧ t.minutes = (component 59 minute).toNat
      ∧ t.seconds = (component 59 second).toNat := by
  have hh := (countsAs_component 23 hour).le
  have hm := (countsAs_component 59 minute).le
  have hs := (countsAs_component 59 second).le
  exact ⟨_, ofParts?_eq (Nat.lt_succ_of_le hh) (Nat.lt_succ_of_le hm) (Nat.lt_succ_of_le hs),
    rfl, rfl, rfl⟩

theorem normalize_of_hour {text : String} {hour : List Char} {more : List (List Char)}
    (hps : parts text = hour :: more) (hne : hour ≠ []) {clock : String} :
    normalize text = some clock ↔ IsClock (component 23 (some hour)).toNat
      (component 59 more[0]?).toNat (component 59 more[1]?).toNat clock := by
  obtain ⟨t, ht, hh, hm, hs⟩ := exists_ofParts?_component (some hour) more[0]? more[1]?
  have hnormal : normalize text = some t.text := by
    have hempty : hour.isEmpty = false := by simpa using hne
    unfold normalize
    simp only [hps, List.headD_cons, hempty, List.getElem?_cons_zero, List.getElem?_cons_succ, ht]
    rfl
  rw [hnormal, ← hh, ← hm, ← hs, isClock_iff, Option.some.injEq]

theorem normalize_of_noHour {text : String} {more : List (List Char)}
    (hps : parts text = [] :: more) : normalize text = none := by
  unfold normalize
  rw [hps]
  rfl

theorem ReadsAs.normalize_eq {text : String} {result : Option String} (h : ReadsAs text result) :
    normalize text = result := by
  cases h with
  | noHour hps => exact normalize_of_noHour (hasParts_iff.1 hps)
  | time hps hne hh hm hs hclock =>
    rw [normalize_of_hour (hasParts_iff.1 hps) hne, (countsAs_iff 23).1 hh,
      (countsAs_iff 59).1 hm, (countsAs_iff 59).1 hs]
    exact hclock

theorem readsAs_normalize (text : String) : ReadsAs text (normalize text) := by
  obtain ⟨hour, more, hps⟩ := List.exists_cons_of_ne_nil (parts_ne_nil text)
  by_cases hne : hour = []
  · subst hne
    rw [normalize_of_noHour hps]
    exact .noHour (hasParts_iff.2 hps)
  · obtain ⟨t, ht, hh, hm, hs⟩ := exists_ofParts?_component (some hour) more[0]? more[1]?
    have hclock : IsClock t.hours t.minutes t.seconds t.text := (isClock_iff t).2 rfl
    rw [hh, hm, hs] at hclock
    rw [(normalize_of_hour hps hne).2 hclock]
    exact .time (hasParts_iff.2 hps) hne (countsAs_component 23 _) (countsAs_component 59 _)
      (countsAs_component 59 _) hclock

theorem normalize_congr {s t : String} (h : (parts s).take 3 = (parts t).take 3) :
    normalize s = normalize t := by
  have hget (i : ℕ) (hi : i < 3) : (parts s)[i]? = (parts t)[i]? := by
    rw [← List.getElem?_take_of_lt hi, h, List.getElem?_take_of_lt hi]
  simp only [normalize, List.headD_eq_head?_getD, List.head?_eq_getElem?, hget 0 (by decide),
    hget 1 (by decide), hget 2 (by decide)]

/-- Typed times are read in exact numbers: no text is refused for its numbers, and what follows the
third part does not count. -/
theorem normalize_eq_iff_readsAs (text : String) :
    (∀ result, normalize text = result ↔ ReadsAs text result)
      ∧ (∀ other ps qs, HasParts text ps → HasParts other qs → ps.take 3 = qs.take 3 →
        normalize other = normalize text)
      ∧ ∀ hour minute second,
        ∃ t, ofParts? (component 23 hour) (component 59 minute) (component 59 second) = some t := by
  refine ⟨?_, ?_, ?_⟩
  · intro result
    constructor
    · rintro rfl
      exact readsAs_normalize text
    · exact ReadsAs.normalize_eq
  · intro other ps qs hps hqs htake
    apply normalize_congr
    rw [hasParts_iff.1 hps, hasParts_iff.1 hqs, htake]
  · intro hour minute second
    obtain ⟨t, ht, -⟩ := exists_ofParts?_component hour minute second
    exact ⟨t, ht⟩

example : normalize " +07: 61 :9223372036854775807:x" = some "07:00:00" := by decide +kernel

end HomeScript.TimeOfDay
