import HomeScript.Json.Reader
import HomeScript.Proofs.Number.Shortest

/-! # Written numbers are read back

A numeral is read up to its last character, whatever comes after it that does not continue it. The
numeral written for a finite double stands for the shortest digits of the double.
-/

namespace HomeScript.Json

@[simp] theorem ok_bind {ε α β : Type} (x : α) (f : α → Except ε β) :
    (Except.ok x >>= f) = f x := rfl

@[simp] theorem pure_eq_ok {ε α : Type} (x : α) : (pure x : Except ε α) = .ok x := rfl

/-- A text that does not continue a number before it. -/
def EndsNumber (rest : List Char) : Prop :=
  ∀ c ∈ rest.head?, c.isDigit = false ∧ c ≠ '.' ∧ c ≠ 'e' ∧ c ≠ 'E'

def NoDigitFirst (rest : List Char) : Prop :=
  ∀ c ∈ rest.head?, c.isDigit = false

theorem EndsNumber.noDigitFirst {rest : List Char} (h : EndsNumber rest) : NoDigitFirst rest :=
  fun c hc => (h c hc).1

theorem isDigit_toDigits {n : ℕ} : ∀ c ∈ Nat.toDigits 10 n, c.isDigit := by
  intro c hc
  exact Nat.isDigit_of_mem_toDigits (by decide) (by decide) hc

theorem digits_append {ds k : List Char} (hd : ∀ c ∈ ds, c.isDigit) (hk : NoDigitFirst k) :
    Number.digits (ds ++ k) = (ds, k) := by
  have hnone : k.takeWhile Char.isDigit = [] ∧ k.dropWhile Char.isDigit = k := by
    cases k with
    | nil => exact ⟨rfl, rfl⟩
    | cons c k => simp [hk c rfl]
  simp [Number.digits, List.takeWhile_append_of_pos hd, List.dropWhile_append_of_pos hd, hnone]

/-- The parts of a written number; no digits of a fraction means that there is none. -/
structure Numeral where
  negative : Bool
  whole : List Char
  fraction : List Char := []
  power : Option ℤ := none

namespace Numeral

def signText (n : Numeral) : List Char :=
  if n.negative then ['-'] else []

def fractionText (n : Numeral) : List Char :=
  if n.fraction.isEmpty then [] else '.' :: n.fraction

def powerText (n : Numeral) : List Char :=
  match n.power with
  | some p => 'e' :: (if p < 0 then '-' else '+') :: Nat.toDigits 10 p.natAbs
  | none => []

def text (n : Numeral) : List Char :=
  n.signText ++ (n.whole ++ (n.fractionText ++ n.powerText))

def decimal (n : Numeral) : Decimal :=
  Number.decimal n.negative n.whole n.fraction (n.power.getD 0)

/-- Only a single zero may come first. -/
structure IsValid (n : Numeral) : Prop where
  whole_ne : n.whole ≠ []
  whole_digits : ∀ c ∈ n.whole, c.isDigit
  no_leading_zero : n.whole = ['0'] ∨ n.whole.head? ≠ some '0'
  fraction_digits : ∀ c ∈ n.fraction, c.isDigit

end Numeral

namespace Reader

theorem digits_append {ds k : List Char} (hne : ds ≠ []) (hd : ∀ c ∈ ds, c.isDigit)
    (hk : NoDigitFirst k) : digits (ds ++ k) = .ok (ds, k) := by
  rw [digits, Json.digits_append hd hk]
  cases ds with
  | nil => exact absurd rfl hne
  | cons c ds => rfl

theorem whole_append {n : Numeral} (hn : n.IsValid) {k : List Char} (hk : NoDigitFirst k) :
    whole (n.whole ++ k) = .ok (n.whole, k) := by
  rcases hn.no_leading_zero with hz | hz
  · rw [hz]
    cases k with
    | nil => rfl
    | cons c k => simp [whole, hk c rfl]
  · unfold whole
    split
    · next rest h =>
      cases hw : n.whole with
      | nil => exact absurd hw hn.whole_ne
      | cons c ds => simp_all
    · exact digits_append hn.whole_ne hn.whole_digits hk

theorem fraction?_append {n : Numeral} (hn : n.IsValid) {k : List Char} (hk : NoDigitFirst k)
    (hpoint : n.fraction = [] → k.head? ≠ some '.') :
    fraction? (n.fractionText ++ k)
      = .ok (if n.fraction.isEmpty then none else some n.fraction, k) := by
  unfold Numeral.fractionText
  split
  · next he =>
    simp only [List.nil_append]
    unfold fraction?
    split
    · exact absurd rfl (hpoint (List.isEmpty_iff.1 he))
    · rfl
  · next he =>
    rw [List.cons_append, fraction?, digits_append (by simpa using he) hn.fraction_digits hk]
    rfl

theorem power?_append (n : Numeral) {k : List Char} (hk : EndsNumber k) :
    power? (n.powerText ++ k) = .ok (n.power, k) := by
  unfold Numeral.powerText
  split
  · next p hp =>
    have hdigits : digits (Nat.toDigits 10 p.natAbs ++ k) = .ok (Nat.toDigits 10 p.natAbs, k) :=
      digits_append Nat.toDigits_ne_nil isDigit_toDigits hk.noDigitFirst
    have hsign (cs : List Char) :
        Number.sign ((if p < 0 then '-' else '+') :: cs) = (decide (p < 0), cs) := by
      split <;> simp_all [Number.sign]
    have hsigned : Number.signed (decide (p < 0)) p.natAbs = p := by
      simp only [Number.signed, decide_eq_true_eq]
      omega
    simp only [hp, List.cons_append, power?, hsign, hdigits, ok_bind, pure_eq_ok,
      Nat.ofDigitChars_ten_toDigits, hsigned]
    rfl
  · next hp =>
    rw [hp, List.nil_append]
    cases k with
    | nil => rfl
    | cons c k =>
      obtain ⟨-, -, h₁, h₂⟩ := hk c rfl
      simp [power?, h₁, h₂]

/-- Reading a number after its sign. -/
def unsigned (negative : Bool) (cs : List Char) : Except Fault (Taken Json) := do
  let (ds, rest) ← whole cs
  let (fraction, rest) ← fraction? rest
  let (power, rest) ← power? rest
  let n := Nat.ofDigitChars 10 ds 0
  if fraction.isNone && power.isNone && isExact negative n then
    return (.integer (Number.signed negative n), rest)
  else
    let x := Double.ofDecimal (Number.decimal negative ds (fraction.getD []) (power.getD 0))
    return (if x.isFinite then .real x else .unreadable, rest)

theorem number_minus (cs : List Char) : number ('-' :: cs) = unsigned true cs := by
  rw [number, unsigned]

theorem number_digit {c : Char} (h : c.isDigit) (cs : List Char) :
    number (c :: cs) = unsigned false (c :: cs) := by
  have hc : c ≠ '-' := by
    rintro rfl
    exact absurd h (by decide)
  rw [number, unsigned]
  rintro rest h
  exact hc (List.cons.inj h).1

/-- What a number is read as. -/
def numberJson (n : Numeral) : Json :=
  if n.fraction.isEmpty && n.power.isNone && isExact n.negative (Nat.ofDigitChars 10 n.whole 0) then
    .integer (Number.signed n.negative (Nat.ofDigitChars 10 n.whole 0))
  else if (Double.ofDecimal n.decimal).isFinite then .real (Double.ofDecimal n.decimal)
  else .unreadable

theorem number_text_append {n : Numeral} (hn : n.IsValid) (k : List Char) :
    number (n.text ++ k)
      = unsigned n.negative (n.whole ++ (n.fractionText ++ (n.powerText ++ k))) := by
  simp only [Numeral.text, Numeral.signText, List.append_assoc]
  cases n.negative with
  | true => exact number_minus _
  | false =>
    cases hw : n.whole with
    | nil => exact absurd hw hn.whole_ne
    | cons c ds => exact number_digit (hn.whole_digits c (hw ▸ List.mem_cons_self)) _

theorem number_append {n : Numeral} (hn : n.IsValid) {k : List Char} (hk : EndsNumber k) :
    number (n.text ++ k) = .ok (numberJson n, k) := by
  have hpower : ∀ c ∈ (n.powerText ++ k).head?, c.isDigit = false ∧ c ≠ '.' := by
    unfold Numeral.powerText
    split
    · simp
    · intro c hc
      exact ⟨(hk c hc).1, (hk c hc).2.1⟩
  have hfraction : NoDigitFirst (n.fractionText ++ (n.powerText ++ k)) := by
    unfold Numeral.fractionText
    split
    · intro c hc
      exact (hpower c hc).1
    · simp [NoDigitFirst]
  have hfrac := fraction?_append hn (fun c hc => (hpower c hc).1)
    (fun _ hc => (hpower '.' hc).2 rfl)
  rw [number_text_append hn, unsigned, whole_append hn hfraction]
  simp only [hfrac, power?_append n hk, ok_bind, numberJson, Numeral.decimal]
  by_cases he : n.fraction = []
  · simp only [he, List.isEmpty_nil, if_true, Option.isNone_none, Option.getD_none]
    split <;> rfl
  · have he : n.fraction.isEmpty = false := by simpa using he
    simp only [he, Bool.false_eq_true, if_false]
    rfl

end Reader

/-! ## Whole numbers -/

theorem head_toDigits_ne_zero {n : ℕ} (h : n ≠ 0) : (Nat.toDigits 10 n).head? ≠ some '0' := by
  induction n using Nat.strongRecOn with
  | ind n ih =>
    rcases lt_or_ge n 10 with hn | hn
    · rw [Nat.toDigits_of_lt_base hn]
      exact (by decide : ∀ m < 10, m ≠ 0 → [Nat.digitChar m].head? ≠ some '0') n hn h
    · rw [Nat.toDigits_of_base_le (by decide) hn, List.head?_append_of_ne_nil _ Nat.toDigits_ne_nil]
      exact ih (n / 10) (by omega) (by omega)

theorem toDigits_no_leading_zero (n : ℕ) :
    Nat.toDigits 10 n = ['0'] ∨ (Nat.toDigits 10 n).head? ≠ some '0' := by
  rcases eq_or_ne n 0 with rfl | h
  · exact .inl rfl
  · exact .inr (head_toDigits_ne_zero h)

/-- The numeral of a whole number. -/
def Numeral.ofInt (n : ℤ) : Numeral where
  negative := n < 0
  whole := Nat.toDigits 10 n.natAbs

theorem Numeral.isValid_ofInt (n : ℤ) : (Numeral.ofInt n).IsValid where
  whole_ne := Nat.toDigits_ne_nil
  whole_digits := isDigit_toDigits
  no_leading_zero := toDigits_no_leading_zero _
  fraction_digits := by simp [ofInt]

theorem text_ofInt (n : ℤ) : (Numeral.ofInt n).text = writeInt n := by
  simp only [writeInt, Numeral.ofInt, Numeral.text, Numeral.signText, Numeral.fractionText,
    Numeral.powerText]
  by_cases h : n < 0 <;> simp [h]

/-! ## Doubles -/

namespace Numeral

/-- A decimal without a power of ten, with at least one digit after the point. -/
def positional (d : Decimal) : Numeral :=
  if 0 ≤ d.exponent then
    { negative := d.negative
      whole := d.digits ++ List.replicate d.exponent.toNat '0'
      fraction := ['0'] }
  else if 0 < d.point then
    { negative := d.negative
      whole := d.digits.take d.point.toNat
      fraction := d.digits.drop d.point.toNat }
  else
    { negative := d.negative
      whole := ['0']
      fraction := List.replicate (-d.point).toNat '0' ++ d.digits }

def scientific (d : Decimal) : Numeral where
  negative := d.negative
  whole := d.digits.take 1
  fraction := d.digits.drop 1
  power := some (d.point - 1)

theorem negative_positional (d : Decimal) : (positional d).negative = d.negative := by
  unfold positional
  split
  · rfl
  · split <;> rfl

theorem fraction_positional_ne (d : Decimal) : (positional d).fraction ≠ [] := by
  unfold positional
  split
  · simp
  split
  · rw [ne_eq, List.drop_eq_nil_iff]; unfold Decimal.point at *; omega
  · simp [Decimal.digits, Nat.toDigits_ne_nil]

theorem text_positional (d : Decimal) :
    (positional d).text = d.positional ++ if 0 ≤ d.exponent then ['.', '0'] else [] := by
  have hfraction : (positional d).fraction.isEmpty = false := by
    simpa using fraction_positional_ne d
  simp only [text, fractionText, hfraction]
  unfold positional Decimal.positional
  split
  · simp [signText, powerText]
  split <;> simp [signText, powerText]

theorem text_scientific (d : Decimal) : (scientific d).text = d.scientific := by
  obtain ⟨c, ds, hd⟩ := List.exists_cons_of_ne_nil (Nat.toDigits_ne_nil (n := d.units) (b := 10))
  change d.digits = c :: ds at hd
  simp only [scientific, Decimal.scientific, text, signText, fractionText, powerText, hd]
  cases ds <;> simp

theorem value_decimal {n : Numeral} {d : Decimal}
    (hu : Nat.ofDigitChars 10 (n.whole ++ n.fraction) 0 = d.units)
    (he : n.power.getD 0 - n.fraction.length = d.exponent) : n.decimal.value = d.value := by
  simp only [decimal, Number.decimal, Decimal.value, hu, he]

theorem value_positional (d : Decimal) : (positional d).decimal.value = d.value := by
  have hunits : Nat.ofDigitChars 10 d.digits 0 = d.units := Nat.ofDigitChars_ten_toDigits
  have hlen : d.point = d.digits.length + d.exponent := rfl
  unfold positional
  split
  · next h =>
    obtain ⟨n, hn⟩ := Int.eq_ofNat_of_zero_le h
    simp only [decimal, Number.decimal, Decimal.value, Nat.ofDigitChars_append, hunits, hn,
      Int.toNat_natCast, Nat.ofDigitChars_replicate_zero, Nat.ofDigitChars_cons,
      Nat.ofDigitChars_nil]
    rw [zpow_natCast]
    push_cast
    simp only [List.length_singleton, Option.getD_none]
    norm_num
    ring
  split
  · refine value_decimal (by rw [List.take_append_drop, hunits]) ?_
    simp only [Option.getD_none, List.length_drop]
    omega
  · refine value_decimal ?_ ?_
    · simp [Nat.ofDigitChars_cons, Nat.ofDigitChars_append, Nat.ofDigitChars_replicate_zero, hunits]
    · simp only [Option.getD_none, List.length_append, List.length_replicate]
      omega

theorem value_scientific (d : Decimal) : (scientific d).decimal.value = d.value := by
  refine value_decimal ?_ ?_
  · exact (congrArg (Nat.ofDigitChars 10 · 0) (List.take_append_drop 1 _)).trans
      Nat.ofDigitChars_ten_toDigits
  · have : 0 < d.digits.length := Nat.length_toDigits_pos
    simp only [scientific, Option.getD_some, List.length_drop, Decimal.point]
    omega

theorem isValid_positional {d : Decimal} (h : d.units = 0 → d.exponent = 0) :
    (positional d).IsValid := by
  have hdigits : ∀ c ∈ d.digits, c.isDigit := isDigit_toDigits
  have hne : d.digits ≠ [] := Nat.toDigits_ne_nil
  have hzeros (n : ℕ) : ∀ c ∈ List.replicate n '0', c.isDigit := by simp
  have hhead (hu : d.units ≠ 0) : d.digits.head? ≠ some '0' := head_toDigits_ne_zero hu
  unfold positional
  split
  · refine ⟨by simp [hne], List.forall_mem_append.2 ⟨hdigits, hzeros _⟩, ?_, by simp⟩
    by_cases hu : d.units = 0
    · exact .inl (by simp [h hu, Decimal.digits, hu])
    · exact .inr (by rw [List.head?_append_of_ne_nil _ hne]; exact hhead hu)
  split
  · refine ⟨?_, ?_, .inr ?_, ?_⟩
    · simp [hne]
      omega
    · intro c hc
      exact hdigits c (List.mem_of_mem_take hc)
    · rw [List.head?_take, if_neg (by omega)]
      apply hhead
      intro hu
      have := h hu
      omega
    · intro c hc
      exact hdigits c (List.mem_of_mem_drop hc)
  · exact ⟨by simp, by simp, .inl rfl, List.forall_mem_append.2 ⟨hzeros _, hdigits⟩⟩

theorem isValid_scientific (d : Decimal) : (scientific d).IsValid := by
  have hdigits : ∀ c ∈ d.digits, c.isDigit := isDigit_toDigits
  constructor
  · simp [scientific, Decimal.digits, Nat.toDigits_ne_nil]
  · intro c hc
    exact hdigits c (List.mem_of_mem_take hc)
  · rcases toDigits_no_leading_zero d.units with h | h
    · exact .inl (by simp [scientific, Decimal.digits, h])
    · exact .inr (by simpa [scientific, Decimal.digits, List.head?_take] using h)
  · intro c hc
    exact hdigits c (List.mem_of_mem_drop hc)

end Numeral

theorem Double.exponent_shortest {x : Double} (hx : x.isFinite) (tie : Tie)
    (h : (x.shortest tie).units = 0) : (x.shortest tie).exponent = 0 := by
  rcases Nat.eq_zero_or_pos x.significand with hs | hs
  · rw [Double.shortest, if_pos hs]
  · exact absurd h (Double.point_bounds hx hs (Double.covers_shortest hx hs tie)).1

theorem Numeral.numberJson_eq_real {n : Numeral} {x : Double} {tie : Tie} (hx : x.isFinite)
    (hform : n.fraction ≠ [] ∨ n.power ≠ none) (hn : n.negative = x.isNegative)
    (hv : n.decimal.value = (x.shortest tie).value) : Reader.numberJson n = .real x := by
  have hdouble : Double.ofDecimal n.decimal = x := Double.ofDecimal_of_value_eq hx hn hv
  have hexact : (n.fraction.isEmpty && n.power.isNone) = false := by
    rcases hform with h | h
    · simp [h]
    · simp [Option.isSome_iff_ne_none, h]
  simp [Reader.numberJson, hexact, hdouble, hx]

namespace Numeral

/-- The numeral of a finite double. -/
def ofDouble (x : Double) : Numeral :=
  let d := x.shortest .even
  if -4 ≤ d.point && d.point ≤ 16 then positional d else scientific d

theorem text_ofDouble {x : Double} (hx : x.isFinite) : (ofDouble x).text = writeReal x := by
  simp only [ofDouble, writeReal, hx, if_true]
  split
  · exact text_positional _
  · exact text_scientific _

theorem isValid_ofDouble {x : Double} (hx : x.isFinite) : (ofDouble x).IsValid := by
  simp only [ofDouble]
  split
  · exact isValid_positional (Double.exponent_shortest hx .even)
  · exact isValid_scientific _

/-- A finite double is what its numeral is read as. -/
theorem numberJson_ofDouble {x : Double} (hx : x.isFinite) :
    Reader.numberJson (ofDouble x) = .real x := by
  simp only [ofDouble]
  split
  · exact numberJson_eq_real hx (.inl (fraction_positional_ne _))
      ((negative_positional _).trans (x.negative_shortest .even)) (value_positional _)
  · exact numberJson_eq_real hx (.inr (by simp [scientific])) (x.negative_shortest .even)
      (value_scientific _)

end Numeral

end HomeScript.Json
