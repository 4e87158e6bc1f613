import Mathlib.Data.List.Basic
import HomeScript.Script.Number
import HomeScript.Script.Quoting

/-! # Literals in front of more code

A literal can be told from the code that follows it: the end of an escaped text is its first bare
quote, and a word or a number ends where its characters do.
-/

namespace HomeScript

/-- Lists that agree begin with the same run of elements of a kind, if the run ends in both. -/
theorem run_append_inj {α : Type} {p : α → Bool} {v w k k' : List α}
    (hv : ∀ c ∈ v, p c) (hw : ∀ c ∈ w, p c) (hk : ∀ c ∈ k.head?, ¬ p c)
    (hk' : ∀ c ∈ k'.head?, ¬ p c) (h : v ++ k = w ++ k') : v = w ∧ k = k' := by
  induction v generalizing w with
  | nil =>
    cases w with
    | nil => exact ⟨rfl, h⟩
    | cons c w =>
      obtain rfl : k = c :: (w ++ k') := h
      exact absurd (hw c List.mem_cons_self) (hk c rfl)
  | cons c v ih =>
    cases w with
    | nil =>
      obtain rfl : c :: (v ++ k) = k' := h
      exact absurd (hv c List.mem_cons_self) (hk' c rfl)
    | cons d w =>
      obtain ⟨rfl, hs⟩ := List.cons.inj h
      obtain ⟨rfl, hk⟩ := ih (fun c hc => hv c (List.mem_cons_of_mem _ hc))
        (fun c hc => hw c (List.mem_cons_of_mem _ hc)) hs
      exact ⟨rfl, hk⟩

namespace Quoting

theorem escapeChar_append_inj {c d : Char} {k k' : List Char}
    (h : escapeChar c ++ k = escapeChar d ++ k') : c = d ∧ k = k' := by
  unfold escapeChar at h
  split at h <;> split at h <;> grind

theorem escapeChar_append_ne_quote {c : Char} {k k' : List Char} :
    escapeChar c ++ k ≠ '\"' :: k' := by
  unfold escapeChar
  split <;> simp_all

theorem lineBreak_not_mem_escapeChar {b : Char} (hb : b = '\n' ∨ b = '\r') (c : Char) :
    b ∉ escapeChar c := by
  unfold escapeChar
  rcases hb with rfl | rfl <;> split <;> simp_all [eq_comm]

theorem content_append_inj {s t k k' : List Char}
    (h : escaped.content s ++ '\"' :: k = escaped.content t ++ '\"' :: k') :
    s = t ∧ k = k' := by
  induction s generalizing t with
  | nil =>
    cases t with
    | nil => exact ⟨rfl, (List.cons.inj h).2⟩
    | cons d t =>
      simp only [content, List.flatMap_nil, List.nil_append, List.flatMap_cons,
        List.append_assoc] at h
      exact absurd h.symm escapeChar_append_ne_quote
  | cons c s ih =>
    cases t with
    | nil =>
      simp only [content, List.flatMap_nil, List.nil_append, List.flatMap_cons,
        List.append_assoc] at h
      exact absurd h escapeChar_append_ne_quote
    | cons d t =>
      simp only [content, List.flatMap_cons, List.append_assoc] at h
      obtain ⟨rfl, hs⟩ := escapeChar_append_inj h
      obtain ⟨rfl, hk⟩ := ih hs
      exact ⟨rfl, hk⟩

theorem quote_append_inj {s t : String} {k k' : List Char}
    (h : (escaped.quote s).toList ++ k = (escaped.quote t).toList ++ k') : s = t ∧ k = k' := by
  simp only [toList_quote, List.cons_append, List.append_assoc, List.nil_append] at h
  obtain ⟨hs, hk⟩ := content_append_inj (List.cons.inj h).2
  exact ⟨String.toList_inj.1 hs, hk⟩

theorem lineBreak_not_mem_quote {b : Char} (hb : b = '\n' ∨ b = '\r') (s : String) :
    b ∉ (escaped.quote s).toList := by
  have hne : b ≠ '\"' := by rcases hb with rfl | rfl <;> decide
  simp [content, lineBreak_not_mem_escapeChar hb, hne]

theorem lineFeed_not_mem_quote (s : String) : '\n' ∉ (escaped.quote s).toList :=
  lineBreak_not_mem_quote (.inl rfl) s

end Quoting

/-! ## Numbers -/

def isNumeralChar (c : Char) : Bool :=
  c.isDigit || c == '.' || c == '-'

/-- Digits, of which there is one at least, with points and signs among them. -/
structure IsNumeral (cs : List Char) : Prop where
  exists_digit : ∃ c ∈ cs, c.isDigit
  all_numeral : ∀ c ∈ cs, isNumeralChar c

theorem Decimal.isDigit_of_mem_digits {d : Decimal} {c : Char} (h : c ∈ d.digits) : c.isDigit :=
  Nat.isDigit_of_mem_toDigits (by decide) (by decide) h

theorem Decimal.exists_mem_digits (d : Decimal) : ∃ c, c ∈ d.digits :=
  List.exists_mem_of_ne_nil _ Nat.toDigits_ne_nil

theorem Decimal.mem_positional_of_mem_digits {d : Decimal} {c : Char} (h : c ∈ d.digits) :
    c ∈ d.positional := by
  rw [← List.take_append_drop d.point.toNat d.digits, List.mem_append] at h
  unfold positional
  grind

theorem Decimal.mem_positional {d : Decimal} {c : Char} (h : c ∈ d.positional) :
    c ∈ d.digits ∨ c = '0' ∨ c = '.' ∨ c = '-' := by
  unfold positional at h
  grind [List.mem_of_mem_take, List.mem_of_mem_drop]

theorem Decimal.isNumeral_positional (d : Decimal) : IsNumeral d.positional := by
  constructor
  · obtain ⟨c, hc⟩ := d.exists_mem_digits
    exact ⟨c, d.mem_positional_of_mem_digits hc, isDigit_of_mem_digits hc⟩
  · intro c hc
    rcases d.mem_positional hc with hc | rfl | rfl | rfl
    · simp [isNumeralChar, isDigit_of_mem_digits hc]
    all_goals rfl

theorem isNumeral_number (x : Double) : IsNumeral (Script.number x).toList := by
  unfold Script.number
  split
  · simpa using Decimal.isNumeral_positional _
  · exact ⟨⟨'0', by simp [Slot.default]⟩, by simp [Slot.default, isNumeralChar]⟩

end HomeScript
