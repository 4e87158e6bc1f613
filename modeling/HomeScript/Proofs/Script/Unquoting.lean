import Mathlib.Algebra.Ring.Parity
import HomeScript.Proofs.Script.Literal
import HomeScript.Proofs.Script.Policies

/-! # Texts out of literals

Behind its opening quote an escaped literal has one quote that is not escaped, and ends there. What
is escaped can be undone, in one way.
-/

namespace HomeScript.Quoting

/-! ## Bare quotes -/

/-- How many backslashes a text ends in. What follows is escaped if their number is odd, as they
escape each other in pairs. -/
def trailingBackslashes (cs : List Char) : ℕ :=
  (cs.reverse.takeWhile (· = '\\')).length

theorem trailingBackslashes_backslash (cs : List Char) :
    trailingBackslashes (cs ++ ['\\']) = trailingBackslashes cs + 1 := by
  simp [trailingBackslashes]

theorem trailingBackslashes_of_ne {c : Char} (h : c ≠ '\\') (cs : List Char) :
    trailingBackslashes (cs ++ [c]) = 0 := by
  simp [trailingBackslashes, h]

theorem even_trailingBackslashes_escapeChar {cs : List Char} (h : Even (trailingBackslashes cs))
    (c : Char) : Even (trailingBackslashes (cs ++ escapeChar c)) := by
  have hpair (d : Char) : cs ++ ['\\', d] = (cs ++ ['\\']) ++ [d] := by simp
  unfold escapeChar
  split
  · rw [hpair, trailingBackslashes_of_ne (by decide)]
    exact Even.zero
  · rw [hpair, trailingBackslashes_backslash, trailingBackslashes_backslash]
    exact h.add even_two
  · rw [hpair, trailingBackslashes_of_ne (by decide)]
    exact Even.zero
  · rw [hpair, trailingBackslashes_of_ne (by decide)]
    exact Even.zero
  · next hbackslash _ _ =>
    rw [trailingBackslashes_of_ne hbackslash]
    exact Even.zero

theorem content_cons (c : Char) (s : List Char) :
    escaped.content (c :: s) = escapeChar c ++ escaped.content s :=
  rfl

theorem even_trailingBackslashes_content {cs : List Char} (h : Even (trailingBackslashes cs))
    (s : List Char) : Even (trailingBackslashes (cs ++ escaped.content s)) := by
  induction s generalizing cs with
  | nil => simpa [content] using h
  | cons c s ih =>
    rw [content_cons, ← List.append_assoc]
    exact ih (even_trailingBackslashes_escapeChar h c)

/-- The quote in an escape stands right behind its backslash. -/
theorem eq_backslash_of_escapeChar {c : Char} {before after : List Char}
    (h : escapeChar c = before ++ '\"' :: after) : before = ['\\'] := by
  unfold escapeChar at h
  split at h <;> rcases before with _ | ⟨a, _ | ⟨b, before⟩⟩ <;> simp_all [eq_comm]

/-- A quote of the text stands behind an odd number of backslashes. -/
theorem not_even_of_content {cs : List Char} (h : Even (trailingBackslashes cs))
    {s before after : List Char} (hs : escaped.content s = before ++ '\"' :: after) :
    ¬ Even (trailingBackslashes (cs ++ before)) := by
  induction s generalizing cs before with
  | nil => simp [content] at hs
  | cons c s ih =>
    have hc := even_trailingBackslashes_escapeChar h c
    rw [content_cons] at hs
    rcases List.append_eq_append_iff.1 hs with ⟨more, rfl, hrest⟩ | ⟨more, hescape, hrest⟩
    · rw [← List.append_assoc]
      exact ih hc hrest
    · cases more with
      | nil =>
        have hrest : escaped.content s = [] ++ '\"' :: after := hrest.symm
        have hbare := ih hc hrest
        rw [List.append_nil] at hbare
        exact absurd hc hbare
      | cons d more =>
        obtain ⟨rfl, -⟩ := List.cons.inj hrest
        rw [eq_backslash_of_escapeChar hescape, trailingBackslashes_backslash, Nat.even_add_one,
          not_not]
        exact h

/-- The quotes that are not escaped are those at the ends of the literal. -/
theorem even_trailingBackslashes_iff {s : String} {before after : List Char}
    (h : (escaped.quote s).toList = before ++ '\"' :: after) :
    Even (trailingBackslashes before) ↔ before = [] ∨ after = [] := by
  have hopening : Even (trailingBackslashes ['\"']) := ⟨0, rfl⟩
  rw [toList_quote] at h
  cases before with
  | nil => simp [trailingBackslashes]
  | cons c before =>
    obtain ⟨rfl, h⟩ := List.cons.inj h
    rcases List.eq_nil_or_concat after with rfl | ⟨after, d, rfl⟩
    · obtain ⟨hcontent, -⟩ := List.append_inj' h rfl
      have heven := even_trailingBackslashes_content hopening s.toList
      rw [List.singleton_append, hcontent] at heven
      exact iff_of_true heven (.inr rfl)
    · rw [List.concat_eq_append, ← List.cons_append, ← List.append_assoc] at h
      obtain ⟨hcontent, -⟩ := List.append_inj' h rfl
      have hodd := not_even_of_content hopening (List.cons.inj hcontent).2
      exact iff_of_false hodd (by simp)

/-! ## Escapes undone -/

/-- The character that another one stands for behind a backslash. -/
def unescapeChar? : Char → Option Char
  | '\"' => some '\"'
  | '\\' => some '\\'
  | 'n' => some '\n'
  | 'r' => some '\r'
  | _ => none

/-- The text that stands between the quotes of a literal. -/
def unescape? : List Char → Option (List Char)
  | [] => some []
  | '\\' :: c :: cs => (unescapeChar? c).bind fun d => (unescape? cs).map (d :: ·)
  | c :: cs => if isSpecial c then none else (unescape? cs).map (c :: ·)

theorem unescape?_escapeChar_append (c : Char) (cs : List Char) :
    unescape? (escapeChar c ++ cs) = (unescape? cs).map (c :: ·) := by
  unfold escapeChar
  split
  · rfl
  · rfl
  · rfl
  · rfl
  · simp_all [unescape?, isSpecial]

theorem escapeChar_of_unescapeChar? {c d : Char} (h : unescapeChar? c = some d) :
    escapeChar d = ['\\', c] := by
  unfold unescapeChar? at h
  split at h <;> cases h <;> rfl

/-- What is read is exactly what is written. -/
theorem unescape?_eq_some_iff {cs s : List Char} :
    unescape? cs = some s ↔ cs = escaped.content s := by
  constructor
  · intro h
    fun_induction unescape? cs generalizing s with
    | case1 =>
      obtain rfl := Option.some.inj h
      rfl
    | case2 c cs ih =>
      obtain ⟨d, hd, h⟩ := Option.bind_eq_some_iff.1 h
      obtain ⟨t, ht, rfl⟩ := Option.map_eq_some_iff.1 h
      rw [content_cons, escapeChar_of_unescapeChar? hd, ← ih ht]
      rfl
    | case3 c cs hc hspecial => cases h
    | case4 c cs hc hspecial ih =>
      obtain ⟨t, ht, rfl⟩ := Option.map_eq_some_iff.1 h
      rw [content_cons, escapeChar_of_not_isSpecial (by simpa using hspecial), ← ih ht]
      rfl
  · rintro rfl
    induction s with
    | nil => rfl
    | cons c s ih =>
      rw [content_cons, unescape?_escapeChar_append, ih]
      rfl

/-- An escaped literal ends where its text does, whatever stands behind it: at its first quote that
is not escaped. It stands on one line, and is the literal of no other text. -/
theorem escaped_quote_delimits (s : String) :
    (∀ t r r', escaped.quote s ++ r = escaped.quote t ++ r' ↔ s = t ∧ r = r')
      ∧ (∀ before after, (escaped.quote s).toList = before ++ '\"' :: after →
        (Even (trailingBackslashes before) ↔ before = [] ∨ after = []))
      ∧ (∃ inner, (escaped.quote s).toList = '\"' :: inner ++ ['\"']
        ∧ ∀ cs, unescape? cs = some s.toList ↔ cs = inner)
      ∧ '\n' ∉ (escaped.quote s).toList ∧ '\r' ∉ (escaped.quote s).toList := by
  refine ⟨?_, fun _ _ h => even_trailingBackslashes_iff h, ?_, lineBreak_not_mem_quote (.inl rfl) s,
    lineBreak_not_mem_quote (.inr rfl) s⟩
  · intro t r r'
    constructor
    · intro h
      have hlist := congrArg String.toList h
      rw [String.toList_append, String.toList_append] at hlist
      obtain ⟨hs, hr⟩ := quote_append_inj hlist
      exact ⟨hs, String.toList_inj.1 hr⟩
    · rintro ⟨rfl, rfl⟩
      rfl
  · exact ⟨escaped.content s.toList, toList_quote _ s, fun cs => unescape?_eq_some_iff⟩

end HomeScript.Quoting
