import Mathlib.Data.List.TakeWhile
import HomeScript.Proofs.Json.Numeral
import HomeScript.Proofs.Text.Pieces

/-! # Written values are read back

Reading the written form of a value gives the value itself, but for what has no form of its own: a
number that is not finite is written as null, and a whole number beyond 64 bits is read as a double.
-/

namespace HomeScript.Json

/-! ## Texts -/

namespace Reader

theorem hex?_control : ∀ n < 32,
    Text.hex? ['0', '0', Nat.digitChar (n / 16), Nat.digitChar (n % 16)] = some n := by
  decide

/-- A written character is read as one piece that stands for the character alone. -/
theorem exists_piece (c : Char) : ∃ p, (∀ k, pieces (escapeChar c ++ k) = pushPiece p (pieces k))
    ∧ ∀ ps, join (p :: ps) = (c :: ·) <$> join ps := by
  unfold escapeChar
  split
  case h_8 _ hquote hslash _ _ _ _ _ =>
    split
    · next hc =>
      have hn : c.toNat < 32 := hc
      refine ⟨.unit c.toNat, ?_, ?_⟩
      · intro k
        simp only [List.cons_append, List.nil_append, pieces, hex?_control c.toNat hn]
      · intro ps
        have : c.toNat < 0xd800 := by omega
        rw [join.eq_def]
        simp [this]
    · next hc =>
      refine ⟨.char c, ?_, ?_⟩
      · intro k
        rw [List.singleton_append, pieces] <;> simp_all
      · intro _
        rfl
  all_goals exact ⟨.char _, fun _ => rfl, fun _ => rfl⟩

theorem exists_pieces (s k : List Char) :
    ∃ ps, pieces (s.flatMap escapeChar ++ '\"' :: k) = .ok (ps, k) ∧ join ps = some s := by
  induction s with
  | nil => exact ⟨[], by simp [pieces], rfl⟩
  | cons c s ih =>
    obtain ⟨p, hp, hj⟩ := exists_piece c
    obtain ⟨ps, hps, hjs⟩ := ih
    refine ⟨p :: ps, ?_, by rw [hj, hjs]; rfl⟩
    rw [List.flatMap_cons, List.append_assoc, hp, hps]
    rfl

theorem string?_writeString (s : String) (k : List Char) :
    string? (s.toList.flatMap escapeChar ++ '\"' :: k) = .ok (some s, k) := by
  obtain ⟨ps, hps, hj⟩ := exists_pieces s.toList k
  simp [string?, hps, hj]

/-! ## Scalars -/

theorem skipSpace_cons {c : Char} (h : isSpace c = false) (cs : List Char) :
    skipSpace (c :: cs) = c :: cs := by
  simp [skipSpace, h]

/-- A value that neither starts with a blank nor with a bracket is a scalar. -/
theorem value_scalar {c : Char} (hs : isSpace c = false) (hc : c ≠ '[' ∧ c ≠ '\x7b')
    (bound depth : ℕ) (cs : List Char) : value bound depth (c :: cs) = scalar (c :: cs) := by
  have hwith (array object : Front Json) : valueWith array object (c :: cs) = scalar (c :: cs) := by
    rw [valueWith, skipSpace_cons hs]
    split <;> simp_all
  cases depth <;> exact hwith _ _

theorem word_append (j : Json) (w k : List Char) : word j w (w ++ k) = .ok (j, k) := by
  induction w with
  | nil => simp [word]
  | cons c w ih => simp [word, ih]

def startsNumber (c : Char) : Bool :=
  c == '-' || c.isDigit

theorem ne_of_startsNumber {c d : Char} (hc : startsNumber c)
    (hd : startsNumber d = false := by decide) : c ≠ d := by
  rintro rfl
  exact absurd hc (by simp [hd])

theorem isSpace_of_startsNumber {c : Char} (hc : startsNumber c) : isSpace c = false := by
  simpa [isSpace] using ⟨⟨⟨ne_of_startsNumber hc, ne_of_startsNumber hc⟩, ne_of_startsNumber hc⟩,
    ne_of_startsNumber hc⟩

theorem scalar_number {c : Char} (h : startsNumber c) (cs : List Char) :
    scalar (c :: cs) = number (c :: cs) := by
  have hn := ne_of_startsNumber (d := 'n') h
  have ht := ne_of_startsNumber (d := 't') h
  have hf := ne_of_startsNumber (d := 'f') h
  have hq := ne_of_startsNumber (d := '\"') h
  have hs : c = '-' ∨ c.isDigit := by simpa [startsNumber] using h
  rw [scalar]
  · simp [hs]
  all_goals simp_all

theorem text_startsNumber {n : Numeral} (hn : n.IsValid) :
    ∃ c cs, n.text = c :: cs ∧ startsNumber c := by
  obtain ⟨c, cs, hw⟩ := List.exists_cons_of_ne_nil hn.whole_ne
  have hd : c.isDigit := hn.whole_digits c (hw ▸ List.mem_cons_self)
  simp only [Numeral.text, Numeral.signText]
  split
  · exact ⟨'-', _, rfl, rfl⟩
  · exact ⟨c, _, by rw [hw]; rfl, by simp [startsNumber, hd]⟩

theorem value_numeral {n : Numeral} (hn : n.IsValid) (bound depth : ℕ) {k : List Char}
    (hk : EndsNumber k) : value bound depth (n.text ++ k) = .ok (numberJson n, k) := by
  obtain ⟨c, cs, htext, hc⟩ := text_startsNumber hn
  rw [← number_append hn hk, htext, List.cons_append,
    value_scalar (isSpace_of_startsNumber hc) ⟨ne_of_startsNumber hc, ne_of_startsNumber hc⟩,
    scalar_number hc]

theorem scalar_string (s : String) (k : List Char) :
    scalar (writeString s ++ k) = .ok (.string s, k) := by
  simp [writeString, scalar, string?_writeString]

/-! ## Containers -/

/-- A reader takes this text from the front of anything that may follow a value. -/
def Takes {α : Type} (item : Front α) (t : List Char) (x : α) : Prop :=
  ∀ k, EndsNumber k → item (t ++ k) = .ok (x, k)

/-- A text that is not taken for a blank or for the end of a container. -/
def StartsItem (t : List Char) : Prop :=
  ∃ c cs, t = c :: cs ∧ isSpace c = false ∧ ∀ o : Container, c ≠ o.close

theorem StartsItem.ne_nil {t : List Char} (h : StartsItem t) : t ≠ [] := by
  obtain ⟨c, cs, rfl, -⟩ := h
  exact List.cons_ne_nil c cs

section
variable {α : Type} {item : Front α} (o : Container) {ts : List (List Char)} {xs : List α}
  {bound : ℕ}

theorem endsNumber_comma (k : List Char) : EndsNumber (',' :: k) := by
  rintro c ⟨⟩
  decide

theorem endsNumber_close (k : List Char) : EndsNumber (o.close :: k) := by
  rintro c ⟨⟩
  cases o <;> decide

theorem items_append (h : List.Forall₂ (Takes item) ts xs) (hne : ts ≠ [])
    (hb : ts.length ≤ bound) (k : List Char) :
    items item o.close bound ([','].intercalate ts ++ o.close :: k) = .ok (xs, k) := by
  induction h generalizing bound with
  | nil => exact absurd rfl hne
  | @cons t x ts xs ht hts ih =>
    obtain ⟨bound, rfl⟩ : ∃ b, bound = b + 1 := ⟨bound - 1, by simp at hb; omega⟩
    cases hts with
    | nil =>
      have hitem := ht _ (endsNumber_close o k)
      have hspace := skipSpace_cons (c := o.close) (by cases o <;> decide) k
      have hcomma : o.close ≠ ',' := by cases o <;> decide
      simp [items, List.intercalate, List.intersperse, hitem, hspace, hcomma]
    | @cons u y ts xs hu hts =>
      have hitem := ht _ (endsNumber_comma ([','].intercalate (u :: ts) ++ o.close :: k))
      have hspace := skipSpace_cons (c := ',') (by decide)
        ([','].intercalate (u :: ts) ++ o.close :: k)
      have hrest : items item o.close bound ([','].intercalate (u :: ts) ++ o.close :: k) =
          .ok (y :: xs, k) := ih (by simp) (by simpa using hb)
      rw [Text.intercalate_cons_cons, List.append_assoc, List.cons_append, items, hitem]
      simp [hspace, hrest]

theorem container_append (h : List.Forall₂ (Takes item) ts xs) (hs : ∀ t ∈ ts, StartsItem t)
    (hb : ts.length ≤ bound) (k : List Char) :
    container item o.close bound ([','].intercalate ts ++ o.close :: k) = .ok (xs, k) := by
  cases h with
  | nil =>
    have hspace := skipSpace_cons (c := o.close) (by cases o <;> decide) k
    simp [container, List.intercalate, hspace]
  | @cons t x ts xs ht hts =>
    obtain ⟨c, cs, hc, hspace, hclose⟩ := hs t List.mem_cons_self
    have hitems := items_append o (.cons ht hts) (by simp) hb k
    obtain ⟨cs, hcs⟩ : ∃ cs, [','].intercalate (t :: ts) ++ o.close :: k = c :: cs := by
      cases ts with
      | nil => exact ⟨cs ++ o.close :: k, by simp [List.intercalate, List.intersperse, hc]⟩
      | cons u ts => exact ⟨_, by rw [Text.intercalate_cons_cons, hc]; rfl⟩
    rw [hcs] at hitems ⊢
    simp [container, skipSpace_cons hspace, hclose o, hitems]

theorem key_writeString (key : String) (k : List Char) :
    Reader.key (writeString key ++ ':' :: k) = .ok (some key, k) := by
  have hquote := skipSpace_cons (c := '\"') (by decide)
    (key.toList.flatMap escapeChar ++ '\"' :: (':' :: k))
  have hcolon := skipSpace_cons (c := ':') (by decide) k
  simp [Reader.key, writeString, hquote, hcolon, string?_writeString]

theorem takes_member {item : Front Json} {t : List Char} {j : Json} (h : Takes item t j)
    (key : String) : Takes (member item) (writeString key ++ ':' :: t) (some (key, j)) := by
  intro k hk
  rw [List.append_assoc, List.cons_append, member, key_writeString]
  simp [h k hk]

end

end Reader

/-! ## Values -/

mutual

/-- How deep the arrays and objects of a value are nested. -/
def depth : Json → ℕ
  | array elements => depthEach elements + 1
  | object members => depthMembers members + 1
  | _ => 0

def depthEach : List Json → ℕ
  | [] => 0
  | j :: rest => max j.depth (depthEach rest)

def depthMembers : List (String × Json) → ℕ
  | [] => 0
  | (_, j) :: rest => max j.depth (depthMembers rest)

end

mutual

/-- What the written form of a value is read as. -/
def reread : Json → Json
  | integer n => Reader.numberJson (.ofInt n)
  | real x => if x.isFinite then real x else null
  | unreadable => null
  | array elements => array (rereadEach elements)
  | object members => object (rereadMembers members)
  | j => j

def rereadEach : List Json → List Json
  | [] => []
  | j :: rest => j.reread :: rereadEach rest

def rereadMembers : List (String × Json) → List (String × Json)
  | [] => []
  | (key, j) :: rest => (key, j.reread) :: rereadMembers rest

end

theorem startsItem_writeString (s : String) (cs : List Char) :
    Reader.StartsItem (writeString s ++ cs) :=
  ⟨'\"', _, rfl, by decide, fun o => by cases o <;> decide⟩

theorem startsItem_numeral {n : Numeral} (hn : n.IsValid) : Reader.StartsItem n.text := by
  obtain ⟨c, cs, h, hc⟩ := Reader.text_startsNumber hn
  refine ⟨c, cs, h, ?_, ?_⟩
  · exact Reader.isSpace_of_startsNumber hc
  · rintro (_ | _) <;> exact Reader.ne_of_startsNumber hc

theorem startsItem_write (j : Json) : Reader.StartsItem j.write := by
  have hword (c : Char) (cs : List Char) (hs : Reader.isSpace c = false)
      (hc : ∀ o : Reader.Container, c ≠ o.close) : Reader.StartsItem (c :: cs) :=
    ⟨c, cs, rfl, hs, hc⟩
  cases j with
  | integer n =>
    rw [write, ← text_ofInt]
    exact startsItem_numeral (Numeral.isValid_ofInt n)
  | real x =>
    rw [write]
    by_cases hx : x.isFinite
    · rw [← Numeral.text_ofDouble hx]
      exact startsItem_numeral (Numeral.isValid_ofDouble hx)
    · simp only [writeReal, hx]
      exact hword _ _ (by decide) fun o => by cases o <;> decide
  | string s => simpa [write] using startsItem_writeString s []
  | boolean b => cases b <;> exact hword _ _ (by decide) fun o => by cases o <;> decide
  | _ => exact hword _ _ (by decide) fun o => by cases o <;> decide

theorem startsItem_writeEach : (js : List Json) → ∀ t ∈ writeEach js, Reader.StartsItem t
  | [] => by simp [writeEach]
  | j :: rest => by
    rw [writeEach, List.forall_mem_cons]
    exact ⟨startsItem_write j, startsItem_writeEach rest⟩

theorem startsItem_writeMembers :
    (ms : List (String × Json)) → ∀ t ∈ writeMembers ms, Reader.StartsItem t
  | [] => by simp [writeMembers]
  | (key, j) :: rest => by
    rw [writeMembers, List.forall_mem_cons]
    exact ⟨startsItem_writeString key _, startsItem_writeMembers rest⟩

/-- The number of items and the length of each are at most the length of what they are part of. -/
theorem length_intercalate {ts : List (List Char)} (hne : ∀ t ∈ ts, t ≠ []) :
    ts.length ≤ ([','].intercalate ts).length + 1
      ∧ ∀ t ∈ ts, t.length ≤ ([','].intercalate ts).length := by
  induction ts with
  | nil => simp
  | cons t ts ih =>
    obtain ⟨ht, hts⟩ := List.forall_mem_cons.1 hne
    obtain ⟨hcount, hlen⟩ := ih hts
    cases ts with
    | nil => simp [List.intercalate, List.intersperse]
    | cons u ts =>
      have hpos := List.length_pos_iff.2 ht
      simp only [Text.intercalate_cons_cons, List.length_append, List.length_cons] at hcount ⊢
      constructor
      · omega
      · rintro v (_ | ⟨_, hv⟩)
        · omega
        · have := hlen v hv
          omega

theorem mapM_id_some {α : Type} (xs : List α) : (xs.map some).mapM id = some xs := by
  induction xs with
  | nil => rfl
  | cons x xs ih => simp_all

namespace Reader
variable {bound depth : ℕ} {ts : List (List Char)}

theorem takes_array {xs : List Json} (h : List.Forall₂ (Takes (value bound depth)) ts xs)
    (hs : ∀ t ∈ ts, StartsItem t) (hb : ts.length ≤ bound) :
    Takes (value bound (depth + 1)) ('[' :: [','].intercalate ts ++ [']']) (.array xs) := by
  intro k _
  have hspace := skipSpace_cons (c := '[') (by decide) ([','].intercalate ts ++ ']' :: k)
  have hitems : container (value bound depth) ']' bound ([','].intercalate ts ++ ']' :: k)
      = .ok (xs, k) := container_append .array h hs hb k
  simp only [List.cons_append, List.append_assoc, List.nil_append, value, valueWith, hspace, array,
    hitems, ok_bind, pure_eq_ok]

theorem takes_object {ms : List (String × Json)}
    (h : List.Forall₂ (Takes (member (value bound depth))) ts (ms.map some))
    (hs : ∀ t ∈ ts, StartsItem t) (hb : ts.length ≤ bound) :
    Takes (value bound (depth + 1)) ('\x7b' :: [','].intercalate ts ++ ['\x7d']) (.object ms) := by
  intro k _
  have hspace := skipSpace_cons (c := '\x7b') (by decide) ([','].intercalate ts ++ '\x7d' :: k)
  have hitems : container (member (value bound depth)) '\x7d' bound
      ([','].intercalate ts ++ '\x7d' :: k) = .ok (ms.map some, k) :=
    container_append .object h hs hb k
  simp only [List.cons_append, List.append_assoc, List.nil_append, value, valueWith, hspace, object,
    hitems, ok_bind, pure_eq_ok, mapM_id_some]
  rfl

theorem takes_scalar {t : List Char} {j : Json} (hs : StartsItem t)
    (hc : t.head? ≠ some '[' ∧ t.head? ≠ some '\x7b') (h : ∀ k, scalar (t ++ k) = .ok (j, k)) :
    Takes (value bound depth) t j := by
  obtain ⟨c, cs, rfl, hspace, -⟩ := hs
  intro k _
  rw [List.cons_append, value_scalar hspace (by simpa using hc)]
  exact h k

theorem takes_real (x : Double) : Takes (value bound depth) (writeReal x) (real x).reread := by
  by_cases hx : x.isFinite
  · intro k hk
    rw [← Numeral.text_ofDouble hx, value_numeral (Numeral.isValid_ofDouble hx) _ _ hk,
      Numeral.numberJson_ofDouble hx, reread, if_pos hx]
  · have hnull : writeReal x = "null".toList := by simp [writeReal, hx]
    rw [hnull, reread, if_neg hx]
    exact takes_scalar (startsItem_write null) (by decide) (word_append .null "ull".toList)

end Reader

open Reader

mutual

/-- What is written for a value is read as such, if it may be nested so deep. -/
theorem takes_write {bound : ℕ} : (j : Json) → {depth : ℕ} → j.depth ≤ depth →
    j.write.length ≤ bound → Takes (value bound depth) j.write j.reread
  | null, _, _, _ =>
    takes_scalar (startsItem_write null) (by decide) (word_append .null "ull".toList)
  | unreadable, _, _, _ =>
    takes_scalar (startsItem_write unreadable) (by decide) (word_append .null "ull".toList)
  | boolean true, _, _, _ =>
    takes_scalar (startsItem_write _) (by decide) (word_append (.boolean true) "rue".toList)
  | boolean false, _, _, _ =>
    takes_scalar (startsItem_write _) (by decide) (word_append (.boolean false) "alse".toList)
  | integer n, _, _, _ => by
    intro k hk
    rw [write, ← text_ofInt, value_numeral (Numeral.isValid_ofInt n) _ _ hk, reread]
  | real x, _, _, _ => takes_real x
  | string s, _, _, _ =>
    takes_scalar (startsItem_write _) (by simp [write, writeString]) (scalar_string s)
  | array elements, depth + 1, hd, hl => by
    have hs := startsItem_writeEach elements
    obtain ⟨hcount, hlen⟩ := length_intercalate fun t ht => (hs t ht).ne_nil
    rw [write, List.length_append, List.length_cons] at hl
    rw [Json.depth] at hd
    refine takes_array (takes_writeEach elements (by omega) ?_) hs (by omega)
    intro t ht
    have := hlen t ht
    omega
  | object members, depth + 1, hd, hl => by
    have hs := startsItem_writeMembers members
    obtain ⟨hcount, hlen⟩ := length_intercalate fun t ht => (hs t ht).ne_nil
    rw [write, List.length_append, List.length_cons] at hl
    rw [Json.depth] at hd
    refine takes_object (takes_writeMembers members (by omega) ?_) hs (by omega)
    intro t ht
    have := hlen t ht
    omega

theorem takes_writeEach {bound : ℕ} : (js : List Json) → {depth : ℕ} → depthEach js ≤ depth →
    (∀ t ∈ writeEach js, t.length ≤ bound) →
    List.Forall₂ (Takes (value bound depth)) (writeEach js) (rereadEach js)
  | [], _, _, _ => .nil
  | j :: rest, _, hd, hl => by
    rw [depthEach, max_le_iff] at hd
    rw [writeEach, List.forall_mem_cons] at hl
    exact .cons (takes_write j hd.1 hl.1) (takes_writeEach rest hd.2 hl.2)

theorem takes_writeMembers {bound : ℕ} : (ms : List (String × Json)) → {depth : ℕ} →
    depthMembers ms ≤ depth → (∀ t ∈ writeMembers ms, t.length ≤ bound) →
    List.Forall₂ (Takes (member (value bound depth))) (writeMembers ms)
      ((rereadMembers ms).map some)
  | [], _, _, _ => .nil
  | (key, j) :: rest, _, hd, hl => by
    rw [depthMembers, max_le_iff] at hd
    rw [writeMembers, List.forall_mem_cons, List.length_append, List.length_cons] at hl
    exact .cons (takes_member (takes_write j hd.1 (by omega)) key)
      (takes_writeMembers rest hd.2 hl.2)

end

theorem first_append {j : Json} (h : j.depth ≤ maxDepth) {k : List Char} (hk : EndsNumber k) :
    first (j.write ++ k) = .ok (j.reread, k) :=
  takes_write j h (by simp) k hk

theorem first_write {j : Json} (h : j.depth ≤ maxDepth) :
    first j.write = .ok (j.reread, []) := by
  have := first_append h (k := []) (by simp [EndsNumber])
  rwa [List.append_nil] at this

/-- A written text is read to its end. -/
theorem read_text {j : Json} (h : j.depth ≤ maxDepth) : read j.text = .ok j.reread := by
  rw [read, text, String.toList_ofList, first_write h]
  rfl

theorem endsNumber_of_isSpace {cs : List Char} (h : ∀ c ∈ cs, isSpace c) : EndsNumber cs := by
  intro c hc
  have hspace := h c (List.mem_of_mem_head? hc)
  simp only [isSpace, Bool.or_eq_true, beq_iff_eq, or_assoc] at hspace
  rcases hspace with rfl | rfl | rfl | rfl <;> decide

/-- Blanks after a written text do not matter. -/
theorem read_text_append {j : Json} (h : j.depth ≤ maxDepth) {cs : List Char}
    (hcs : ∀ c ∈ cs, isSpace c) : read (j.text ++ String.ofList cs) = .ok j.reread := by
  have hskip : skipSpace cs = [] := List.dropWhile_eq_nil_iff.2 hcs
  rw [read, text, ← String.ofList_append, String.toList_ofList,
    first_append h (endsNumber_of_isSpace hcs), ok_bind]
  dsimp only
  rw [hskip]
  rfl

theorem readFirst_text {j : Json} (h : j.depth ≤ maxDepth) : readFirst j.text = .ok j.reread := by
  rw [readFirst, text, String.toList_ofList, first_write h]
  rfl

end HomeScript.Json
