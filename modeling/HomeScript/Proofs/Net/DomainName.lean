import Mathlib.Data.Bool.AllAny
import Mathlib.Data.List.TakeWhile
import HomeScript.Net.DomainName
import HomeScript.Proofs.Text.Pieces

/-! # Names settle

The ASCII form of a name is folded, has no percent signs and no labels left to be written in
Punycode, so it is its own ASCII form.
-/

namespace HomeScript.Net

namespace Punycode

/-- What Punycode writes beside the ASCII characters of a label. -/
def IsOwn (c : Char) : Prop :=
  c ∈ "-abcdefghijklmnopqrstuvwxyz0123456789".toList

theorem isOwn_digit {n : ℕ} (h : n < 36) : IsOwn (digit n) := by
  have hall : ∀ m < 36, digit m ∈ "-abcdefghijklmnopqrstuvwxyz0123456789".toList := by decide
  exact hall n h

theorem isOwn_of_mem_number {bias position n : ℕ} {c : Char} (h : c ∈ number bias position n) :
    IsOwn c := by
  have hbounds := threshold_bounds bias position
  rw [number] at h
  dsimp only at h
  split at h
  · rw [List.mem_singleton] at h
    exact h ▸ isOwn_digit (by omega)
  · next hn =>
    rcases List.mem_cons.1 h with rfl | h
    · have hmod := Nat.mod_lt (n - threshold bias position)
        (show 0 < 36 - threshold bias position by omega)
      exact isOwn_digit (by omega)
    · exact isOwn_of_mem_number h
termination_by n
decreasing_by exact Nat.lt_of_le_of_lt (Nat.div_le_self ..) (by omega)

/-- Only such characters have been written. -/
def State.IsOwn (s : State) : Prop :=
  ∀ c ∈ s.written, Punycode.IsOwn c

theorem State.IsOwn.scan {s : State} (h : s.IsOwn) (start code : ℕ) (c : Char) :
    (s.scan start code c).IsOwn := by
  unfold State.scan
  split
  · exact h
  · split
    · exact List.forall_mem_append.2 ⟨h, fun d hd => isOwn_of_mem_number hd⟩
    · exact h

theorem State.IsOwn.foldl_scan {s : State} (h : s.IsOwn) (start code : ℕ) (label : List Char) :
    (label.foldl (State.scan start code) s).IsOwn := by
  induction label generalizing s with
  | nil => exact h
  | cons c label ih => exact ih (h.scan start code c)

theorem State.IsOwn.passes {s : State} (h : s.IsOwn) (label : List Char) (start last : ℕ)
    (codes : List ℕ) : (passes label start last codes s).IsOwn := by
  induction codes generalizing s last with
  | nil => exact h
  | cons code codes ih =>
    have hscanned := State.IsOwn.foldl_scan
      (s := { s with delta := s.delta + (code - last) * (s.count + 1) }) h start code label
    rw [Punycode.passes]
    exact ih (by exact hscanned) (code + 1)

theorem mem_encode {label : List Char} {c : Char} (h : c ∈ encode label) :
    (c ∈ label ∧ c.toNat < 0x80) ∨ IsOwn c := by
  rcases List.mem_append.1 h with h | h
  · rcases List.mem_append.1 h with h | h
    · exact .inl (by simpa using List.mem_filter.1 h)
    · split at h
      · cases h
      · rw [List.mem_singleton] at h
        exact .inr (h ▸ List.mem_cons_self)
  · exact .inr (State.IsOwn.passes (s := { count := _ }) (by simp [State.IsOwn]) _ _ _ _ c h)

end Punycode

namespace DomainName

/-- An ASCII character that is not a capital. -/
def IsFolded (c : Char) : Prop :=
  c.toNat < 0x80 ∧ c.toLower = c

theorem isFolded_of_isOwn {c : Char} (h : Punycode.IsOwn c) : IsFolded c := by
  have hall : ∀ d ∈ "-abcdefghijklmnopqrstuvwxyz0123456789".toList,
      d.toNat < 0x80 ∧ d.toLower = d := List.all_iff_forall_prop.1 (by decide)
  exact hall c h

/-! ## Folding -/

theorem toNat_ofNat_of_lt {n : ℕ} (h : n < 0xd800) : (Char.ofNat n).toNat = n := by
  rw [Char.ofNat, dif_pos (.inl h)]
  rfl

theorem toLower_toLower {c : Char} (h : c.toNat < 0x80) : c.toLower.toLower = c.toLower := by
  have hall : ∀ n < 0x80, (Char.ofNat n).toLower.toLower = (Char.ofNat n).toLower := by decide
  have hc := hall c.toNat h
  rwa [Char.ofNat_toNat] at hc

/-- Folding gives no capitals of ASCII. -/
theorem toLower_foldCase {c : Char} (h : (foldCase c).toNat < 0x80) :
    (foldCase c).toLower = foldCase c := by
  unfold foldCase at h ⊢
  dsimp only at h ⊢
  split
  · next hascii => exact toLower_toLower hascii
  · next hascii =>
    rw [if_neg hascii] at h
    simp only [Bool.or_eq_true, Bool.and_eq_true, decide_eq_true_eq] at h ⊢
    split at h
    · rw [toNat_ofNat_of_lt (by omega)] at h
      omega
    split at h
    · rw [toNat_ofNat_of_lt (by omega)] at h
      omega
    split at h
    · rw [toNat_ofNat_of_lt (by omega)] at h
      omega
    · omega

theorem isFolded_of_mem_fold {cs : List Char} {c : Char} (h : c ∈ fold cs)
    (hascii : c.toNat < 0x80) : IsFolded c := by
  obtain ⟨d, -, rfl⟩ := List.mem_map.1 h
  exact ⟨hascii, toLower_foldCase hascii⟩

theorem foldCase_foldWidth {c : Char} (h : IsFolded c) : foldCase (foldWidth c) = c := by
  have hascii := h.1
  have hwidth : foldWidth c = c := by
    unfold foldWidth
    dsimp only
    rw [if_neg (by simp; omega), if_neg (by simp; omega)]
  rw [hwidth, foldCase, if_pos hascii, h.2]

theorem fold_eq_self {cs : List Char} (h : ∀ c ∈ cs, IsFolded c) : fold cs = cs := by
  have hkept : cs.filter (!isIgnored ·) = cs := by
    rw [List.filter_eq_self]
    intro c hc
    have hascii := (h c hc).1
    simp only [isIgnored, List.contains_eq_mem, List.mem_cons, List.not_mem_nil, or_false,
      Bool.not_eq_true', decide_eq_false_iff_not]
    omega
  rw [fold, hkept]
  conv_rhs => rw [← List.map_id cs]
  apply List.map_congr_left
  intro c hc
  exact foldCase_foldWidth (h c hc)

/-! ## The ASCII form -/

/-- A character that a name keeps. -/
structure IsSettled (c : Char) : Prop where
  folded : IsFolded c
  allowed : isForbidden c = false

theorem decodePercent_eq_bytes {cs : List Char} (h : '%' ∉ cs) :
    decodePercent cs = cs.flatMap String.utf8EncodeChar := by
  induction cs with
  | nil => rfl
  | cons c cs ih =>
    rw [List.mem_cons, not_or] at h
    rw [decodePercent, ih h.2, List.flatMap_cons]
    rintro a b rest rfl
    exact absurd rfl h.1

theorem fromUTF8?_bytes (cs : List Char) :
    String.fromUTF8? ⟨(cs.flatMap String.utf8EncodeChar).toArray⟩ = some (String.ofList cs) := by
  have hbytes : (⟨(cs.flatMap String.utf8EncodeChar).toArray⟩ : ByteArray) = cs.utf8Encode := by
    apply ByteArray.ext
    rw [List.utf8Encode, ← Array.toList_inj, List.toList_data_toByteArray]
  rw [hbytes, String.fromUTF8?, dif_pos ByteArray.isValidUTF8_utf8Encode]
  rfl

theorem label_eq_self {cs : List Char} (h : ∀ c ∈ cs, c.toNat < 0x80) : label cs = cs := by
  rw [label, if_pos]
  rw [isAscii, List.all_eq_true]
  intro c hc
  exact decide_eq_true (h c hc)

theorem isFolded_of_mem_label {cs : List Char} (h : ∀ c ∈ cs, c.toNat < 0x80 → IsFolded c) :
    ∀ c ∈ label cs, IsFolded c := by
  intro c hc
  unfold label at hc
  split at hc
  · next hascii =>
    rw [isAscii, List.all_eq_true] at hascii
    exact h c hc (of_decide_eq_true (hascii c hc))
  · have hmark : ∀ d ∈ "xn--".toList, Punycode.IsOwn d := by
      unfold Punycode.IsOwn
      exact List.all_iff_forall_prop.1 (by decide)
    rcases List.mem_append.1 hc with hc | hc
    · exact isFolded_of_isOwn (hmark c hc)
    · rcases Punycode.mem_encode hc with ⟨hmem, hascii⟩ | hown
      · exact h c hmem hascii
      · exact isFolded_of_isOwn hown

theorem isSettled_of_toAscii? {cs ascii : List Char} (h : toAscii? cs = some ascii) :
    ∀ c ∈ ascii, IsSettled c := by
  obtain ⟨name, -, h⟩ := Option.bind_eq_some_iff.1 h
  dsimp only at h
  split at h
  · cases h
  · next hallowed =>
    obtain rfl := Option.some.inj h
    intro c hc
    refine ⟨?_, ?_⟩
    · rcases Text.mem_intercalate hc with rfl | ⟨piece, hpiece, hc⟩
      · exact ⟨by decide, by decide⟩
      · obtain ⟨raw, hraw, rfl⟩ := List.mem_map.1 hpiece
        refine isFolded_of_mem_label (fun d hd hascii => ?_) c hc
        exact isFolded_of_mem_fold (Text.mem_of_mem_splitOn hraw hd) hascii
    · rw [Bool.not_eq_true, List.any_eq_false] at hallowed
      exact Bool.eq_false_iff.2 (hallowed c hc)

theorem toAscii?_eq_self {cs : List Char} (h : ∀ c ∈ cs, IsSettled c) : toAscii? cs = some cs := by
  have hpercent : '%' ∉ cs := by
    intro hmem
    exact absurd (h '%' hmem).allowed (by decide)
  have hlabels : (cs.splitOn '.').map label = cs.splitOn '.' := by
    conv_rhs => rw [← List.map_id (cs.splitOn '.')]
    apply List.map_congr_left
    intro piece hpiece
    exact label_eq_self fun c hc => (h c (Text.mem_of_mem_splitOn hpiece hc)).folded.1
  have hallowed : cs.any isForbidden = false := by
    rw [List.any_eq_false]
    intro c hc
    simp [(h c hc).allowed]
  rw [toAscii?, decodePercent_eq_bytes hpercent, fromUTF8?_bytes, Option.bind_eq_bind,
    Option.bind_some, String.toList_ofList, fold_eq_self fun c hc => (h c hc).folded, hlabels]
  dsimp only
  rw [List.intercalate_splitOn, if_neg (by simp [hallowed])]

end DomainName
end HomeScript.Net
