import Mathlib.Data.List.TakeWhile
import HomeScript.Net.Ip
import HomeScript.Proofs.Text.Pieces

/-! # Addresses and their texts

An address of version six is read back from its compressed text: a double colon stands for the run
of zeros that was left out, and no other pair of colons stands side by side.
-/

namespace HomeScript

namespace Text

theorem hex?_concat (cs : List Char) (c : Char) :
    hex? (cs ++ [c]) = (hex? cs).bind fun n => (hexDigit? c).map (16 * n + ·) := by
  simp only [hex?, List.mapM_append, List.mapM_cons, List.mapM_nil]
  cases cs.mapM hexDigit? with
  | none => rfl
  | some ds =>
    cases hexDigit? c with
    | none => rfl
    | some d => simp [ofHexDigits]

theorem hexDigit?_digitChar {n : ℕ} (h : n < 16) : hexDigit? (Nat.digitChar n) = some n := by
  have hall : ∀ m < 16, hexDigit? (Nat.digitChar m) = some m := by decide
  exact hall n h

theorem hex?_toDigits (n : ℕ) : hex? (Nat.toDigits 16 n) = some n := by
  induction n using Nat.strong_induction_on with
  | h n ih =>
    rw [Nat.toDigits_eq_if (by decide)]
    split
    · next hlt => simp [hex?, hexDigit?_digitChar hlt, ofHexDigits]
    · next hge =>
      rw [hex?_concat, ih (n / 16) (by omega), hexDigit?_digitChar (Nat.mod_lt n (by decide)),
        Option.bind_some, Option.map_some, Nat.div_add_mod]

theorem mem_toDigits {n : ℕ} {c : Char} (h : c ∈ Nat.toDigits 16 n) :
    c ∈ "0123456789abcdef".toList := by
  have hdigit : ∀ m < 16, Nat.digitChar m ∈ "0123456789abcdef".toList := by decide
  induction n using Nat.strong_induction_on with
  | h n ih =>
    rw [Nat.toDigits_eq_if (by decide)] at h
    split at h
    · next hlt =>
      rw [List.mem_singleton] at h
      exact h ▸ hdigit n hlt
    · next hge =>
      rcases List.mem_append.1 h with h | h
      · exact ih (n / 16) (by omega) h
      · rw [List.mem_singleton] at h
        exact h ▸ hdigit (n % 16) (Nat.mod_lt n (by decide))

end Text

namespace Net

namespace Ipv4

theorem parse_of_not_mem {cs : List Char} (h : '.' ∉ cs) : parse cs = none := by
  have hsplit : cs.splitOn '.' = [cs] := by
    rw [List.splitOn_eq_splitOnP, List.splitOnP_eq_singleton]
    intro c hc
    rw [beq_eq_false_iff_ne]
    rintro rfl
    exact h hc
  rw [parse, hsplit, List.mapM_cons, List.mapM_nil]
  cases octet? cs <;> rfl

end Ipv4

namespace Ipv6

/-- The digits of a group. -/
def groupDigits (g : UInt16) : List Char :=
  Nat.toDigits 16 g.toNat

theorem groupDigits_ne_nil (g : UInt16) : groupDigits g ≠ [] :=
  Nat.toDigits_ne_nil

theorem not_mem_groupDigits {g : UInt16} {c : Char} (hc : c ∉ "0123456789abcdef".toList) :
    c ∉ groupDigits g := fun h => hc (Text.mem_toDigits h)

theorem group?_groupDigits (g : UInt16) : group? (groupDigits g) = some g := by
  have hlength : (groupDigits g).length ≤ 4 :=
    (Nat.length_toDigits_le_iff (by decide) (by decide)).2 g.toNat_lt
  have hne : (groupDigits g).isEmpty = false := by simp [groupDigits_ne_nil g]
  rw [group?, hne, decide_eq_false (by omega), groupDigits, Text.hex?_toDigits]
  simp

theorem toList_groupsText (gs : List UInt16) :
    (groupsText gs).toList = [':'].intercalate (gs.map groupDigits) := by
  have hdigits : String.toList ∘ (fun g : UInt16 => hexText g.toNat) = groupDigits := by
    ext g
    simp [hexText, groupDigits]
  rw [groupsText, String.toList_intercalate, List.map_map, hdigits]
  rfl

theorem groups?_groupDigits (octetsAllowed : Bool) (gs : List UInt16) :
    groups? octetsAllowed (gs.map groupDigits) = some gs := by
  induction gs with
  | nil => rfl
  | cons g gs ih =>
    cases gs with
    | nil =>
      have hoctets : (if octetsAllowed then Ipv4.parse (groupDigits g) else none) = none := by
        rw [Ipv4.parse_of_not_mem (not_mem_groupDigits (by decide)), ite_self]
      rw [List.map_singleton, groups?, hoctets, group?_groupDigits]
      rfl
    | cons next gs =>
      rw [List.map_cons, List.map_cons, groups?, group?_groupDigits, ← List.map_cons, ih]
      · rfl
      · simp

theorem groupsOf?_groupsText (octetsAllowed : Bool) (gs : List UInt16) :
    groupsOf? octetsAllowed (groupsText gs).toList = some gs := by
  rw [toList_groupsText, groupsOf?]
  cases gs with
  | nil => rfl
  | cons g gs =>
    have hne : ([':'].intercalate ((g :: gs).map groupDigits)).isEmpty = false := by
      obtain ⟨c, cs, hg⟩ := List.exists_cons_of_ne_nil (groupDigits_ne_nil g)
      cases gs <;> simp [hg]
    have hcolon : ∀ piece ∈ (g :: gs).map groupDigits, ':' ∉ piece := by
      intro piece hpiece
      obtain ⟨g', -, rfl⟩ := List.mem_map.1 hpiece
      exact not_mem_groupDigits (by decide)
    rw [hne, if_neg (by simp), List.splitOn_intercalate ':' hcolon (by simp),
      groups?_groupDigits]

/-! ## The gap -/

theorem splitGap_append {piece : List Char} (h : ':' ∉ piece) (tail : List Char) :
    splitGap (piece ++ tail)
      = (splitGap tail).map fun (before, after) => (piece ++ before, after) := by
  induction piece with
  | nil => simp
  | cons c piece ih =>
    rw [List.mem_cons, not_or] at h
    rw [List.cons_append, splitGap, ih h.2, Option.map_map]
    · rfl
    · intro rest hc
      exact absurd hc.symm h.1

theorem splitGap_colon {c : Char} (h : c ≠ ':') (tail : List Char) :
    splitGap (':' :: c :: tail)
      = (splitGap (c :: tail)).map fun (before, after) => (':' :: before, after) := by
  rw [splitGap]
  simp [h]

/-- There is no gap within groups. -/
theorem splitGap_groups (gs : List UInt16) (tail : List Char) :
    splitGap ([':'].intercalate (gs.map groupDigits) ++ tail) = (splitGap tail).map
      fun (before, after) => ([':'].intercalate (gs.map groupDigits) ++ before, after) := by
  induction gs with
  | nil => simp
  | cons g gs ih =>
    have hg : ':' ∉ groupDigits g := not_mem_groupDigits (by decide)
    cases gs with
    | nil => simpa using splitGap_append hg tail
    | cons next gs =>
      have hhead : ∃ c more, c ≠ ':'
          ∧ [':'].intercalate ((next :: gs).map groupDigits) = c :: more := by
        obtain ⟨c, cs, hnext⟩ := List.exists_cons_of_ne_nil (groupDigits_ne_nil next)
        refine ⟨c, ?_⟩
        have hc : c ≠ ':' := by
          rintro rfl
          exact not_mem_groupDigits (g := next) (by decide) (hnext ▸ List.mem_cons_self)
        cases gs <;> simp [hnext, hc]
      obtain ⟨c, more, hc, hhead⟩ := hhead
      rw [hhead] at ih
      rw [List.map_cons, List.map_cons, Text.intercalate_cons_cons, ← List.map_cons, hhead,
        List.append_assoc, List.cons_append, splitGap_append hg, List.cons_append,
        splitGap_colon hc]
      rw [List.cons_append] at ih
      rw [ih, Option.map_map, Option.map_map]
      cases splitGap tail <;> simp

theorem splitGap_groupsText (gs : List UInt16) : splitGap (groupsText gs).toList = none := by
  simpa [toList_groupsText, splitGap] using splitGap_groups gs []

theorem splitGap_gap (gs : List UInt16) (after : List Char) :
    splitGap ((groupsText gs).toList ++ ':' :: ':' :: after)
      = some ((groupsText gs).toList, after) := by
  rw [toList_groupsText, splitGap_groups]
  simp [splitGap]

/-! ## Compressed texts -/

theorem drop_eq_zeros (gs : List UInt16) (start : ℕ) :
    gs.drop start
      = List.replicate (zerosFrom gs start) 0 ++ gs.drop (start + zerosFrom gs start) := by
  have hzeros : (gs.drop start).takeWhile (· = 0) = List.replicate (zerosFrom gs start) 0 := by
    apply List.eq_replicate_of_mem
    intro g hg
    simpa using List.mem_takeWhile_imp hg
  have hrest := List.takeWhile_append_dropWhile (p := (· = 0)) (l := gs.drop start)
  conv_lhs => rw [← hrest, hzeros]
  rw [← List.drop_drop]
  congr 1
  conv_rhs => rw [← hrest, hzeros]
  simp

theorem ofGroups?_toList (a : Ipv6) : ofGroups? a.groups.toList = some a := by
  rw [ofGroups?, dif_pos (by simp)]
  rfl

theorem parse_groupsText (a : Ipv6) : parse (groupsText a.groups.toList).toList = some a := by
  rw [parse, splitGap_groupsText, groupsOf?_groupsText]
  exact ofGroups?_toList a

theorem parse_gap {a : Ipv6} {start zeros : ℕ} (hstart : start < 8) (hzeros : 2 ≤ zeros)
    (hrun : zerosFrom a.groups.toList start = zeros) :
    parse ((groupsText (a.groups.toList.take start)).toList ++ ':' :: ':' ::
      (groupsText (a.groups.toList.drop (start + zeros))).toList) = some a := by
  have hlength : a.groups.toList.length = 8 := Vector.length_toList
  have hdrop := drop_eq_zeros a.groups.toList start
  rw [hrun] at hdrop
  have htotal := congrArg List.length hdrop
  rw [List.length_append, List.length_replicate, List.length_drop, List.length_drop] at htotal
  have hhead : (a.groups.toList.take start).length = start := by
    rw [List.length_take]
    omega
  have htail : (a.groups.toList.drop (start + zeros)).length = 8 - start - zeros := by
    rw [List.length_drop]
    omega
  rw [parse, splitGap_gap]
  simp only [groupsOf?_groupsText, Option.bind_eq_bind, Option.bind_some, hhead, htail]
  rw [if_neg (by omega), show 8 - start - (8 - start - zeros) = zeros by omega, List.append_assoc,
    ← hdrop, List.take_append_drop, ofGroups?_toList]

/-- The longest run of zeros starts where it is sought. -/
theorem exists_longest (gs : List UInt16) {longest : ℕ} (hpos : 0 < longest)
    (h : ((List.range gs.length).map (zerosFrom gs)).foldl max 0 = longest) :
    ((List.range gs.length).map (zerosFrom gs)).idxOf longest < gs.length
      ∧ zerosFrom gs (((List.range gs.length).map (zerosFrom gs)).idxOf longest) = longest := by
  set runs := (List.range gs.length).map (zerosFrom gs) with hruns
  have hmem : longest ∈ runs := by
    have hne : runs ≠ [] := by
      rintro hnil
      rw [hnil, List.foldl_nil] at h
      omega
    rw [← h, List.foldl_max_eq_max hne, Nat.zero_max]
    exact List.max_mem hne
  have hlt : runs.idxOf longest < runs.length := List.idxOf_lt_length_of_mem hmem
  have hget := List.getElem_idxOf hlt
  simp only [hruns, List.getElem_map, List.getElem_range] at hget
  exact ⟨by simpa [hruns] using hlt, hget⟩

theorem compressed_cases (a : Ipv6) :
    a.compressed = groupsText a.groups.toList
      ∨ ∃ start zeros, start < 8 ∧ 2 ≤ zeros ∧ zerosFrom a.groups.toList start = zeros
        ∧ a.compressed.toList = (groupsText (a.groups.toList.take start)).toList ++ ':' :: ':' ::
          (groupsText (a.groups.toList.drop (start + zeros))).toList := by
  have hlength : a.groups.toList.length = 8 := Vector.length_toList
  rcases Nat.lt_or_ge
    (((List.range a.groups.toList.length).map (zerosFrom a.groups.toList)).foldl max 0) 2
    with hshort | hlong
  · exact .inl (if_pos hshort)
  · obtain ⟨hlt, hrun⟩ := exists_longest a.groups.toList (Nat.lt_of_lt_of_le Nat.two_pos hlong) rfl
    refine .inr ⟨_, _, hlt.trans_eq hlength, hlong, hrun, ?_⟩
    rw [compressed, if_neg (not_lt.2 hlong)]
    simp

theorem parse_compressed (a : Ipv6) : parse a.compressed.toList = some a := by
  rcases a.compressed_cases with h | ⟨start, zeros, hstart, hzeros, hrun, h⟩
  · rw [h, parse_groupsText]
  · rw [h, parse_gap hstart hzeros hrun]

theorem mem_groupsText {gs : List UInt16} {c : Char} (h : c ∈ (groupsText gs).toList) :
    c ∈ "0123456789abcdef:".toList := by
  rw [toList_groupsText] at h
  rcases Text.mem_intercalate h with rfl | ⟨piece, hpiece, hc⟩
  · decide
  · obtain ⟨g, -, rfl⟩ := List.mem_map.1 hpiece
    exact List.mem_append_left [':'] (Text.mem_toDigits hc)

theorem mem_compressed {a : Ipv6} {c : Char} (h : c ∈ a.compressed.toList) :
    c ∈ "0123456789abcdef:".toList := by
  rcases a.compressed_cases with hc | ⟨start, zeros, -, -, -, hc⟩
  · exact mem_groupsText (hc ▸ h)
  · rw [hc, List.mem_append, List.mem_cons, List.mem_cons] at h
    rcases h with h | rfl | rfl | h
    · exact mem_groupsText h
    · decide
    · decide
    · exact mem_groupsText h

end Ipv6
end Net
end HomeScript
