import HomeScript.Net.Url
import HomeScript.Proofs.Net.Percent
import HomeScript.Proofs.Text.Pieces

/-! # Paths of URLs

The segments of a path hold neither slashes nor characters to be encoded, and none of them is a dot
or two. Such segments are read as they are.
-/

namespace HomeScript.Net.Url

/-- A segment that stays as it is. -/
structure IsSegment (cs : List Char) : Prop where
  encoded : ∀ c ∈ cs, Percent.inPath c = false
  undivided : ∀ c ∈ cs, isSlash true c = false
  not_dot : isSingleDot cs = false
  not_dots : isDoubleDot cs = false

theorem isSegment_nil : IsSegment [] where
  encoded := by simp
  undivided := by simp
  not_dot := by decide
  not_dots := by decide

/-! ## Dots -/

/-- The texts of one and of two dots, each of which may be encoded. -/
def dotForms : List String :=
  [".", "%2e", "..", ".%2e", "%2e.", "%2e%2e"]

theorem mem_dotForms {cs : List Char} (h : isSingleDot cs ∨ isDoubleDot cs) :
    String.ofList (cs.map Char.toLower) ∈ dotForms := by
  rcases h with h | h
  · exact List.mem_append_left ["..", ".%2e", "%2e.", "%2e%2e"] (List.contains_iff_mem.1 h)
  · exact List.mem_append_right [".", "%2e"] (List.contains_iff_mem.1 h)

theorem code_of_mem_dotForms {form : String} (hform : form ∈ dotForms) {before after : List Char}
    {high low : Char} (h : form.toList = before ++ '%' :: high :: low :: after) :
    high = '2' ∧ low = 'e' := by
  have hcodes : ∀ form ∈ dotForms, ∀ i < form.toList.length, form.toList[i]? = some '%' →
      form.toList[i + 1]? = some '2' ∧ form.toList[i + 2]? = some 'e' := by
    decide
  have hcode := hcodes form hform before.length (by simp [h]) (by simp [h])
  rw [h] at hcode
  simpa using hcode

theorem eq_dot_of_hexDigit {b : UInt8} (hhigh : (Percent.hexDigit (b.toNat / 16)).toLower = '2')
    (hlow : (Percent.hexDigit (b.toNat % 16)).toLower = 'e') : b.toNat = 46 := by
  have htwo : ∀ n < 16, (Percent.hexDigit n).toLower = '2' → n = 2 := by decide
  have hfourteen : ∀ n < 16, (Percent.hexDigit n).toLower = 'e' → n = 14 := by decide
  have hlt := b.toNat_lt
  have hdiv := htwo _ (by omega) hhigh
  have hmod := hfourteen _ (by omega) hlow
  omega

/-- No dot comes out of encoding another segment. -/
theorem encode_of_dots {cs : List Char} (h : isSingleDot (Percent.encode Percent.inPath cs)
    ∨ isDoubleDot (Percent.encode Percent.inPath cs)) : Percent.encode Percent.inPath cs = cs := by
  apply Percent.encode_eq_self
  intro c hc
  by_contra hencoded
  rw [Bool.not_eq_false] at hencoded
  obtain ⟨before, lead, after, hcode, hlead⟩ := Percent.exists_code hc hencoded
  have hform := mem_dotForms h
  have hlist : (String.ofList ((Percent.encode Percent.inPath cs).map Char.toLower)).toList
      = before.map Char.toLower ++ '%' :: (Percent.hexDigit (lead.toNat / 16)).toLower
        :: (Percent.hexDigit (lead.toNat % 16)).toLower :: after.map Char.toLower := by
    rw [String.toList_ofList, hcode, List.map_append, List.map_append]
    rfl
  obtain ⟨hhigh, hlow⟩ := code_of_mem_dotForms hform hlist
  have hdot := eq_dot_of_hexDigit hhigh hlow
  have hc : c = '.' := by
    rw [← Char.toNat_inj, show '.'.toNat = 46 from rfl]
    omega
  rw [hc] at hencoded
  exact absurd hencoded (by decide)

theorem isSegment_encode {cs : List Char} (hundivided : ∀ c ∈ cs, isSlash true c = false)
    (hdot : isSingleDot cs = false) (hdots : isDoubleDot cs = false) :
    IsSegment (Percent.encode Percent.inPath cs) where
  encoded c hc := Percent.not_encoded_of_mem_encode Percent.keepsCodes_inPath hc
  undivided c hc := by
    rcases Percent.mem_encode hc with ⟨hmem, -⟩ | hcode
    · exact hundivided c hmem
    · have hall : ∀ d ∈ "%0123456789ABCDEF".toList, isSlash true d = false :=
        List.all_iff_forall_prop.1 (by decide)
      exact hall c hcode
  not_dot := by
    by_contra hcontra
    rw [Bool.not_eq_false] at hcontra
    rw [encode_of_dots (.inl hcontra), hdot] at hcontra
    cases hcontra
  not_dots := by
    by_contra hcontra
    rw [Bool.not_eq_false] at hcontra
    rw [encode_of_dots (.inr hcontra), hdots] at hcontra
    cases hcontra

/-! ## Segments in order -/

variable {path segments : List (List Char)}

theorem addSegment_of_isSegment (isLast : Bool) {segment : List Char} (h : IsSegment segment) :
    addSegment false isLast path segment = path ++ [segment] := by
  rw [addSegment, h.not_dots, h.not_dot, Percent.encode_eq_self h.encoded]
  rfl

theorem addSegments_of_isSegment (h : ∀ s ∈ segments, IsSegment s) :
    addSegments false path segments = path ++ segments := by
  induction segments generalizing path with
  | nil => simp [addSegments]
  | cons segment segments ih =>
    rw [List.forall_mem_cons] at h
    cases segments with
    | nil => exact addSegment_of_isSegment true h.1
    | cons next segments =>
      rw [addSegments, addSegment_of_isSegment false h.1, ih h.2]
      · simp
      · simp

theorem isSegment_addSegment (isLast : Bool) (hpath : ∀ s ∈ path, IsSegment s) {segment : List Char}
    (hundivided : ∀ c ∈ segment, isSlash true c = false) :
    ∀ s ∈ addSegment false isLast path segment, IsSegment s := by
  have hending : ∀ s ∈ (if isLast then [[]] else [] : List (List Char)), IsSegment s := by
    cases isLast <;> simp [isSegment_nil]
  have hparent : ∀ s ∈ parent false path, IsSegment s := fun s hs =>
    hpath s ((List.dropLast_sublist path).subset hs)
  unfold addSegment
  dsimp only
  split
  · exact List.forall_mem_append.2 ⟨hparent, hending⟩
  · next hdots =>
    split
    · exact List.forall_mem_append.2 ⟨hpath, hending⟩
    · next hdot =>
      have hsegment := isSegment_encode hundivided (Bool.eq_false_iff.2 hdot)
        (Bool.eq_false_iff.2 hdots)
      exact List.forall_mem_append.2 ⟨hpath, by simpa using hsegment⟩

theorem isSegment_addSegments (hpath : ∀ s ∈ path, IsSegment s)
    (hundivided : ∀ s ∈ segments, ∀ c ∈ s, isSlash true c = false) :
    ∀ s ∈ addSegments false path segments, IsSegment s := by
  induction segments generalizing path with
  | nil => exact hpath
  | cons segment segments ih =>
    rw [List.forall_mem_cons] at hundivided
    cases segments with
    | nil => exact isSegment_addSegment true hpath hundivided.1
    | cons next segments => exact ih (isSegment_addSegment false hpath hundivided.1) hundivided.2

theorem addSegment_last_ne_nil (segment : List Char) : addSegment false true path segment ≠ [] := by
  unfold addSegment
  dsimp only
  split
  · simp
  · split <;> simp

theorem addSegments_ne_nil (h : segments ≠ []) : addSegments false path segments ≠ [] := by
  induction segments generalizing path with
  | nil => exact absurd rfl h
  | cons segment segments ih =>
    cases segments with
    | nil => exact addSegment_last_ne_nil segment
    | cons next segments => exact ih (List.cons_ne_nil _ _)

/-! ## Paths -/

/-- A path of segments, at least one. -/
def IsPath (p : UrlPath) : Prop :=
  ∃ names, p = .segments names ∧ names ≠ [] ∧ ∀ name ∈ names, IsSegment name.toList

theorem toList_text_segments (names : List String) :
    (UrlPath.segments names).text.toList = (names.map String.toList).flatMap ('/' :: ·) := by
  rw [UrlPath.text, String.join_eq, String.toList_ofList, List.flatMap_def, List.map_map,
    List.map_map]
  congr 2
  ext name
  simp

theorem isPath_pathOf (cs : List Char) : IsPath (pathOf true false cs) := by
  refine ⟨_, rfl, ?_, ?_⟩
  · rw [if_neg (by decide), ne_eq, List.map_eq_nil_iff]
    exact addSegments_ne_nil (List.splitOnP_ne_nil _ _)
  · intro name hname
    obtain ⟨segment, hsegment, rfl⟩ := List.mem_map.1 hname
    rw [String.toList_ofList]
    exact isSegment_addSegments (by simp) (fun s hs => Text.not_isMark_of_mem_splitOnP hs)
      segment hsegment

theorem isPath_pathAfterHost (cs : List Char) : IsPath (pathAfterHost true false cs) := by
  cases cs with
  | nil => exact ⟨[""], rfl, List.cons_ne_nil _ _, by simpa using isSegment_nil⟩
  | cons c cs => exact isPath_pathOf _

/-- A path is read back from its text. -/
theorem pathAfterHost_text {p : UrlPath} (h : IsPath p) :
    pathAfterHost true false p.text.toList = p := by
  obtain ⟨names, rfl, hne, hsegments⟩ := h
  have hsegments' : ∀ s ∈ names.map String.toList, IsSegment s := by
    simpa using hsegments
  have hne' : names.map String.toList ≠ [] := by simpa using hne
  have hsplit : (['/'].intercalate (names.map String.toList)).splitOnP (isSlash true)
      = names.map String.toList :=
    Text.splitOnP_intercalate rfl hne' fun s hs => (hsegments' s hs).undivided
  rw [toList_text_segments, ← Text.cons_intercalate '/' hne', pathAfterHost,
    if_pos (show isSlash true '/' = true from rfl), pathOf, hsplit,
    addSegments_of_isSegment hsegments', List.nil_append]
  simp

theorem eq_of_text_eq {p q : UrlPath} (hp : IsPath p) (hq : IsPath q) (h : p.text = q.text) :
    p = q := by
  rw [← pathAfterHost_text hp, h, pathAfterHost_text hq]

theorem exists_text_eq_cons {p : UrlPath} (h : IsPath p) : ∃ cs, p.text.toList = '/' :: cs := by
  obtain ⟨names, rfl, hne, -⟩ := h
  obtain ⟨name, names, rfl⟩ := List.exists_cons_of_ne_nil hne
  rw [toList_text_segments]
  exact ⟨_, rfl⟩

theorem mem_text_path {p : UrlPath} (h : IsPath p) {c : Char} (hc : c ∈ p.text.toList) :
    Percent.inPath c = false := by
  obtain ⟨names, rfl, -, hsegments⟩ := h
  rw [toList_text_segments] at hc
  obtain ⟨segment, hsegment, hc⟩ := List.mem_flatMap.1 hc
  rcases List.mem_cons.1 hc with rfl | hc
  · decide
  · obtain ⟨name, hname, rfl⟩ := List.mem_map.1 hsegment
    exact (hsegments name hname).encoded c hc

end HomeScript.Net.Url
