import HomeScript.Proofs.Json.Depth
import HomeScript.Proofs.Net.Authority

/-! # URLs that are read back

A URL that comes out of reading is in a form that keeps its parts apart from each other. The text of
a URL in that form, for a scheme of the web other than that of files, is read as the same URL.
-/

namespace HomeScript.Net.Url

open Json (bind_eq_ok)

/-! ## The form -/

structure IsCanonical (u : Url) : Prop where
  special : isSpecial u.scheme
  not_file : u.scheme ≠ "file"
  username : ∀ c ∈ u.username.toList, Percent.inUserinfo c = false
  password : ∀ c ∈ u.password.toList, Percent.inUserinfo c = false
  host : ∃ cs host, u.host = some host ∧ Host.parse cs = .ok host
  port : ∀ p, u.port = some p → (standardPorts.lookup u.scheme).join ≠ some p
  path : IsPath u.path
  query : ∀ t ∈ u.query, ∀ c ∈ t.toList, Percent.inSpecialQuery c = false
  fragment : ∀ t ∈ u.fragment, ∀ c ∈ t.toList, Percent.inFragment c = false

/-- The user, the host and the port. -/
def authority (u : Url) : List Char :=
  u.userinfo.toList ++ (u.host.elim [] fun host => host.text.toList) ++ u.portText.toList

@[simp]
theorem authority_update (u : Url) (path : UrlPath) (query fragment : Option String) :
    { u with path, query, fragment }.authority = u.authority :=
  rfl

/-- The text of a part with its mark, if the part is there. -/
def marked (mark : Char) (part : Option String) : List Char :=
  part.elim [] fun t => mark :: t.toList

theorem toList_queryText (u : Url) : u.queryText.toList = marked '?' u.query := by
  unfold queryText
  cases u.query <;> simp [marked]

theorem toList_fragmentText (u : Url) : u.fragmentText.toList = marked '#' u.fragment := by
  unfold fragmentText
  cases u.fragment <;> simp [marked]

theorem toList_text {u : Url} (h : u.host.isSome) :
    u.text.toList = u.scheme.toList ++ ':' :: ('/' :: '/' :: (u.authority ++ u.path.text.toList)
      ++ marked '?' u.query ++ marked '#' u.fragment) := by
  obtain ⟨host, hhost⟩ := Option.isSome_iff_exists.1 h
  simp [text, authority, hhost, toList_queryText, toList_fragmentText]

/-! ## The authority -/

namespace IsCanonical
variable {u : Url}

theorem isSome_host (hu : u.IsCanonical) : u.host.isSome := by
  obtain ⟨cs, host, hhost, -⟩ := hu.host
  exact Option.isSome_iff_exists.2 ⟨host, hhost⟩

/-- A host between a user and a port, each of which is found again. -/
theorem exists_authority (hu : u.IsCanonical) : ∃ host : Host, u.host = some host
    ∧ Host.parse host.text.toList = .ok host ∧ IsHostText host.text.toList
    ∧ u.authority = u.userinfo.toList ++ (host.text.toList ++ u.portText.toList) := by
  obtain ⟨cs, host, hhost, hread⟩ := hu.host
  exact ⟨host, hhost, Host.parse_text hread, isHostText_text hread, by simp [authority, hhost]⟩

theorem isInside_authority (hu : u.IsCanonical) : ∀ c ∈ u.authority, IsInside c := by
  obtain ⟨host, -, -, htext, hauthority⟩ := hu.exists_authority
  intro c hc
  rw [hauthority, List.mem_append, List.mem_append] at hc
  rcases hc with hc | hc | hc
  · exact isInside_userinfo hu.username hu.password c hc
  · exact (htext.inside c hc).1
  · exact (isInside_portText u c hc).1

theorem authority_ne_nil (hu : u.IsCanonical) : u.authority ≠ [] := by
  obtain ⟨host, -, -, htext, hauthority⟩ := hu.exists_authority
  simp [hauthority, htext.ne_nil]

theorem withAuthority_text (hu : u.IsCanonical) :
    withAuthority u.scheme (u.authority ++ u.path.text.toList)
      = .ok { u with query := none, fragment := none } := by
  obtain ⟨host, hhost, hread, htext, hauthority⟩ := hu.exists_authority
  obtain ⟨cs, hpath⟩ := exists_text_eq_cons hu.path
  have hspan : (u.authority ++ u.path.text.toList).span (!endsAuthority true ·)
      = (u.authority, u.path.text.toList) := by
    apply span_append
    · intro c hc
      rw [(hu.isInside_authority c hc).continues]
      rfl
    · rw [hpath]
      simp [endsAuthority, isSlash]
  have hat : '@' ∉ host.text.toList ++ u.portText.toList := by
    intro hmem
    rcases List.mem_append.1 hmem with hmem | hmem
    · exact (htext.inside '@' hmem).2 rfl
    · exact (isInside_portText u '@' hmem).2 rfl
  obtain ⟨huser, hrest⟩ := splitUserinfo_userinfo hu.username hu.password hat
  have hnonempty : host.text.toList.isEmpty = false := by simpa using htext.ne_nil
  have hport := port?_portText (u := u) fun p hp => hu.port p hp
  rw [withAuthority, hu.special, hspan]
  dsimp only
  rw [hauthority, huser, hrest, htext.ends _ (isPortText_portText u)]
  dsimp only
  rw [hnonempty, if_neg (by simp), if_pos rfl, hread, hport, pathAfterHost_text hu.path, hhost]
  rfl

theorem hierarchy_text (hu : u.IsCanonical) :
    hierarchy u.scheme ('/' :: '/' :: (u.authority ++ u.path.text.toList))
      = .ok { u with query := none, fragment := none } := by
  have hdrop : ('/' :: '/' :: (u.authority ++ u.path.text.toList)).dropWhile (isSlash true)
      = u.authority ++ u.path.text.toList := by
    obtain ⟨c, cs, hcons⟩ := List.exists_cons_of_ne_nil hu.authority_ne_nil
    have hinside := hu.isInside_authority c (hcons ▸ List.mem_cons_self)
    have hslash : isSlash true c = false :=
      (Bool.or_eq_false_iff.1 (Bool.or_eq_false_iff.1 hinside.continues).1).1
    rw [hcons, List.dropWhile_cons_of_pos rfl, List.dropWhile_cons_of_pos rfl, List.cons_append,
      List.dropWhile_cons_of_neg (by simp [hslash])]
  rw [hierarchy, if_neg hu.not_file, if_pos hu.special, hdrop, hu.withAuthority_text]

end IsCanonical

/-! ## Scheme, query and fragment -/

theorem mem_of_isSpecial {scheme : String} (h : isSpecial scheme) :
    scheme ∈ standardPorts.map Prod.fst := by
  obtain ⟨port, hport⟩ := Option.isSome_iff_exists.1 h
  obtain ⟨before, after, hsplit, -⟩ := List.lookup_eq_some_iff.1 hport
  rw [hsplit]
  simp

theorem scheme?_of_isSpecial {scheme : String} (h : isSpecial scheme) (rest : List Char) :
    scheme? (scheme.toList ++ ':' :: rest) = some (scheme, rest) := by
  have hmem := mem_of_isSpecial h
  simp only [standardPorts, List.map_cons, List.map_nil, List.mem_cons, List.not_mem_nil,
    or_false] at hmem
  rcases hmem with rfl | rfl | rfl | rfl | rfl | rfl <;> rfl

theorem cut_append {mark : Char} {cs : List Char} (h : mark ∉ cs) (part : Option String) :
    cut mark (cs ++ marked mark part) = (cs, part.map String.toList) := by
  have hspan : (cs ++ marked mark part).span (· ≠ mark) = (cs, marked mark part) := by
    apply span_append
    · intro c hc
      exact decide_eq_true fun heq => h (heq ▸ hc)
    · cases part <;> simp [marked]
  rw [cut, hspan]
  cases part <;> rfl

theorem parts_append {main : List Char} {query fragment : Option String}
    (hmain : ∀ c ∈ main, c ≠ '?' ∧ c ≠ '#')
    (hquery : ∀ t ∈ query, ∀ c ∈ t.toList, Percent.inSpecialQuery c = false)
    (hfragment : ∀ t ∈ fragment, ∀ c ∈ t.toList, Percent.inFragment c = false) :
    parts true (main ++ marked '?' query ++ marked '#' fragment) = (main, query, fragment) := by
  have hhash : '#' ∉ main ++ marked '?' query := by
    intro hmem
    rcases List.mem_append.1 hmem with hmem | hmem
    · exact (hmain '#' hmem).2 rfl
    · cases query with
      | none => cases hmem
      | some t =>
        rcases List.mem_cons.1 hmem with heq | hmem
        · cases heq
        · exact absurd (hquery t rfl '#' hmem) (by decide)
  have hmark : '?' ∉ main := fun hmem => (hmain '?' hmem).1 rfl
  rw [parts, cut_append hhash]
  dsimp only
  rw [cut_append hmark]
  have hqueryText : (query.map String.toList).map
      (String.ofList ∘ Percent.encode Percent.inSpecialQuery) = query := by
    cases query with
    | none => rfl
    | some t => simp [Percent.encode_eq_self (hquery t rfl)]
  have hfragmentText : (fragment.map String.toList).map
      (String.ofList ∘ Percent.encode Percent.inFragment) = fragment := by
    cases fragment with
    | none => rfl
    | some t => simp [Percent.encode_eq_self (hfragment t rfl)]
  simp [hqueryText, hfragmentText]

theorem clean_eq_self {cs : List Char} (h : ∀ c ∈ cs, ' ' < c) : clean cs = cs := by
  have htrim {ds : List Char} (hds : ∀ c ∈ ds, ' ' < c) : ds.dropWhile (· ≤ ' ') = ds := by
    cases ds with
    | nil => rfl
    | cons d ds => rw [List.dropWhile_cons_of_neg (by simpa using hds d List.mem_cons_self)]
  have hreverse : ∀ c ∈ cs.reverse, ' ' < c := fun c hc => h c (List.mem_reverse.1 hc)
  rw [clean]
  dsimp only
  rw [htrim h, htrim hreverse, List.reverse_reverse, List.filter_eq_self]
  intro c hc
  have hvisible := h c hc
  rw [decide_eq_true_eq]
  refine ⟨?_, ?_, ?_⟩ <;> rintro rfl <;> exact absurd hvisible (by decide)

/-! ## All of a URL -/

theorem space_lt_of_isSpecial {scheme : String} (h : isSpecial scheme) :
    ∀ c ∈ scheme.toList, ' ' < c := by
  have hall : ∀ s ∈ standardPorts.map Prod.fst, s.toList.all (' ' < ·) := by decide
  exact List.all_iff_forall_prop.1 (hall scheme (mem_of_isSpecial h))

theorem space_lt_of_mem_marked {mark : Char} (hmark : ' ' < mark) {part : Option String}
    (h : ∀ t ∈ part, ∀ c ∈ t.toList, ' ' < c) : ∀ c ∈ marked mark part, ' ' < c := by
  cases part with
  | none => simp [marked]
  | some t => exact List.forall_mem_cons.2 ⟨hmark, h t rfl⟩

namespace IsCanonical
variable {u : Url}

theorem space_lt (hu : u.IsCanonical) : ∀ c ∈ u.text.toList, ' ' < c := by
  rw [toList_text hu.isSome_host]
  simp only [List.forall_mem_append, List.forall_mem_cons]
  refine ⟨space_lt_of_isSpecial hu.special, by decide, ⟨⟨by decide, by decide, ?_, ?_⟩, ?_⟩, ?_⟩
  · exact fun c hc => (hu.isInside_authority c hc).visible
  · exact fun c hc => Percent.space_lt_of_inPath (mem_text_path hu.path hc)
  · exact space_lt_of_mem_marked (by decide) fun t ht c hc =>
      Percent.space_lt_of_inSpecialQuery (hu.query t ht c hc)
  · exact space_lt_of_mem_marked (by decide) fun t ht c hc =>
      Percent.space_lt_of_inFragment (hu.fragment t ht c hc)

theorem not_mark (hu : u.IsCanonical) :
    ∀ c ∈ '/' :: '/' :: (u.authority ++ u.path.text.toList), c ≠ '?' ∧ c ≠ '#' := by
  simp only [List.forall_mem_append, List.forall_mem_cons]
  refine ⟨by decide, by decide, ?_, ?_⟩
  · intro c hc
    have hcontinues := (hu.isInside_authority c hc).continues
    constructor <;> rintro rfl <;> exact absurd hcontinues (by decide)
  · intro c hc
    have hpath := mem_text_path hu.path hc
    constructor <;> rintro rfl <;> exact absurd hpath (by decide)

theorem parse_text (hu : u.IsCanonical) : parse u.text = .ok u := by
  rw [parse, clean_eq_self hu.space_lt, toList_text hu.isSome_host, scheme?_of_isSpecial hu.special]
  dsimp only
  rw [hu.special, parts_append hu.not_mark hu.query hu.fragment]
  dsimp only
  rw [hu.hierarchy_text]
  rfl

end IsCanonical

/-! ## What reading gives -/

theorem not_encoded_ofList {isEncoded : Char → Bool} (hkeeps : Percent.KeepsCodes isEncoded)
    (cs : List Char) :
    ∀ c ∈ (String.ofList (Percent.encode isEncoded cs)).toList, isEncoded c = false := by
  rw [String.toList_ofList]
  exact fun c hc => Percent.not_encoded_of_mem_encode hkeeps hc

theorem not_encoded_part {isEncoded : Char → Bool} (hkeeps : Percent.KeepsCodes isEncoded)
    (part : Option (List Char)) :
    ∀ t ∈ part.map (String.ofList ∘ Percent.encode isEncoded), ∀ c ∈ t.toList,
      isEncoded c = false := by
  intro t ht
  obtain ⟨cs, -, rfl⟩ := Option.map_eq_some_iff.1 ht
  exact not_encoded_ofList hkeeps cs

theorem not_encoded_of_parts {cs main : List Char} {query fragment : Option String}
    (h : parts true cs = (main, query, fragment)) :
    (∀ t ∈ query, ∀ c ∈ t.toList, Percent.inSpecialQuery c = false)
      ∧ ∀ t ∈ fragment, ∀ c ∈ t.toList, Percent.inFragment c = false := by
  cases h
  exact ⟨not_encoded_part Percent.keepsCodes_inSpecialQuery _,
    not_encoded_part Percent.keepsCodes_inFragment _⟩

theorem scheme_ofFile {cs : List Char} {u : Url} (h : ofFile cs = .ok u) : u.scheme = "file" := by
  unfold ofFile at h
  dsimp only at h
  split at h
  · split at h
    · split at h
      · cases h
        rfl
      · split at h
        · cases h
          rfl
        · obtain ⟨host, -, hfile⟩ := bind_eq_ok.1 h
          cases hfile
          rfl
    · cases h
      rfl
  · cases h
    rfl

theorem scheme_withAuthority {scheme : String} {cs : List Char} {u : Url}
    (h : withAuthority scheme cs = .ok u) : u.scheme = scheme := by
  unfold withAuthority at h
  dsimp only at h
  split at h
  · cases h
  · split at h <;>
    · obtain ⟨host, -, h⟩ := bind_eq_ok.1 h
      obtain ⟨port, -, h⟩ := bind_eq_ok.1 h
      cases h
      rfl

theorem scheme_hierarchy {scheme : String} {cs : List Char} {u : Url}
    (h : hierarchy scheme cs = .ok u) : u.scheme = scheme := by
  unfold hierarchy at h
  split at h
  · next hfile => rw [scheme_ofFile h, hfile]
  · split at h
    · exact scheme_withAuthority h
    · split at h
      · exact scheme_withAuthority h
      · cases h
        rfl
      · cases h
        rfl

theorem isCanonical_of_withAuthority {scheme : String} {cs : List Char} {u : Url}
    (hspecial : isSpecial scheme) (hfile : scheme ≠ "file") (h : withAuthority scheme cs = .ok u) :
    u.IsCanonical := by
  unfold withAuthority at h
  dsimp only at h
  split at h
  · cases h
  · rw [hspecial] at h
    obtain ⟨host, hhost, h⟩ := bind_eq_ok.1 h
    obtain ⟨port, hport, h⟩ := bind_eq_ok.1 h
    cases h
    exact {
      special := hspecial
      not_file := hfile
      username := not_encoded_ofList Percent.keepsCodes_inUserinfo _
      password := not_encoded_ofList Percent.keepsCodes_inUserinfo _
      host := ⟨_, host, rfl, hhost⟩
      port := by
        rintro p rfl
        exact ne_standard_of_port? hport
      path := isPath_pathAfterHost _
      query := by simp
      fragment := by simp }

theorem isCanonical_of_parse {t : String} {u : Url} (h : parse t = .ok u)
    (hspecial : isSpecial u.scheme) (hfile : u.scheme ≠ "file") : u.IsCanonical := by
  unfold parse at h
  split at h
  · cases h
  · next scheme rest _ =>
    rcases hparts : parts (isSpecial scheme) rest with ⟨main, query, fragment⟩
    rw [hparts] at h
    obtain ⟨v, hv, h⟩ := bind_eq_ok.1 h
    cases h
    dsimp only at hspecial hfile
    rw [scheme_hierarchy hv] at hspecial hfile
    unfold hierarchy at hv
    rw [if_neg hfile, if_pos hspecial] at hv
    rw [hspecial] at hparts
    exact {
      isCanonical_of_withAuthority hspecial hfile hv with
      query := (not_encoded_of_parts hparts).1
      fragment := (not_encoded_of_parts hparts).2 }

end HomeScript.Net.Url
