import Mathlib.Data.List.DropRight
import HomeScript.Proofs.Net.Url
import HomeScript.Studio.Config
import HomeScript.Studio.HomeRuntime

/-! # Endpoints of a base URL

The name of an endpoint is written behind the text of the base URL. That text ends in the path of
the base, unless there is a query or a fragment, which the name then goes to.
-/

namespace HomeScript.Studio
open Net

/-! ## Slashes at the end -/

theorem withoutSlashes_eq_rdropWhile (cs : List Char) :
    withoutSlashes cs = cs.rdropWhile (· = '/') :=
  rfl

theorem withoutSlashes_append {cs : List Char} (h : ∀ c ∈ cs.getLast?, c ≠ '/')
    (ds : List Char) : withoutSlashes (cs ++ ds) = cs ++ withoutSlashes ds := by
  simp only [withoutSlashes_eq_rdropWhile]
  induction ds using List.reverseRecOn with
  | nil =>
    rw [List.append_nil, List.rdropWhile_nil, List.append_nil, List.rdropWhile_eq_self_iff]
    intro hne
    simpa using h _ (List.getLast_mem_getLast? hne)
  | append_singleton ds d ih =>
    rw [← List.append_assoc, List.rdropWhile_concat, List.rdropWhile_concat, ih]
    split <;> simp

theorem withoutSlashes_eq_self {cs : List Char} (h : ∀ c ∈ cs.getLast?, c ≠ '/') :
    withoutSlashes cs = cs := by
  simpa [withoutSlashes] using withoutSlashes_append h []

theorem mem_of_mem_withoutSlashes {cs : List Char} {c : Char} (h : c ∈ withoutSlashes cs) :
    c ∈ cs :=
  (List.rdropWhile_prefix _ cs).subset h

/-- Of segments without slashes, the empty ones at the end are dropped. -/
theorem withoutSlashes_segments {segments : List (List Char)} (h : ∀ s ∈ segments, '/' ∉ s) :
    withoutSlashes (segments.flatMap ('/' :: ·))
      = (segments.rdropWhile (· = [])).flatMap ('/' :: ·) := by
  induction segments using List.reverseRecOn with
  | nil => rfl
  | append_singleton segments s ih =>
    rw [List.forall_mem_append, List.forall_mem_singleton] at h
    rw [List.flatMap_append, List.flatMap_singleton]
    by_cases hs : s = []
    · subst hs
      rw [List.rdropWhile_concat_pos _ _ _ (by simp), ← ih h.1]
      exact List.rdropWhile_concat_pos _ _ _ (by simp)
    · rw [List.rdropWhile_concat_neg _ _ _ (by simpa using hs), List.flatMap_append,
        List.flatMap_singleton]
      apply withoutSlashes_eq_self
      rw [List.append_cons, List.getLast?_append_of_ne_nil _ hs]
      rintro c hc rfl
      exact h.2 (List.mem_of_mem_getLast? hc)

/-! ## The URL that is asked -/

/-- The name of an endpoint behind a text. -/
def below (t : String) (e : Endpoint) : String :=
  String.ofList (withoutSlashes t.toList) ++ "/" ++ e.name

def pathBelow (e : Endpoint) : UrlPath → UrlPath
  | .plain t => .plain (below t e)
  | .segments names => .segments (names.rdropWhile (· = "") ++ [e.name])

/-- The base with the name of an endpoint in its last part. -/
def extended (base : Url) (e : Endpoint) : Url :=
  match base.fragment, base.query with
  | some f, _ => { base with fragment := some (below f e) }
  | none, some q => { base with query := some (below q e) }
  | none, none => { base with path := pathBelow e base.path }

theorem toList_below (t : String) (e : Endpoint) :
    (below t e).toList = withoutSlashes t.toList ++ '/' :: e.name.toList := by
  simp [below]

theorem below_append {t after : String} {before : List Char}
    (ht : t.toList = before ++ after.toList) (hbefore : ∀ c ∈ before.getLast?, c ≠ '/')
    (e : Endpoint) : (below t e).toList = before ++ (below after e).toList := by
  rw [toList_below, toList_below, ht, withoutSlashes_append hbefore, List.append_assoc]

theorem below_eq_iff {t t' : String} {e : Endpoint} :
    below t e = below t' e ↔ withoutSlashes t.toList = withoutSlashes t'.toList := by
  rw [← String.toList_inj, toList_below, toList_below, List.append_left_inj]

/-- The name of an endpoint ends in no slash. -/
theorem below_ne (t : String) (e : Endpoint) : below t e ≠ t := by
  intro h
  have hlist : withoutSlashes t.toList ++ '/' :: e.name.toList = t.toList := by
    rw [← toList_below, h]
  have hname : ('/' :: e.name.toList).getLast? ≠ some '/' := by cases e <;> decide
  have hlast : ∀ c ∈ t.toList.getLast?, c ≠ '/' := by
    rw [← hlist, List.getLast?_append_of_ne_nil _ (List.cons_ne_nil _ _)]
    rintro c hc rfl
    exact hname hc
  have hlength := congrArg List.length hlist
  rw [withoutSlashes_eq_self hlast, List.length_append, List.length_cons] at hlength
  omega

theorem text_pathBelow {p : UrlPath} (hp : Url.IsPath p) (e : Endpoint) :
    (pathBelow e p).text = below p.text e := by
  obtain ⟨names, rfl, -, hsegments⟩ := hp
  have hslash : ∀ s ∈ names.map String.toList, '/' ∉ s := by
    intro s hs hmem
    obtain ⟨name, hname, rfl⟩ := List.mem_map.1 hs
    exact absurd ((hsegments name hname).undivided '/' hmem) (by decide)
  have hdrop : (names.map String.toList).rdropWhile (· = [])
      = (names.rdropWhile (· = "")).map String.toList := by
    have hempty : ((· = []) ∘ String.toList : String → Bool) = (· = "") := by
      ext name
      simp
    rw [List.rdropWhile, ← List.map_reverse, List.dropWhile_map, hempty, ← List.map_reverse]
    rfl
  rw [← String.toList_inj, toList_below, pathBelow, Url.toList_text_segments,
    Url.toList_text_segments, withoutSlashes_segments hslash, hdrop]
  simp

theorem endpointUrl_eq_text_of_append {base url : Url} {e : Endpoint} (before : List Char)
    (last : String) (hbase : base.text.toList = before ++ last.toList)
    (hbefore : ∀ c ∈ before.getLast?, c ≠ '/')
    (hurl : url.text.toList = before ++ (below last e).toList) : endpointUrl base e = url.text := by
  rw [← String.toList_inj, hurl, ← below_append hbase hbefore]
  rfl

theorem endpointUrl_eq_text {base : Url} (hbase : base.IsCanonical) (e : Endpoint) :
    endpointUrl base e = (extended base e).text := by
  have hhost := hbase.isSome_host
  let main := base.scheme.toList ++ [':', '/', '/'] ++ base.authority
  unfold extended
  split
  · next _ f hfragment =>
    apply endpointUrl_eq_text_of_append
      (main ++ base.path.text.toList ++ Url.marked '?' base.query ++ ['#']) f
    · rw [Url.toList_text hhost, hfragment]
      simp [main, Url.marked]
    · simp
    · refine (Url.toList_text ?_).trans ?_
      · exact hhost
      · simp [main, Url.marked]
  · next q hfragment hquery =>
    apply endpointUrl_eq_text_of_append (main ++ base.path.text.toList ++ ['?']) q
    · rw [Url.toList_text hhost, hfragment, hquery]
      simp [main, Url.marked]
    · simp
    · refine (Url.toList_text ?_).trans ?_
      · exact hhost
      · simp [main, Url.marked, hfragment]
  · next hfragment hquery =>
    apply endpointUrl_eq_text_of_append main base.path.text
    · rw [Url.toList_text hhost, hfragment, hquery]
      simp [main, Url.marked]
    · rw [List.getLast?_append_of_ne_nil _ hbase.authority_ne_nil]
      rintro c hc rfl
      have hinside := hbase.isInside_authority '/' (List.mem_of_mem_getLast? hc)
      exact absurd hinside.continues (by decide)
    · refine (Url.toList_text ?_).trans ?_
      · exact hhost
      · rw [text_pathBelow hbase.path]
        simp [main, Url.marked, hfragment, hquery]

theorem isSegment_name (e : Endpoint) : Url.IsSegment e.name.toList := by
  cases e <;> exact {
    encoded := List.all_iff_forall_prop.1 (by decide)
    undivided := List.all_iff_forall_prop.1 (by decide)
    not_dot := by decide
    not_dots := by decide }

theorem isPath_pathBelow {p : UrlPath} (hp : Url.IsPath p) (e : Endpoint) :
    Url.IsPath (pathBelow e p) := by
  obtain ⟨names, rfl, -, hsegments⟩ := hp
  refine ⟨_, rfl, by simp, ?_⟩
  rw [List.forall_mem_append, List.forall_mem_singleton]
  exact ⟨fun name hname => hsegments name ((List.rdropWhile_prefix _ names).subset hname),
    isSegment_name e⟩

/-- What the name of an endpoint is written behind stays free of characters to be encoded. -/
theorem not_encoded_below {isEncoded : Char → Bool} {t : String}
    (ht : ∀ c ∈ t.toList, isEncoded c = false) {e : Endpoint}
    (he : ('/' :: e.name.toList).all (isEncoded · = false)) :
    ∀ c ∈ (below t e).toList, isEncoded c = false := by
  rw [toList_below, List.forall_mem_append]
  exact ⟨fun c hc => ht c (mem_of_mem_withoutSlashes hc), List.all_iff_forall_prop.1 he⟩

theorem isCanonical_extended {base : Url} (hbase : base.IsCanonical) (e : Endpoint) :
    (extended base e).IsCanonical := by
  unfold extended
  split
  · next _ f hfragment =>
    refine { hbase with fragment := ?_ }
    intro t ht
    obtain rfl := Option.some.inj ht
    exact not_encoded_below (hbase.fragment f hfragment) (by cases e <;> decide)
  · next q _ hquery =>
    refine { hbase with query := ?_ }
    intro t ht
    obtain rfl := Option.some.inj ht
    exact not_encoded_below (hbase.query q hquery) (by cases e <;> decide)
  · exact { hbase with path := isPath_pathBelow hbase.path e }

/-- The URL of an endpoint is the base with the name of the endpoint in its last part. -/
theorem parse_endpointUrl {base : Url} (hbase : base.IsCanonical) (e : Endpoint) :
    Url.parse (endpointUrl base e) = .ok (extended base e) := by
  rw [endpointUrl_eq_text hbase, (isCanonical_extended hbase e).parse_text]

/-- All but the path, the query and the fragment is that of the base. -/
theorem extended_keeps (base : Url) (e : Endpoint) :
    (extended base e).scheme = base.scheme ∧ (extended base e).username = base.username
      ∧ (extended base e).password = base.password ∧ (extended base e).host = base.host
      ∧ (extended base e).port = base.port := by
  unfold extended
  split <;> exact ⟨rfl, rfl, rfl, rfl, rfl⟩

theorem query_extended {base : Url} (h : base.query = none) (e : Endpoint) :
    (extended base e).query = none := by
  unfold extended
  split
  · exact h
  · next hquery => rw [hquery] at h; cases h
  · exact h

theorem fragment_extended {base : Url} (h : base.fragment = none) (e : Endpoint) :
    (extended base e).fragment = none := by
  unfold extended
  split
  · next hfragment => rw [hfragment] at h; cases h
  · exact h
  · exact h

theorem path_extended {base : Url} (h : ¬ (base.query = none ∧ base.fragment = none))
    (e : Endpoint) : (extended base e).path = base.path := by
  unfold extended
  split
  · rfl
  · rfl
  · next hfragment hquery => exact absurd ⟨hquery, hfragment⟩ h

theorem text_path_extended_iff {base : Url} (hbase : base.IsCanonical) (e : Endpoint) :
    (extended base e).path.text = below base.path.text e
      ↔ base.query = none ∧ base.fragment = none := by
  constructor
  · intro h
    by_contra hparts
    rw [path_extended hparts] at h
    exact below_ne base.path.text e h.symm
  · rintro ⟨hquery, hfragment⟩
    rw [extended, hquery, hfragment, text_pathBelow hbase.path]

/-- Bases whose paths differ only in the slashes at their ends. -/
theorem endpointUrl_eq_iff {base base' : Url} (hbase : base.IsCanonical)
    (hbase' : base'.IsCanonical) (hothers : base' = { base with path := base'.path })
    (hpath : base'.path ≠ base.path)
    (hslashes : withoutSlashes base'.path.text.toList = withoutSlashes base.path.text.toList)
    (e : Endpoint) :
    endpointUrl base' e = endpointUrl base e ↔ base.query = none ∧ base.fragment = none := by
  constructor
  · intro h
    have hextended : extended base' e = extended base e := by
      rw [← Except.ok.injEq, ← parse_endpointUrl hbase', h, parse_endpointUrl hbase]
    by_contra hparts
    have hparts' : ¬ (base'.query = none ∧ base'.fragment = none) := by
      rwa [hothers]
    rw [← path_extended hparts e, ← hextended, path_extended hparts' e] at hpath
    exact hpath rfl
  · rintro ⟨hquery, hfragment⟩
    have hbelow : pathBelow e base'.path = pathBelow e base.path := by
      apply Url.eq_of_text_eq (isPath_pathBelow hbase'.path e) (isPath_pathBelow hbase.path e)
      rw [text_pathBelow hbase'.path, text_pathBelow hbase.path, below_eq_iff.2 hslashes]
    have hextended : extended base' e = extended base e := by
      rw [hothers]
      simp [extended, hquery, hfragment, hbelow]
    rw [endpointUrl_eq_text hbase', endpointUrl_eq_text hbase, hextended]

/-! ## Bases of a configuration -/

theorem Config.exists_parse {lookup : String → Option String} {config : Config}
    (h : Config.ofLookup lookup = .ok config) : ∃ t, Url.parse t = .ok config.runtimeUrl := by
  obtain ⟨address, -, h⟩ := Json.bind_eq_ok.1 h
  obtain ⟨url, hurl, h⟩ := Json.bind_eq_ok.1 h
  obtain ⟨quoting, -, h⟩ := Json.bind_eq_ok.1 h
  cases h
  unfold Config.readRuntimeUrl at hurl
  split at hurl
  · next hparse =>
    cases hurl
    exact ⟨_, hparse⟩
  · cases hurl

theorem Config.isCanonical_runtimeUrl {lookup : String → Option String} {config : Config}
    (h : Config.ofLookup lookup = .ok config)
    (hscheme : config.runtimeUrl.scheme ∈ ["http", "https"]) : config.runtimeUrl.IsCanonical := by
  obtain ⟨t, ht⟩ := Config.exists_parse h
  have hall : ∀ scheme ∈ ["http", "https"], Url.isSpecial scheme ∧ scheme ≠ "file" := by decide
  obtain ⟨hspecial, hfile⟩ := hall _ hscheme
  exact Url.isCanonical_of_parse ht hspecial hfile

/-- The endpoints lie below the path of a base exactly if it has neither a query nor a fragment, and
only such a base may have more or fewer slashes at the end of its path. -/
theorem endpoint_below_base_iff {lookup : String → Option String} {config : Config}
    (hconfig : Config.ofLookup lookup = .ok config)
    (hscheme : config.runtimeUrl.scheme ∈ ["http", "https"]) (e : Endpoint) :
    (∃ url, Url.parse (endpointUrl config.runtimeUrl e) = .ok url
      ∧ url.scheme = config.runtimeUrl.scheme
      ∧ url.username = config.runtimeUrl.username ∧ url.password = config.runtimeUrl.password
      ∧ url.host = config.runtimeUrl.host ∧ url.port = config.runtimeUrl.port
      ∧ (url.path.text = below config.runtimeUrl.path.text e
        ↔ config.runtimeUrl.query = none ∧ config.runtimeUrl.fragment = none)
      ∧ (config.runtimeUrl.query = none → url.query = none)
      ∧ (config.runtimeUrl.fragment = none → url.fragment = none))
    ∧ ∀ {lookup' : String → Option String} {config' : Config},
      Config.ofLookup lookup' = .ok config' →
      config'.runtimeUrl = { config.runtimeUrl with path := config'.runtimeUrl.path } →
      config'.runtimeUrl.path ≠ config.runtimeUrl.path →
      withoutSlashes config'.runtimeUrl.path.text.toList
        = withoutSlashes config.runtimeUrl.path.text.toList →
      (endpointUrl config'.runtimeUrl e = endpointUrl config.runtimeUrl e
        ↔ config.runtimeUrl.query = none ∧ config.runtimeUrl.fragment = none) := by
  have hbase := Config.isCanonical_runtimeUrl hconfig hscheme
  constructor
  · refine ⟨extended config.runtimeUrl e, parse_endpointUrl hbase e, ?_⟩
    obtain ⟨hscheme, husername, hpassword, hhost, hport⟩ := extended_keeps config.runtimeUrl e
    exact ⟨hscheme, husername, hpassword, hhost, hport, text_path_extended_iff hbase e,
      fun hquery => query_extended hquery e, fun hfragment => fragment_extended hfragment e⟩
  · intro lookup' config' hconfig' hothers hpath hslashes
    have hscheme' : config'.runtimeUrl.scheme ∈ ["http", "https"] := by
      rwa [hothers]
    exact endpointUrl_eq_iff hbase (Config.isCanonical_runtimeUrl hconfig' hscheme') hothers hpath
      hslashes e

/-- A base with a slash at the end of its path, and the same one without it. -/
theorem endpoint_below_base_api :
    let lookup (v key : String) := if key = Setting.runtimeUrl.key then some v else none
    let base (names : List String) : Url :=
      { scheme := "http", host := some (.name "hat.local"), path := .segments names }
    (∃ config, Config.ofLookup (lookup "http://hat.local/api/") = .ok config
        ∧ config.runtimeUrl = base ["api", ""])
      ∧ (∃ config, Config.ofLookup (lookup "http://hat.local/api") = .ok config
        ∧ config.runtimeUrl = base ["api"])
      ∧ (∃ url, Url.parse (endpointUrl (base ["api", ""]) .updateCode) = .ok url
        ∧ url.path.text = "/api/update_code")
      ∧ endpointUrl (base ["api"]) .updateCode = endpointUrl (base ["api", ""]) .updateCode := by
  intro lookup base
  let config (names : List String) : Config :=
    { address := .v4 ⟨0⟩ 3000, runtimeUrl := base names, script := { quoting := .verbatim } }
  have hslash : Config.ofLookup (lookup "http://hat.local/api/") = .ok (config ["api", ""]) := by
    decide +kernel
  have hplain : Config.ofLookup (lookup "http://hat.local/api") = .ok (config ["api"]) := by
    decide +kernel
  obtain ⟨⟨url, hurl, -, -, -, -, -, hpath, -⟩, hslashes⟩ :=
    endpoint_below_base_iff hslash (by decide) .updateCode
  have htext : below (base ["api", ""]).path.text .updateCode = "/api/update_code" := by
    decide
  refine ⟨⟨_, hslash, rfl⟩, ⟨_, hplain, rfl⟩, ⟨url, hurl, ?_⟩, ?_⟩
  · rw [← htext]
    exact hpath.2 ⟨rfl, rfl⟩
  · exact (hslashes hplain rfl (by decide) (by decide)).2 ⟨rfl, rfl⟩

/-- With a query, the name of the endpoint goes there and the path stays that of the base. -/
theorem endpoint_beside_path :
    let lookup (key : String) :=
      if key = Setting.runtimeUrl.key then some "http://runtime/api?home=1" else none
    ∃ config url, Config.ofLookup lookup = .ok config ∧ config.runtimeUrl.scheme = "http"
      ∧ Url.parse (endpointUrl config.runtimeUrl .devices) = .ok url
      ∧ url.path.text = "/api" ∧ url.query = some "home=1/devices"
      ∧ below config.runtimeUrl.path.text .devices = "/api/devices" := by
  intro lookup
  let base : Url := {
    scheme := "http"
    host := some (.name "runtime")
    path := .segments ["api"]
    query := some "home=1" }
  refine ⟨{ address := .v4 ⟨0⟩ 3000, runtimeUrl := base, script := { quoting := .verbatim } },
    { base with query := some "home=1/devices" }, ?_⟩
  decide +kernel

end HomeScript.Studio
