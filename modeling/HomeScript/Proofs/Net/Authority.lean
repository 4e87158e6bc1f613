import HomeScript.Proofs.Net.Host
import HomeScript.Proofs.Net.Path

/-! # User, host and port of URLs

The parts of an authority are told from each other by their marks, which none of them holds.
-/

namespace HomeScript.Net.Url

/-! ## Texts around marks -/

theorem span_append {p : Char → Bool} {cs ds : List Char} (hcs : ∀ c ∈ cs, p c)
    (hds : ∀ c ∈ ds.head?, p c = false) : (cs ++ ds).span p = (cs, ds) := by
  rw [List.span_eq_takeWhile_dropWhile, List.takeWhile_append_of_pos hcs,
    List.dropWhile_append_of_pos hcs]
  cases ds with
  | nil => simp
  | cons d ds => simp [hds d rfl]

theorem endsAuthority_cases {c : Char} (h : endsAuthority true c) :
    c = '/' ∨ c = '\\' ∨ c = '?' ∨ c = '#' := by
  simpa [endsAuthority, isSlash, or_assoc] using h

/-- A visible character that ends no authority. -/
structure IsInside (c : Char) : Prop where
  visible : ' ' < c
  continues : endsAuthority true c = false

theorem isInside_of_inUserinfo {c : Char} (h : Percent.inUserinfo c = false) : IsInside c where
  visible := Percent.space_lt_of_inUserinfo h
  continues := by
    by_contra hends
    rw [Bool.not_eq_false] at hends
    rcases endsAuthority_cases hends with rfl | rfl | rfl | rfl <;> exact absurd h (by decide)

theorem isInside_of_isDigit {c : Char} (h : c.isDigit) : IsInside c := by
  have hc := Char.isDigit_iff_toNat.1 h
  have hzero : '0'.toNat = 48 := rfl
  have hnine : '9'.toNat = 57 := rfl
  have hall : ∀ n < 58, 48 ≤ n →
      ' ' < Char.ofNat n ∧ endsAuthority true (Char.ofNat n) = false := by
    decide
  obtain ⟨hvisible, hcontinues⟩ := hall c.toNat (by omega) (by omega)
  rw [Char.ofNat_toNat] at hvisible hcontinues
  exact ⟨hvisible, hcontinues⟩

/-! ## Users -/

theorem splitUserinfo_of_not_mem {cs : List Char} (h : '@' ∉ cs) : splitUserinfo cs = none := by
  rw [splitUserinfo, if_neg]
  simpa using h

theorem splitUserinfo_append (cs : List Char) {rest : List Char} (h : '@' ∉ rest) :
    splitUserinfo (cs ++ '@' :: rest) = some (cs, rest) := by
  have hspan : (cs ++ '@' :: rest).reverse.span (· ≠ '@') = (rest.reverse, '@' :: cs.reverse) := by
    rw [List.reverse_append, List.reverse_cons, List.append_assoc, List.singleton_append]
    apply span_append
    · intro c hc
      rw [List.mem_reverse] at hc
      exact decide_eq_true fun heq => h (heq ▸ hc)
    · simp
  rw [splitUserinfo, if_pos (by simp), hspan]
  simp

/-- What stands before the mark that ends the user. -/
def userText (u : Url) : List Char :=
  u.username.toList ++ if u.password = "" then [] else ':' :: u.password.toList

theorem userinfo_cases (u : Url) :
    (u.username = "" ∧ u.password = "" ∧ u.userinfo.toList = [])
      ∨ u.userinfo.toList = u.userText ++ ['@'] := by
  unfold userinfo userText
  split
  · next h => exact .inl ⟨h.1, h.2, rfl⟩
  · split <;> simp

theorem credentials_userText {u : Url}
    (husername : ∀ c ∈ u.username.toList, Percent.inUserinfo c = false)
    (hpassword : ∀ c ∈ u.password.toList, Percent.inUserinfo c = false) :
    credentials u.userText = (u.username, u.password) := by
  have hcolon : ∀ c ∈ u.username.toList, c ≠ ':' := by
    rintro c hc rfl
    exact absurd (husername ':' hc) (by decide)
  have hspan : u.userText.span (· ≠ ':')
      = (u.username.toList, if u.password = "" then [] else ':' :: u.password.toList) := by
    apply span_append
    · intro c hc
      exact decide_eq_true (hcolon c hc)
    · split <;> simp
  rw [credentials, hspan]
  dsimp only
  rw [Percent.encode_eq_self husername]
  split
  · next hempty => simp [hempty, Percent.encode]
  · simp [Percent.encode_eq_self hpassword]

theorem credentials_nil : credentials [] = ("", "") :=
  rfl

/-- The user and what follows it. -/
theorem splitUserinfo_userinfo {u : Url}
    (husername : ∀ c ∈ u.username.toList, Percent.inUserinfo c = false)
    (hpassword : ∀ c ∈ u.password.toList, Percent.inUserinfo c = false)
    {rest : List Char} (hrest : '@' ∉ rest) :
    credentials ((splitUserinfo (u.userinfo.toList ++ rest)).elim [] Prod.fst)
        = (u.username, u.password)
      ∧ (splitUserinfo (u.userinfo.toList ++ rest)).elim (u.userinfo.toList ++ rest) Prod.snd
        = rest := by
  rcases u.userinfo_cases with ⟨hname, hword, hnone⟩ | hsome
  · rw [hnone, List.nil_append, splitUserinfo_of_not_mem hrest, hname, hword]
    exact ⟨credentials_nil, rfl⟩
  · rw [hsome, List.append_assoc, List.singleton_append, splitUserinfo_append _ hrest]
    exact ⟨credentials_userText husername hpassword, rfl⟩

theorem isInside_userinfo {u : Url}
    (husername : ∀ c ∈ u.username.toList, Percent.inUserinfo c = false)
    (hpassword : ∀ c ∈ u.password.toList, Percent.inUserinfo c = false) :
    ∀ c ∈ u.userinfo.toList, IsInside c := by
  intro c hc
  have hmark : ∀ d ∈ [':', '@'], IsInside d := by
    have hall : ∀ d ∈ [':', '@'], ' ' < d ∧ endsAuthority true d = false :=
      List.all_iff_forall_prop.1 (by decide)
    exact fun d hd => ⟨(hall d hd).1, (hall d hd).2⟩
  rcases u.userinfo_cases with ⟨-, -, hnone⟩ | hsome
  · rw [hnone] at hc
    cases hc
  · rw [hsome, userText, List.mem_append, List.mem_append] at hc
    rcases hc with (hc | hc) | hc
    · exact isInside_of_inUserinfo (husername c hc)
    · split at hc
      · cases hc
      · rcases List.mem_cons.1 hc with rfl | hc
        · exact hmark ':' (by simp)
        · exact isInside_of_inUserinfo (hpassword c hc)
    · exact hmark c (List.mem_cons_of_mem _ hc)

/-! ## Hosts and ports -/

/-- A text that may follow a host. -/
def IsPortText (cs : List Char) : Prop :=
  cs = [] ∨ ∃ ds, cs = ':' :: ds

theorem splitHost_append {cs : List Char} (h : ∀ c ∈ cs, c ≠ ':' ∧ c ≠ '[') {port : List Char}
    (hport : IsPortText port) : splitHost false (cs ++ port) = (cs, port) := by
  induction cs with
  | nil =>
    rcases hport with rfl | ⟨ds, rfl⟩ <;> simp [splitHost]
  | cons c cs ih =>
    rw [List.forall_mem_cons] at h
    obtain ⟨⟨hcolon, hbracket⟩, hcs⟩ := h
    rw [List.cons_append, splitHost, if_neg (by simp [hcolon])]
    simp [hbracket, ih hcs]

theorem splitHost_bracketed {cs : List Char} (h : ']' ∉ cs) (tail : List Char) :
    splitHost true (cs ++ ']' :: tail)
      = (cs ++ ']' :: (splitHost false tail).1, (splitHost false tail).2) := by
  induction cs with
  | nil => simp [splitHost]
  | cons c cs ih =>
    rw [List.mem_cons, not_or] at h
    rw [List.cons_append, splitHost, if_neg (by simp)]
    simp [Ne.symm h.1, ih h.2]

/-- The characters of a host, and where it ends. -/
structure IsHostText (cs : List Char) : Prop where
  ne_nil : cs ≠ []
  inside : ∀ c ∈ cs, IsInside c ∧ c ≠ '@'
  ends : ∀ port, IsPortText port → splitHost false (cs ++ port) = (cs, port)

theorem isHostText_of_isSettled {cs : List Char} (hne : cs ≠ [])
    (h : ∀ c ∈ cs, DomainName.IsSettled c) : IsHostText cs where
  ne_nil := hne
  inside c hc := by
    have hmem (hforbidden : DomainName.isForbidden c) : False :=
      Host.not_mem_of_isSettled h hforbidden hc
    refine ⟨⟨?_, ?_⟩, ?_⟩
    · by_contra hle
      have hforbidden : DomainName.isForbidden c := by
        simp [DomainName.isForbidden, not_lt.1 hle]
      exact hmem hforbidden
    · by_contra hends
      rw [Bool.not_eq_false] at hends
      rcases endsAuthority_cases hends with rfl | rfl | rfl | rfl <;> exact hmem (by decide)
    · rintro rfl
      exact hmem (by decide)
  ends port hport := by
    refine splitHost_append (fun c hc => ⟨?_, ?_⟩) hport
    · rintro rfl
      exact Host.not_mem_of_isSettled h (by decide) hc
    · rintro rfl
      exact Host.not_mem_of_isSettled h (by decide) hc

theorem isHostText_ipv6 (a : Ipv6) : IsHostText (Host.ipv6 a).text.toList := by
  have hall : ∀ d ∈ "0123456789abcdef:[]".toList,
      (' ' < d ∧ endsAuthority true d = false) ∧ d ≠ '@' :=
    List.all_iff_forall_prop.1 (by decide)
  have hbracket : ']' ∉ a.compressed.toList := by
    intro hmem
    exact absurd (Ipv6.mem_compressed hmem) (by decide)
  rw [Host.toList_text_ipv6]
  refine ⟨List.cons_ne_nil _ _, ?_, ?_⟩
  · intro c hc
    have hmem : c ∈ "0123456789abcdef:[]".toList := by
      rw [List.mem_cons, List.mem_append, List.mem_singleton] at hc
      rcases hc with rfl | hc | rfl
      · decide
      · exact List.mem_append_left ['[', ']'] (Ipv6.mem_compressed hc)
      · decide
    obtain ⟨⟨hvisible, hcontinues⟩, hat⟩ := hall c hmem
    exact ⟨⟨hvisible, hcontinues⟩, hat⟩
  · intro port hport
    have hrest : splitHost false ([] ++ port) = ([], port) := splitHost_append (by simp) hport
    rw [List.nil_append] at hrest
    rw [List.cons_append, List.append_assoc, List.singleton_append, splitHost, if_neg (by simp)]
    simp [splitHost_bracketed hbracket, hrest]

theorem isHostText_text {cs : List Char} {host : Host} (h : Host.parse cs = .ok host) :
    IsHostText host.text.toList := by
  rcases Host.parse_cases h with ⟨a, rfl⟩ | ⟨a, rfl⟩ | ⟨ascii, rfl, hne, hsettled, -⟩
  · exact isHostText_ipv6 a
  · exact isHostText_of_isSettled (Host.text_ipv4_ne_nil a) (Host.isSettled_text_ipv4 a)
  · rw [Host.text, String.toList_ofList]
    exact isHostText_of_isSettled hne hsettled

theorem toList_portText (u : Url) :
    u.portText.toList = u.port.elim [] fun p => ':' :: Nat.toDigits 10 p.toNat := by
  unfold portText
  cases u.port with
  | none => rfl
  | some p => simp [Nat.repr_eq_ofList_toDigits]

theorem isPortText_portText (u : Url) : IsPortText u.portText.toList := by
  rw [toList_portText]
  cases u.port with
  | none => exact .inl rfl
  | some p => exact .inr ⟨_, rfl⟩

theorem isInside_portText (u : Url) : ∀ c ∈ u.portText.toList, IsInside c ∧ c ≠ '@' := by
  intro c hc
  rw [toList_portText] at hc
  cases hport : u.port with
  | none => simp [hport] at hc
  | some p =>
    rw [hport, Option.elim_some, List.mem_cons] at hc
    rcases hc with rfl | hc
    · exact ⟨⟨by decide, by decide⟩, by decide⟩
    · refine ⟨isInside_of_isDigit (Json.isDigit_toDigits c hc), ?_⟩
      rintro rfl
      exact absurd (Json.isDigit_toDigits '@' hc) (by decide)

theorem port?_portText {u : Url} {standard : Option UInt16}
    (h : ∀ p, u.port = some p → standard ≠ some p) :
    port? standard u.portText.toList = .ok u.port := by
  rw [toList_portText]
  cases hport : u.port with
  | none => rfl
  | some p =>
    have hdigits : (Nat.toDigits 10 p.toNat).all Char.isDigit :=
      List.all_eq_true.2 Json.isDigit_toDigits
    have hvalue : Nat.ofDigitChars 10 (Nat.toDigits 10 p.toNat) 0 = p.toNat :=
      Nat.ofDigitChars_ten_toDigits
    have hlt := p.toNat_lt
    rw [Option.elim_some, port?, hvalue, hdigits, if_neg (by simp; omega)]
    rw [if_neg (by simp [Nat.toDigits_ne_nil, h p hport])]
    simp

theorem ne_standard_of_port? {standard : Option UInt16} {cs : List Char} {p : UInt16}
    (h : port? standard cs = .ok (some p)) : standard ≠ some p := by
  unfold port? at h
  split at h
  · dsimp only at h
    split at h
    · cases h
    · split at h
      · cases h
      · next hother =>
        rw [Except.ok.injEq, Option.some.injEq] at h
        rw [h, Bool.or_eq_true, not_or, decide_eq_true_eq] at hother
        exact hother.2
  · cases h

end HomeScript.Net.Url
