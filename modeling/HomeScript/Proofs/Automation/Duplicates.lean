import Mathlib.Data.Finset.Card
import HomeScript.Proofs.Automation.Registry

/-! # Names used twice

Whoever claims a name first keeps it, unless it comes back for another one. Where no owner does, the
names of a program that are refused are those that an earlier automation has, and each is reported
with the owner of the first one. Ids and positions are owners alike, so an id can stand for the
position of another automation; then a name that is used twice may pass unseen.
-/

namespace HomeScript

/-- The name of each automation with its owner. -/
def Program.claims (p : Program) : List (String × String) :=
  p.mapIdx fun index a => (a.name, Registry.ownerKey index a)

def Program.names (p : Program) : List String :=
  p.map Automation.name

namespace Registry

/-! ## Claims made in order -/

def claimEach (r : Registry) : List (String × String) → Registry × List DuplicateName
  | [] => (r, [])
  | (name, owner) :: rest =>
    match r.claim name owner with
    | .ok claimed => claimed.claimEach rest
    | .error e => ((r.claimEach rest).1, e :: (r.claimEach rest).2)

theorem claimAll_eq_claimEach (r : Registry) (index : ℕ) (p : Program) :
    r.claimAll index p
      = r.claimEach (p.mapIdx fun i a => (a.name, ownerKey (index + i) a)) := by
  induction p generalizing r index with
  | nil => rfl
  | cons a p ih =>
    have hrest : (p.mapIdx fun i b => (b.name, ownerKey (index + (i + 1)) b))
        = p.mapIdx fun i b => (b.name, ownerKey (index + 1 + i) b) := by
      simp only [Nat.add_assoc, Nat.add_comm 1]
    rw [claimAll, List.mapIdx_cons, hrest, claimEach, Nat.add_zero]
    cases r.claim a.name (ownerKey index a) with
    | ok claimed => exact ih claimed (index + 1)
    | error e => simp only [ih r (index + 1)]

theorem ofProgram_eq_claimEach (p : Program) : ofProgram p = empty.claimEach p.claims := by
  rw [ofProgram, claimAll_eq_claimEach, Program.claims]
  simp only [Nat.zero_add]

/-- The claims after some others of which the name has been claimed already, each with the owner of
the first claim of that name. -/
def repeatedAfter (seen claims : List (String × String)) : List DuplicateName :=
  (claims.zipIdx seen.length).filterMap fun ((name, _), index) =>
    (((seen ++ claims).take index).lookup name).map fun first => ⟨name, first⟩

def repeated (claims : List (String × String)) : List DuplicateName :=
  repeatedAfter [] claims

/-- Whoever was first with a name claims nothing later but what another was first with. -/
def FirstsKeepAfter (seen claims : List (String × String)) : Prop :=
  ∀ before name owner after, claims = before ++ (name, owner) :: after →
    (∃ held, (seen ++ before).lookup held = some owner) →
    ∃ first ≠ owner, (seen ++ before).lookup name = some first

def FirstsKeep (claims : List (String × String)) : Prop :=
  FirstsKeepAfter [] claims

theorem repeatedAfter_cons (seen claims : List (String × String)) (name owner : String) :
    repeatedAfter seen ((name, owner) :: claims)
      = ((seen.lookup name).map fun first => ⟨name, first⟩).toList
        ++ repeatedAfter (seen ++ [(name, owner)]) claims := by
  simp only [repeatedAfter, List.zipIdx_cons, List.filterMap_cons, List.take_left,
    List.length_append, List.length_singleton, List.append_assoc, List.singleton_append]
  cases seen.lookup name <;> rfl

theorem firstsKeepAfter_cons {seen claims : List (String × String)} {name owner : String} :
    FirstsKeepAfter seen ((name, owner) :: claims)
      ↔ ((∃ held, seen.lookup held = some owner) → ∃ first ≠ owner, seen.lookup name = some first)
        ∧ FirstsKeepAfter (seen ++ [(name, owner)]) claims := by
  constructor
  · intro h
    refine ⟨?_, ?_⟩
    · simpa using h [] name owner claims rfl
    · rintro before n o after rfl
      simpa using h ((name, owner) :: before) n o after rfl
  · rintro ⟨hfirst, hrest⟩ before n o after h
    cases before with
    | nil =>
      obtain ⟨⟨rfl, rfl⟩, -⟩ : (name = n ∧ owner = o) ∧ claims = after := by simpa using h
      simpa using hfirst
    | cons c before =>
      obtain ⟨rfl, rfl⟩ := List.cons.inj h
      simpa using hrest before n o after rfl

/-- Nobody gives up a name who claims but once. -/
theorem firstsKeep_of_nodup {claims : List (String × String)}
    (h : (claims.map Prod.snd).Nodup) : FirstsKeep claims := by
  rintro before name owner after rfl ⟨held, hheld⟩
  obtain ⟨l, r, hl, -⟩ := List.lookup_eq_some_iff.1 hheld
  simp only [List.nil_append] at hl
  simp [hl, List.nodup_append] at h

/-! ## How many names are held -/

theorem size_release_le (r : Registry) (owner : String) : (r.release owner).size ≤ r.size :=
  List.length_filter_le ..

theorem size_release_lt {r : Registry} (h : r.IsOneToOne) {name owner : String}
    (hn : r.ownerOf name = some owner) : (r.release owner).size < r.size := by
  apply List.length_filter_lt_length_iff_exists.2
  exact ⟨_, h.ownerOf_eq_some_iff.1 hn, by simp⟩

theorem release_eq_self {r : Registry} (h : r.IsOneToOne) {owner : String}
    (ho : ∀ name, r.ownerOf name ≠ some owner) : r.release owner = r := by
  have hall : ∀ e ∈ r.entries, e.2 ≠ owner := by
    rintro ⟨n, o⟩ he rfl
    exact ho n (h.ownerOf_eq_some_iff.2 he)
  rw [release, List.filter_eq_self.2]
  simpa using hall

/-- Every claim is refused, or adds a name, or neither. -/
theorem size_add_refused_le (r : Registry) (claims : List (String × String)) :
    (r.claimEach claims).1.size + (r.claimEach claims).2.length ≤ r.size + claims.length := by
  induction claims generalizing r with
  | nil => simp [claimEach]
  | cons c claims ih =>
    obtain ⟨name, owner⟩ := c
    rcases r.claim_cases name owner with ⟨-, hc⟩ | ⟨-, hc⟩ | ⟨current, -, -, hc⟩
    · have hrest := ih ⟨(name, owner) :: (r.release owner).entries⟩
      have hsize := r.size_release_le owner
      simp only [size, List.length_cons] at hrest hsize
      simp only [claimEach, hc, size, List.length_cons]
      omega
    · have hrest := ih r
      simp only [claimEach, hc, List.length_cons]
      omega
    · have hrest := ih r
      simp only [claimEach, hc, List.length_cons]
      omega

/-! ## The first claim of each name -/

theorem lookup_concat (seen : List (String × String)) (name owner n : String) :
    (seen ++ [(name, owner)]).lookup n
      = (seen.lookup n).or (if n = name then some owner else none) := by
  rw [List.lookup_append]
  by_cases hn : n = name
  · simp [hn]
  · simp [List.lookup_cons, beq_eq_false_iff_ne.2 hn, hn]

/-- The registry holds the first claim of each name. -/
structure Holds (r : Registry) (seen : List (String × String)) : Prop where
  oneToOne : r.IsOneToOne
  ownerOf_eq : ∀ name, r.ownerOf name = seen.lookup name

theorem holds_empty : Holds empty [] where
  oneToOne := ⟨List.nodup_nil, List.nodup_nil⟩
  ownerOf_eq _ := rfl

namespace Holds
variable {r : Registry} {seen : List (String × String)} (h : Holds r seen)
include h

theorem again {name owner : String} (hn : seen.lookup name ≠ none) :
    Holds r (seen ++ [(name, owner)]) where
  oneToOne := h.oneToOne
  ownerOf_eq n := by
    rw [h.ownerOf_eq, lookup_concat]
    rcases eq_or_ne n name with rfl | hne
    · obtain ⟨first, hfirst⟩ := Option.ne_none_iff_exists'.1 hn
      simp [hfirst]
    · simp [hne]

theorem first {name owner : String} (hn : seen.lookup name = none)
    (ho : ∀ held, seen.lookup held ≠ some owner) :
    Holds ⟨(name, owner) :: r.entries⟩ (seen ++ [(name, owner)]) where
  oneToOne := by
    have hrelease : r.release owner = r := release_eq_self h.oneToOne fun n => h.ownerOf_eq n ▸ ho n
    have hfree := h.oneToOne.claim_free ((h.ownerOf_eq name).trans hn) owner
    rwa [hrelease] at hfree
  ownerOf_eq n := by
    have hlookup := h.ownerOf_eq n
    rw [ownerOf] at hlookup
    rw [lookup_concat, ← hlookup, ownerOf, List.lookup_cons]
    by_cases hname : n = name
    · subst hname
      simp [hlookup, hn]
    · simp [beq_eq_false_iff_ne.2 hname, hname]

/-- Every claim is refused or adds a name exactly if those who were first with a name keep it. -/
theorem size_add_refused_eq_iff (claims : List (String × String)) :
    (r.claimEach claims).1.size + (r.claimEach claims).2.length = r.size + claims.length
      ↔ FirstsKeepAfter seen claims := by
  induction claims generalizing r seen with
  | nil => simp [claimEach, FirstsKeepAfter]
  | cons c claims ih =>
    obtain ⟨name, owner⟩ := c
    rw [firstsKeepAfter_cons]
    simp only [← h.ownerOf_eq]
    rcases r.claim_cases name owner with ⟨hn, hc⟩ | ⟨hn, hc⟩ | ⟨current, hne, hn, hc⟩
    · by_cases ho : ∃ held, r.ownerOf held = some owner
      · -- The owner gives up a name for this one, so one claim at least has added none.
        obtain ⟨held, hheld⟩ := ho
        have hsize := size_release_lt h.oneToOne hheld
        have hrest := size_add_refused_le ⟨(name, owner) :: (r.release owner).entries⟩ claims
        simp only [size, List.length_cons] at hrest hsize
        simp only [claimEach, hc, size, List.length_cons]
        constructor
        · omega
        · rintro ⟨hkeep, -⟩
          obtain ⟨first, -, hfirst⟩ := hkeep ⟨held, hheld⟩
          simp [hn] at hfirst
      · push Not at ho
        have hfirst : Holds ⟨(name, owner) :: r.entries⟩ (seen ++ [(name, owner)]) :=
          h.first (h.ownerOf_eq name ▸ hn) fun held => h.ownerOf_eq held ▸ ho held
        rw [release_eq_self h.oneToOne ho] at hc
        have hiff := ih hfirst
        simp only [size, List.length_cons] at hiff
        simp only [claimEach, hc, size, List.length_cons]
        rw [← hiff]
        constructor
        · intro heq
          refine ⟨?_, by omega⟩
          rintro ⟨held, hheld⟩
          exact absurd hheld (ho held)
        · rintro ⟨-, heq⟩
          omega
    · have hrest := size_add_refused_le r claims
      simp only [claimEach, hc, List.length_cons]
      constructor
      · omega
      · rintro ⟨hkeep, -⟩
        obtain ⟨first, hfirst, hname⟩ := hkeep ⟨name, hn⟩
        exact absurd (Option.some.inj (hname.symm.trans hn)) hfirst
    · have hagain : Holds r (seen ++ [(name, owner)]) :=
        h.again (h.ownerOf_eq name ▸ hn ▸ Option.some_ne_none current)
      simp only [claimEach, hc, List.length_cons]
      rw [← ih hagain]
      constructor
      · intro heq
        exact ⟨fun _ => ⟨current, hne, hn⟩, by omega⟩
      · rintro ⟨-, heq⟩
        omega

/-- Where those who were first keep their names, a claim is the first one of its name and adds it,
or it is refused for the owner of the first one. -/
theorem first_or_refused {name owner : String}
    (hkeep : (∃ held, seen.lookup held = some owner) →
      ∃ first ≠ owner, seen.lookup name = some first) :
    (seen.lookup name = none ∧ r.claim name owner = .ok ⟨(name, owner) :: r.entries⟩
        ∧ Holds ⟨(name, owner) :: r.entries⟩ (seen ++ [(name, owner)]))
      ∨ ∃ first, seen.lookup name = some first ∧ r.claim name owner = .error ⟨name, first⟩
        ∧ Holds r (seen ++ [(name, owner)]) := by
  have hlookup := h.ownerOf_eq name
  rcases r.claim_cases name owner with ⟨hn, hc⟩ | ⟨hn, hc⟩ | ⟨current, -, hn, hc⟩
  · have ho (held : String) : seen.lookup held ≠ some owner := by
      intro hheld
      obtain ⟨first, -, hfirst⟩ := hkeep ⟨held, hheld⟩
      rw [← hlookup, hn] at hfirst
      cases hfirst
    rw [release_eq_self h.oneToOne fun held => h.ownerOf_eq held ▸ ho held] at hc
    rw [hlookup] at hn
    exact .inl ⟨hn, hc, h.first hn ho⟩
  · rw [hlookup] at hn
    obtain ⟨first, hfirst, hname⟩ := hkeep ⟨name, hn⟩
    exact absurd (Option.some.inj (hname.symm.trans hn)) hfirst
  · rw [hlookup] at hn
    exact .inr ⟨current, hn, hc, h.again (hn ▸ Option.some_ne_none current)⟩

theorem refused_eq_repeatedAfter {claims : List (String × String)}
    (hk : FirstsKeepAfter seen claims) : (r.claimEach claims).2 = repeatedAfter seen claims := by
  induction claims generalizing r seen with
  | nil => rfl
  | cons c claims ih =>
    obtain ⟨name, owner⟩ := c
    obtain ⟨hkeep, hrest⟩ := firstsKeepAfter_cons.1 hk
    rw [repeatedAfter_cons]
    rcases h.first_or_refused hkeep with ⟨hn, hc, hfirst⟩ | ⟨first, hn, hc, hagain⟩
    · rw [Registry.claimEach, hc, hn]
      exact ih hfirst hrest
    · rw [Registry.claimEach, hc, hn]
      exact congrArg (⟨name, first⟩ :: ·) (ih hagain hrest)

theorem claimEach {claims : List (String × String)} (hk : FirstsKeepAfter seen claims) :
    Holds (r.claimEach claims).1 (seen ++ claims) := by
  induction claims generalizing r seen with
  | nil => simpa [Registry.claimEach] using h
  | cons c claims ih =>
    obtain ⟨name, owner⟩ := c
    obtain ⟨hkeep, hrest⟩ := firstsKeepAfter_cons.1 hk
    rw [List.append_cons]
    rcases h.first_or_refused hkeep with ⟨-, hc, hfirst⟩ | ⟨first, -, hc, hagain⟩
    · simpa only [Registry.claimEach, hc] using ih hfirst hrest
    · simpa only [Registry.claimEach, hc] using ih hagain hrest

end Holds

theorem lookup_eq_none_iff {seen : List (String × String)} {name : String} :
    seen.lookup name = none ↔ name ∉ seen.map Prod.fst := by
  rw [List.lookup_eq_none_iff, List.mem_map]
  constructor
  · rintro h ⟨e, he, rfl⟩
    simpa using h e he
  · intro h e he
    rw [bne_iff_ne]
    rintro rfl
    exact h ⟨e, he, rfl⟩

/-- The claims that repeat a name and the names themselves make up all claims. -/
theorem length_repeatedAfter_add_card (seen claims : List (String × String)) :
    (repeatedAfter seen claims).length + ((seen ++ claims).map Prod.fst).toFinset.card
      = claims.length + (seen.map Prod.fst).toFinset.card := by
  induction claims generalizing seen with
  | nil => simp [repeatedAfter]
  | cons c claims ih =>
    obtain ⟨name, owner⟩ := c
    have hrest := ih (seen ++ [(name, owner)])
    have hnames : ((seen ++ [(name, owner)]).map Prod.fst).toFinset
        = insert name (seen.map Prod.fst).toFinset := by
      simp
    rw [List.append_assoc, List.singleton_append, hnames] at hrest
    rw [repeatedAfter_cons, List.length_append, List.length_cons]
    cases hlookup : seen.lookup name with
    | none =>
      rw [Finset.card_insert_of_notMem (by simpa using lookup_eq_none_iff.1 hlookup)] at hrest
      simp only [Option.map_none, Option.toList_none, List.length_nil]
      omega
    | some first =>
      have hmem : name ∈ seen.map Prod.fst := by
        by_contra hnot
        rw [lookup_eq_none_iff.2 hnot] at hlookup
        cases hlookup
      rw [Finset.insert_eq_of_mem (List.mem_toFinset.2 hmem)] at hrest
      simp only [Option.map_some, Option.toList_some, List.length_singleton]
      omega

/-! ## Whoever comes back -/

/-- What the registry holds has been claimed. -/
structure HoldsOnly (r : Registry) (seen : List (String × String)) : Prop where
  oneToOne : r.IsOneToOne
  mem_seen : ∀ e ∈ r.entries, e ∈ seen

namespace HoldsOnly
variable {r : Registry} {seen : List (String × String)} (h : HoldsOnly r seen)
include h

theorem mono {more : List (String × String)} : HoldsOnly r (seen ++ more) where
  oneToOne := h.oneToOne
  mem_seen e he := List.mem_append_left more (h.mem_seen e he)

theorem claim_free {name owner : String} (hn : r.ownerOf name = none) :
    HoldsOnly ⟨(name, owner) :: (r.release owner).entries⟩ (seen ++ [(name, owner)]) where
  oneToOne := h.oneToOne.claim_free hn owner
  mem_seen := by
    rw [List.forall_mem_cons]
    refine ⟨by simp, ?_⟩
    intro e he
    exact List.mem_append_left _ (h.mem_seen e (List.mem_filter.1 he).1)

theorem claimEach (claims : List (String × String)) :
    HoldsOnly (r.claimEach claims).1 (seen ++ claims) := by
  induction claims generalizing r seen with
  | nil => simpa [Registry.claimEach] using h
  | cons c claims ih =>
    obtain ⟨name, owner⟩ := c
    rw [List.append_cons]
    rcases r.claim_cases name owner with ⟨hn, hc⟩ | ⟨-, hc⟩ | ⟨current, -, -, hc⟩
    · simpa only [Registry.claimEach, hc] using ih (h.claim_free hn)
    · simpa only [Registry.claimEach, hc] using ih h.mono
    · simpa only [Registry.claimEach, hc] using ih h.mono

/-- Nothing is refused but a name that has been claimed before. -/
theorem refused_sublist (claims : List (String × String)) :
    ((r.claimEach claims).2.map DuplicateName.name).Sublist
      ((repeatedAfter seen claims).map DuplicateName.name) := by
  induction claims generalizing r seen with
  | nil => simp [Registry.claimEach]
  | cons c claims ih =>
    obtain ⟨name, owner⟩ := c
    rw [repeatedAfter_cons, List.map_append]
    rcases r.claim_cases name owner with ⟨hn, hc⟩ | ⟨-, hc⟩ | ⟨current, -, hn, hc⟩
    · simpa only [Registry.claimEach, hc] using (ih (h.claim_free hn)).trans
        (List.sublist_append_right ..)
    · simpa only [Registry.claimEach, hc] using (ih h.mono).trans (List.sublist_append_right ..)
    · obtain ⟨first, hfirst⟩ : ∃ first, seen.lookup name = some first := by
        rw [← Option.ne_none_iff_exists', ne_eq, lookup_eq_none_iff, not_not]
        exact List.mem_map.2 ⟨_, h.mem_seen _ (h.oneToOne.ownerOf_eq_some_iff.1 hn), rfl⟩
      rw [Registry.claimEach, hc, hfirst]
      exact (ih h.mono).cons_cons name

theorem size_le : r.size ≤ (seen.map Prod.fst).toFinset.card := by
  have hnames : r.size = (r.entries.map Prod.fst).toFinset.card := by
    rw [List.toFinset_card_of_nodup h.oneToOne.names, List.length_map, size]
  rw [hnames]
  apply Finset.card_le_card
  intro name hname
  obtain ⟨e, he, rfl⟩ := List.mem_map.1 (List.mem_toFinset.1 hname)
  exact List.mem_toFinset.2 (List.mem_map_of_mem (h.mem_seen e he))

end HoldsOnly

/-! ## Programs -/

theorem holdsOnly_empty : HoldsOnly empty [] where
  oneToOne := holds_empty.oneToOne
  mem_seen e he := by cases he

theorem names_claims (p : Program) : p.claims.map Prod.fst = p.names := by
  apply List.ext_getElem <;> simp [Program.claims, Program.names]

/-- A program gets one report for each name that an earlier automation has, with the owner of the
first one, and a registry of all its names, exactly if those who were first with a name keep it. No
program gets a report of a name that is used once. -/
theorem ofProgram_reports (p : Program) :
    let registry := (ofProgram p).1
    let reports := (ofProgram p).2
    (reports = repeated p.claims ∧ registry.size = p.names.toFinset.card ↔ FirstsKeep p.claims)
      ∧ ((p.claims.map Prod.snd).Nodup →
        reports = repeated p.claims ∧ registry.size = p.names.toFinset.card)
      ∧ (reports.map DuplicateName.name).Sublist ((repeated p.claims).map DuplicateName.name)
      ∧ registry.size ≤ p.names.toFinset.card := by
  intro registry reports
  have hregistry : registry = (empty.claimEach p.claims).1 := by
    rw [← ofProgram_eq_claimEach]
  have hreports : reports = (empty.claimEach p.claims).2 := by
    rw [← ofProgram_eq_claimEach]
  have hcard : (repeated p.claims).length + p.names.toFinset.card = p.claims.length := by
    simpa [repeated, names_claims] using length_repeatedAfter_add_card [] p.claims
  have htotal : registry.size + reports.length = p.claims.length ↔ FirstsKeep p.claims := by
    have hiff := holds_empty.size_add_refused_eq_iff p.claims
    rwa [show empty.size = 0 from rfl, Nat.zero_add, ← hregistry, ← hreports] at hiff
  have hexact : reports = repeated p.claims ∧ registry.size = p.names.toFinset.card
      ↔ FirstsKeep p.claims := by
    rw [← htotal]
    constructor
    · rintro ⟨hr, hs⟩
      rw [hr, hs]
      omega
    · intro heq
      have hrepeated : reports = repeated p.claims :=
        hreports.trans (holds_empty.refused_eq_repeatedAfter (htotal.1 heq))
      rw [hrepeated] at heq
      exact ⟨hrepeated, by omega⟩
  refine ⟨hexact, fun hnodup => hexact.2 (firstsKeep_of_nodup hnodup), ?_, ?_⟩
  · rw [hreports]
    exact holdsOnly_empty.refused_sublist p.claims
  · rw [hregistry, ← names_claims]
    exact (holdsOnly_empty.claimEach p.claims).size_le

/-- Automations with and without an id, two of which have one name. -/
theorem ofProgram_reports_unnumbered :
    let p : Program := [{ id := some "hall", name := "Morning" }, { name := "Evening" },
      { name := "Morning" }]
    p.claims.map Prod.snd = ["hall", "#1", "#2"]
      ∧ (ofProgram p).2 = [⟨"Morning", "hall"⟩] ∧ (ofProgram p).1.size = 2 := by
  intro p
  have howners : p.claims.map Prod.snd = ["hall", "#1", "#2"] := by decide
  obtain ⟨-, hexact, -, -⟩ := ofProgram_reports p
  obtain ⟨hreports, hsize⟩ := hexact (howners ▸ by decide)
  exact ⟨howners, hreports.trans (by decide), hsize.trans (by decide)⟩

/-- An id that stands for the position of another automation hides that both have one name. -/
theorem unreported_of_id_of_position :
    let p : Program := [{ id := some "#1", name := "Morning" }, { name := "Morning" }]
    (p.filterMap Automation.id).Nodup
      ∧ repeated p.claims = [⟨"Morning", "#1"⟩]
      ∧ (ofProgram p).2 = [] := by
  decide

end Registry
end HomeScript
