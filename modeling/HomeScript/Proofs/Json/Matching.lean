import HomeScript.Proofs.Json.Record

/-! # Records that match

A record is read from members or from elements. Two of them match if what they give for each field
goes together; then what is read from them goes together too, field by field.
-/

namespace HomeScript.Json

/-! ## Readings that go together -/

section
variable {ε α β γ δ : Type} {R : α → β → Prop} {S : γ → δ → Prop}

/-- Whatever the first reading gives, the second one gives something that goes with it. -/
def Yields (R : α → β → Prop) (x : Except ε α) (y : Except ε β) : Prop :=
  ∀ a, x = .ok a → ∃ b, y = .ok b ∧ R a b

namespace Yields

theorem refl (x : Except ε α) : Yields Eq x x :=
  fun a ha => ⟨a, ha, rfl⟩

theorem ok {a : α} {b : β} (h : R a b) : Yields R (.ok a : Except ε α) (.ok b) := by
  rintro _ ⟨⟩
  exact ⟨b, rfl, h⟩

theorem error {e : ε} {y : Except ε β} : Yields R (.error e) y := by
  rintro a ⟨⟩

theorem bind {x : Except ε α} {y : Except ε β} {f : α → Except ε γ} {g : β → Except ε δ}
    (h : Yields R x y) (hf : ∀ a b, R a b → Yields S (f a) (g b)) :
    Yields S (x >>= f) (y >>= g) := by
  intro c hc
  obtain ⟨a, ha, hc⟩ := bind_eq_ok.1 hc
  obtain ⟨b, rfl, hab⟩ := h a ha
  exact hf a b hab c hc

theorem map {x : Except ε α} {y : Except ε β} {f : α → γ} {g : β → δ} (h : Yields R x y)
    (hf : ∀ a b, R a b → S (f a) (g b)) : Yields S (f <$> x) (g <$> y) := by
  intro c hc
  obtain ⟨a, ha, rfl⟩ := map_eq_ok.1 hc
  obtain ⟨b, rfl, hab⟩ := h a ha
  exact ⟨g b, rfl, hf a b hab⟩

theorem mapM {P : α → β → Prop} {xs : List α} {ys : List β} {f : α → Except ε γ}
    {g : β → Except ε δ} (h : List.Forall₂ P xs ys) (hf : ∀ x y, P x y → Yields S (f x) (g y)) :
    Yields (List.Forall₂ S) (xs.mapM f) (ys.mapM g) := by
  induction h with
  | nil => exact .ok .nil
  | cons hxy _ ih =>
    rw [List.mapM_cons, List.mapM_cons]
    apply (hf _ _ hxy).bind
    intro a b hab
    apply ih.map
    intro as bs hs
    exact .cons hab hs

end Yields

end

/-! ## Fields -/

namespace Body
variable {α β : Type} {fields : List String}

def isNamed : Body α → Bool
  | members _ => true
  | elements _ => false

/-- What stands for some fields: members by their keys, elements in the order of the fields. -/
def parts (fields : List String) : Body α → List (String × α)
  | members ms => ms
  | elements xs => fields.zip xs

/-- No field is given twice, and there is no element beyond the fields. -/
def IsRecord (fields : List String) : Body α → Prop
  | members ms => ∀ f ∈ fields, ms.countP (·.1 == f) ≤ 1
  | elements xs => xs.length ≤ fields.length

theorem record_eq_ok_iff {b : Body α} {stage : Stage} {r : Record α} :
    b.record fields stage = .ok r ↔
      b.IsRecord fields ∧ r = ⟨fields, b.isNamed, b.parts fields⟩ := by
  cases b with
  | members ms =>
    have hfind : (fields.find? fun f => 1 < ms.countP (·.1 == f)) = none
        ↔ (members ms).IsRecord fields := by
      simp [IsRecord]
    unfold record
    dsimp only
    split
    · next hf => simp [← hfind, hf]
    · next hf => simp [← hfind, hf, isNamed, parts, eq_comm]
  | elements xs =>
    unfold record
    dsimp only
    split
    · next hx => simp [IsRecord, hx, isNamed, parts, eq_comm]
    · next hx => cases stage <;> simp [IsRecord, hx]

/-- Another body is a record of some fields if this one is, and then gives for each field what goes
with what this one gives. -/
structure Matches (fields : List String) (S : String → α → β → Prop) (b : Body α) (c : Body β) :
    Prop where
  isNamed : b.isNamed = c.isNamed
  isRecord : b.IsRecord fields → c.IsRecord fields
  part : b.IsRecord fields → ∀ f ∈ fields,
    Option.Rel (S f) ((b.parts fields).lookup f) ((c.parts fields).lookup f)

theorem lookup_map {γ : Type} (g : α → γ) (ms : List (String × α)) (f : String) :
    (ms.map fun m => (m.1, g m.2)).lookup f = (ms.lookup f).map g := by
  induction ms with
  | nil => rfl
  | cons m ms ih =>
    rw [List.map_cons, List.lookup_cons, List.lookup_cons]
    split
    · rfl
    · exact ih

def map {γ : Type} (g : α → γ) : Body α → Body γ
  | members ms => members (ms.map fun m => (m.1, g m.2))
  | elements xs => elements (xs.map g)

section
variable {γ : Type} (g : α → γ) (b : Body α)

theorem isNamed_map : (b.map g).isNamed = b.isNamed := by
  cases b <;> rfl

theorem isRecord_map : (b.map g).IsRecord fields ↔ b.IsRecord fields := by
  cases b <;> simp [map, IsRecord, List.countP_map, Function.comp_def]

theorem lookup_parts_map (f : String) :
    ((b.map g).parts fields).lookup f = ((b.parts fields).lookup f).map g := by
  rw [← lookup_map]
  cases b with
  | members ms => rfl
  | elements xs => exact congrArg (List.lookup f) List.zip_map_right

end

/-- Bodies match if what is inside their parts does. -/
theorem Matches.of_map {γ δ : Type} {S : String → γ → δ → Prop} {g : α → γ} {g' : β → δ}
    {b : Body α} {c : Body β} (h : (b.map g).Matches fields S (c.map g')) :
    b.Matches fields (fun f x y => S f (g x) (g' y)) c where
  isNamed := by simpa only [isNamed_map] using h.isNamed
  isRecord hb := (isRecord_map g' c).1 (h.isRecord ((isRecord_map g b).2 hb))
  part := by
    intro hb f hf
    have hpart := h.part ((isRecord_map g b).2 hb) f hf
    rw [lookup_parts_map, lookup_parts_map] at hpart
    cases hx : (b.parts fields).lookup f <;> cases hy : (c.parts fields).lookup f <;>
      rw [hx, hy] at hpart <;> cases hpart
    · exact .none
    · next hxy => exact .some hxy

/-! ### Tags -/

/-- The part that stands for the tag, and the body that is left for the other fields. -/
def untag? (tag : String) : Body α → Option (α × Body α)
  | members ms =>
    match ms.filter (·.1 == tag) with
    | [(_, t)] => some (t, members ms)
    | _ => none
  | elements [] => none
  | elements (t :: rest) => some (t, elements rest)

theorem lookup_eq_head?_filter (tag : String) (ms : List (String × α)) :
    ms.lookup tag = (ms.filter (·.1 == tag)).head?.map Prod.snd := by
  induction ms with
  | nil => rfl
  | cons m ms ih =>
    rw [List.lookup_cons, List.filter_cons, BEq.comm]
    cases h : m.1 == tag with
    | true => rfl
    | false => exact ih

variable {tag : String} {t : α} {b c : Body α}

theorem untag?_eq_some (h : b.untag? tag = some (t, c)) (hf : tag ∉ fields) :
    (b.parts (tag :: fields)).lookup tag = some t ∧ b.isNamed = c.isNamed
      ∧ (b.IsRecord (tag :: fields) ↔ c.IsRecord fields)
      ∧ ∀ f ∈ fields, (b.parts (tag :: fields)).lookup f = (c.parts fields).lookup f := by
  cases b with
  | members ms =>
    unfold untag? at h
    dsimp only at h
    split at h
    · next k t' hfilter =>
      cases h
      have hlookup : ms.lookup tag = some t := by rw [lookup_eq_head?_filter, hfilter]; rfl
      have hcount : ms.countP (·.1 == tag) = 1 := by
        rw [List.countP_eq_length_filter, hfilter]
        rfl
      exact ⟨hlookup, rfl, by simp [IsRecord, hcount], fun _ _ => rfl⟩
    · cases h
  | elements xs =>
    cases xs with
    | nil => cases h
    | cons x xs =>
      cases h
      refine ⟨by simp [parts], rfl, by simp [IsRecord], ?_⟩
      intro f hmem
      have hne : (f == tag) = false := beq_false_of_ne (ne_of_mem_of_not_mem hmem hf)
      simp [parts, List.lookup_cons, hne]

theorem exists_untag? (h : b.IsRecord (tag :: fields))
    (ht : (b.parts (tag :: fields)).lookup tag = some t) : ∃ c, b.untag? tag = some (t, c) := by
  cases b with
  | members ms =>
    have hlookup : ms.lookup tag = some t := ht
    have hcount : (ms.filter (·.1 == tag)).length ≤ 1 := by
      rw [← List.countP_eq_length_filter]
      exact h tag List.mem_cons_self
    rw [lookup_eq_head?_filter] at hlookup
    cases hfilter : ms.filter (·.1 == tag) with
    | nil =>
      rw [hfilter] at hlookup
      cases hlookup
    | cons m rest =>
      rw [hfilter] at hlookup hcount
      obtain rfl : m.2 = t := Option.some.inj hlookup
      obtain rfl : rest = [] := List.length_eq_zero_iff.1 (by simpa using hcount)
      exact ⟨members ms, by rw [untag?, hfilter]⟩
  | elements xs =>
    cases xs with
    | nil => cases ht
    | cons x xs =>
      simp [parts] at ht
      exact ⟨_, by rw [untag?, ht]⟩

/-! ### Bodies that match -/

section
variable {S : String → α → α → Prop}

theorem rel_refl {R : α → α → Prop} (h : ∀ x, R x x) (o : Option α) : Option.Rel R o o := by
  cases o with
  | none => exact .none
  | some x => exact .some (h x)

theorem lookup_perm {ms ns : List (String × α)} {f : String} (h : ms.Perm ns)
    (hf : ms.countP (·.1 == f) ≤ 1) : ms.lookup f = ns.lookup f := by
  have hfilter := h.filter (·.1 == f)
  rw [List.countP_eq_length_filter] at hf
  rw [lookup_eq_head?_filter, lookup_eq_head?_filter]
  cases hm : ms.filter (·.1 == f) with
  | nil =>
    rw [hm] at hfilter
    rw [hfilter.nil_eq]
  | cons m rest =>
    rw [hm] at hfilter hf
    obtain rfl : rest = [] := List.length_eq_zero_iff.1 (by simpa using hf)
    rw [List.singleton_perm.1 hfilter]

theorem lookup_zip (fields : List String) (xs : List α) {f : String} (hf : f ∈ fields) :
    (fields.zip xs).lookup f = xs[fields.idxOf f]? := by
  induction fields generalizing xs with
  | nil => cases hf
  | cons g fields ih =>
    cases xs with
    | nil => rfl
    | cons x xs =>
      by_cases hg : f = g
      · simp [hg]
      · have hmem : f ∈ fields := List.mem_of_ne_of_mem hg hf
        simp [List.lookup_cons, beq_false_of_ne hg, List.idxOf_cons_ne _ (Ne.symm hg), ih xs hmem]

namespace Matches

/-- Members that differ in nothing that is looked up for a field. -/
theorem of_same (hS : ∀ f x, S f x x) {ms ns : List (String × α)}
    (hcount : ∀ f ∈ fields, ms.countP (·.1 == f) = ns.countP (·.1 == f))
    (hlookup : ∀ f ∈ fields, ms.countP (·.1 == f) ≤ 1 → ms.lookup f = ns.lookup f) :
    (members ms).Matches fields S (members ns) where
  isNamed := rfl
  isRecord hms f hf := hcount f hf ▸ hms f hf
  part := by
    intro hms f hf
    change Option.Rel (S f) (ms.lookup f) (ns.lookup f)
    rw [hlookup f hf (hms f hf)]
    exact rel_refl (hS f) _

theorem permuted (hS : ∀ f x, S f x x) {ms ns : List (String × α)} (h : ms.Perm ns) :
    (members ms).Matches fields S (members ns) :=
  of_same hS (fun _ _ => h.countP_eq _) fun _ _ => lookup_perm h

section
variable {ms : List (String × α)} {f key : String} (hf : f ∈ fields) (hkey : key ∉ fields) (x : α)
include hf hkey

theorem countP_cons_of_not_mem :
    ((key, x) :: ms).countP (·.1 == f) = ms.countP (·.1 == f) := by
  have hne : key ≠ f := (ne_of_mem_of_not_mem hf hkey).symm
  simp [hne]

theorem lookup_cons_of_not_mem : ((key, x) :: ms).lookup f = ms.lookup f := by
  rw [List.lookup_cons, beq_false_of_ne (ne_of_mem_of_not_mem hf hkey)]

end

theorem extended (hS : ∀ f x, S f x x) (ms : List (String × α)) {key : String}
    (hkey : key ∉ fields) (x : α) : (members ms).Matches fields S (members ((key, x) :: ms)) :=
  of_same hS (fun _ hf => (countP_cons_of_not_mem hf hkey x).symm)
    fun _ hf _ => (lookup_cons_of_not_mem hf hkey x).symm

theorem reduced (hS : ∀ f x, S f x x) (ms : List (String × α)) {key : String}
    (hkey : key ∉ fields) (x : α) : (members ((key, x) :: ms)).Matches fields S (members ms) :=
  of_same hS (fun _ hf => countP_cons_of_not_mem hf hkey x)
    fun _ hf _ => lookup_cons_of_not_mem hf hkey x

theorem member (hS : ∀ f x, S f x x) {before after : List (String × α)} {key : String} {x y : α}
    (h : S key x y) : (members (before ++ (key, x) :: after)).Matches fields S
      (members (before ++ (key, y) :: after)) where
  isNamed := rfl
  isRecord hms f hf := by simpa [List.countP_cons] using hms f hf
  part := by
    intro _ f _
    change Option.Rel (S f) ((before ++ (key, x) :: after).lookup f)
      ((before ++ (key, y) :: after).lookup f)
    rw [List.lookup_append, List.lookup_append, List.lookup_cons, List.lookup_cons]
    cases before.lookup f with
    | some z => exact rel_refl (hS f) _
    | none =>
      cases hf : f == key with
      | false => exact rel_refl (hS f) _
      | true =>
        obtain rfl : f = key := eq_of_beq hf
        exact .some h

theorem element (hS : ∀ f x, S f x x) {before after : List α} {key : String} {x y : α}
    (hkey : fields[before.length]? = some key) (h : S key x y) :
    (elements (before ++ x :: after)).Matches fields S (elements (before ++ y :: after)) where
  isNamed := rfl
  isRecord hxs := by simpa [IsRecord] using hxs
  part := by
    intro _ f hf
    change Option.Rel (S f) ((fields.zip _).lookup f) ((fields.zip _).lookup f)
    rw [lookup_zip _ _ hf, lookup_zip _ _ hf]
    -- A field before or after this element has the same element in both.
    rcases Nat.lt_or_ge (fields.idxOf f) before.length with hlt | hge
    · rw [List.getElem?_append_left hlt, List.getElem?_append_left hlt]
      exact rel_refl (hS f) _
    · rw [List.getElem?_append_right hge, List.getElem?_append_right hge]
      cases hd : fields.idxOf f - before.length with
      | zero =>
        have hidx : fields.idxOf f = before.length := by omega
        rw [← hidx, List.getElem?_idxOf hf] at hkey
        obtain rfl := Option.some.inj hkey
        exact .some h
      | succ d => exact rel_refl (hS f) _

end Matches

end

end Body

/-! ## Records that are read -/

/-- Two records that give for each field what goes together. -/
structure Record.Matches {α β : Type} (fields : List String) (S : String → α → β → Prop)
    (r : Record α) (s : Record β) : Prop where
  isNamed : r.isNamed = s.isNamed
  part : ∀ f ∈ fields, Option.Rel (S f) (r.part? f) (s.part? f)

section
variable {α β γ δ : Type} {fields : List String} {S : String → α → β → Prop} {tag f : String}

namespace Body.Matches
variable {b c : Body α} {d e : Body β}

theorem record (h : b.Matches fields S d) (stage : Stage) :
    Yields (Record.Matches fields S) (b.record fields stage) (d.record fields stage) := by
  intro r hr
  obtain ⟨hb, rfl⟩ := record_eq_ok_iff.1 hr
  exact ⟨_, record_eq_ok_iff.2 ⟨h.isRecord hb, rfl⟩, h.isNamed, h.part hb⟩

/-- Where the tag is a field, the same goes for what is left when it has been taken out. -/
theorem untag {t : α} (h : b.Matches (tag :: fields) S d) (hf : tag ∉ fields)
    (hb : b.untag? tag = some (t, c)) (hc : c.IsRecord fields) :
    ∃ u e, d.untag? tag = some (u, e) ∧ S tag t u ∧ c.Matches fields S e := by
  obtain ⟨ht, hnamed, hrecord, hparts⟩ := untag?_eq_some hb hf
  have hb' := hrecord.2 hc
  obtain ⟨u, hu, htu⟩ : ∃ u, (d.parts (tag :: fields)).lookup tag = some u ∧ S tag t u := by
    have htag := h.part hb' tag List.mem_cons_self
    rw [ht] at htag
    cases hd : (d.parts (tag :: fields)).lookup tag with
    | none => rw [hd] at htag; cases htag
    | some u =>
      rw [hd] at htag
      cases htag
      next htu => exact ⟨u, rfl, htu⟩
  obtain ⟨e, he⟩ := exists_untag? (h.isRecord hb') hu
  obtain ⟨-, hnamed', hrecord', hparts'⟩ := untag?_eq_some he hf
  refine ⟨u, e, he, htu, ?_, ?_, ?_⟩
  · rw [← hnamed, ← hnamed', h.isNamed]
  · intro _
    exact hrecord'.1 (h.isRecord hb')
  · intro _ f hmem
    rw [← hparts f hmem, ← hparts' f hmem]
    exact h.part hb' f (List.mem_cons_of_mem _ hmem)

end Body.Matches

namespace Record.Matches
variable {r : Record α} {s : Record β} {R : γ → δ → Prop} {read : α → Except Fault γ}
  {read' : β → Except Fault δ}

theorem required (h : r.Matches fields S s) (hf : f ∈ fields)
    (hread : ∀ x y, S f x y → Yields R (read x) (read' y)) :
    Yields R (r.required f read) (s.required f read') := by
  have hpart := h.part f hf
  unfold Record.required
  cases hx : r.part? f <;> cases hy : s.part? f <;> rw [hx, hy] at hpart <;> cases hpart
  · intro a ha
    cases ha
  · next hxy => exact hread _ _ hxy

theorem optional {d : γ} {d' : δ} (h : r.Matches fields S s) (hf : f ∈ fields) (hd : R d d')
    (hread : ∀ x y, S f x y → Yields R (read x) (read' y)) :
    Yields R (r.optional f d read) (s.optional f d' read') := by
  have hpart := h.part f hf
  unfold Record.optional
  cases hx : r.part? f <;> cases hy : s.part? f <;> rw [hx, hy] at hpart <;> cases hpart
  · exact .ok hd
  · next hxy => exact hread _ _ hxy

end Record.Matches

end

/-! ## Values that match -/

/-- Two objects or two arrays that match. -/
inductive Alike (fields : List String) (S : String → Json → Json → Prop) : Json → Json → Prop
  | objects {ms ns : List (String × Json)}
      (h : (Body.members ms).Matches fields S (.members ns)) :
      Alike fields S (object ms) (object ns)
  | arrays {xs ys : List Json} (h : (Body.elements xs).Matches fields S (.elements ys)) :
      Alike fields S (array xs) (array ys)

theorem body_object (ms : List (String × Json)) :
    ∃ b, (object ms).body = .ok b ∧ b.map Subtype.val = .members ms := by
  refine ⟨_, rfl, ?_⟩
  rw [Body.map, List.map_map]
  exact congrArg Body.members (List.attach_map_subtype_val ms)

theorem body_array (xs : List Json) :
    ∃ b, (array xs).body = .ok b ∧ b.map Subtype.val = .elements xs := by
  refine ⟨_, rfl, ?_⟩
  rw [Body.map, List.map_map]
  exact congrArg Body.elements (List.attach_map_subtype_val xs)

section
variable {j k : Json} {fields : List String} {S : String → Json → Json → Prop}

theorem Alike.body (h : Alike fields S j k) :
    Yields (Body.Matches fields fun f (p : Part j) (q : Part k) => S f p.1 q.1)
      j.body k.body := by
  cases h with
  | @objects ms ns h =>
    obtain ⟨b, hb, hms⟩ := body_object ms
    obtain ⟨c, hc, hns⟩ := body_object ns
    rw [hb, hc]
    rw [← hms, ← hns] at h
    exact .ok h.of_map
  | @arrays xs ys h =>
    obtain ⟨b, hb, hxs⟩ := body_array xs
    obtain ⟨c, hc, hys⟩ := body_array ys
    rw [hb, hc]
    rw [← hxs, ← hys] at h
    exact .ok h.of_map

theorem Alike.record (h : Alike fields S j k) (stage : Stage) :
    Yields (Record.Matches fields fun f (p : Part j) (q : Part k) => S f p.1 q.1)
      (j.record fields stage) (k.record fields stage) :=
  h.body.bind fun _ _ hb => hb.record stage

theorem yields_array {T : Json → Json → Prop} {xs ys : List Json} (h : List.Forall₂ T xs ys) :
    Yields (List.Forall₂ fun p q => T p.1 q.1) (array xs).elements (array ys).elements := by
  apply Yields.ok
  rw [List.forall₂_map_left_iff, List.forall₂_map_right_iff]
  have hval := h
  rw [← List.attach_map_subtype_val xs, ← List.attach_map_subtype_val ys,
    List.forall₂_map_left_iff, List.forall₂_map_right_iff] at hval
  exact hval

theorem yields_elements {α : Type} {T : Json → Json → Prop} (read : Json → Except Fault α)
    (hread : ∀ x y, T x y → Yields Eq (read x) (read y))
    (h : Yields (List.Forall₂ fun p q => T p.1 q.1) j.elements k.elements) :
    Yields Eq (do (← j.elements).mapM (read ·.1)) (do (← k.elements).mapM (read ·.1)) := by
  apply h.bind
  intro ps qs hps as has
  obtain ⟨bs, hbs, hab⟩ := Yields.mapM hps (fun p q => hread p.1 q.1) as has
  exact ⟨bs, hbs, List.forall₂_eq_eq_eq ▸ hab⟩

/-! ### Parts and tags -/

/-- What stands for one of some fields. -/
def part? (fields : List String) (field : String) : Json → Option Json
  | object ms => ms.lookup field
  | array xs => (fields.zip xs).lookup field
  | _ => none

theorem part?_eq_lookup {b : Body (Part j)} (hb : j.body = .ok b) (field : String) :
    j.part? fields field = ((b.parts fields).lookup field).map Subtype.val := by
  rw [← Body.lookup_parts_map]
  cases j with
  | object ms =>
    obtain ⟨b', hb', hms⟩ := body_object ms
    obtain rfl : b' = b := Except.ok.inj (hb'.symm.trans hb)
    rw [hms]
    rfl
  | array xs =>
    obtain ⟨b', hb', hxs⟩ := body_array xs
    obtain rfl : b' = b := Except.ok.inj (hb'.symm.trans hb)
    rw [hxs]
    rfl
  | _ => cases hb

theorem part?_of_record {stage : Stage} {r : Record (Part j)} (h : j.record fields stage = .ok r)
    (field : String) : j.part? fields field = (r.part? field).map Subtype.val := by
  obtain ⟨b, hb, hr⟩ := bind_eq_ok.1 h
  obtain ⟨-, rfl⟩ := Body.record_eq_ok_iff.1 hr
  exact part?_eq_lookup hb field

/-- The variant that a tagged value says it is. -/
def variant? {ν : Type} (known : List (String × ν)) (j : Json) : Option ν :=
  (j.part? ["type"] "type").bind fun t => (tagVariant known .held t).toOption

theorem tagged_eq_ok_iff {tag : String} {x : Part j × Body (Part j)} :
    j.tagged tag = .ok x ↔ ∃ b, j.body = .ok b ∧ b.untag? tag = some x := by
  unfold tagged
  rw [bind_eq_ok]
  refine exists_congr fun b => and_congr_right fun _ => ?_
  unfold Body.untag?
  cases b with
  | members ms =>
    dsimp only
    split
    · next h => simp [h]
    · next h => simp [h, pure, Except.pure]
    · next h₁ h₂ =>
      split
      · next h => exact absurd h (h₂ _ _)
      · simp
  | elements xs => cases xs <;> simp [pure, Except.pure]

theorem tagVariant_held {ν : Type} {known : List (String × ν)} {stage : Stage} {t : Json} {v : ν}
    (h : tagVariant known stage t = .ok v) : tagVariant known .held t = .ok v := by
  cases stage with
  | held => exact h
  | streamed =>
    cases t with
    | string s => exact h
    | _ => cases h

/-- The variant of a tagged value, and the record of the fields of that variant. -/
def taggedRecord {ν : Type} (known : List (String × ν)) (names : ν → List String) (stage : Stage)
    (j : Json) : Except Fault (ν × Record (Part j)) := do
  let (t, b) ← j.tagged "type"
  let v ← tagVariant known stage t.1
  return (v, ← b.record (names v) .held)

/-- Tagged values of the same variant go together if they match in its fields. -/
theorem yields_taggedRecord {ν : Type} {known : List (String × ν)} {names : ν → List String}
    {T : ν → String → Json → Json → Prop} (hfresh : ∀ v, "type" ∉ names v)
    (htype : ∀ v x y, T v "type" x y → x = y)
    (h : ∀ v, j.variant? known = some v → Alike ("type" :: names v) (T v) j k) (stage : Stage) :
    Yields (fun x y => x.1 = y.1 ∧
        x.2.Matches (names x.1) (fun f (p : Part j) (q : Part k) => T x.1 f p.1 q.1) y.2)
      (taggedRecord known names stage j) (taggedRecord known names stage k) := by
  rintro ⟨v, r⟩ hr
  simp only [taggedRecord, bind_eq_ok] at hr
  obtain ⟨⟨t, c⟩, ht, v', hv, r', hc, hr⟩ := hr
  cases hr
  obtain ⟨b, hb, hbc⟩ := tagged_eq_ok_iff.1 ht
  have htype' : j.part? ["type"] "type" = some t.1 := by
    rw [part?_eq_lookup hb, (Body.untag?_eq_some hbc List.not_mem_nil).1]
    rfl
  have hvariant : j.variant? known = some v := by
    rw [variant?, htype', Option.bind_some, tagVariant_held hv]
    rfl
  obtain ⟨d, hd, hbd⟩ := (h v hvariant).body b hb
  obtain ⟨u, e, hde, htu, hce⟩ := hbd.untag (hfresh v) hbc (Body.record_eq_ok_iff.1 hc).1
  obtain ⟨s, hs, hrs⟩ := hce.record .held r hc
  have htag : k.tagged "type" = .ok (u, e) := tagged_eq_ok_iff.2 ⟨d, hd, hde⟩
  have hu : tagVariant known stage u.1 = .ok v := htype v _ _ htu ▸ hv
  refine ⟨(v, s), ?_, rfl, hrs⟩
  simp only [taggedRecord, htag, hu, hs, ok_bind, pure_eq_ok]

end

end HomeScript.Json
