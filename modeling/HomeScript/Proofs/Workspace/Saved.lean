import HomeScript.Proofs.Automation.Wire
import HomeScript.Proofs.Workspace.Wire

/-! # Saved blocks

A block can be saved if the values of its fields can, and so can the blocks that are plugged into it
and follow it. What has been plugged into its inputs is found there.
-/

namespace HomeScript
open Json (bind_eq_ok)

namespace Block

/-- The inputs with these names, and what is plugged into each of them. -/
def plugged (names : List String) (bs : List (Option Block)) : List (String × Connection Block) :=
  names.zip (bs.map fun b => { block := b })

/-- A block that is read from the written form of some value. -/
def IsSaved (b : Block) : Prop :=
  ∃ j : Json, ofJson j.reread = .ok b

theorem ofJson_object (type : String) (id next : Json) (fields inputs : List (String × Json)) :
    ofJson (.object [("type", .string type), ("id", id), ("fields", .object fields),
      ("inputs", .object inputs), ("next", next)]) = do
    let id ← Json.unlessNull Json.asString id
    let fields ← fields.mapM fun m => (m.1, ·) <$> freeValue m.2
    let inputs ← inputs.mapM fun m => (m.1, ·) <$> connection m.2
    let next ← Json.unlessNull connection next
    return { type, id, fields, inputs, next } := by
  rw [ofJson_eq, ← Json.members_mapM fields, ← Json.members_mapM inputs]
  rfl

theorem exists_connection {o : Option Block} (h : ∀ c, o = some c → c.IsSaved) :
    ∃ j : Json, connection j.reread = .ok { block := o } := by
  have hread (j : Json) : connection (.object [("block", j)])
      = do return ⟨← Json.unlessNull ofJson j, ← .ok none⟩ := rfl
  cases o with
  | none => exact ⟨.object [("block", .null)], rfl⟩
  | some c =>
    obtain ⟨j, hj⟩ := h c rfl
    obtain ⟨r, hr, -⟩ := bind_eq_ok.1 ((ofJson_eq j.reread).symm.trans hj)
    refine ⟨.object [("block", j)], (hread j.reread).trans ?_⟩
    rw [Json.unlessNull, Json.isNull_of_record hr, hj]
    rfl

theorem exists_plugged (names : List String) {bs : List (Option Block)}
    (h : ∀ o ∈ bs, ∀ c, o = some c → c.IsSaved) : ∃ ms : List (String × Json),
      (Json.rereadMembers ms).mapM (fun m => (m.1, ·) <$> connection m.2)
        = .ok (plugged names bs) := by
  induction names generalizing bs with
  | nil => exact ⟨[], rfl⟩
  | cons name names ih =>
    cases bs with
    | nil => exact ⟨[], rfl⟩
    | cons o bs =>
      obtain ⟨j, hj⟩ := exists_connection (h o List.mem_cons_self)
      obtain ⟨ms, hms⟩ := ih fun o ho => h o (List.mem_cons_of_mem _ ho)
      refine ⟨(name, j) :: ms, ?_⟩
      rw [Json.rereadMembers, List.mapM_cons, hj, hms]
      rfl

theorem mapM_freeValue {fields : List (String × Json)}
    (h : ∀ f ∈ fields, f.2.isReadable ∧ f.2.reread = f.2) :
    (Json.rereadMembers fields).mapM (fun m => (m.1, ·) <$> freeValue m.2) = .ok fields := by
  induction fields with
  | nil => rfl
  | cons f fields ih =>
    obtain ⟨hf, hread⟩ := h f List.mem_cons_self
    rw [Json.rereadMembers, List.mapM_cons, ih fun f hf => h f (List.mem_cons_of_mem _ hf), hread,
      freeValue, if_pos hf]
    rfl

theorem exists_next {o : Option Block} (h : ∀ c, o = some c → c.IsSaved) :
    ∃ j : Json, Json.unlessNull connection j.reread = .ok (o.map fun c => { block := some c }) := by
  cases o with
  | none => exact ⟨.null, rfl⟩
  | some c =>
    obtain ⟨j, hj⟩ := exists_connection h
    obtain ⟨r, hr, -⟩ := bind_eq_ok.1 hj
    refine ⟨j, ?_⟩
    rw [Json.unlessNull, Json.isNull_of_record hr, hj]
    rfl

/-- A block is saved if what is plugged into it and what follows it is. -/
theorem IsSaved.of_parts {b : Block} {names : List String} {bs : List (Option Block)}
    {o : Option Block} (fields : ∀ f ∈ b.fields, f.2.isReadable ∧ f.2.reread = f.2)
    (inputs : b.inputs = plugged names bs) (hbs : ∀ o ∈ bs, ∀ c, o = some c → c.IsSaved)
    (next : b.next = o.map fun c => { block := some c }) (ho : ∀ c, o = some c → c.IsSaved) :
    b.IsSaved := by
  obtain ⟨ms, hms⟩ := exists_plugged names hbs
  obtain ⟨j, hj⟩ := exists_next ho
  refine ⟨.object [("type", .string b.type), ("id", textOrNull b.id), ("fields", .object b.fields),
    ("inputs", .object ms), ("next", j)], ?_⟩
  refine (ofJson_object b.type (textOrNull b.id).reread j.reread (Json.rereadMembers b.fields)
    (Json.rereadMembers ms)).trans ?_
  rw [Automation.unlessNull_id, mapM_freeValue fields, hms, hj, ← inputs, ← next]
  cases b
  rfl

theorem IsSaved.of_plugged {b : Block} {names : List String} {bs : List (Option Block)}
    (fields : ∀ f ∈ b.fields, f.2.isReadable ∧ f.2.reread = f.2)
    (inputs : b.inputs = plugged names bs) (hbs : ∀ o ∈ bs, ∀ c, o = some c → c.IsSaved)
    (next : b.next = none) : b.IsSaved :=
  .of_parts (o := none) fields inputs hbs next (by simp)

theorem IsSaved.of_fields {b : Block} (fields : ∀ f ∈ b.fields, f.2.isReadable ∧ f.2.reread = f.2)
    (inputs : b.inputs = []) (next : b.next = none) : b.IsSaved := by
  have hplugged : b.inputs = plugged [] [] := inputs
  exact .of_plugged fields hplugged (by simp) next

/-! ## What is plugged in -/

theorem target_block (o : Option Block) : Connection.target { block := o } = o := by
  cases o <;> rfl

theorem input_eq {b : Block} {name : String} {o : Option Block}
    (h : lastNamed name b.inputs = some { block := o }) : b.input name = o := by
  rw [input, h, Option.bind_some, target_block]

theorem lastNamed_eq_none {α : Type} {name : String} {xs : List (String × α)}
    (h : ∀ y ∈ xs, y.1 ≠ name) : lastNamed name xs = none := by
  by_contra hne
  obtain ⟨y, hy⟩ := Option.ne_none_iff_exists'.1 hne
  exact h _ (lastNamed_mem hy) rfl

theorem map_lastNamed_zip {α : Type} {names : List String} {xs : List α} (hn : names.Nodup)
    (hl : xs.length = names.length) :
    names.map (fun name => lastNamed name (names.zip xs)) = xs.map some := by
  induction names generalizing xs with
  | nil => rw [List.length_eq_zero_iff.1 hl, List.map_nil, List.map_nil]
  | cons name names ih =>
    obtain ⟨x, xs, rfl⟩ := List.exists_cons_of_length_eq_add_one hl
    obtain ⟨hname, hn⟩ := List.nodup_cons.1 hn
    -- The last value of a name counts; no later one has the name of the first.
    have hfirst : lastNamed name (names.zip xs) = none :=
      lastNamed_eq_none fun y hy h => hname (h ▸ (List.of_mem_zip hy).1)
    have hrest (other : String) (ho : other ∈ names) :
        lastNamed other ((name, x) :: names.zip xs) = lastNamed other (names.zip xs) := by
      have : name ≠ other := fun h => hname (h ▸ ho)
      simp [lastNamed, this]
    rw [List.zip_cons_cons, List.map_cons, List.map_congr_left hrest,
      ih hn (Nat.succ.inj hl), lastNamed, hfirst, if_pos rfl, List.map_cons]
    rfl

/-- Each of the inputs has what has been plugged into it. -/
theorem map_input_plugged {b : Block} {names : List String} {bs : List (Option Block)}
    (inputs : b.inputs = plugged names bs) (hn : names.Nodup) (hl : bs.length = names.length) :
    names.map b.input = bs := by
  have hlength : (bs.map fun b => ({ block := b } : Connection Block)).length = names.length := by
    rw [List.length_map, hl]
  have hlast := map_lastNamed_zip hn hlength
  calc names.map b.input
    _ = (names.map fun name => lastNamed name (plugged names bs)).map
        (·.bind Connection.target) := by
      rw [← inputs, List.map_map]
      rfl
    _ = bs := by
      rw [plugged, hlast, List.map_map, List.map_map]
      exact (List.map_congr_left fun o _ => target_block o).trans (List.map_id _)

end Block
end HomeScript
