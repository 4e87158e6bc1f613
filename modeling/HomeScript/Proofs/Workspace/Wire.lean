import HomeScript.Proofs.Json.Record
import HomeScript.Workspace.Wire

/-! # Where blocks come from

A block that is plugged into another one has been read from a part of the value that the other one
has been read from, several levels below it.
-/

namespace HomeScript
open Json (Fault Part bind_eq_ok map_eq_ok exists_of_mapM)

namespace Block

theorem lastNamed_mem {α : Type} {name : String} {x : α} :
    {xs : List (String × α)} → lastNamed name xs = some x → (name, x) ∈ xs
  | [], h => by simp [lastNamed] at h
  | (n, y) :: rest, h => by
    rw [lastNamed, Option.orElse_eq_orElse, Option.orElse_eq_or, Option.or_eq_some_iff] at h
    rcases h with h | ⟨-, h⟩
    · exact List.mem_cons_of_mem _ (lastNamed_mem h)
    · split at h
      · next hn =>
        obtain rfl := Option.some.inj h
        rw [hn]
        exact List.mem_cons_self
      · cases h

/-- The reader of what is plugged into a block. -/
def connection (j : Json) : Except Fault (Connection Block) := do
  let r ← j.record ["block", "shadow"] .streamed
  let plugged (name : String) : Except Fault (Option Block) :=
    r.optional name none (Json.nullable fun b => ofJson b.1)
  return ⟨← plugged "block", ← plugged "shadow"⟩

theorem ofJson_eq (j : Json) : ofJson j = do
    let r ← j.record jsonFields .streamed
    return {
      type := ← r.required "type" (·.1.asString)
      id := ← r.optional "id" none (Json.nullable (·.1.asString))
      fields := ← r.optional "fields" [] fun v => do
        (← v.1.members).mapM fun (name, x) => (name, ·) <$> freeValue x.1
      inputs := ← r.optional "inputs" [] fun v => do
        (← v.1.members).mapM fun (name, c) => (name, ·) <$> connection c.1
      next := ← r.optional "next" none (Json.nullable fun c => connection c.1) } := by
  rw [ofJson]
  rfl

theorem depth_target {j : Json} {c : Connection Block} {b : Block} (h : connection j = .ok c)
    (hb : c.target = some b) : ∃ k, ofJson k = .ok b ∧ k.depth < j.depth := by
  simp only [connection, bind_eq_ok] at h
  obtain ⟨r, hr, block, hblock, shadow, hshadow, h⟩ := h
  cases h
  have plugged {name : String} {o : Option Block}
      (ho : r.optional name none (Json.nullable fun b => ofJson b.1) = .ok o)
      (hb : o = some b) : ∃ k, ofJson k = .ok b ∧ k.depth < j.depth := by
    subst hb
    rcases Json.optional_eq_ok ho with h | ⟨p, hp, hread⟩
    · cases h
    · exact ⟨p.1, Json.nullable_eq_ok hread, Json.depth_part hr hp⟩
  simp only [Connection.target, Option.orElse_eq_orElse, Option.orElse_eq_or,
    Option.or_eq_some_iff] at hb
  rcases hb with hb | ⟨-, hb⟩
  · exact plugged hblock hb
  · exact plugged hshadow hb

/-- A block that has been read from a value nested no deeper than this. -/
def ComesFrom (b : Block) (n : ℕ) : Prop :=
  ∃ j, ofJson j = .ok b ∧ j.depth ≤ n

namespace ComesFrom
variable {b c : Block} {n : ℕ}

theorem mono {m : ℕ} (h : b.ComesFrom m) (hn : m ≤ n) : b.ComesFrom n := by
  obtain ⟨j, hj, hm⟩ := h
  exact ⟨j, hj, hm.trans hn⟩

theorem pos (h : b.ComesFrom n) : 0 < n := by
  obtain ⟨j, hj, hn⟩ := h
  rw [ofJson_eq, bind_eq_ok] at hj
  obtain ⟨r, hr, -⟩ := hj
  exact (Json.depth_record_pos hr).trans_le hn

theorem input {name : String} (h : b.ComesFrom n) (hc : b.input name = some c) :
    ∃ m, m + 3 ≤ n ∧ c.ComesFrom m := by
  obtain ⟨j, hj, hn⟩ := h
  simp only [ofJson_eq, bind_eq_ok] at hj
  obtain ⟨r, hr, type, -, id, -, fields, -, inputs, hinputs, next, -, hb⟩ := hj
  cases hb
  obtain ⟨conn, hconn, ht⟩ := Option.bind_eq_some_iff.1 hc
  replace hconn := lastNamed_mem hconn
  rcases Json.optional_eq_ok hinputs with rfl | ⟨v, hv, hread⟩
  · cases hconn
  · obtain ⟨ms, hms, hread⟩ := bind_eq_ok.1 hread
    obtain ⟨⟨_, m⟩, hm, hread⟩ := exists_of_mapM hread _ hconn
    obtain ⟨conn', hconn', he⟩ := map_eq_ok.1 hread
    cases he
    obtain ⟨k, hk, (hlt : k.depth < m.1.depth)⟩ := depth_target hconn' ht
    have h₁ := Json.depth_part hr hv
    have h₂ : m.1.depth < v.1.depth := Json.depth_members hms _ hm
    exact ⟨k.depth, by omega, k, hk, le_rfl⟩

theorem next (h : b.ComesFrom n) (hc : b.nextBlock = some c) :
    ∃ m, m + 2 ≤ n ∧ c.ComesFrom m := by
  obtain ⟨j, hj, hn⟩ := h
  simp only [ofJson_eq, bind_eq_ok] at hj
  obtain ⟨r, hr, type, -, id, -, fields, -, inputs, -, next, hnext, hb⟩ := hj
  cases hb
  obtain ⟨conn, rfl, ht⟩ := Option.bind_eq_some_iff.1 hc
  rcases Json.optional_eq_ok hnext with h | ⟨v, hv, hread⟩
  · cases h
  · obtain ⟨k, hk, hlt⟩ := depth_target (Json.nullable_eq_ok hread) ht
    have h₁ := Json.depth_part hr hv
    exact ⟨k.depth, by omega, k, hk, le_rfl⟩

end ComesFrom
end Block

/-- The blocks of a workspace that has been read lie three levels below its top. -/
theorem Workspace.comesFrom_of_read {text : String} {w : Workspace}
    (h : Workspace.read text = .ok w) : ∀ b ∈ w.blocks, b.ComesFrom 124 := by
  obtain ⟨j, hj, hw⟩ := bind_eq_ok.1 h
  have hdepth : j.depth ≤ 127 := Json.depth_read hj
  simp only [Workspace.ofJson, bind_eq_ok] at hw
  obtain ⟨r, hr, blocks, hblocks, hw⟩ := hw
  cases hw
  intro b hb
  rcases Json.optional_eq_ok hblocks with rfl | ⟨p, hp, hread⟩
  · cases hb
  · simp only [blocksOfJson, bind_eq_ok] at hread
    obtain ⟨r', hr', hread⟩ := hread
    rcases Json.optional_eq_ok hread with rfl | ⟨v, hv, hread⟩
    · cases hb
    · obtain ⟨ps, hps, hread⟩ := bind_eq_ok.1 hread
      obtain ⟨e, he, hread⟩ := exists_of_mapM hread b hb
      have h₁ := Json.depth_part hr hp
      have h₂ := Json.depth_part hr' hv
      have h₃ := Json.depth_elements hps e he
      exact ⟨e.1, hread, by omega⟩

end HomeScript
