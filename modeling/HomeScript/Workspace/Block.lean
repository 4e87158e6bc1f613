import HomeScript.Json.Writer

/-! # Blocks

The editor saves a forest of blocks. A block has fields, named inputs into which other blocks are
plugged, and a block that follows it. What is plugged in hides the shadow that stands there else.
-/

namespace HomeScript

/-- The last value with a name; earlier ones are overwritten. -/
def lastNamed {α : Type} (name : String) : List (String × α) → Option α
  | [] => none
  | (n, x) :: rest => lastNamed name rest <|> if n = name then some x else none

structure Connection (β : Type) where
  block : Option β := none
  shadow : Option β := none

namespace Connection
variable {β : Type}

def target (c : Connection β) : Option β :=
  c.block <|> c.shadow

end Connection

structure Block where
  type : String
  id : Option String := none
  fields : List (String × Json) := []
  inputs : List (String × Connection Block) := []
  next : Option (Connection Block) := none

namespace Block

def fieldValue (b : Block) (name : String) : Option Json :=
  lastNamed name b.fields

/-- The text of a field; values that are no text are written as JSON. -/
def field (b : Block) (name : String) : Option String :=
  match b.fieldValue name with
  | some (.string s) => some s
  | some .null | none => none
  | some j => some j.sorted.text

def input (b : Block) (name : String) : Option Block :=
  (lastNamed name b.inputs).bind Connection.target

def nextBlock (b : Block) : Option Block :=
  b.next.bind Connection.target

/-! ## Blocks within a block are smaller -/

theorem sizeOf_target {c : Connection Block} {b : Block} (h : c.target = some b) :
    sizeOf b < sizeOf c := by
  obtain ⟨block, shadow⟩ := c
  cases block <;> simp_all [Connection.target] <;> omega

theorem sizeOf_lastNamed {name : String} {c : Connection Block} :
    ∀ {cs : List (String × Connection Block)}, lastNamed name cs = some c → sizeOf c < sizeOf cs
  | [], h => by simp [lastNamed] at h
  | (n, d) :: rest, h => by
    rw [lastNamed, Option.orElse_eq_orElse, Option.orElse_eq_or, Option.or_eq_some_iff] at h
    rcases h with h | ⟨_, h⟩
    · have := sizeOf_lastNamed h
      simp only [List.cons.sizeOf_spec]
      omega
    · split at h
      · obtain rfl := Option.some.inj h
        simp only [List.cons.sizeOf_spec, Prod.mk.sizeOf_spec]
        omega
      · simp at h

theorem sizeOf_input {b c : Block} {name : String} (h : b.input name = some c) :
    sizeOf c < sizeOf b := by
  obtain ⟨conn, hc, ht⟩ := Option.bind_eq_some_iff.1 h
  have h₁ := sizeOf_target ht
  have h₂ := sizeOf_lastNamed hc
  cases b
  simp_all
  omega

theorem sizeOf_nextBlock {b c : Block} (h : b.nextBlock = some c) : sizeOf c < sizeOf b := by
  obtain ⟨conn, hc, ht⟩ := Option.bind_eq_some_iff.1 h
  have := sizeOf_target ht
  cases b
  simp_all
  omega

/-- The block at an input, as one smaller than the block around it. -/
def inner (b : Block) (name : String) : Option { c : Block // sizeOf c < sizeOf b } :=
  match h : b.input name with
  | some c => some ⟨c, sizeOf_input h⟩
  | none => none

theorem map_inner (b : Block) (name : String) : (b.inner name).map Subtype.val = b.input name := by
  unfold inner
  split <;> simp_all

/-- A block and those that follow it. -/
def chain (b : Block) : List Block :=
  match h : b.nextBlock with
  | some c =>
    have := sizeOf_nextBlock h
    b :: c.chain
  | none => [b]
termination_by sizeOf b

end Block

/-- The blocks that lie on the workspace by themselves. -/
structure Workspace where
  blocks : List Block := []

end HomeScript
