import HomeScript.Proofs.Workspace.Edits

/-! # Shadows

A shadow counts exactly where nothing is plugged in. It could as well be plugged in itself, and
behind a block that is plugged in there could be any other shadow: neither the automations of a
workspace nor the notices of reading it would change.
-/

namespace HomeScript

namespace Connection
variable {β : Type}

/-- What is plugged in, or else the shadow plugged in instead of it. -/
def settled : Connection β → Connection β
  | ⟨some b, _⟩ => { block := some b }
  | ⟨none, shadow⟩ => { block := shadow }

/-- Another shadow behind what is plugged in. -/
def covering (cover : β → Option β → Option β) : Connection β → Connection β
  | ⟨some b, shadow⟩ => ⟨some b, cover b shadow⟩
  | ⟨none, shadow⟩ => ⟨none, shadow⟩

theorem target_settled (c : Connection β) : c.settled.target = c.target := by
  obtain ⟨_ | b, _ | s⟩ := c <;> rfl

theorem target_covering (cover : β → Option β → Option β) (c : Connection β) :
    (c.covering cover).target = c.target := by
  obtain ⟨_ | b, _ | s⟩ := c <;> rfl

end Connection

theorem Edit.keeps_everything {f : Connection Block → Connection Block}
    (h : ∀ c, (f c).target = c.target) : Edit.Keeps .everything { connection := f } where
  target := h
  nextBlock _ := rfl
  device _ := rfl
  expr _ := rfl
  trigger _ := rfl
  statement _ := rfl
  automation _ := rfl
  looseBlock _ := rfl

namespace Workspace

/-- All that counts is plugged in, and there is no shadow. -/
def settled (w : Workspace) : Workspace :=
  w.edited { connection := Connection.settled }

/-- There are other shadows behind the blocks that are plugged in. -/
def covering (cover : Block → Option Block → Option Block) (w : Workspace) : Workspace :=
  w.edited { connection := Connection.covering cover }

/-- Shadows stand in where nothing is plugged in, and matter nowhere else. -/
theorem automations_settled (w : Workspace) :
    w.settled.automations = w.automations
      ∧ ∀ cover, (w.covering cover).automations = w.automations := by
  constructor
  · exact (Edit.keeps_everything Connection.target_settled).automations_edited w
  · intro cover
    exact (Edit.keeps_everything (Connection.target_covering cover)).automations_edited w

end Workspace
end HomeScript
