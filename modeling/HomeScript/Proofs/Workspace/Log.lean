import HomeScript.Proofs.Workspace.Notices

/-! # Lines of the log

Lines of the log are told apart by the words they begin with. While a value, a device or an event
is read from what is plugged in somewhere, there are no lines but of four kinds, all of them
warnings.
-/

namespace HomeScript

namespace Notice

/-- The words that a line begins with. -/
def opening : Notice → String
  | looseBlock _ => "Ignoring top-level "
  | unknownEvent _ => "Unknown event block type: "
  | invalidDevice _ _ => "Invalid device block "
  | unknownStatement _ => "Unknown statement block type: "
  | unknownOperator _ _ => "Unrecognized operator "
  | unknownValue _ => "Unknown value block type: "
  | duplicateName _ => "Duplicate automation name "
  | skippedAction _ => "Skipping action "
  | generated _ _ => "Generated "

def openings : List String :=
  ["Ignoring top-level ", "Unknown event block type: ", "Invalid device block ",
    "Unknown statement block type: ", "Unrecognized operator ", "Unknown value block type: ",
    "Duplicate automation name ", "Skipping action ", "Generated "]

theorem opening_mem_openings (n : Notice) : n.opening ∈ openings := by
  cases n <;> simp [opening, openings]

theorem opening_prefix_text (n : Notice) : n.opening.toList <+: n.text.toList := by
  have grow {s t u : String} (h : s.toList <+: t.toList) : s.toList <+: (t ++ u).toList := by
    rw [String.toList_append]
    exact h.trans (List.prefix_append ..)
  cases n with
  | unknownEvent | unknownStatement | unknownValue => exact grow (List.prefix_refl _)
  | looseBlock | skippedAction => exact grow (grow (List.prefix_refl _))
  | invalidDevice => exact grow (grow (grow (List.prefix_refl _)))
  | unknownOperator | duplicateName | generated =>
    exact grow (grow (grow (grow (List.prefix_refl _))))

theorem openings_distinct : ∀ s ∈ openings, ∀ t ∈ openings, s.toList <+: t.toList → s = t := by
  decide +kernel

theorem opening_eq {n : Notice} {start : String} (hstart : start ∈ openings)
    (h : start.toList <+: n.text.toList) : n.opening = start := by
  rcases List.prefix_or_prefix_of_prefix n.opening_prefix_text h with h | h
  · exact openings_distinct _ n.opening_mem_openings _ hstart h
  · exact (openings_distinct _ hstart _ n.opening_mem_openings h).symm

end Notice

/-- How the lines of a level that begin with some words go on. -/
def logged (level : Notice.Level) (start : String) (notices : List Notice) : List String :=
  notices.filterMap fun n => if n.level = level then afterWord start n.text else none

section Logged
variable {level : Notice.Level} {start : String}

theorem logged_append (ns ms : List Notice) :
    logged level start (ns ++ ms) = logged level start ns ++ logged level start ms :=
  List.filterMap_append

theorem logged_flatMap {α : Type} (f : α → List Notice) (xs : List α) :
    logged level start (xs.flatMap f) = xs.flatMap fun x => logged level start (f x) := by
  induction xs with
  | nil => rfl
  | cons x xs ih => rw [List.flatMap_cons, logged_append, ih, List.flatMap_cons]

theorem logged_map {α : Type} {f : α → Notice} {rest : α → String}
    (hlevel : ∀ x, (f x).level = level) (htext : ∀ x, (f x).text = start ++ rest x)
    (xs : List α) : logged level start (xs.map f) = xs.map rest := by
  induction xs with
  | nil => rfl
  | cons x xs ih =>
    rw [List.map_cons, List.map_cons, ← ih]
    simp [logged, hlevel, afterWord_eq_some_iff.2 (htext x)]

theorem logged_eq_nil {ns : List Notice} (hstart : start ∈ Notice.openings)
    (h : ∀ n ∈ ns, n.opening ≠ start) : logged level start ns = [] := by
  rw [logged, List.filterMap_eq_nil_iff]
  intro n hn
  have hnone : afterWord start n.text = none :=
    (afterWord_eq_none_iff _ _).2 fun hp => h n hn (Notice.opening_eq hstart hp)
  rw [hnone, ite_self]

end Logged

/-! ## Lines about what is plugged in -/

/-- Whether a notice is about an event, a device or a value. -/
def Notice.IsOfPlug : Notice → Prop
  | unknownEvent _ | invalidDevice _ _ | unknownOperator _ _ | unknownValue _ => True
  | _ => False

theorem Notice.IsOfPlug.opening_ne {n : Notice} (h : n.IsOfPlug) :
    n.opening ≠ "Unknown statement block type: " ∧ n.opening ≠ "Ignoring top-level " := by
  cases n with
  | unknownEvent | invalidDevice | unknownOperator | unknownValue =>
    constructor <;> simp [opening]
  | _ => exact h.elim

namespace Block

theorem mem_noticesAt {b : Block} {plug : String × Role} {n : Notice}
    (h : n ∈ b.noticesAt plug) : ∃ c, b.input plug.1 = some c ∧ n ∈ (c.asked plug.2).notices := by
  unfold noticesAt at h
  cases hc : b.input plug.1 with
  | none => simp [hc] at h
  | some c => exact ⟨c, rfl, by simpa [hc] using h⟩

theorem isOfPlug_device {b : Block} : ∀ n ∈ b.device.notices, n.IsOfPlug := by
  rcases b.device_cases with ⟨-, hd⟩ | ⟨-, -, e, hd⟩ | ⟨d, hd⟩
  · simp [hd]
  · simp [hd, Notice.IsOfPlug]
  · simp [hd]

theorem isOfPlug_ownNotices {b : Block} : ∀ n ∈ b.ownNotices, n.IsOfPlug := by
  intro n hn
  unfold ownNotices at hn
  split at hn
  · split at hn
    · cases hn
    · obtain rfl := List.mem_singleton.1 hn
      trivial
  · rcases List.mem_append.1 hn with hn | hn
    · exact isOfPlug_device n hn
    · split at hn
      · cases hn
      · obtain rfl := List.mem_singleton.1 hn
        trivial
  · cases hn

theorem isOfPlug_asked (b : Block) (role : Role) : ∀ n ∈ (b.asked role).notices, n.IsOfPlug := by
  have hplug (plugs : List (String × Role)) : ∀ n ∈ plugs.flatMap b.noticesAt, n.IsOfPlug := by
    intro n hn
    obtain ⟨plug, -, hn⟩ := List.mem_flatMap.1 hn
    obtain ⟨c, hc, hn⟩ := mem_noticesAt hn
    have := sizeOf_input hc
    exact isOfPlug_asked c plug.2 n hn
  intro n hn
  cases role with
  | trigger =>
    rw [asked, notices_trigger] at hn
    rcases List.mem_append.1 hn with hn | hn
    · exact hplug _ n hn
    · split at hn
      · cases hn
      · obtain rfl := List.mem_singleton.1 hn
        trivial
  | device => exact isOfPlug_device n hn
  | value =>
    rw [asked, notices_expr] at hn
    rcases List.mem_append.1 hn with hn | hn
    · exact hplug _ n hn
    · exact isOfPlug_ownNotices n hn
termination_by sizeOf b

theorem isOfPlug_noticesAt {b : Block} {plug : String × Role} :
    ∀ n ∈ b.noticesAt plug, n.IsOfPlug := by
  intro n hn
  obtain ⟨c, -, hn⟩ := mem_noticesAt hn
  exact c.isOfPlug_asked plug.2 n hn

theorem mem_notices_automation {b : Block} {n : Notice} (h : n ∈ b.automation.notices) :
    (∃ plug, n ∈ b.noticesAt plug) ∨ ∃ c ∈ b.bodyBlocks, n ∈ c.statement.notices := by
  rw [notices_automation] at h
  split at h
  · simp only [List.mem_append, List.mem_flatMap] at h
    rcases h with (h | h) | h
    · exact .inl ⟨_, h⟩
    · exact .inr h
    · exact .inl ⟨_, h⟩
  · simp only [List.mem_append, List.mem_flatMap] at h
    rcases h with h | h
    · exact .inr h
    · exact .inl ⟨_, h⟩
  · cases h

theorem mem_notices_statement {b : Block} {n : Notice} (h : n ∈ b.statement.notices) :
    (∃ plug, n ∈ b.noticesAt plug) ∨ n = .unknownStatement b.type := by
  rw [notices_statement] at h
  rcases List.mem_append.1 h with h | h
  · obtain ⟨plug, -, h⟩ := List.mem_flatMap.1 h
    exact .inl ⟨plug, h⟩
  · split at h
    · exact .inr (List.mem_singleton.1 h)
    · cases h

theorem opening_automation (b : Block) :
    ∀ n ∈ b.automation.notices, n.opening ≠ "Ignoring top-level " := by
  intro n hn
  rcases mem_notices_automation hn with ⟨plug, hn⟩ | ⟨c, -, hn⟩
  · exact (isOfPlug_noticesAt n hn).opening_ne.2
  · rcases mem_notices_statement hn with ⟨plug, hn⟩ | rfl
    · exact (isOfPlug_noticesAt n hn).opening_ne.2
    · simp [Notice.opening]

end Block
end HomeScript
