import Xrss.Transition.History

namespace Xrss.Transition

variable {σ ι ο τ κ ρ : Type}

/-- An event under another name for what it put out. -/
def Event.report (name : ο → ρ) (event : Event σ ι ο) : Event σ ι ρ :=
  ⟨event.before, event.input, name event.output, event.after⟩

/-- The inputs of the whole that are selected are steps of the part, and the others
leave it alone. -/
structure Projection (whole : Machine τ κ ρ) (part : Machine σ ι ο) where
  view : τ → σ
  select : κ → Option ι
  name : ο → ρ
  answers : ∀ state input selected, select input = some selected →
    whole.answer state input = name (part.answer (view state) selected)
  moves : ∀ state input selected, select input = some selected →
    view (whole.next state input) = part.next (view state) selected
  stays : ∀ state input, select input = none → view (whole.next state input) = view state

namespace Projection

variable {whole : Machine τ κ ρ} {part : Machine σ ι ο} (projection : Projection whole part)

/-- What the part sees of a step of the whole. -/
def event (event : Event τ κ ρ) : Option (Event σ ι ρ) :=
  (projection.select event.input).map fun selected =>
    ⟨projection.view event.before, selected, event.output, projection.view event.after⟩

theorem event_selected {state : τ} {input : κ} {selected : ι}
    (found : projection.select input = some selected) :
    projection.event (whole.event state input) =
      some ((part.event (projection.view state) selected).report projection.name) := by
  simp [event, Machine.event, Event.report, found, projection.answers state input selected found,
    projection.moves state input selected found]

theorem event_skipped {state : τ} {input : κ} (skipped : projection.select input = none) :
    projection.event (whole.event state input) = none := by
  simp [event, Machine.event, skipped]

/-- A run of the whole ends where the part ends that takes the selected steps only. -/
theorem view_final (start : τ) (inputs : List κ) :
    projection.view (whole.final start inputs) =
      part.final (projection.view start) (inputs.filterMap projection.select) := by
  induction inputs generalizing start with
  | nil => rfl
  | cons input rest ih =>
    have later : projection.view (whole.final start (input :: rest)) =
        part.final (projection.view (whole.next start input)) (rest.filterMap projection.select) :=
      ih (whole.next start input)
    rw [later]
    cases selection : projection.select input with
    | none => rw [List.filterMap_cons_none selection, projection.stays start input selection]
    | some selected =>
      rw [List.filterMap_cons_some selection, projection.moves start input selected selection]
      rfl

/-- What the part sees of a run of the whole is a run of the part. -/
theorem filterMap_history (start : τ) (inputs : List κ) :
    (whole.history start inputs).filterMap projection.event =
      (part.history (projection.view start) (inputs.filterMap projection.select)).map
        (Event.report projection.name) := by
  induction inputs generalizing start with
  | nil => rfl
  | cons input rest ih =>
    rw [Machine.history]
    cases selection : projection.select input with
    | none =>
      rw [List.filterMap_cons_none (projection.event_skipped selection),
        List.filterMap_cons_none selection, ih, projection.stays start input selection]
    | some selected =>
      rw [List.filterMap_cons_some (projection.event_selected selection),
        List.filterMap_cons_some selection, ih, projection.moves start input selected selection]
      rfl

end Projection

end Xrss.Transition
