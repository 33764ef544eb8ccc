import Mathlib.Data.List.Induction

namespace Xrss.Transition

/-- A machine that answers each input and moves to a next state. -/
structure Machine (σ ι ο : Type) where
  answer : σ → ι → ο
  next : σ → ι → σ

structure Event (σ ι ο : Type) where
  before : σ
  input : ι
  output : ο
  after : σ

namespace Machine

variable {σ ι ο : Type} (machine : Machine σ ι ο)

def event (state : σ) (input : ι) : Event σ ι ο :=
  ⟨state, input, machine.answer state input, machine.next state input⟩

def history : σ → List ι → List (Event σ ι ο)
  | _, [] => []
  | state, input :: rest => machine.event state input :: history (machine.next state input) rest

def final (state : σ) (inputs : List ι) : σ := inputs.foldl machine.next state

theorem history_snoc (start : σ) (inputs : List ι) (input : ι) :
    machine.history start (inputs ++ [input]) =
      machine.history start inputs ++ [machine.event (machine.final start inputs) input] := by
  induction inputs generalizing start with
  | nil => rfl
  | cons first rest ih => simp [history, final, ih]

theorem final_snoc (start : σ) (inputs : List ι) (input : ι) :
    machine.final start (inputs ++ [input]) = machine.next (machine.final start inputs) input := by
  simp [final]

theorem final_of_stays {start : σ} {inputs : List ι}
    (stays : ∀ input ∈ inputs, machine.next start input = start) : machine.final start inputs = start := by
  induction inputs with
  | nil => rfl
  | cons input rest ih =>
    rw [List.forall_mem_cons] at stays
    obtain ⟨first, later⟩ := stays
    rw [final, List.foldl_cons, first]
    exact ih later

/-- What every step preserves that is admitted after its past holds at the end
of every run whose steps are all admitted. -/
theorem history_induction (Good : Event σ ι ο → Prop) (Inv : List (Event σ ι ο) → σ → Prop)
    {start : σ} (initial : Inv [] start)
    (preserved : ∀ past state input, Inv past state → Good (machine.event state input) →
      Inv (past ++ [machine.event state input]) (machine.next state input))
    (inputs : List ι) (good : ∀ event ∈ machine.history start inputs, Good event) :
    Inv (machine.history start inputs) (machine.final start inputs) := by
  induction inputs using List.reverseRecOn with
  | nil => exact initial
  | append_singleton inputs input ih =>
    rw [history_snoc] at good ⊢
    rw [final_snoc]
    have earlier := ih fun event member => good event (by simp [member])
    exact preserved _ _ input earlier (good _ (by simp))

/-- A view that each step changes by its event alone is a fold over the history. -/
theorem view_final {α : Type} {view : σ → α} {follow : α → Event σ ι ο → α}
    (follows : ∀ state input, view (machine.next state input) =
      follow (view state) (machine.event state input)) (start : σ) (inputs : List ι) :
    view (machine.final start inputs) = (machine.history start inputs).foldl follow (view start) := by
  induction inputs generalizing start with
  | nil => rfl
  | cons input rest ih =>
    rw [history, List.foldl_cons, ← follows]
    exact ih (machine.next start input)

/-- Each event is the machine's own step, from a state its past leads to. -/
theorem mem_history {start : σ} {inputs : List ι} {event : Event σ ι ο}
    (member : event ∈ machine.history start inputs) :
    ∃ before input after, inputs = before ++ input :: after ∧
      event = machine.event (machine.final start before) input := by
  induction inputs generalizing start with
  | nil => cases member
  | cons first rest ih =>
    rcases List.mem_cons.mp member with rfl | later
    · exact ⟨[], first, rest, rfl, rfl⟩
    · obtain ⟨before, input, after, rfl, rfl⟩ := ih later
      exact ⟨first :: before, input, after, rfl, rfl⟩

theorem history_consecutive {start : σ} {inputs : List ι} {index : Nat} {first second : Event σ ι ο}
    (earlier : (machine.history start inputs)[index]? = some first)
    (later : (machine.history start inputs)[index + 1]? = some second) :
    second.before = first.after := by
  induction inputs generalizing start index with
  | nil => cases earlier
  | cons input rest ih =>
    cases index with
    | zero =>
      cases rest with
      | nil => cases later
      | cons _ _ =>
        cases earlier
        cases later
        rfl
    | succ index => exact ih earlier later

end Machine

end Xrss.Transition
