import Xrss.Zig.Outcome

/-! Functions that change what others see: memory that outlives the call. What a function
has done stays done when an error leaves it, and the `defer` blocks of its callers meet it. -/

namespace Xrss.Zig

def Procedure (σ ε α : Type) := σ → Outcome ε α × σ

namespace Procedure

variable {σ ε φ α β : Type}

instance : Monad (Procedure σ ε) where
  pure value := fun state => (.ok value, state)
  bind procedure next := fun state =>
    match procedure state with
    | (.ok value, reached) => next value reached
    | (.error failure, reached) => (.error failure, reached)
    | (.panic reason, reached) => (.panic reason, reached)

theorem bind_of_ok {procedure : Procedure σ ε α} {state reached : σ} {value : α}
    (returned : procedure state = (.ok value, reached)) (next : α → Procedure σ ε β) :
    (procedure >>= next) state = next value reached := by
  simp only [Bind.bind, returned]

def lift (outcome : Outcome ε α) : Procedure σ ε α := fun state => (outcome, state)

def read : Procedure σ ε σ := fun state => (.ok state, state)

def update (change : σ → σ) : Procedure σ ε Unit := fun state => (.ok (), change state)

theorem read_bind (next : σ → Procedure σ ε β) (state : σ) :
    ((read : Procedure σ ε σ) >>= next) state = next state state := rfl

theorem update_bind (change : σ → σ) (next : Unit → Procedure σ ε β) (state : σ) :
    (update change >>= next) state = next () (change state) := rfl

/-- `for (items) |item| { ... }`. -/
def each (items : List α) (body : α → Procedure σ ε Unit) : Procedure σ ε Unit :=
  items.foldr (fun item rest => body item >>= fun _ => rest) (pure ())

/-- However the call ends, the property holds afterwards if it did before. -/
def Keeps (property : σ → Prop) (procedure : Procedure σ ε α) : Prop :=
  ∀ state, property state → property (procedure state).2

namespace Keeps

variable {property : σ → Prop}

theorem pure (value : α) : Keeps property (Pure.pure value : Procedure σ ε α) := fun _ holds => holds

theorem lift (outcome : Outcome ε α) : Keeps property (Procedure.lift outcome : Procedure σ ε α) :=
  fun _ holds => holds

theorem read : Keeps property (Procedure.read : Procedure σ ε σ) := fun _ holds => holds

theorem update {change : σ → σ} (keeps : ∀ state, property state → property (change state)) :
    Keeps property (Procedure.update change : Procedure σ ε Unit) := keeps

theorem bind {procedure : Procedure σ ε α} {next : α → Procedure σ ε β}
    (first : Keeps property procedure) (second : ∀ value, Keeps property (next value)) :
    Keeps property (procedure >>= next) := by
  intro state holds
  have reached := first state holds
  change property (match procedure state with
    | (.ok value, reached) => next value reached
    | (.error failure, reached) => (.error failure, reached)
    | (.panic reason, reached) => (.panic reason, reached)).2
  split
  · rename_i value middle same
    rw [same] at reached
    exact second value middle reached
  · rename_i same
    rw [same] at reached
    exact reached
  · rename_i same
    rw [same] at reached
    exact reached

theorem ite {condition : Prop} [Decidable condition] {first second : Procedure σ ε α}
    (holds : Keeps property first) (fails : Keeps property second) :
    Keeps property (if condition then first else second) := by
  split
  · exact holds
  · exact fails

theorem each {items : List α} {body : α → Procedure σ ε Unit}
    (step : ∀ item ∈ items, Keeps property (body item)) : Keeps property (Procedure.each items body) := by
  induction items with
  | nil => exact .pure ()
  | cons item rest ih =>
    exact .bind (step item (by simp)) fun _ => ih fun other member => step other (by simp [member])

end Keeps

/-- From this state the call ends as the outcome does, in a state that goes with its value. -/
def Follows (inject : φ → ε) (relation : β → α → σ → Prop) (outcome : Outcome φ β)
    (ending : Outcome ε α × σ) : Prop :=
  match outcome with
  | .ok result => ∃ value, ending.1 = .ok value ∧ relation result value ending.2
  | .error failure => ending.1 = .error (inject failure)
  | .panic reason => ending.1 = .panic reason

namespace Follows

variable {γ δ : Type} {inject : φ → ε}

theorem ok {relation : β → α → σ → Prop} {result : β} {value : α} {state : σ}
    (related : relation result value state) :
    Follows inject relation (.ok result) (.ok value, state) := ⟨value, rfl, related⟩

theorem mono {relation weaker : β → α → σ → Prop} {outcome : Outcome φ β} {ending : Outcome ε α × σ}
    (follows : Follows inject relation outcome ending)
    (implies : ∀ result value state, relation result value state → weaker result value state) :
    Follows inject weaker outcome ending := by
  cases outcome with
  | ok result =>
    obtain ⟨value, same, related⟩ := follows
    exact ⟨value, same, implies result value ending.2 related⟩
  | error failure => exact follows
  | panic reason => exact follows

theorem lift (outcome : Outcome φ α) (state : σ) :
    Follows inject (fun result value reached => result = value ∧ state = reached) outcome
      ((Procedure.lift (outcome.mapError inject) : Procedure σ ε α) state) := by
  cases outcome with
  | ok value => exact ⟨value, rfl, rfl, rfl⟩
  | error failure => rfl
  | panic reason => rfl

theorem bind {relation : β → α → σ → Prop} {relation' : δ → γ → σ → Prop} {outcome : Outcome φ β}
    {next : β → Outcome φ δ} {procedure : Procedure σ ε α} {next' : α → Procedure σ ε γ} {state : σ}
    (first : Follows inject relation outcome (procedure state))
    (second : ∀ result value reached, relation result value reached →
      Follows inject relation' (next result) (next' value reached)) :
    Follows inject relation' (outcome >>= next) ((procedure >>= next') state) := by
  change Follows inject relation' (outcome >>= next) (match procedure state with
    | (.ok value, reached) => next' value reached
    | (.error failure, reached) => (.error failure, reached)
    | (.panic reason, reached) => (.panic reason, reached))
  generalize procedure state = ending at first
  obtain ⟨ended, reached⟩ := ending
  cases outcome with
  | ok result =>
    obtain ⟨value, rfl, related⟩ := first
    exact second result value reached related
  | error failure =>
    obtain rfl : ended = .error (inject failure) := first
    rfl
  | panic reason =>
    obtain rfl : ended = .panic reason := first
    rfl

theorem map {relation : δ → α → σ → Prop} {outcome : Outcome φ β} {ending : Outcome ε α × σ}
    {transform : β → δ}
    (follows : Follows inject (fun result => relation (transform result)) outcome ending) :
    Follows inject relation (outcome >>= fun result => .ok (transform result)) ending := by
  cases outcome with
  | ok result => exact follows
  | error failure => exact follows
  | panic reason => exact follows

theorem mapError {relation : β → α → σ → Prop} {ψ : Type} {outer : ψ → ε} {inner : φ → ψ}
    {outcome : Outcome φ β} {ending : Outcome ε α × σ}
    (follows : Follows (fun failure => outer (inner failure)) relation outcome ending) :
    Follows outer relation (outcome.mapError inner) ending := by
  cases outcome with
  | ok result => exact follows
  | error failure => exact follows
  | panic reason => exact follows

end Follows

end Procedure

end Xrss.Zig
