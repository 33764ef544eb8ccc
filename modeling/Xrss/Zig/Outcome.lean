namespace Xrss.Zig

/-- The safety checks that abort a ReleaseSafe program. -/
inductive Panic where
  | assertion
  | unwrapNull
  | overflow
  | outOfBounds
  | message
  deriving Repr, DecidableEq

/-- What a fallible call ends in: a value, an error of its error set that the
caller may handle, or a failed safety check that nobody can. -/
inductive Outcome (ε α : Type) where
  | ok (value : α)
  | error (failure : ε)
  | panic (reason : Panic)
  deriving Repr

namespace Outcome

instance [DecidableEq ε] [DecidableEq α] : DecidableEq (Outcome ε α)
  | .ok left, .ok right => decidable_of_iff (left = right) ⟨congrArg _, Outcome.ok.inj⟩
  | .error left, .error right => decidable_of_iff (left = right) ⟨congrArg _, Outcome.error.inj⟩
  | .panic left, .panic right => decidable_of_iff (left = right) ⟨congrArg _, Outcome.panic.inj⟩
  | .ok _, .error _ | .ok _, .panic _ | .error _, .ok _ | .error _, .panic _
  | .panic _, .ok _ | .panic _, .error _ => isFalse nofun

def bind (outcome : Outcome ε α) (next : α → Outcome ε β) : Outcome ε β :=
  match outcome with
  | .ok value => next value
  | .error failure => .error failure
  | .panic reason => .panic reason

instance : Monad (Outcome ε) where
  pure := .ok
  bind := bind

@[simp] theorem pure_eq_ok (value : α) : (pure value : Outcome ε α) = .ok value := rfl

@[simp] theorem ok_bind (value : α) (next : α → Outcome ε β) :
    (Outcome.ok value >>= next) = next value := rfl

@[simp] theorem error_bind (failure : ε) (next : α → Outcome ε β) :
    (Outcome.error failure >>= next) = .error failure := rfl

@[simp] theorem panic_bind (reason : Panic) (next : α → Outcome ε β) :
    (Outcome.panic reason >>= next) = .panic reason := rfl

instance : LawfulMonad (Outcome ε) :=
  LawfulMonad.mk' (Outcome ε)
    (by intro α outcome; cases outcome <;> rfl)
    (by intros; rfl)
    (by intro α β γ outcome first second; cases outcome <;> rfl)

/-- A sequence succeeds exactly when both of its halves do. -/
theorem bind_eq_ok {outcome : Outcome ε α} {next : α → Outcome ε β} {result : β} :
    (outcome >>= next) = .ok result ↔ ∃ value, outcome = .ok value ∧ next value = .ok result := by
  cases outcome <;> simp

theorem bind_eq_error {outcome : Outcome ε α} {next : α → Outcome ε β} {failure : ε} :
    (outcome >>= next) = .error failure ↔
      outcome = .error failure ∨ ∃ value, outcome = .ok value ∧ next value = .error failure := by
  cases outcome <;> simp

/-- A sequence aborts when one of its halves does. -/
theorem bind_eq_panic {outcome : Outcome ε α} {next : α → Outcome ε β} {reason : Panic} :
    (outcome >>= next) = .panic reason ↔
      outcome = .panic reason ∨ ∃ value, outcome = .ok value ∧ next value = .panic reason := by
  cases outcome <;> simp

/-- `try` in a function with a larger error set. -/
def mapError (inject : ε → φ) : Outcome ε α → Outcome φ α
  | .ok value => .ok value
  | .error failure => .error (inject failure)
  | .panic reason => .panic reason

@[simp] theorem mapError_ok (inject : ε → φ) (value : α) :
    (Outcome.ok value : Outcome ε α).mapError inject = .ok value := rfl

@[simp] theorem mapError_error (inject : ε → φ) (failure : ε) :
    (Outcome.error failure : Outcome ε α).mapError inject = .error (inject failure) := rfl

@[simp] theorem mapError_panic (inject : ε → φ) (reason : Panic) :
    (Outcome.panic reason : Outcome ε α).mapError inject = .panic reason := rfl

@[simp] theorem mapError_eq_ok {outcome : Outcome ε α} {inject : ε → φ} {value : α} :
    outcome.mapError inject = .ok value ↔ outcome = .ok value := by
  cases outcome <;> simp

/-- `call catch |err| handler`, where the handler ends in a value. -/
def catchWith (outcome : Outcome ε α) (handler : ε → α) : Outcome Empty α :=
  match outcome with
  | .ok value => .ok value
  | .error failure => .ok (handler failure)
  | .panic reason => .panic reason

@[simp] theorem catchWith_ok (value : α) (handler : ε → α) :
    (Outcome.ok value : Outcome ε α).catchWith handler = .ok value := rfl

@[simp] theorem catchWith_error (failure : ε) (handler : ε → α) :
    (Outcome.error failure : Outcome ε α).catchWith handler = .ok (handler failure) := rfl

/-- `optional orelse return error`. -/
def ofOption (missing : ε) : Option α → Outcome ε α
  | some value => .ok value
  | none => .error missing

@[simp] theorem ofOption_eq_ok {missing : ε} {optional : Option α} {value : α} :
    ofOption missing optional = .ok value ↔ optional = some value := by
  cases optional <;> simp [ofOption]

/-- `optional.?`. -/
def unwrap : Option α → Outcome ε α
  | some value => .ok value
  | none => .panic .unwrapNull

def assert (condition : Prop) [Decidable condition] : Outcome ε Unit :=
  if condition then .ok () else .panic .assertion

@[simp] theorem assert_of_true {condition : Prop} [Decidable condition] (holds : condition) :
    (assert condition : Outcome ε Unit) = .ok () := if_pos holds

/-- The value of a call that returned one. -/
def toOption : Outcome ε α → Option α
  | .ok value => some value
  | _ => none

@[simp] theorem toOption_ok (value : α) : (Outcome.ok value : Outcome ε α).toOption = some value :=
  rfl

theorem toOption_eq_some {outcome : Outcome ε α} {value : α} :
    outcome.toOption = some value ↔ outcome = .ok value := by
  cases outcome <;> simp [toOption]

theorem exists_of_isSome {outcome : Outcome ε α} (returned : outcome.toOption.isSome) :
    ∃ value, outcome = .ok value := by
  obtain ⟨value, same⟩ := Option.isSome_iff_exists.mp returned
  exact ⟨value, toOption_eq_some.mp same⟩

end Outcome

/-- The call does not abort for this reason. -/
def Outcome.Avoids (reason : Panic) (outcome : Outcome ε α) : Prop := outcome ≠ .panic reason

namespace Outcome.Avoids

variable {reason : Panic}

theorem ok (value : α) : (Outcome.ok value : Outcome ε α).Avoids reason := nofun

theorem error (failure : ε) : (Outcome.error failure : Outcome ε α).Avoids reason := nofun

theorem panic {other : Panic} (different : other ≠ reason) :
    (Outcome.panic other : Outcome ε α).Avoids reason :=
  fun same => different (Outcome.panic.inj same)

theorem bind {outcome : Outcome ε α} {next : α → Outcome ε β} (first : outcome.Avoids reason)
    (second : ∀ value, outcome = .ok value → (next value).Avoids reason) :
    (outcome >>= next).Avoids reason := by
  cases outcome with
  | ok value => exact second value rfl
  | error failure => exact error failure
  | panic other => exact fun same => first (by cases same; rfl)

theorem mapError {outcome : Outcome ε α} (avoids : outcome.Avoids reason) (inject : ε → φ) :
    (outcome.mapError inject).Avoids reason := by
  cases outcome with
  | ok value => exact ok value
  | error failure => exact error (inject failure)
  | panic other => exact fun same => avoids (by cases same; rfl)

theorem ofOption (missing : ε) (optional : Option α) :
    (Outcome.ofOption missing optional).Avoids reason := by
  cases optional <;> exact nofun

theorem ite {condition : Prop} [Decidable condition] {first second : Outcome ε α}
    (holds : condition → first.Avoids reason) (fails : ¬ condition → second.Avoids reason) :
    (if condition then first else second).Avoids reason := by
  split
  · exact holds ‹_›
  · exact fails ‹_›

end Outcome.Avoids

section Runs

variable {ε σ τ ι κ : Type} {step : σ → ι → Outcome ε σ} {next : τ → ι → τ} {concrete : τ → σ}

/-- A program that follows a total machine step by step never fails, and ends
where the machine does. -/
theorem foldlM_follows
    (follows : ∀ state input, step (concrete state) input = .ok (concrete (next state input)))
    (inputs : List ι) (start : τ) :
    inputs.foldlM step (concrete start) = .ok (concrete (inputs.foldl next start)) := by
  induction inputs generalizing start with
  | nil => rfl
  | cons input rest ih =>
    simpa only [List.foldlM_cons, List.foldl_cons, follows, Outcome.ok_bind] using ih (next start input)

/-- A loop of loops is one loop over the pairs, the outer input first. -/
theorem foldlM_nested (step : σ → ι → κ → Outcome ε σ) (outer : List ι) (inner : List κ)
    (start : σ) :
    outer.foldlM (fun state first => inner.foldlM (fun state => step state first) state) start =
      (outer.flatMap fun first => inner.map (first, ·)).foldlM
        (fun state pair => step state pair.1 pair.2) start := by
  induction outer generalizing start with
  | nil => rfl
  | cons first rest ih =>
    simp only [List.foldlM_cons, List.flatMap_cons, List.foldlM_append, List.foldlM_map, ih]

/-- A loop whose steps append to a list appends what all of them do. -/
theorem foldlM_collects (view : σ → List β) {emit : ι → List β}
    (each : ∀ state input next, step state input = .ok next → view next = view state ++ emit input)
    {inputs : List ι} {start final : σ} (ran : inputs.foldlM step start = .ok final) :
    view final = view start ++ inputs.flatMap emit := by
  induction inputs generalizing start with
  | nil => cases ran; simp
  | cons input rest ih =>
    rw [List.foldlM_cons, Outcome.bind_eq_ok] at ran
    obtain ⟨middle, stepped, finished⟩ := ran
    rw [ih finished, each start input middle stepped, List.flatMap_cons, List.append_assoc]

theorem foldlM_completes {Good : ι → Prop} (inputs : List ι)
    (each : ∀ input ∈ inputs, ∀ state, (∃ next, step state input = .ok next) ↔ Good input)
    (start : σ) :
    (∃ final, inputs.foldlM step start = .ok final) ↔ ∀ input ∈ inputs, Good input := by
  induction inputs generalizing start with
  | nil => simp
  | cons input rest ih =>
    have first := each input (by simp)
    have later := ih fun other member => each other (by simp [member])
    simp only [List.foldlM_cons, Outcome.bind_eq_ok, List.forall_mem_cons]
    constructor
    · intro success
      rcases success with ⟨final, middle, stepped, finished⟩
      exact ⟨(first start).mp ⟨middle, stepped⟩, (later middle).mp ⟨final, finished⟩⟩
    · intro conditions
      rcases conditions with ⟨good, others⟩
      obtain ⟨middle, stepped⟩ := (first start).mpr good
      obtain ⟨final, finished⟩ := (later middle).mpr others
      exact ⟨final, middle, stepped, finished⟩

theorem foldlM_steps {inputs : List ι} {start final : σ}
    (ran : inputs.foldlM step start = .ok final) :
    ∀ input ∈ inputs, ∃ state next, step state input = .ok next := by
  induction inputs generalizing start with
  | nil => simp
  | cons input rest ih =>
    rw [List.foldlM_cons, Outcome.bind_eq_ok] at ran
    obtain ⟨middle, stepped, finished⟩ := ran
    rw [List.forall_mem_cons]
    exact ⟨⟨start, middle, stepped⟩, ih finished⟩

theorem foldlM_keeps (property : σ → Prop)
    (each : ∀ state input next, property state → step state input = .ok next → property next)
    {inputs : List ι} {start final : σ} (holds : property start)
    (ran : inputs.foldlM step start = .ok final) : property final := by
  induction inputs generalizing start with
  | nil =>
    cases ran
    exact holds
  | cons input rest ih =>
    rw [List.foldlM_cons, Outcome.bind_eq_ok] at ran
    obtain ⟨middle, stepped, finished⟩ := ran
    exact ih (each start input middle holds stepped) finished

theorem foldlM_avoids {reason : Panic} {inputs : List ι}
    (each : ∀ input ∈ inputs, ∀ state, (step state input).Avoids reason) (start : σ) :
    (inputs.foldlM step start).Avoids reason := by
  induction inputs generalizing start with
  | nil => exact .ok start
  | cons input rest ih =>
    rw [List.foldlM_cons]
    exact .bind (each input (by simp) start) fun middle _ =>
      ih (fun other member => each other (by simp [member])) middle

theorem mapM_avoids {reason : Panic} {call : ι → Outcome ε β} {inputs : List ι}
    (each : ∀ input ∈ inputs, (call input).Avoids reason) : (inputs.mapM call).Avoids reason := by
  induction inputs with
  | nil => exact .ok []
  | cons input rest ih =>
    rw [List.mapM_cons]
    exact .bind (each input (by simp)) fun _ _ =>
      .bind (ih fun other member => each other (by simp [member])) fun _ _ => .ok _

theorem mapM_ne_error {failure : ε} {call : ι → Outcome ε β}
    (each : ∀ input, call input ≠ .error failure) (inputs : List ι) :
    inputs.mapM call ≠ .error failure := by
  induction inputs with
  | nil => nofun
  | cons input rest ih =>
    rw [List.mapM_cons]
    intro failed
    obtain first | ⟨_, _, later⟩ := Outcome.bind_eq_error.mp failed
    · exact each input first
    · obtain others | ⟨_, _, closed⟩ := Outcome.bind_eq_error.mp later
      · exact ih others
      · cases closed

/-- Calls that all return give the list of what they return. -/
theorem mapM_eq_ok {Good : ι → Prop} {value : ι → β} {call : ι → Outcome ε β}
    (each : ∀ input result, call input = .ok result ↔ Good input ∧ result = value input)
    {inputs : List ι} {results : List β} :
    inputs.mapM call = .ok results ↔ (∀ input ∈ inputs, Good input) ∧ results = inputs.map value := by
  induction inputs generalizing results with
  | nil => simp [eq_comm]
  | cons input rest ih =>
    rw [List.mapM_cons, List.forall_mem_cons, List.map_cons]
    simp only [Outcome.bind_eq_ok, Outcome.pure_eq_ok, Outcome.ok.injEq, each, ih]
    constructor
    · intro success
      obtain ⟨_, ⟨good, rfl⟩, _, ⟨others, rfl⟩, rfl⟩ := success
      exact ⟨⟨good, others⟩, rfl⟩
    · intro conditions
      obtain ⟨⟨good, others⟩, rfl⟩ := conditions
      exact ⟨_, ⟨good, rfl⟩, _, ⟨others, rfl⟩, rfl⟩

end Runs

end Xrss.Zig
