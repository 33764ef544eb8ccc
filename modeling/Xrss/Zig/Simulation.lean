import Xrss.Zig.Outcome

/-! Calls against the specification of what they return, where some failures are excused: these
can come whatever the specification says. -/

namespace Xrss.Zig

variable {ε α β α' β' σ τ ι : Type}

/-- The call ends as it is specified, with a related value or with the same failure, or else with
a failure that is excusable. -/
inductive Outcome.Simulates (excusable : ε → Prop) (related : α → β → Prop) :
    Outcome ε α → Outcome ε β → Prop where
  | ok {value : α} {meaning : β} : related value meaning →
      Outcome.Simulates excusable related (.ok value) (.ok meaning)
  | error (failure : ε) : Outcome.Simulates excusable related (.error failure) (.error failure)
  | excused {failure : ε} (specified : Outcome ε β) : excusable failure →
      Outcome.Simulates excusable related (.error failure) specified

namespace Outcome.Simulates

variable {excusable : ε → Prop} {related : α → β → Prop} {call : Outcome ε α} {specified : Outcome ε β}

theorem bind {after : α' → β' → Prop} (first : Simulates excusable related call specified)
    {next : α → Outcome ε α'} {meant : β → Outcome ε β'}
    (second : ∀ value meaning, related value meaning → Simulates excusable after (next value) (meant meaning)) :
    Simulates excusable after (call >>= next) (specified >>= meant) := by
  cases first with
  | ok holds => exact second _ _ holds
  | error failure => exact error failure
  | excused _ allowed => exact excused _ allowed

theorem bind_ok {after : α' → β → Prop} {meaning : β'} {relatedTo : α → β' → Prop}
    (first : Simulates excusable relatedTo call (.ok meaning)) {next : α → Outcome ε α'}
    (second : ∀ value, relatedTo value meaning → Simulates excusable after (next value) specified) :
    Simulates excusable after (call >>= next) specified := by
  cases first with
  | ok holds => exact second _ holds
  | excused _ allowed => exact excused _ allowed

theorem mono {weaker : α → β → Prop} (simulates : Simulates excusable related call specified)
    (implies : ∀ value meaning, related value meaning → weaker value meaning) :
    Simulates excusable weaker call specified := by
  cases simulates with
  | ok holds => exact ok (implies _ _ holds)
  | error failure => exact error failure
  | excused _ allowed => exact excused _ allowed

theorem foldlM {step : σ → ι → Outcome ε σ} {meant : τ → ι → Outcome ε τ} {state : σ → τ → Prop}
    (inputs : List ι)
    (each : ∀ input ∈ inputs, ∀ reached meaning, state reached meaning →
      Simulates excusable state (step reached input) (meant meaning input))
    {start : σ} {origin : τ} (holds : state start origin) :
    Simulates excusable state (inputs.foldlM step start) (inputs.foldlM meant origin) := by
  induction inputs generalizing start origin with
  | nil => exact ok holds
  | cons input rest ih =>
    rw [List.forall_mem_cons] at each
    rw [List.foldlM_cons, List.foldlM_cons]
    exact bind (each.1 start origin holds) fun _ _ => ih each.2

/-- Where the specification determines the value, only an excused failure makes a difference. -/
theorem eq_or_excused {view : β → α}
    (simulates : Simulates excusable (fun value meaning => value = view meaning) call specified) :
    call = (specified >>= fun meaning => .ok (view meaning)) ∨
      ∃ failure, excusable failure ∧ call = .error failure := by
  cases simulates with
  | ok same => exact .inl (congrArg _ same)
  | error failure => exact .inl rfl
  | excused _ allowed => exact .inr ⟨_, allowed, rfl⟩

end Outcome.Simulates

end Xrss.Zig
