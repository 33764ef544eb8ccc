import Xrss.Zig.Bytes
import Xrss.Zig.Outcome

/-! Decoders of self-delimiting formats over a buffered reader, and the law
that ties a decoder to the bytes an encoder wrote. -/

namespace Xrss.Zig

/-- A call that consumes bytes of a `std.Io.Reader`; the state is what is left
unread. -/
abbrev Decoder (ε α : Type) := StateT Bytes (Outcome ε) α

namespace Decoder

variable {ε α β γ : Type}

def fail (failure : ε) : Decoder ε α := StateT.lift (.error failure)

/-- `Reader.take`: it asserts that the buffer can hold `length` bytes at once,
and fails with `endOfStream` when fewer are left. -/
def take (endOfStream : ε) (capacity length : Nat) : Decoder ε Bytes := fun unread =>
  if capacity < length then .panic .assertion
  else if unread.length < length then .error endOfStream
  else .ok (unread.take length, unread.drop length)

/-- `Reader.takeInt` with `.little`, for an integer of `width` bytes. -/
def takeInt (endOfStream : ε) (capacity width : Nat) : Decoder ε Nat := do
  let image ← take endOfStream capacity width
  pure (decodeLE image)

def times (decoder : Decoder ε α) : Nat → Decoder ε (List α)
  | 0 => pure []
  | count + 1 => do
    let first ← decoder
    let rest ← times decoder count
    pure (first :: rest)

/-- In front of any other bytes, the decoder consumes exactly `image` and
returns `value` when `fits` holds, and returns nothing when it does not. -/
structure Decodes (decoder : Decoder ε α) (image : Bytes) (fits : Prop) (value : α) : Prop where
  accepts : fits → ∀ rest, decoder.run (image ++ rest) = .ok (value, rest)
  rejects : ¬ fits → ∀ rest result, decoder.run (image ++ rest) ≠ .ok result

theorem Decodes.pure (value : α) : Decodes (pure value : Decoder ε α) [] True value where
  accepts _ _ := rfl
  rejects impossible := absurd trivial impossible

theorem Decodes.bind {decoder : Decoder ε α} {next : α → Decoder ε β} {value : α} {result : β}
    (first : Decodes decoder image fits value)
    (second : Decodes (next value) image' fits' result) :
    Decodes (decoder >>= next) (image ++ image') (fits ∧ fits') result where
  accepts := by
    intro both rest
    rcases both with ⟨here, there⟩
    rw [StateT.run_bind, List.append_assoc, first.accepts here]
    exact second.accepts there rest
  rejects := by
    intro unfit rest outcome success
    rw [StateT.run_bind, List.append_assoc] at success
    obtain ⟨⟨found, unread⟩, stepped, finished⟩ := Outcome.bind_eq_ok.mp success
    by_cases here : fits
    · rw [first.accepts here] at stepped
      cases Outcome.ok.inj stepped
      exact second.rejects (fun there => unfit ⟨here, there⟩) rest outcome finished
    · exact first.rejects here _ _ stepped

theorem Decodes.congr {decoder : Decoder ε α} {value : α}
    (decodes : Decodes decoder image fits value) (same : fits ↔ fits') :
    Decodes decoder image fits' value where
  accepts here := decodes.accepts (same.mpr here)
  rejects unfit := decodes.rejects fun here => unfit (same.mp here)

theorem Decodes.map {decoder : Decoder ε α} {value : α} (decodes : Decodes decoder image fits value)
    (transform : α → β) :
    Decodes (decoder >>= fun found => Pure.pure (transform found)) image fits (transform value) := by
  have composed :
      Decodes (decoder >>= fun found => Pure.pure (transform found)) (image ++ []) (fits ∧ True)
        (transform value) := decodes.bind (.pure (transform value))
  simpa using composed

theorem decodes_take (endOfStream : ε) (capacity : Nat) (image : Bytes) :
    Decodes (take endOfStream capacity image.length) image (image.length ≤ capacity) image where
  accepts := by
    intro fits rest
    simp [StateT.run, take, Nat.not_lt.mpr fits]
  rejects := by
    intro unfit rest result
    simp [StateT.run, take, Nat.lt_of_not_le unfit]

theorem decodes_takeInt (endOfStream : ε) (capacity width value : Nat)
    (fits : value < 256 ^ width) :
    Decodes (takeInt endOfStream capacity width) (encodeLE width value) (width ≤ capacity) value := by
  have taken := (decodes_take endOfStream capacity (encodeLE width value)).map decodeLE
  rw [length_encodeLE, decodeLE_encodeLE width value fits] at taken
  exact taken

/-- A check that reads nothing: `if (bad) return error.failure`. -/
theorem decodes_check (bad : Prop) [Decidable bad] (failure : ε) {next : Decoder ε α} {value : α}
    (decodes : Decodes next image fits value) :
    Decodes (if bad then fail failure else next) image (¬ bad ∧ fits) value where
  accepts := by
    intro both rest
    rcases both with ⟨good, here⟩
    rw [if_neg good]
    exact decodes.accepts here rest
  rejects := by
    intro unfit rest result
    by_cases wrong : bad
    · rw [if_pos wrong]
      exact fun success => by cases success
    · rw [if_neg wrong]
      exact decodes.rejects (fun here => unfit ⟨wrong, here⟩) rest result

theorem decodes_times {decoder : Decoder ε β} (image : α → Bytes) (fits : α → Prop) (value : α → β)
    (items : List α) (each : ∀ item ∈ items, Decodes decoder (image item) (fits item) (value item)) :
    Decodes (times decoder items.length) (items.flatMap image) (∀ item ∈ items, fits item)
      (items.map value) := by
  induction items with
  | nil => exact (Decodes.pure []).congr (by simp)
  | cons item rest ih =>
    have first := each item (by simp)
    have later := ih fun other member => each other (by simp [member])
    exact (first.bind (later.map (value item :: ·))).congr (by simp)

/-- The decoder does not abort for this reason, whatever there is to read. -/
def Avoids (reason : Panic) (decoder : Decoder ε α) : Prop :=
  ∀ unread, (decoder.run unread).Avoids reason

namespace Avoids

variable {reason : Panic}

theorem pure (value : α) : (Pure.pure value : Decoder ε α).Avoids reason := fun _ => .ok _

theorem fail (failure : ε) : (Decoder.fail failure : Decoder ε α).Avoids reason :=
  fun _ => .error failure

theorem bind {decoder : Decoder ε α} {next : α → Decoder ε β} (first : decoder.Avoids reason)
    (second : ∀ value, (next value).Avoids reason) : (decoder >>= next).Avoids reason := by
  intro unread
  rw [StateT.run_bind]
  exact .bind (first unread) fun _ _ => second _ _

theorem ite {condition : Prop} [Decidable condition] {first second : Decoder ε α}
    (holds : first.Avoids reason) (fails : second.Avoids reason) :
    (if condition then first else second).Avoids reason := by
  split
  · exact holds
  · exact fails

theorem take (different : .assertion ≠ reason) (endOfStream : ε) (capacity length : Nat) :
    (Decoder.take endOfStream capacity length).Avoids reason := fun _ =>
  .ite (fun _ => .panic different) fun _ => .ite (fun _ => .error _) fun _ => .ok _

theorem takeInt (different : .assertion ≠ reason) (endOfStream : ε) (capacity width : Nat) :
    (Decoder.takeInt endOfStream capacity width).Avoids reason :=
  .bind (.take different _ _ _) fun _ => .pure _

theorem times {decoder : Decoder ε α} (each : decoder.Avoids reason) (count : Nat) :
    (decoder.times count).Avoids reason := by
  induction count with
  | zero => exact .pure []
  | succ count ih => exact .bind each fun _ => .bind ih fun _ => .pure _

end Avoids

/-- What the decoder made of some bytes it makes of them in front of any
others as well. -/
def Frames (decoder : Decoder ε α) : Prop :=
  ∀ unread value rest tail, decoder.run unread = .ok (value, rest) →
    decoder.run (unread ++ tail) = .ok (value, rest ++ tail)

/-- Bytes that are cut off end too early, or the decoder never gets to where
they were cut. -/
def Streams (endOfStream : ε) (decoder : Decoder ε α) : Prop :=
  ∀ unread tail, decoder.run unread = .error endOfStream ∨
    decoder.run (unread ++ tail) =
      decoder.run unread >>= fun result => .ok (result.1, result.2 ++ tail)

namespace Streams

variable {endOfStream : ε}

theorem frames {decoder : Decoder ε α} (streams : Streams endOfStream decoder) :
    decoder.Frames := by
  intro unread value rest tail ran
  rcases streams unread tail with short | same
  · rw [ran] at short
    cases short
  · rw [same, ran]
    rfl

theorem pure (value : α) : Streams endOfStream (Pure.pure value) := fun _ _ => .inr rfl

theorem fail (failure : ε) : Streams endOfStream (Decoder.fail failure : Decoder ε α) :=
  fun _ _ => .inr rfl

theorem bind {decoder : Decoder ε α} {next : α → Decoder ε β} (first : Streams endOfStream decoder)
    (second : ∀ value, Streams endOfStream (next value)) :
    Streams endOfStream (decoder >>= next) := by
  intro unread tail
  simp only [StateT.run_bind]
  rcases first unread tail with short | same
  · simp [short]
  · rw [same]
    cases decoder.run unread with
    | ok result => exact second result.1 result.2 tail
    | error failure => exact .inr rfl
    | panic reason => exact .inr rfl

theorem ite {condition : Prop} [Decidable condition] {first second : Decoder ε α}
    (holds : Streams endOfStream first) (fails : Streams endOfStream second) :
    Streams endOfStream (if condition then first else second) := by
  split
  · exact holds
  · exact fails

theorem take (capacity length : Nat) :
    Streams endOfStream (Decoder.take endOfStream capacity length) := by
  intro unread tail
  by_cases large : capacity < length
  · exact .inr (by simp [StateT.run, Decoder.take, large])
  · by_cases short : unread.length < length
    · exact .inl (by simp [StateT.run, Decoder.take, large, short])
    · have enough : length ≤ unread.length := Nat.le_of_not_lt short
      have more : ¬ unread.length + tail.length < length := by omega
      exact .inr (by simp [StateT.run, Decoder.take, large, short, more,
        List.take_append_of_le_length enough, List.drop_append_of_le_length enough])

theorem takeInt (capacity width : Nat) :
    Streams endOfStream (Decoder.takeInt endOfStream capacity width) :=
  .bind (.take _ _) fun _ => .pure _

theorem times {decoder : Decoder ε α} (each : Streams endOfStream decoder) (count : Nat) :
    Streams endOfStream (decoder.times count) := by
  induction count with
  | zero => exact .pure []
  | succ count ih => exact .bind each fun _ => .bind ih fun _ => .pure _

end Streams

/-- Whatever the decoder returns, it has consumed bytes that go with it. -/
def Consumes (decoder : Decoder ε α) (spec : α → Bytes → Prop) : Prop :=
  ∀ unread value rest, decoder.run unread = .ok (value, rest) →
    ∃ consumed, unread = consumed ++ rest ∧ spec value consumed

namespace Consumes

theorem pure (value : α) {spec : α → Bytes → Prop} (holds : spec value []) :
    Consumes (Pure.pure value : Decoder ε α) spec := by
  intro unread found rest ran
  cases ran
  exact ⟨[], rfl, holds⟩

theorem fail (failure : ε) (spec : α → Bytes → Prop) : Consumes (Decoder.fail failure) spec := by
  intro unread found rest ran
  cases ran

theorem mono {decoder : Decoder ε α} {spec weaker : α → Bytes → Prop}
    (consumes : Consumes decoder spec)
    (implies : ∀ value consumed, spec value consumed → weaker value consumed) :
    Consumes decoder weaker := by
  intro unread value rest ran
  obtain ⟨consumed, split, holds⟩ := consumes unread value rest ran
  exact ⟨consumed, split, implies value consumed holds⟩

theorem bind {decoder : Decoder ε α} {next : α → Decoder ε β} {spec : α → Bytes → Prop}
    {result : β → Bytes → Prop} (first : Consumes decoder spec)
    (second : ∀ value consumed, spec value consumed →
      Consumes (next value) fun found more => result found (consumed ++ more)) :
    Consumes (decoder >>= next) result := by
  intro unread found rest ran
  rw [StateT.run_bind] at ran
  obtain ⟨⟨value, between⟩, stepped, finished⟩ := Outcome.bind_eq_ok.mp ran
  obtain ⟨consumed, rfl, here⟩ := first unread value between stepped
  obtain ⟨more, rfl, there⟩ := second value consumed here between found rest finished
  exact ⟨consumed ++ more, by rw [List.append_assoc], there⟩

theorem ite {condition : Prop} [Decidable condition] {first second : Decoder ε α}
    {spec : α → Bytes → Prop} (holds : condition → Consumes first spec)
    (fails : ¬ condition → Consumes second spec) :
    Consumes (if condition then first else second) spec := by
  split
  · exact holds ‹_›
  · exact fails ‹_›

theorem take (endOfStream : ε) (capacity length : Nat) :
    Consumes (Decoder.take endOfStream capacity length) fun value consumed =>
      consumed = value ∧ value.length = length ∧ length ≤ capacity := by
  intro unread value rest ran
  by_cases large : capacity < length
  · simp [StateT.run, Decoder.take, large] at ran
  · by_cases short : unread.length < length
    · simp [StateT.run, Decoder.take, large, short] at ran
    · simp only [StateT.run, Decoder.take, large, short, ↓reduceIte, Outcome.ok.injEq,
        Prod.mk.injEq] at ran
      obtain ⟨rfl, rfl⟩ := ran
      exact ⟨unread.take length, (List.take_append_drop _ _).symm, rfl,
        List.length_take_of_le (Nat.le_of_not_lt short), Nat.le_of_not_lt large⟩

theorem takeInt (endOfStream : ε) (capacity width : Nat) :
    Consumes (Decoder.takeInt endOfStream capacity width) fun value consumed =>
      consumed = encodeLE width value := by
  refine .bind (.take endOfStream capacity width) fun image consumed taken => ?_
  obtain ⟨rfl, rfl, _⟩ := taken
  exact .pure _ (by rw [List.append_nil, encodeLE_decodeLE])

theorem times {decoder : Decoder ε α} {image : α → Bytes} {fits : α → Prop}
    (each : Consumes decoder fun value consumed => consumed = image value ∧ fits value)
    (count : Nat) :
    Consumes (decoder.times count) fun values consumed =>
      values.length = count ∧ consumed = values.flatMap image ∧ ∀ value ∈ values, fits value := by
  induction count with
  | zero => exact .pure [] (by simp)
  | succ count ih =>
    refine .bind each fun first consumed here => .bind ih fun later more there => .pure _ ?_
    obtain ⟨rfl, fit⟩ := here
    obtain ⟨rfl, rfl, fits⟩ := there
    simpa using ⟨fit, fits⟩

end Consumes

/-- In front of these bytes the decoder returns the value or an error; nothing aborts it. -/
def Settles (decoder : Decoder ε α) (image : Bytes) (value : α) : Prop :=
  ∀ rest, decoder.run (image ++ rest) = .ok (value, rest) ∨
    ∃ failure, decoder.run (image ++ rest) = .error failure

theorem Decodes.settles {decoder : Decoder ε α} {value : α} (decodes : Decodes decoder image fits value)
    (here : fits) : Settles decoder image value := fun rest => .inl (decodes.accepts here rest)

namespace Settles

theorem bind {decoder : Decoder ε α} {next : α → Decoder ε β} {value : α} {result : β}
    (first : Settles decoder image value) (second : Settles (next value) image' result) :
    Settles (decoder >>= next) (image ++ image') result := by
  intro rest
  rw [StateT.run_bind, List.append_assoc]
  rcases first (image' ++ rest) with here | ⟨failure, here⟩
  · rw [here]
    exact second rest
  · rw [here]
    exact .inr ⟨failure, rfl⟩

theorem map {decoder : Decoder ε α} {value : α} (settles : Settles decoder image value)
    (transform : α → β) :
    Settles (decoder >>= fun found => Pure.pure (transform found)) image (transform value) := by
  have composed : Settles (decoder >>= fun found => Pure.pure (transform found)) (image ++ [])
      (transform value) := settles.bind fun _ => .inl rfl
  simpa using composed

theorem check (bad : Prop) [Decidable bad] (failure : ε) {next : Decoder ε α} {value : α}
    (settles : Settles next image value) :
    Settles (if bad then fail failure else next) image value := by
  by_cases wrong : bad
  · rw [if_pos wrong]
    exact fun _ => .inr ⟨failure, rfl⟩
  · rw [if_neg wrong]
    exact settles

theorem times {decoder : Decoder ε β} (image : α → Bytes) (value : α → β) (items : List α)
    (each : ∀ item ∈ items, Settles decoder (image item) (value item)) :
    Settles (Decoder.times decoder items.length) (items.flatMap image) (items.map value) := by
  induction items with
  | nil => exact fun _ => .inl rfl
  | cons item rest ih =>
    have later := ih fun other member => each other (by simp [member])
    exact (each item (by simp)).bind (later.map (value item :: ·))

/-- Nor is it aborted where the bytes are cut off. -/
theorem avoids {endOfStream : ε} {decoder : Decoder ε α} {value : α}
    (settles : Settles decoder image value) (streams : Streams endOfStream decoder) {part : Bytes}
    (isPart : part <+: image) (reason : Panic) : (decoder.run part).Avoids reason := by
  obtain ⟨tail, rfl⟩ := isPart
  have whole := settles []
  rw [List.append_nil] at whole
  rcases streams part tail with short | same
  · rw [short]
    exact .error _
  · intro aborted
    rw [same, aborted] at whole
    rcases whole with found | ⟨failure, found⟩
    · cases found
    · cases found

end Settles

end Decoder

end Xrss.Zig
