import Xrss.Rss.InputBuffer
import Xrss.Transition.History

/-! `XML_ParseBuffer` over the input buffer, with the deferral of attempts on a token that is not
complete, and the rounds of `Client.parse`. -/

namespace Xrss.Rss

open Zig Transition

variable {ε ξ : Type}

/-- `m_processor`, all its re-entries in one call. It is given the bytes there are and whether more
may come, and answers with the tokens it found and how many bytes it is through with. No next state
is an error. -/
structure Processor (ξ : Type) where
  create : ξ
  process : ξ → Bytes → Bool → List Token × Option (ξ × Nat)
  endPtr_le {state next : ξ} {bytes : Bytes} {isFinal : Bool} {tokens : List Token}
    {endPtr : Nat} (processed : process state bytes isFinal = (tokens, some (next, endPtr))) :
    endPtr ≤ bytes.length

inductive Parsing where
  | initialized
  | parsing
  | finished
  deriving Repr, DecidableEq

/-- What `XML_ParserStruct` holds of all this. -/
structure XmlState (ξ : Type) where
  processor : ξ
  input : InputBuffer := {}
  parsing : Parsing := .initialized
  partialTokenBytesBefore : Nat := 0
  reparseDeferralEnabled : Bool := true
  lastBufferRequestSize : Nat := 0

/-- What comes of `XML_ParseBuffer`: the bytes `m_processor` was called on, if it was, how many of
them it is through with, the tokens it found, and the next state; none is `XML_STATUS_ERROR`. -/
structure Called (ξ : Type) where
  scanned : Option Bytes := none
  parsed : Nat := 0
  tokens : List Token := []
  next : Option (XmlState ξ) := none

/-- After the last buffer nothing more is taken. -/
def Called.close (self : Called ξ) (isFinal : Bool) : Called ξ :=
  if isFinal then { self with next := self.next.map fun next => { next with parsing := .finished } }
  else self

theorem Called.close_failed (scanned : Option Bytes) (tokens : List Token) (isFinal : Bool) :
    ({ scanned, tokens } : Called ξ).close isFinal = { scanned, tokens } := by
  cases isFinal <;> rfl

theorem Called.close_next (scanned : Option Bytes) (parsed : Nat) (tokens : List Token)
    (next : XmlState ξ) (isFinal : Bool) :
    (⟨scanned, parsed, tokens, some next⟩ : Called ξ).close isFinal = ⟨scanned, parsed, tokens,
      some { next with parsing := if isFinal then .finished else next.parsing }⟩ := by
  cases isFinal <;> rfl

namespace XmlState

def getBuffer (malloc : Malloc) (self : XmlState ξ) (len : Nat) : Outcome BufferError (XmlState ξ) :=
  if self.parsing = .finished then .error .finished
  else do
    let input ← self.input.getBuffer malloc len
    pure { self with input, lastBufferRequestSize := len }

def haveNow (self : XmlState ξ) : Nat := self.input.bufferEnd - self.input.bufferPtr

/-- What the block can still take before it has to be replaced. -/
def availableBuffer (self : XmlState ξ) : Nat :=
  self.input.bufferPtr - min self.input.bufferPtr XML_CONTEXT_BYTES +
    (self.input.bufferLim - self.input.bufferEnd)

/-- There is much more than in the last attempt, or the next bytes may need a larger block. -/
def Enough (self : XmlState ξ) : Prop :=
  self.haveNow ≥ 2 * self.partialTokenBytesBefore ∨ self.lastBufferRequestSize > self.availableBuffer

instance (self : XmlState ξ) : Decidable self.Enough :=
  inferInstanceAs (Decidable (_ ∨ _))

/-- The attempt is left for later. -/
def Defers (self : XmlState ξ) (isFinal : Bool) : Prop :=
  self.reparseDeferralEnabled ∧ isFinal = false ∧ ¬ self.Enough

instance (self : XmlState ξ) (isFinal : Bool) : Decidable (self.Defers isFinal) :=
  inferInstanceAs (Decidable (_ ∧ _ ∧ _))

/-- The state after `m_processor` is through with some of the bytes. -/
def advance (self : XmlState ξ) (processor : ξ) (endPtr : Nat) : XmlState ξ :=
  { self with
    processor
    input := { self.input with bufferPtr := self.input.bufferPtr + endPtr }
    partialTokenBytesBefore := if endPtr = 0 then self.haveNow else 0 }

def callProcessor (xml : Processor ξ) (self : XmlState ξ) (isFinal : Bool) : Outcome ε (Called ξ) :=
  if self.Defers isFinal then pure { next := some self }
  else do
    let scanned ← slice (self.input.buffer.getD []) self.input.bufferPtr self.input.bufferEnd
    match xml.process self.processor scanned isFinal with
    | (tokens, none) => pure { scanned := some scanned, tokens }
    | (tokens, some (processor, endPtr)) =>
      pure ⟨some scanned, endPtr, tokens, some (self.advance processor endPtr)⟩

def parseBuffer (xml : Processor ξ) (self : XmlState ξ) (len : Nat) (isFinal : Bool) :
    Outcome ε (Called ξ) :=
  if self.parsing = .finished ∨ self.parsing = .initialized ∧ self.input.buffer = none then pure {}
  else do
    let input := { self.input with bufferEnd := self.input.bufferEnd + len }
    let called ← callProcessor xml { self with input, parsing := .parsing } isFinal
    pure (called.close isFinal)

end XmlState

/-- What one round of the loop is given: how an allocation will be answered, and what the body
reader fills the buffer with. -/
structure Round where
  malloc : Malloc
  read : Bytes
  short : read.length ≤ XML_BUFFER_LENGTH

/-- Where the parser stands after the round, if it goes on. -/
def Round.parsing (self : Round) : Parsing := if self.read.length = 0 then .finished else .parsing

namespace XmlState

/-- One round of the loop of `Client.parse`. -/
def round (xml : Processor ξ) (self : XmlState ξ) (input : Round) : Outcome BufferError (Called ξ) := do
  let self ← self.getBuffer input.malloc XML_BUFFER_LENGTH
  let filled ← self.input.fill input.read
  parseBuffer xml { self with input := filled } input.read.length (input.read.length = 0)

/-- The rounds of a parser; one that fails is the last one. -/
def machine (xml : Processor ξ) : Machine (XmlState ξ) Round (Outcome BufferError (Called ξ)) where
  answer := round xml
  next self input := ((round xml self input).toOption.bind Called.next).getD self

theorem next_of_answer {xml : Processor ξ} {state next : XmlState ξ} {input : Round} {called : Called ξ}
    (answered : state.round xml input = .ok called) (goesOn : called.next = some next) :
    (machine xml).next state input = next := by
  simp [machine, answered, Outcome.toOption, goesOn]

/-- What lies between `XML_GetBuffer` and `m_processor`: the bytes that were read are there. -/
structure Refilled (before : XmlState ξ) (read : Bytes) (after : XmlState ξ) : Prop where
  valid : after.input.Valid
  allocated : after.input.buffer ≠ none
  pending : after.input.pending = before.input.pending ++ read
  processor : after.processor = before.processor
  parsing : after.parsing = .parsing
  hadBefore : after.partialTokenBytesBefore = before.partialTokenBytesBefore
  deferral : after.reparseDeferralEnabled = before.reparseDeferralEnabled
  request : after.lastBufferRequestSize = XML_BUFFER_LENGTH
  larger : before.input.bufferLim ≤ after.input.bufferLim
  doubled : before.input.bufferLim < before.input.needed XML_BUFFER_LENGTH →
    2 * before.input.bufferLim ≤ after.input.bufferLim
  bounded : after.input.bufferLim ≤ max before.input.bufferLim
    (max (2 * INIT_BUFFER_SIZE) (2 * before.input.needed XML_BUFFER_LENGTH))

/-- An attempt, by what is pending. -/
def attempt (xml : Processor ξ) (self : XmlState ξ) (isFinal : Bool) : Called ξ :=
  if self.Defers isFinal then { next := some self }
  else
    match xml.process self.processor self.input.pending isFinal with
    | (tokens, none) => { scanned := some self.input.pending, tokens }
    | (tokens, some (processor, endPtr)) =>
      ⟨some self.input.pending, endPtr, tokens, some (self.advance processor endPtr)⟩

theorem callProcessor_eq (xml : Processor ξ) {state : XmlState ξ} (valid : state.input.Valid)
    (allocated : state.input.buffer ≠ none) (isFinal : Bool) :
    (callProcessor xml state isFinal : Outcome ε (Called ξ)) = .ok (state.attempt xml isFinal) := by
  obtain ⟨memory, same⟩ := Option.ne_none_iff_exists'.mp allocated
  have inside : state.input.bufferEnd ≤ memory.length := by
    simpa [InputBuffer.bufferLim, same] using valid.held
  have pending : state.input.pending = window memory state.input.bufferPtr state.input.bufferEnd := by
    rw [InputBuffer.pending, same, Option.elim_some]
  rw [callProcessor, attempt, same, Option.getD_some, slice_eq_window valid.parsed inside, ← pending]
  by_cases deferred : state.Defers isFinal
  · rw [if_pos deferred, if_pos deferred]
    rfl
  · rw [if_neg deferred, if_neg deferred, Outcome.ok_bind]
    split <;> rfl

/-- `m_bufferEnd` after `len` more bytes. -/
def extend (self : XmlState ξ) (len : Nat) : XmlState ξ :=
  { self with input := { self.input with bufferEnd := self.input.bufferEnd + len }, parsing := .parsing }

theorem parseBuffer_eq (xml : Processor ξ) (state : XmlState ξ) {len : Nat}
    (unfinished : state.parsing ≠ .finished) (allocated : state.input.buffer ≠ none)
    (valid : (state.extend len).input.Valid) (isFinal : Bool) :
    (parseBuffer xml state len isFinal : Outcome ε (Called ξ)) =
      .ok (((state.extend len).attempt xml isFinal).close isFinal) := by
  have called := callProcessor_eq (ε := ε) xml valid allocated isFinal
  have started : ¬ (state.parsing = .finished ∨ state.parsing = .initialized ∧ state.input.buffer = none) := by
    rintro (finished | ⟨_, none⟩)
    · exact unfinished finished
    · exact allocated none
  rw [extend] at called
  rw [parseBuffer, if_neg started]
  simp only [called, Outcome.ok_bind, extend]
  rfl

/-- What a round does: it finds the parser finished, it gets no buffer, or it makes an attempt on
what was pending and what it has read. -/
theorem round_cases (xml : Processor ξ) {state : XmlState ξ} (valid : state.input.Valid)
    (input : Round) :
    (round xml state input = .error .finished ∧ state.parsing = .finished) ∨
    (round xml state input = .error .noMemory ∧ state.input.Starved input.malloc XML_BUFFER_LENGTH) ∨
    ∃ refilled, Refilled state input.read refilled ∧
      round xml state input =
        .ok ((refilled.attempt xml (input.read.length = 0)).close (input.read.length = 0)) := by
  rw [round, getBuffer]
  by_cases finished : state.parsing = .finished
  · exact .inl ⟨by rw [if_pos finished]; rfl, finished⟩
  · rw [if_neg finished]
    refine .inr ?_
    have size : 0 < XML_BUFFER_LENGTH ∧ XML_BUFFER_LENGTH < 2 ^ 31 := by decide
    rcases InputBuffer.getBuffer_cases valid input.malloc size.1 size.2 with
      ⟨starved, failed⟩ | ⟨_, next, succeeded, refit⟩
    · exact .inl ⟨by rw [failed]; rfl, starved⟩
    · have short := input.short
      have room := refit.room
      have fits : next.bufferEnd + input.read.length ≤ next.bufferLim := by omega
      obtain ⟨memory, filled, length, pending⟩ :=
        InputBuffer.fill_eq_ok (ε := BufferError) refit.valid refit.allocated fits
      let placed : XmlState ξ :=
        { state with
          input := { next with buffer := some memory }
          lastBufferRequestSize := XML_BUFFER_LENGTH }
      have lim : (placed.extend input.read.length).input.bufferLim = next.bufferLim := length
      have valid' : (placed.extend input.read.length).input.Valid := by
        refine ⟨Nat.le_add_right_of_le refit.valid.parsed, fits.trans_eq lim.symm, .inr ?_⟩
        rw [lim]
        exact refit.valid.size.resolve_left refit.allocated
      refine .inr ⟨placed.extend input.read.length, ?_, ?_⟩
      · refine ⟨valid', nofun, ?_, rfl, rfl, rfl, rfl, rfl, ?_, ?_, lim.trans_le refit.bounded⟩
        · rw [← refit.pending]
          exact pending
        · exact refit.larger.trans_eq lim.symm
        · exact fun short => (refit.doubled short).trans_eq lim.symm
      · have parsed := parseBuffer_eq (ε := BufferError) xml placed finished nofun valid'
          (decide (input.read.length = 0))
        simp only [succeeded, Outcome.ok_bind, filled, Outcome.pure_eq_ok]
        exact parsed

/-- What an attempt comes to: it is deferred, it fails, or it gets through some of the bytes. -/
theorem attempt_cases (xml : Processor ξ) (state : XmlState ξ) (isFinal : Bool) :
    (state.Defers isFinal ∧ state.attempt xml isFinal = { next := some state }) ∨
    (¬ state.Defers isFinal ∧ ∃ tokens,
      xml.process state.processor state.input.pending isFinal = (tokens, none) ∧
      state.attempt xml isFinal = { scanned := some state.input.pending, tokens }) ∨
    (¬ state.Defers isFinal ∧ ∃ tokens processor endPtr,
      xml.process state.processor state.input.pending isFinal = (tokens, some (processor, endPtr)) ∧
      state.attempt xml isFinal =
        ⟨some state.input.pending, endPtr, tokens, some (state.advance processor endPtr)⟩) := by
  by_cases deferred : state.Defers isFinal
  · exact .inl ⟨deferred, if_pos deferred⟩
  · refine .inr ?_
    rw [attempt, if_neg deferred]
    rcases processed : xml.process state.processor state.input.pending isFinal with ⟨tokens, result⟩
    cases result with
    | none => exact .inl ⟨deferred, tokens, rfl, rfl⟩
    | some result => exact .inr ⟨deferred, tokens, result.1, result.2, rfl, rfl⟩

theorem pending_advance (state : XmlState ξ) (processor : ξ) (endPtr : Nat) :
    (state.advance processor endPtr).input.pending = state.input.pending.drop endPtr := by
  cases same : state.input.buffer with
  | none => simp [InputBuffer.pending, advance, same]
  | some memory => simp [InputBuffer.pending, advance, same, drop_window]

theorem valid_advance {state : XmlState ξ} (valid : state.input.Valid) (processor : ξ) {endPtr : Nat}
    (parsed : endPtr ≤ state.input.pending.length) : (state.advance processor endPtr).input.Valid := by
  have length := InputBuffer.length_pending valid
  have ordered := valid.parsed
  have next : state.input.bufferPtr + endPtr ≤ state.input.bufferEnd := by omega
  exact ⟨next, valid.held, valid.size⟩

end XmlState

/-- What a round may need in the block besides what is pending. -/
def spare : Nat := XML_BUFFER_LENGTH + XML_CONTEXT_BYTES

theorem needed_le {input : InputBuffer} (valid : input.Valid) :
    input.needed XML_BUFFER_LENGTH ≤ input.pending.length + spare := by
  have context : input.keep ≤ XML_CONTEXT_BYTES := Nat.min_le_right _ _
  rw [InputBuffer.needed, InputBuffer.length_pending valid, spare]
  omega

/-- One round of a run. -/
abbrev RoundEvent (ξ : Type) := Event (XmlState ξ) Round (Outcome BufferError (Called ξ))

namespace RoundEvent

/-- The round came to its end without an error. -/
def GoesOn (event : RoundEvent ξ) : Prop := (event.output.toOption.bind Called.next).isSome

instance (event : RoundEvent ξ) : Decidable (GoesOn event) :=
  inferInstanceAs (Decidable (_ = true))

def parsed (event : RoundEvent ξ) : Nat := (event.output.toOption.map Called.parsed).getD 0

theorem goesOn_cases {xml : Processor ξ} {state : XmlState ξ} (valid : state.input.Valid) {input : Round}
    (goesOn : GoesOn ((XmlState.machine xml).event state input)) :
    ∃ refilled, state.Refilled input.read refilled ∧
      ((refilled.Defers (input.read.length = 0) ∧
        state.round xml input = .ok { next := some { refilled with parsing := input.parsing } }) ∨
      (¬ refilled.Defers (input.read.length = 0) ∧ ∃ tokens processor endPtr,
        xml.process refilled.processor refilled.input.pending (input.read.length = 0) =
          (tokens, some (processor, endPtr)) ∧
        state.round xml input = .ok ⟨some refilled.input.pending, endPtr, tokens,
          some { refilled.advance processor endPtr with parsing := input.parsing }⟩)) := by
  obtain ⟨next, same⟩ := Option.isSome_iff_exists.mp goesOn
  obtain ⟨called, output, same⟩ := Option.bind_eq_some_iff.mp same
  replace output : state.round xml input = .ok called := Outcome.toOption_eq_some.mp output
  rcases state.round_cases xml valid input with ⟨failed, _⟩ | ⟨failed, _⟩ | ⟨refilled, whole, answered⟩
  · rw [failed] at output
    cases output
  · rw [failed] at output
    cases output
  · have status : (if decide (input.read.length = 0) then .finished else refilled.parsing) =
        input.parsing := by
      simp [Round.parsing, whole.parsing]
    refine ⟨refilled, whole, ?_⟩
    rcases refilled.attempt_cases xml (input.read.length = 0) with
      ⟨deferred, attempted⟩ | ⟨_, tokens, _, attempted⟩ |
        ⟨through, tokens, processor, endPtr, processed, attempted⟩
    · rw [attempted, Called.close_next, status] at answered
      exact .inl ⟨deferred, answered⟩
    · rw [answered, attempted, Called.close_failed] at output
      cases output
      cases same
    · have advanced : (refilled.advance processor endPtr).parsing = refilled.parsing := rfl
      rw [attempted, Called.close_next, advanced, status] at answered
      exact .inr ⟨through, tokens, processor, endPtr, processed, answered⟩

end RoundEvent

/-- All that was read so far. -/
def reads (past : List (RoundEvent ξ)) : Bytes := past.flatMap fun event => event.input.read

/-- How much of it was parsed. -/
def parsed (past : List (RoundEvent ξ)) : Nat := (past.map RoundEvent.parsed).sum

/-- The buffer holds what was read and not parsed. -/
structure Tracks (past : List (RoundEvent ξ)) (state : XmlState ξ) : Prop where
  valid : state.input.Valid
  parsed : parsed past ≤ (reads past).length
  pending : state.input.pending = (reads past).drop (Rss.parsed past)
  deferral : state.reparseDeferralEnabled = true
  finished : state.parsing = .finished → ∃ event ∈ past, event.input.read = []

namespace Tracks

theorem start (xml : Processor ξ) : Tracks [] { processor := xml.create } where
  valid := ⟨Nat.le_refl 0, Nat.le_refl 0, .inl rfl⟩
  parsed := Nat.le_refl 0
  pending := rfl
  deferral := rfl
  finished := nofun

theorem waiting {past : List (RoundEvent ξ)} {state refilled : XmlState ξ} {read : Bytes}
    (tracks : Tracks past state) (whole : state.Refilled read refilled) :
    refilled.input.pending = (reads past ++ read).drop (Rss.parsed past) := by
  rw [whole.pending, tracks.pending, List.drop_append_of_le_length tracks.parsed]

theorem step {xml : Processor ξ} {past : List (RoundEvent ξ)} {state after : XmlState ξ}
    (tracks : Tracks past state) {input : Round} {refilled : XmlState ξ}
    (whole : state.Refilled input.read refilled) {called : Called ξ}
    (answered : state.round xml input = .ok called) (valid : after.input.Valid)
    (inside : called.parsed ≤ refilled.input.pending.length)
    (pending : after.input.pending = refilled.input.pending.drop called.parsed)
    (kept : after.reparseDeferralEnabled = refilled.reparseDeferralEnabled)
    (status : after.parsing = input.parsing) :
    Tracks (past ++ [(XmlState.machine xml).event state input]) after := by
  have read : reads (past ++ [(XmlState.machine xml).event state input]) = reads past ++ input.read := by
    simp [reads, Machine.event]
  have taken : Rss.parsed (past ++ [(XmlState.machine xml).event state input]) =
      Rss.parsed past + called.parsed := by
    simp [Rss.parsed, RoundEvent.parsed, Machine.event, XmlState.machine, answered, Outcome.toOption]
  have waiting := tracks.waiting whole
  have parsed := tracks.parsed
  refine ⟨valid, ?_, ?_, by rw [kept, whole.deferral, tracks.deferral], fun finished => ?_⟩
  · rw [waiting, List.length_drop, List.length_append] at inside
    rw [read, taken, List.length_append]
    omega
  · rw [pending, waiting, read, taken, List.drop_drop]
  · have last : input.read = [] := by simpa [status, Round.parsing] using finished
    exact ⟨(XmlState.machine xml).event state input, by simp, last⟩

theorem next {xml : Processor ξ} {past : List (RoundEvent ξ)} {state : XmlState ξ}
    (tracks : Tracks past state) {input : Round}
    (goesOn : RoundEvent.GoesOn ((XmlState.machine xml).event state input)) :
    Tracks (past ++ [(XmlState.machine xml).event state input])
      ((XmlState.machine xml).next state input) := by
  obtain ⟨refilled, whole, ⟨_, answered⟩ | ⟨_, tokens, processor, endPtr, processed, answered⟩⟩ :=
    RoundEvent.goesOn_cases tracks.valid goesOn
  · rw [XmlState.next_of_answer answered rfl]
    exact tracks.step whole answered whole.valid (Nat.zero_le _) rfl rfl rfl
  · have inside := xml.endPtr_le processed
    rw [XmlState.next_of_answer answered rfl]
    exact tracks.step whole answered (XmlState.valid_advance whole.valid processor inside) inside
      (refilled.pending_advance processor endPtr) rfl rfl

theorem final {xml : Processor ξ} {inputs : List Round}
    (goesOn : ∀ event ∈ (XmlState.machine xml).history { processor := xml.create } inputs,
      RoundEvent.GoesOn event) :
    Tracks ((XmlState.machine xml).history { processor := xml.create } inputs)
      ((XmlState.machine xml).final { processor := xml.create } inputs) :=
  (XmlState.machine xml).history_induction RoundEvent.GoesOn Tracks (.start xml)
    (fun _ _ _ tracks goesOn => tracks.next goesOn) inputs goesOn

end Tracks

theorem reads_history (xml : Processor ξ) (state : XmlState ξ) (inputs : List Round) :
    reads ((XmlState.machine xml).history state inputs) = inputs.flatMap Round.read := by
  induction inputs generalizing state with
  | nil => rfl
  | cons input rest ih =>
    rw [Machine.history, reads, List.flatMap_cons, ← reads, ih, List.flatMap_cons]
    rfl

namespace Script

/-- The part whose tokens are complete. -/
def complete (script : Script) : Script := script.rdropWhile fun entry => entry.2.isNone

/-- A tokenizer that knows a single document: it reports the tokens that are complete and waits for
the rest of the one that is not. -/
def processor (script : Script) : Processor Script where
  create := script
  process later bytes isFinal :=
    let part := complete (later.take bytes.length)
    if data (later.take bytes.length) = bytes ∧ (isFinal → part.length = later.length) then
      (tokens part, some (later.drop part.length, part.length))
    else ([], none)
  endPtr_le := by
    intro later next bytes isFinal found endPtr processed
    have short := (List.rdropWhile_prefix (fun entry : UInt8 × Option Parse.Event => entry.2.isNone)
      (later.take bytes.length)).length_le
    dsimp only at processed
    split at processed
    · cases processed
      exact short.trans (List.length_take_le _ _)
    · cases processed

end Script

/-- After any rounds that went on, whatever the next one reads: nothing is written or read outside
of a block, `m_processor` is called on exactly the bytes that were read and not parsed, and a
buffer is missing only where no block can be had, or after the final buffer. -/
theorem scans_unparsed (xml : Processor ξ) (inputs : List Round)
    (goesOn : ∀ event ∈ (XmlState.machine xml).history { processor := xml.create } inputs,
      RoundEvent.GoesOn event) (input : Round) :
    let data := inputs.flatMap Round.read
    let done := parsed ((XmlState.machine xml).history { processor := xml.create } inputs)
    let state := (XmlState.machine xml).final { processor := xml.create } inputs
    (∀ reason, state.round xml input ≠ .panic reason) ∧
    (∀ called, state.round xml input = .ok called →
      ∀ scanned ∈ called.scanned, scanned = (data ++ input.read).drop done) ∧
    (state.round xml input = .error .noMemory → input.malloc.grants = false ∨
      2 ^ 30 < data.length - done + spare) ∧
    (state.round xml input = .error .finished → ∃ earlier ∈ inputs, earlier.read = []) := by
  intro data done state
  have tracks := Tracks.final goesOn
  have same : reads _ = data := reads_history xml { processor := xml.create } inputs
  rcases state.round_cases xml tracks.valid input with
    ⟨failed, finished⟩ | ⟨failed, starved⟩ | ⟨refilled, whole, answered⟩
  · rw [failed]
    refine ⟨nofun, nofun, nofun, fun _ => ?_⟩
    obtain ⟨event, member, last⟩ := tracks.finished finished
    obtain ⟨before, earlier, after, rfl, rfl⟩ := (XmlState.machine xml).mem_history member
    exact ⟨earlier, by simp, last⟩
  · rw [failed]
    refine ⟨nofun, nofun, fun _ => starved.2.imp_right fun beyond => ?_, nofun⟩
    have needed := needed_le tracks.valid
    rw [tracks.pending, same, List.length_drop] at needed
    exact beyond.trans_le needed
  · rw [answered]
    refine ⟨nofun, fun called output scanned member => ?_, nofun, nofun⟩
    have waiting := tracks.waiting whole
    rw [same] at waiting
    rw [← waiting]
    rcases refilled.attempt_cases xml (input.read.length = 0) with
      ⟨_, attempted⟩ | ⟨_, tokens, _, attempted⟩ | ⟨_, tokens, processor, endPtr, _, attempted⟩
    · rw [attempted, Called.close_next] at output
      cases output
      cases member
    · rw [attempted, Called.close_failed] at output
      cases output
      exact (Option.some.inj member).symm
    · rw [attempted, Called.close_next] at output
      cases output
      exact (Option.some.inj member).symm

theorem scans_unparsed_title :
    let inputs : List Round := [{ malloc := {}, read := titleScript.data.take 30, short := by decide }]
    let input : Round := { malloc := {}, read := titleScript.data.drop 30, short := by decide +kernel }
    let done := parsed ((XmlState.machine titleScript.processor).history { processor := titleScript } inputs)
    let state := (XmlState.machine titleScript.processor).final { processor := titleScript } inputs
    done = 28 ∧
    (∀ reason, state.round titleScript.processor input ≠ .panic reason) ∧
    (∀ called, state.round titleScript.processor input = .ok called → ∀ scanned ∈ called.scanned,
      scanned = (inputs.flatMap Round.read ++ input.read).drop done) ∧
    (state.round titleScript.processor input = .error .noMemory → input.malloc.grants = false ∨
      2 ^ 30 < (inputs.flatMap Round.read).length - done + spare) ∧
    (state.round titleScript.processor input = .error .finished →
      ∃ earlier ∈ inputs, earlier.read = []) := by
  intro inputs input done state
  refine ⟨by decide +kernel, ?_⟩
  exact scans_unparsed titleScript.processor inputs (by decide +kernel) input

/-- The block grows with what has to be kept for one attempt, not with all that is read; so does
the one that is made in a round that fails later. -/
theorem block_le (xml : Processor ξ) (longest : Nat) (inputs : List Round)
    (kept : ∀ event ∈ (XmlState.machine xml).history { processor := xml.create } inputs,
      RoundEvent.GoesOn event ∧ event.before.input.pending.length ≤ longest) :
    let state := (XmlState.machine xml).final { processor := xml.create } inputs
    let bound := max (2 * INIT_BUFFER_SIZE) (2 * (longest + spare))
    state.input.bufferLim ≤ bound ∧
      ∀ malloc next, state.getBuffer malloc XML_BUFFER_LENGTH = .ok next →
        state.input.pending.length ≤ longest → next.input.bufferLim ≤ bound := by
  intro state bound
  have start := Tracks.start xml
  have run : Tracks ((XmlState.machine xml).history { processor := xml.create } inputs) state ∧
      state.input.bufferLim ≤ bound := by
    refine (XmlState.machine xml).history_induction
      (fun event => RoundEvent.GoesOn event ∧ event.before.input.pending.length ≤ longest)
      (fun past state => Tracks past state ∧ state.input.bufferLim ≤ bound)
      ⟨start, Nat.zero_le _⟩ ?_ inputs kept
    rintro past state input ⟨tracks, small⟩ ⟨goesOn, short⟩
    refine ⟨tracks.next goesOn, ?_⟩
    have needed := needed_le tracks.valid
    replace short : state.input.pending.length ≤ longest := short
    obtain ⟨refilled, whole, ⟨_, answered⟩ | ⟨_, tokens, processor, endPtr, _, answered⟩⟩ :=
      RoundEvent.goesOn_cases tracks.valid goesOn
    all_goals
      have bounded := whole.bounded
      rw [XmlState.next_of_answer answered rfl]
      change refilled.input.bufferLim ≤ _
      omega
  obtain ⟨tracks, small⟩ := run
  refine ⟨small, fun malloc next got short => ?_⟩
  have needed := needed_le tracks.valid
  have size : 0 < XML_BUFFER_LENGTH ∧ XML_BUFFER_LENGTH < 2 ^ 31 := by decide
  rw [XmlState.getBuffer] at got
  split at got
  · cases got
  · rcases InputBuffer.getBuffer_cases tracks.valid malloc size.1 size.2 with
      ⟨_, failed⟩ | ⟨_, block, succeeded, refit⟩
    · rw [failed] at got
      cases got
    · rw [succeeded] at got
      cases got
      have bounded := refit.bounded
      change block.bufferLim ≤ bound
      omega

theorem block_le_title :
    let pieces : List Round :=
      [{ malloc := {}, read := titleScript.data.take 30, short := by decide +kernel },
        { malloc := {}, read := titleScript.data.drop 30, short := by decide +kernel }]
    let state := (XmlState.machine titleScript.processor).final { processor := titleScript } pieces
    let bound := max (2 * INIT_BUFFER_SIZE) (2 * (2 + spare))
    state.input.bufferLim ≤ bound ∧
      ∀ malloc next, state.getBuffer malloc XML_BUFFER_LENGTH = .ok next → next.input.bufferLim ≤ bound := by
  intro pieces state bound
  obtain ⟨block, later⟩ := block_le titleScript.processor 2 pieces (by decide +kernel)
  exact ⟨block, fun malloc next got => later malloc next got (by decide +kernel)⟩

end Xrss.Rss
