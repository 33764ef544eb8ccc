import Xrss.Rss.ParseBuffer

/-! What the deferral of attempts is for: a token that stays incomplete over many buffers is not
scanned from its beginning with each of them. -/

namespace Xrss.Rss

open Zig Transition

variable {ξ : Type}

namespace RoundEvent

/-- How many bytes `m_processor` was called on. -/
def scanned (event : RoundEvent ξ) : Nat :=
  (event.output.toOption.bind Called.scanned).elim 0 List.length

/-- More may come, and nothing was parsed. -/
structure Waits (event : RoundEvent ξ) : Prop where
  goesOn : event.GoesOn
  more : event.input.read ≠ []
  unparsed : event.parsed = 0

/-- No attempt is made on more than what was pending and what the round has read. -/
theorem scanned_le_pending (xml : Processor ξ) {state : XmlState ξ} (valid : state.input.Valid)
    (input : Round) :
    scanned ((XmlState.machine xml).event state input) ≤ state.input.pending.length + input.read.length := by
  have idle {answer : Outcome BufferError (Called ξ)} (answered : state.round xml input = answer)
      (nothing : answer.toOption.bind Called.scanned = none) :
      scanned ((XmlState.machine xml).event state input) ≤
        state.input.pending.length + input.read.length := by
    simp only [scanned, Machine.event, XmlState.machine, answered, nothing, Option.elim_none, Nat.zero_le]
  rcases state.round_cases xml valid input with ⟨failed, _⟩ | ⟨failed, _⟩ | ⟨refilled, whole, answered⟩
  · exact idle failed rfl
  · exact idle failed rfl
  · have all : refilled.input.pending.length = state.input.pending.length + input.read.length := by
      rw [whole.pending, List.length_append]
    rcases refilled.attempt_cases xml (input.read.length = 0) with
      ⟨_, attempted⟩ | ⟨_, tokens, _, attempted⟩ | ⟨_, tokens, processor, endPtr, _, attempted⟩
    · rw [attempted, Called.close_next] at answered
      exact idle answered rfl
    · rw [attempted, Called.close_failed] at answered
      simp [scanned, Machine.event, XmlState.machine, answered, Outcome.toOption, all]
    · rw [attempted, Called.close_next] at answered
      simp [scanned, Machine.event, XmlState.machine, answered, Outcome.toOption, all]

instance (event : RoundEvent ξ) : Decidable (Waits event) :=
  decidable_of_iff (event.GoesOn ∧ event.input.read ≠ [] ∧ event.parsed = 0)
    ⟨fun ⟨goesOn, more, unparsed⟩ => ⟨goesOn, more, unparsed⟩,
      fun waits => ⟨waits.goesOn, waits.more, waits.unparsed⟩⟩

end RoundEvent

def scanned (past : List (RoundEvent ξ)) : Nat := (past.map RoundEvent.scanned).sum

/-- The attempts made while nothing was parsed, by their reasons: each one because there is much
more than before costs at most as much as it finds, and one because the block is full is
followed by a block twice as large. -/
structure Frugal (past : List (RoundEvent ξ)) (state : XmlState ξ) : Prop where
  valid : state.input.Valid
  deferral : state.reparseDeferralEnabled = true
  hadBefore : state.partialTokenBytesBefore ≤ state.input.pending.length
  cost : ∃ doubling forced, scanned past = doubling + forced ∧
    doubling ≤ 2 * state.partialTokenBytesBefore ∧
    forced ≤ 2 * (state.input.pending.length + spare) ∧
    (forced ≤ state.input.bufferLim ∨
      state.input.bufferLim < state.input.needed XML_BUFFER_LENGTH ∧ forced ≤ 2 * state.input.bufferLim)

theorem full_iff {state : XmlState ξ} (valid : state.input.Valid)
    (request : state.lastBufferRequestSize = XML_BUFFER_LENGTH) :
    state.lastBufferRequestSize > state.availableBuffer ↔
      state.input.bufferLim < state.input.needed XML_BUFFER_LENGTH := by
  have parsed := valid.parsed
  have held := valid.held
  rw [request, XmlState.availableBuffer, InputBuffer.needed, InputBuffer.keep]
  omega

namespace Frugal

theorem start {state : XmlState ξ} (valid : state.input.Valid)
    (deferral : state.reparseDeferralEnabled = true) (fresh : state.partialTokenBytesBefore = 0) :
    Frugal [] state :=
  ⟨valid, deferral, fresh ▸ Nat.zero_le _, 0, 0, rfl, Nat.zero_le _, Nat.zero_le _, .inl (Nat.zero_le _)⟩

/-- With the next bytes the block has room for all that the full ones have cost. -/
theorem refill {past : List (RoundEvent ξ)} {state refilled : XmlState ξ} {read : Bytes}
    (frugal : Frugal past state) (whole : state.Refilled read refilled) :
    ∃ doubling forced, scanned past = doubling + forced ∧
      doubling ≤ 2 * refilled.partialTokenBytesBefore ∧
      forced ≤ 2 * (refilled.input.pending.length + spare) ∧ forced ≤ refilled.input.bufferLim := by
  obtain ⟨doubling, forced, sum, growth, pending, room⟩ := frugal.cost
  have larger := whole.larger
  have length := congrArg List.length whole.pending
  rw [List.length_append] at length
  refine ⟨doubling, forced, sum, by rw [whole.hadBefore]; exact growth, by omega, ?_⟩
  rcases room with room | ⟨full, room⟩
  · exact room.trans larger
  · exact room.trans (whole.doubled full)

/-- An attempt that finds nothing complete, made for one of the two reasons. -/
theorem attempted {past : List (RoundEvent ξ)} {state refilled : XmlState ξ} {read : Bytes}
    (frugal : Frugal past state) (whole : state.Refilled read refilled) (enough : refilled.Enough) :
    ∃ doubling forced, scanned past + refilled.input.pending.length = doubling + forced ∧
      doubling ≤ 2 * refilled.input.pending.length ∧
      forced ≤ 2 * (refilled.input.pending.length + spare) ∧
      (forced ≤ refilled.input.bufferLim ∨
        refilled.input.bufferLim < refilled.input.needed XML_BUFFER_LENGTH ∧
          forced ≤ 2 * refilled.input.bufferLim) := by
  obtain ⟨doubling, forced, sum, growth, pending, room⟩ := frugal.refill whole
  have length := InputBuffer.length_pending whole.valid
  have held := whole.valid.held
  have before := frugal.hadBefore
  have later := congrArg List.length whole.pending
  rw [List.length_append] at later
  rw [whole.hadBefore] at growth
  rcases enough with more | full
  · rw [whole.hadBefore, XmlState.haveNow] at more
    exact ⟨doubling + refilled.input.pending.length, forced, by omega, by omega, pending, .inl room⟩
  · have full := (full_iff whole.valid whole.request).mp full
    have needed := needed_le whole.valid
    exact ⟨doubling, forced + refilled.input.pending.length, by omega, by omega, by omega,
      .inr ⟨full, by omega⟩⟩

theorem next {xml : Processor ξ} {past : List (RoundEvent ξ)} {state : XmlState ξ}
    (frugal : Frugal past state) {input : Round}
    (waits : RoundEvent.Waits ((XmlState.machine xml).event state input)) :
    Frugal (past ++ [(XmlState.machine xml).event state input])
      ((XmlState.machine xml).next state input) := by
  have filled : input.read ≠ [] := waits.more
  have more : decide (input.read.length = 0) = false := by simpa using filled
  obtain ⟨refilled, whole, happened⟩ := RoundEvent.goesOn_cases frugal.valid waits.goesOn
  have deferral : refilled.reparseDeferralEnabled = true := whole.deferral.trans frugal.deferral
  rw [more] at happened
  rcases happened with ⟨_, answered⟩ | ⟨through, callbacks, processor, endPtr, processed, answered⟩
  · have same : scanned (past ++ [(XmlState.machine xml).event state input]) = scanned past := by
      simp [scanned, RoundEvent.scanned, Machine.event, XmlState.machine, answered, Outcome.toOption]
    have later := congrArg List.length whole.pending
    rw [List.length_append] at later
    have before := frugal.hadBefore
    obtain ⟨doubling, forced, sum, growth, pending, room⟩ := frugal.refill whole
    rw [XmlState.next_of_answer answered rfl]
    refine ⟨whole.valid, deferral, ?_, doubling, forced, same.trans sum, growth, pending, .inl room⟩
    change refilled.partialTokenBytesBefore ≤ refilled.input.pending.length
    rw [whole.hadBefore]
    omega
  · have parsed := waits.unparsed
    obtain rfl : endPtr = 0 := by
      simpa [RoundEvent.parsed, Machine.event, XmlState.machine, answered, Outcome.toOption] using parsed
    have cost : scanned (past ++ [(XmlState.machine xml).event state input]) =
        scanned past + refilled.input.pending.length := by
      simp [scanned, RoundEvent.scanned, Machine.event, XmlState.machine, answered, Outcome.toOption]
    have enough : refilled.Enough := by
      by_contra less
      exact through ⟨deferral, rfl, less⟩
    have length := InputBuffer.length_pending whole.valid
    obtain ⟨doubling, forced, sum, growth, pending, room⟩ := frugal.attempted whole enough
    rw [XmlState.next_of_answer answered rfl]
    refine ⟨whole.valid, deferral, length.ge, doubling, forced, cost.trans sum, ?_, pending, room⟩
    change doubling ≤ 2 * refilled.haveNow
    rw [XmlState.haveNow, ← length]
    exact growth

end Frugal

/-- From where something was parsed last, as long as nothing more is: all attempts together scan
at most four times the bytes that are pending in the end, and some. The next attempt, which may be
the final one that is never deferred, adds at most what is pending then. -/
theorem scanned_le (xml : Processor ξ) (past later : List Round)
    (goesOn : ∀ event ∈ (XmlState.machine xml).history { processor := xml.create } past,
      RoundEvent.GoesOn event) :
    let start := (XmlState.machine xml).final { processor := xml.create } past
    let pending := ((XmlState.machine xml).final start later).input.pending.length
    start.partialTokenBytesBefore = 0 →
    (∀ event ∈ (XmlState.machine xml).history start later, RoundEvent.Waits event) →
    scanned ((XmlState.machine xml).history start later) ≤ 4 * pending + 2 * spare ∧
      ∀ input, scanned ((XmlState.machine xml).history start (later ++ [input])) ≤
        5 * pending + input.read.length + 2 * spare := by
  intro start pending fresh waits
  have tracks : Tracks _ start := .final goesOn
  have frugal : Frugal ((XmlState.machine xml).history start later) _ :=
    (XmlState.machine xml).history_induction RoundEvent.Waits Frugal
      (.start tracks.valid tracks.deferral fresh) (fun _ _ _ frugal waits => frugal.next waits) later waits
  obtain ⟨doubling, forced, sum, growth, room, _⟩ := frugal.cost
  have before := frugal.hadBefore
  have waiting : scanned ((XmlState.machine xml).history start later) ≤ 4 * pending + 2 * spare := by omega
  refine ⟨waiting, fun input => ?_⟩
  have last := RoundEvent.scanned_le_pending xml frugal.valid input
  have sum' : scanned ((XmlState.machine xml).history start (later ++ [input])) =
      scanned ((XmlState.machine xml).history start later) +
        RoundEvent.scanned
          ((XmlState.machine xml).event ((XmlState.machine xml).final start later) input) := by
    rw [Machine.history_snoc]
    simp [scanned]
  omega

theorem scanned_le_title :
    let pieces : List Round :=
      [{ malloc := {}, read := bytes "<rs", short := by decide +kernel },
        { malloc := {}, read := bytes "s v", short := by decide +kernel },
        { malloc := {}, read := bytes "ers", short := by decide +kernel },
        { malloc := {}, read := bytes "ion", short := by decide +kernel }]
    let last : Round := { malloc := {}, read := [], short := by decide }
    let machine := XmlState.machine titleScript.processor
    let pending := (machine.final { processor := titleScript } pieces).input.pending.length
    scanned (machine.history { processor := titleScript } (pieces ++ [last])) = 33 ∧
      scanned (machine.history { processor := titleScript } pieces) ≤ 4 * pending + 2 * spare ∧
      scanned (machine.history { processor := titleScript } (pieces ++ [last])) ≤
        5 * pending + 2 * spare := by
  intro pieces last machine pending
  obtain ⟨waiting, next⟩ :=
    scanned_le titleScript.processor [] pieces (by decide) rfl (by decide +kernel)
  exact ⟨by decide +kernel, waiting, next last⟩

end Xrss.Rss
