import Xrss.Rss.ParseBuffer

namespace Xrss.Rss

open Zig Config Transition

variable {ξ : Type}

/-- The loop of `Client.parse`; the allocations are answered round by round. -/
def Client.parseRounds (debug : Bool) (xml : Processor ξ) (mallocs : Nat → Malloc) (index : Nat)
    (state : XmlState ξ) (self : Parse) (names : Names) (data : Bytes) : Outcome LoopError Parse := do
  let read := data.take XML_BUFFER_LENGTH
  let called ← (state.round xml ⟨mallocs index, read, List.length_take_le _ _⟩).mapError
    fun _ => .xmlBufferFailed
  let (self, names) ← self.follow debug names called.tokens
  match called.next with
  | none => .error (.client .xmlParsingError)
  | some next =>
    if read.length = 0 then
      if self.state = .err then .error (.client .rssParsingError) else .ok self
    else parseRounds debug xml mallocs (index + 1) next self names (data.drop XML_BUFFER_LENGTH)
termination_by data.length
decreasing_by
  have filled : ¬ (data.take XML_BUFFER_LENGTH).length = 0 := by assumption
  simp only [List.length_take, List.length_drop, XML_BUFFER_LENGTH] at filled ⊢
  omega

namespace Processor

/-- What is left for later comes to the same with the bytes after it as all of them at once, if
the first two bytes, which tell the encoding, were there or no bytes come any more. -/
structure Resumes (xml : Processor ξ) : Prop where
  resumed {state next : ξ} {bytes : Bytes} {tokens : List Token} {endPtr : Nat}
    (processed : xml.process state bytes false = (tokens, some (next, endPtr)))
    (later : Bytes) (isFinal : Bool) (told : 2 ≤ bytes.length ∨ later = []) :
    (xml.process state (bytes ++ later) isFinal).2.isSome =
        (xml.process next (bytes.drop endPtr ++ later) isFinal).2.isSome ∧
      ((xml.process state (bytes ++ later) isFinal).2.isSome →
        Token.report (xml.process state (bytes ++ later) isFinal).1 =
          Token.report (tokens ++ (xml.process next (bytes.drop endPtr ++ later) isFinal).1))
  refused {state : ξ} {bytes : Bytes} {tokens : List Token}
    (failed : xml.process state bytes false = (tokens, none)) (later : Bytes) (isFinal : Bool)
    (told : 2 ≤ bytes.length ∨ later = []) :
    (xml.process state (bytes ++ later) isFinal).2 = none

/-- Given the data in one piece, it reports the body. -/
structure Reads (xml : Processor ξ) (data : Bytes) (body : Body) : Prop where
  verdict : (xml.process xml.create data true).2.isSome = body.isTree
  events : body.isTree → Token.report (xml.process xml.create data true).1 = Parse.events body.callbacks

end Processor

namespace Client

/-- What the next round of the loop is given. -/
def nextRound (mallocs : Nat → Malloc) (index : Nat) (data : Bytes) : Round :=
  ⟨mallocs index, data.take XML_BUFFER_LENGTH, List.length_take_le _ _⟩

/-- What all rounds of the loop are given, the final empty one with them. -/
def roundInputs (mallocs : Nat → Malloc) (index : Nat) (data : Bytes) : List Round :=
  if data = [] then [nextRound mallocs index data]
  else nextRound mallocs index data :: roundInputs mallocs (index + 1) (data.drop XML_BUFFER_LENGTH)
termination_by data.length
decreasing_by
  have filled : data.length ≠ 0 := by simpa using ‹¬ data = []›
  simp only [List.length_drop, XML_BUFFER_LENGTH]
  omega

/-- All tokens of the rounds, up to the first that fails, and how they end. -/
def rounds (xml : Processor ξ) (mallocs : Nat → Malloc) (index : Nat) (state : XmlState ξ) (data : Bytes) :
    List Token × Outcome LoopError Unit :=
  match state.round xml (nextRound mallocs index data) with
  | .error _ => ([], .error .xmlBufferFailed)
  | .panic reason => ([], .panic reason)
  | .ok called =>
    match called.next with
    | none => (called.tokens, .error (.client .xmlParsingError))
    | some next =>
      if data = [] then (called.tokens, .ok ())
      else
        let later := rounds xml mallocs (index + 1) next (data.drop XML_BUFFER_LENGTH)
        (called.tokens ++ later.1, later.2)
termination_by data.length
decreasing_by
  have filled : data.length ≠ 0 := by simpa using ‹¬ data = []›
  simp only [List.length_drop, XML_BUFFER_LENGTH]
  omega

theorem told (pending data : Bytes) :
    2 ≤ (pending ++ data.take XML_BUFFER_LENGTH).length ∨ data.drop XML_BUFFER_LENGTH = [] := by
  rw [List.drop_eq_nil_iff, List.length_append, List.length_take, XML_BUFFER_LENGTH]
  omega

/-- A round that all before it have led to needs a larger block and cannot have it. -/
def Starves (xml : Processor ξ) (mallocs : Nat → Malloc) (index : Nat) (state : XmlState ξ)
    (data : Bytes) : Prop :=
  ∃ past input rest, roundInputs mallocs index data = past ++ input :: rest ∧
    (∀ event ∈ (XmlState.machine xml).history state past, RoundEvent.GoesOn event) ∧
    ((XmlState.machine xml).final state past).input.Starved input.malloc XML_BUFFER_LENGTH

section Rounds

variable {xml : Processor ξ} {mallocs : Nat → Malloc} {index : Nat} {state : XmlState ξ}
  {data : Bytes}

theorem rounds_failed {called : Called ξ}
    (answered : state.round xml (nextRound mallocs index data) = .ok called) (last : called.next = none) :
    rounds xml mallocs index state data = (called.tokens, .error (.client .xmlParsingError)) := by
  rw [rounds, answered]
  simp only [last]

theorem rounds_next {called : Called ξ} {next : XmlState ξ}
    (answered : state.round xml (nextRound mallocs index data) = .ok called)
    (goesOn : called.next = some next) :
    rounds xml mallocs index state data =
      if data = [] then (called.tokens, .ok ())
      else
        (called.tokens ++ (rounds xml mallocs (index + 1) next (data.drop XML_BUFFER_LENGTH)).1,
          (rounds xml mallocs (index + 1) next (data.drop XML_BUFFER_LENGTH)).2) := by
  rw [rounds, answered]
  simp only [goesOn]

/-- The loop takes the parser through the tokens of its rounds, and looks at it in the end. -/
theorem parseRounds_eq (debug : Bool) (xml : Processor ξ) (mallocs : Nat → Malloc) (index : Nat)
    (state : XmlState ξ) (self : Parse) (names : Names) (data : Bytes) :
    parseRounds debug xml mallocs index state self names data =
      self.follow debug names (rounds xml mallocs index state data).1 >>= fun reached =>
        (rounds xml mallocs index state data).2 >>= fun _ => (ended true reached.1).mapError .client := by
  have last (parser : Parse) : (ended true parser).mapError LoopError.client =
      if parser.state = .err then .error (.client .rssParsingError) else .ok parser := by
    rw [ended, if_pos rfl]
    split <;> rfl
  fun_induction rounds xml mallocs index state data generalizing self names with
  | case1 index state data failure missed =>
    rw [nextRound] at missed
    rw [parseRounds, missed]
    rfl
  | case2 index state data reason aborted =>
    rw [nextRound] at aborted
    rw [parseRounds, aborted]
    rfl
  | case3 index state data called answered last =>
    rw [nextRound] at answered
    rw [parseRounds, answered]
    simp only [Outcome.mapError_ok, Outcome.ok_bind, last, Outcome.error_bind]
  | case4 index state called next goesOn answered =>
    rw [nextRound] at answered
    rw [parseRounds, answered]
    simp only [Outcome.mapError_ok, Outcome.ok_bind, goesOn]
    exact bind_congr fun reached => (last reached.1).symm
  | case5 index state data called answered next goesOn filled later ih =>
    have read : ¬ (data.take XML_BUFFER_LENGTH).length = 0 := by simp [XML_BUFFER_LENGTH, filled]
    rw [nextRound] at answered
    rw [parseRounds, answered, Parse.follow_append, bind_assoc]
    simp only [Outcome.mapError_ok, Outcome.ok_bind, goesOn, if_neg read]
    exact bind_congr fun reached => ih reached.1 reached.2

theorem Starves.here (starved : state.input.Starved (mallocs index) XML_BUFFER_LENGTH) :
    Starves xml mallocs index state data := by
  have first : ∃ rest, roundInputs mallocs index data = [] ++ nextRound mallocs index data :: rest := by
    rw [roundInputs]
    split
    · exact ⟨[], rfl⟩
    · exact ⟨_, rfl⟩
  obtain ⟨rest, inputs⟩ := first
  exact ⟨[], nextRound mallocs index data, rest, inputs, by simp [Machine.history], starved⟩

theorem Starves.later {called : Called ξ} {next : XmlState ξ} (filled : data ≠ [])
    (answered : state.round xml (nextRound mallocs index data) = .ok called)
    (goesOn : called.next = some next)
    (starves : Starves xml mallocs (index + 1) next (data.drop XML_BUFFER_LENGTH)) :
    Starves xml mallocs index state data := by
  obtain ⟨past, input, rest, inputs, went, starved⟩ := starves
  have moved := XmlState.next_of_answer answered goesOn
  refine ⟨nextRound mallocs index data :: past, input, rest, ?_, ?_, ?_⟩
  · rw [roundInputs, if_neg filled, inputs]
    rfl
  · refine List.forall_mem_cons.mpr ⟨?_, by rw [moved]; exact went⟩
    simp [RoundEvent.GoesOn, Machine.event, XmlState.machine, answered, Outcome.toOption, goesOn]
  · have same : (XmlState.machine xml).final state (nextRound mallocs index data :: past) =
        (XmlState.machine xml).final next past := by
      rw [Machine.final, List.foldl_cons, moved]
      rfl
    rw [same]
    exact starved

end Rounds

/-- What the rounds come to: one misses a buffer, or they end as one call on all that is left. -/
def Ends (xml : Processor ξ) (mallocs : Nat → Malloc) (index : Nat) (state : XmlState ξ) (data : Bytes)
    (found : List Token × Outcome LoopError Unit) : Prop :=
  let whole := xml.process state.processor (state.input.pending ++ data) true
  (found.2 = .error .xmlBufferFailed ∧ Starves xml mallocs index state data) ∨
  (found.2 = (if whole.2.isSome then .ok () else .error (.client .xmlParsingError)) ∧
    (whole.2.isSome → Token.report found.1 = Token.report whole.1))

section Ends

variable {xml : Processor ξ} {mallocs : Nat → Malloc} {index : Nat} {state : XmlState ξ}
  {data : Bytes}

theorem Ends.missed {failure : BufferError}
    (failed : state.round xml (nextRound mallocs index data) = .error failure)
    (starved : state.input.Starved (mallocs index) XML_BUFFER_LENGTH) :
    Ends xml mallocs index state data (rounds xml mallocs index state data) := by
  rw [rounds, failed]
  exact .inl ⟨rfl, .here starved⟩

theorem Ends.failed {called : Called ξ}
    (answered : state.round xml (nextRound mallocs index data) = .ok called) (last : called.next = none)
    (failed : (xml.process state.processor (state.input.pending ++ data) true).2 = none) :
    Ends xml mallocs index state data (rounds xml mallocs index state data) := by
  rw [rounds_failed answered last]
  exact .inr ⟨by rw [failed]; rfl, by simp [failed]⟩

theorem Ends.deferred {called : Called ξ} {next : XmlState ξ} (filled : data ≠ [])
    (answered : state.round xml (nextRound mallocs index data) = .ok called)
    (goesOn : called.next = some next) (nothing : called.tokens = [])
    (processor : next.processor = state.processor)
    (pending : next.input.pending = state.input.pending ++ data.take XML_BUFFER_LENGTH)
    (later : Ends xml mallocs (index + 1) next (data.drop XML_BUFFER_LENGTH)
      (rounds xml mallocs (index + 1) next (data.drop XML_BUFFER_LENGTH))) :
    Ends xml mallocs index state data (rounds xml mallocs index state data) := by
  have whole : next.input.pending ++ data.drop XML_BUFFER_LENGTH = state.input.pending ++ data := by
    rw [pending, List.append_assoc, List.take_append_drop]
  rw [rounds_next answered goesOn, if_neg filled, nothing, List.nil_append]
  rw [Ends, processor, whole] at later
  exact later.imp_left fun missed => ⟨missed.1, missed.2.later filled answered goesOn⟩

theorem Ends.resumed (resumes : xml.Resumes) {called : Called ξ} {next : XmlState ξ} (filled : data ≠ [])
    (answered : state.round xml (nextRound mallocs index data) = .ok called)
    (goesOn : called.next = some next) {endPtr : Nat}
    (processed : xml.process state.processor (state.input.pending ++ data.take XML_BUFFER_LENGTH) false =
      (called.tokens, some (next.processor, endPtr)))
    (pending : next.input.pending =
      (state.input.pending ++ data.take XML_BUFFER_LENGTH).drop endPtr)
    (later : Ends xml mallocs (index + 1) next (data.drop XML_BUFFER_LENGTH)
      (rounds xml mallocs (index + 1) next (data.drop XML_BUFFER_LENGTH))) :
    Ends xml mallocs index state data (rounds xml mallocs index state data) := by
  have whole : state.input.pending ++ data =
      state.input.pending ++ data.take XML_BUFFER_LENGTH ++ data.drop XML_BUFFER_LENGTH := by
    rw [List.append_assoc, List.take_append_drop]
  rw [rounds_next answered goesOn, if_neg filled]
  rcases later with ⟨missed, starves⟩ | ⟨ended, same⟩
  · exact .inl ⟨missed, starves.later filled answered goesOn⟩
  · obtain ⟨verdict, events⟩ := resumes.resumed processed (data.drop XML_BUFFER_LENGTH) true
      (told state.input.pending data)
    rw [← pending, ← whole] at verdict events
    rw [← verdict] at ended same
    refine .inr ⟨ended, fun fine => ?_⟩
    rw [events fine, Token.report_append, Token.report_append, same fine]

end Ends

theorem rounds_end {xml : Processor ξ} (resumes : xml.Resumes) (mallocs : Nat → Malloc) (index : Nat)
    {state : XmlState ξ} (valid : state.input.Valid) (unfinished : state.parsing ≠ .finished)
    (data : Bytes) :
    Ends xml mallocs index state data (rounds xml mallocs index state data) := by
  fun_induction buffers data generalizing index state with
  | case1 =>
    rcases state.round_cases xml valid (nextRound mallocs index []) with
      ⟨_, finished⟩ | ⟨failed, starved⟩ | ⟨refilled, whole, answered⟩
    · exact absurd finished unfinished
    · exact .missed failed starved
    · have isFinal : decide ((nextRound mallocs index []).read.length = 0) = true := rfl
      have all : refilled.input.pending = state.input.pending ++ [] := whole.pending
      rw [isFinal] at answered
      rcases refilled.attempt_cases xml true with
        ⟨deferred, _⟩ | ⟨_, tokens, processed, attempted⟩ |
          ⟨_, tokens, processor, endPtr, processed, attempted⟩
      · exact absurd deferred.2.1 (by simp)
      · rw [attempted, Called.close_failed] at answered
        rw [all, whole.processor] at processed
        exact .failed answered rfl (by rw [processed])
      · rw [attempted, Called.close_next] at answered
        rw [all, whole.processor] at processed
        rw [rounds_next answered rfl, if_pos rfl]
        exact .inr ⟨by rw [processed]; rfl, fun _ => by rw [processed]⟩
  | case2 data filled ih =>
    have read : (nextRound mallocs index data).read.length ≠ 0 := by
      simp [nextRound, XML_BUFFER_LENGTH, filled]
    rcases state.round_cases xml valid (nextRound mallocs index data) with
      ⟨_, finished⟩ | ⟨failed, starved⟩ | ⟨refilled, whole, answered⟩
    · exact absurd finished unfinished
    · exact .missed failed starved
    · have isFinal : decide ((nextRound mallocs index data).read.length = 0) = false :=
        decide_eq_false read
      have all : refilled.input.pending = state.input.pending ++ data.take XML_BUFFER_LENGTH :=
        whole.pending
      rw [isFinal] at answered
      rcases refilled.attempt_cases xml false with
        ⟨_, attempted⟩ | ⟨_, tokens, processed, attempted⟩ |
          ⟨_, tokens, processor, endPtr, processed, attempted⟩
      · rw [attempted, Called.close_next] at answered
        refine .deferred filled answered rfl rfl whole.processor all (ih _ whole.valid ?_)
        simp [whole.parsing]
      · rw [attempted, Called.close_failed] at answered
        rw [all, whole.processor] at processed
        have refused := resumes.refused processed (data.drop XML_BUFFER_LENGTH) true
          (told state.input.pending data)
        rw [List.append_assoc, List.take_append_drop] at refused
        exact .failed answered rfl refused
      · rw [attempted, Called.close_next] at answered
        have valid' := XmlState.valid_advance whole.valid processor (xml.endPtr_le processed)
        have pending := refilled.pending_advance processor endPtr
        rw [all] at pending
        rw [all, whole.processor] at processed
        refine .resumed resumes filled answered rfl processed pending (ih _ valid' ?_)
        simp [XmlState.advance, whole.parsing]

end Client

namespace Script

theorem process_append (script part rest : Script) (more : Bytes) (isFinal : Bool) :
    script.processor.process (part ++ rest) (part.data ++ more) isFinal =
      if data (rest.take more.length) = more ∧
        (isFinal → (complete (part ++ rest.take more.length)).length = (part ++ rest).length) then
        (tokens (complete (part ++ rest.take more.length)),
          some ((part ++ rest).drop (complete (part ++ rest.take more.length)).length,
            (complete (part ++ rest.take more.length)).length))
      else ([], none) := by
  have front : (part ++ rest).take (part.data ++ more).length = part ++ rest.take more.length := by
    rw [List.length_append, data, List.length_map, List.take_length_add_append]
  have same : data (part ++ rest.take more.length) = part.data ++ more ↔
      data (rest.take more.length) = more := by
    rw [data, List.map_append, ← data, ← data]
    exact List.append_right_inj _
  simp only [processor, front, same]

theorem exists_part {script later next : Script} {bytes : Bytes} {isFinal : Bool}
    {found : List Token} {endPtr : Nat}
    (processed : script.processor.process later bytes isFinal = (found, some (next, endPtr))) :
    ∃ part rest, later = part ++ rest ∧ part.data = bytes := by
  refine ⟨later.take bytes.length, later.drop bytes.length, (List.take_append_drop ..).symm, ?_⟩
  by_contra other
  simp [processor, other] at processed

/-- Between two attempts the tokens that are complete are the same as in one. -/
theorem processor_resumes (script : Script) : script.processor.Resumes where
  resumed := by
    intro later next bytes found endPtr processed more isFinal _
    obtain ⟨part, rest, rfl, rfl⟩ := exists_part processed
    have alone := script.process_append part rest [] false
    rw [List.append_nil, processed, List.length_nil, List.take_zero, List.append_nil, if_pos ⟨rfl, nofun⟩]
      at alone
    cases alone
    have kept : (complete part).length ≤ part.length := (List.rdropWhile_prefix _ _).length_le
    have left : (part ++ rest).drop (complete part).length = part.drop (complete part).length ++ rest :=
      List.drop_append_of_le_length kept
    have bytes : part.data.drop (complete part).length = data (part.drop (complete part).length) :=
      (List.map_drop ..).symm
    have whole := script.process_append part rest more isFinal
    have again := script.process_append (part.drop (complete part).length) rest more isFinal
    have further : complete (part ++ rest.take more.length) = complete part ++
        complete (part.drop (complete part).length ++ rest.take more.length) :=
      rdropWhile_resume _ _ _
    have finished : (complete (part ++ rest.take more.length)).length = (part ++ rest).length ↔
        (complete (part.drop (complete part).length ++ rest.take more.length)).length =
          (part.drop (complete part).length ++ rest).length := by
      rw [further, List.length_append, List.length_append, List.length_append, List.length_drop]
      omega
    rw [left, bytes, whole, again]
    by_cases accepted : data (rest.take more.length) = more ∧
        (isFinal → (complete (part ++ rest.take more.length)).length = (part ++ rest).length)
    · rw [if_pos accepted, if_pos ⟨accepted.1, fun last => finished.mp (accepted.2 last)⟩]
      refine ⟨rfl, fun _ => ?_⟩
      rw [Token.report_append, report_tokens, report_tokens, report_tokens, further,
        List.filterMap_append]
    · rw [if_neg accepted, if_neg fun both => accepted ⟨both.1, fun last => finished.mpr (both.2 last)⟩]
      exact ⟨rfl, nofun⟩
  refused := by
    intro later bytes found failed more isFinal _
    by_contra accepted
    obtain ⟨⟨next, endPtr⟩, same⟩ := Option.ne_none_iff_exists'.mp accepted
    obtain ⟨part, rest, rfl, whole⟩ := exists_part (Prod.ext rfl same)
    have front : data ((part ++ rest).take bytes.length) = bytes := by
      have inside : bytes.length ≤ part.length := by
        have length := congrArg List.length whole
        rw [data, List.length_map, List.length_append] at length
        omega
      rw [List.take_append_of_le_length inside, data, List.map_take, ← data, whole, List.take_left]
    simp [processor, front] at failed

end Script

end Xrss.Rss
