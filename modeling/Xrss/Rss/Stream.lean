import Xrss.Rss.Client
import Xrss.Rss.SinkLifetime
import Xrss.Rss.TextCuts

/-! The loop of `Client.parse` over expat's buffers, beside the parse of a body in one piece. The
loop holds the name of an unknown element as the pointer it is. -/

namespace Xrss.Rss

open Zig Config

variable {ξ : Type}

/-- What `Client.parse` uses of expat: a new parser, and `XML_ParseBuffer` with the tokens it
finds. No next state is `XML_STATUS_ERROR`. -/
structure XmlParser (ξ : Type) where
  create : ξ
  parseBuffer : ξ → Bytes → Bool → List Token × Option ξ

def Body.isTree : Body → Bool
  | .tree _ _ _ => true
  | .malformed _ => false

def XML_BUFFER_LENGTH : Nat := 512

/-- How the loop fails. Memory that is read after it was given back leaves open what follows. -/
inductive LoopError where
  | client (failure : ClientError)
  | useAfterFree
  | xmlBufferFailed
  deriving Repr, DecidableEq

/-- The parser on the tokens of a buffer, with the names it points to. -/
def Parse.follow (debug : Bool) (self : Parse) (names : Names) :
    List Token → Outcome LoopError (Parse × Names)
  | [] => .ok (self, names)
  | token :: rest =>
    if names.readsFreed debug self token then .error .useAfterFree
    else do
      let next ← (self.feed token.callbacks).mapError Empty.elim
      next.follow debug (names.next self next token) rest

/-- What the calls of the tokens report. -/
def Token.report (tokens : List Token) : List Parse.Event := Parse.events (tokens.flatMap Token.callbacks)

theorem Token.report_append (first second : List Token) :
    report (first ++ second) = report first ++ report second := by
  rw [report, List.flatMap_append, Parse.events_append]
  rfl

/-- The loop of `Client.parse`; a buffer can always be obtained. -/
def Client.parseLoop (debug : Bool) (xml : XmlParser ξ) (xmlParser : ξ) (self : Parse) (names : Names)
    (data : Bytes) : Outcome LoopError Parse := do
  let buf := data.take XML_BUFFER_LENGTH
  let called := xml.parseBuffer xmlParser buf (buf.length = 0)
  let (self, names) ← self.follow debug names called.1
  match called.2 with
  | none => .error (.client .xmlParsingError)
  | some xmlParser =>
    if buf.length = 0 then
      if self.state = .err then .error (.client .rssParsingError) else .ok self
    else parseLoop debug xml xmlParser self names (data.drop XML_BUFFER_LENGTH)
termination_by data.length
decreasing_by
  have filled : ¬ (data.take XML_BUFFER_LENGTH).length = 0 := by assumption
  simp only [List.length_take, List.length_drop, XML_BUFFER_LENGTH] at filled ⊢
  omega

/-- The buffers the loop fills before the final empty one. -/
def Client.buffers (data : Bytes) : List Bytes :=
  if data = [] then []
  else data.take XML_BUFFER_LENGTH :: buffers (data.drop XML_BUFFER_LENGTH)
termination_by data.length
decreasing_by
  have filled : data.length ≠ 0 := by simpa using ‹¬ data = []›
  simp only [List.length_drop, XML_BUFFER_LENGTH]
  omega

namespace XmlParser

/-- All tokens of a sequence of buffers and the final empty one, up to the first error, and
whether there was none. -/
def run (xml : XmlParser ξ) (xmlParser : ξ) : List Bytes → List Token × Bool
  | [] => ((xml.parseBuffer xmlParser [] true).1, (xml.parseBuffer xmlParser [] true).2.isSome)
  | buf :: rest =>
    let called := xml.parseBuffer xmlParser buf false
    called.2.elim (called.1, false) fun next =>
      (called.1 ++ (xml.run next rest).1, (xml.run next rest).2)

theorem run_refused {xml : XmlParser ξ} {xmlParser : ξ} {buf : Bytes} {tokens : List Token}
    (called : xml.parseBuffer xmlParser buf false = (tokens, none)) (rest : List Bytes) :
    xml.run xmlParser (buf :: rest) = (tokens, false) := by
  rw [run, called]
  rfl

theorem run_taken {xml : XmlParser ξ} {xmlParser next : ξ} {buf : Bytes} {tokens : List Token}
    (called : xml.parseBuffer xmlParser buf false = (tokens, some next)) (rest : List Bytes) :
    xml.run xmlParser (buf :: rest) =
      (tokens ++ (xml.run next rest).1, (xml.run next rest).2) := by
  rw [run, called]
  rfl

/-- The buffers hold the data, and none of them is empty. The first two bytes, which tell the
encoding, come together. -/
structure Cuts (data : Bytes) (buffers : List Bytes) : Prop where
  data : buffers.flatten = data
  filled : ∀ buf ∈ buffers, buf ≠ []
  early : ∀ buf rest, buffers = buf :: rest → 2 ≤ buf.length ∨ rest = []

/-- The parser reports the body, however the data is cut into buffers. -/
structure Describes (xml : XmlParser ξ) (data : Bytes) (body : Body) : Prop where
  verdict : ∀ buffers, Cuts data buffers → (xml.run xml.create buffers).2 = body.isTree
  events : body.isTree → ∀ buffers, Cuts data buffers →
    Token.report (xml.run xml.create buffers).1 = Parse.events body.callbacks

end XmlParser

namespace Parse

theorem follow_append (debug : Bool) (self : Parse) (names : Names) (first second : List Token) :
    self.follow debug names (first ++ second) =
      self.follow debug names first >>= fun reached => reached.1.follow debug reached.2 second := by
  induction first generalizing self names with
  | nil => rfl
  | cons token rest ih =>
    rw [List.cons_append, follow, follow]
    split
    · rfl
    · simp only [ih, bind_assoc]

theorem follow_eq (debug : Bool) (reader : Reader) (tokens : List Token) :
    reader.progress.parse.follow debug reader.toNames tokens =
      if ∃ event ∈ (Reader.machine debug).history reader tokens, event.output = true then
        .error .useAfterFree
      else .ok (((Reader.machine debug).final reader tokens).progress.parse,
        ((Reader.machine debug).final reader tokens).toNames) := by
  induction tokens generalizing reader with
  | nil => rfl
  | cons token rest ih =>
    simp only [follow, Transition.Machine.history, List.exists_mem_cons_iff]
    by_cases stale : reader.readsFreed debug reader.progress.parse token = true
    · rw [if_pos stale, if_pos (.inl stale)]
    · have later := ih (reader.next token)
      have live : ¬ ((Reader.machine debug).event reader token).output = true := stale
      rw [if_neg stale, feed_follows, Outcome.mapError_ok, Outcome.ok_bind]
      simp only [live, Bool.false_eq_true, false_or]
      exact later

end Parse

namespace Client

theorem buffers_cut (data : Bytes) : XmlParser.Cuts data (buffers data) := by
  fun_induction buffers data with
  | case1 => exact ⟨rfl, by simp, nofun⟩
  | case2 data filled ih =>
    refine ⟨?_, ?_, ?_⟩
    · rw [List.flatten_cons, ih.data, List.take_append_drop]
    · intro buf member
      rcases List.mem_cons.mp member with rfl | later
      · simp [XML_BUFFER_LENGTH, filled]
      · exact ih.filled buf later
    · intro buf rest same
      obtain ⟨rfl, rfl⟩ := List.cons.inj same
      by_cases whole : data.drop XML_BUFFER_LENGTH = []
      · exact .inr (by rw [whole, buffers, if_pos rfl])
      · rw [List.drop_eq_nil_iff, XML_BUFFER_LENGTH] at whole
        refine .inl ?_
        rw [List.length_take, XML_BUFFER_LENGTH]
        omega

/-- What `Client.parse` ends in, by whether expat found no error and what its calls have led to. -/
def ended (wellFormed : Bool) (self : Parse) : Outcome ClientError Parse :=
  if wellFormed then if self.state = .err then .error .rssParsingError else .ok self
  else .error .xmlParsingError

/-- What a loop comes to that goes through these tokens. -/
def concluded (debug : Bool) (self : Parse) (names : Names) (tokens : List Token) (wellFormed : Bool) :
    Outcome LoopError Parse :=
  self.follow debug names tokens >>= fun reached => (ended wellFormed reached.1).mapError .client

/-- The loop takes the parser through all tokens expat finds, and looks at it in the end. -/
theorem parseLoop_eq (debug : Bool) (xml : XmlParser ξ) (xmlParser : ξ) (self : Parse) (names : Names)
    (data : Bytes) :
    parseLoop debug xml xmlParser self names data =
      concluded debug self names (xml.run xmlParser (buffers data)).1
        (xml.run xmlParser (buffers data)).2 := by
  fun_induction buffers data generalizing xmlParser self names with
  | case1 =>
    rw [parseLoop, XmlParser.run, List.take_nil, concluded]
    simp only [List.length_nil, decide_true]
    obtain ⟨tokens, status⟩ := xml.parseBuffer xmlParser [] true
    refine bind_congr fun reached => ?_
    cases status with
    | none => rfl
    | some next =>
      simp only [↓reduceIte, Option.isSome_some, ended]
      split <;> rfl
  | case2 data filled ih =>
    have read : ¬ (data.take XML_BUFFER_LENGTH).length = 0 := by simp [XML_BUFFER_LENGTH, filled]
    rw [parseLoop, concluded]
    simp only [read, decide_false, ↓reduceIte]
    rcases called : xml.parseBuffer xmlParser (data.take XML_BUFFER_LENGTH) false with ⟨tokens, status⟩
    cases status with
    | none =>
      rw [XmlParser.run_refused called]
      rfl
    | some next =>
      rw [XmlParser.run_taken called, Parse.follow_append, bind_assoc]
      exact bind_congr fun reached => ih next reached.1 reached.2

theorem parse_eq (response : Response) :
    parse response =
      ended response.body.isTree (response.body.callbacks.foldl Progress.next (.live .init)).parse := by
  obtain ⟨body, usize⟩ := response
  have fed := feed_follows (.live .init) body.callbacks
  have start : (Progress.live .init).parse = {} := rfl
  rw [start] at fed
  cases body <;> simp only [parse, fed, Outcome.mapError_ok, Outcome.ok_bind] <;> rfl

theorem ended_eq_ok {wellFormed : Bool} {self parser : Parse}
    (accepted : ended wellFormed self = .ok parser) : parser = self := by
  unfold ended at accepted
  split at accepted
  · split at accepted
    · cases accepted
    · exact (Outcome.ok.inj accepted).symm
  · cases accepted

/-- Calls that report the same come to the same verdict and, up to white space, the same values. -/
theorem ended_agrees {wellFormed : Bool} {callbacks callbacks' : List Parse.Callback}
    (same : wellFormed → Parse.events callbacks = Parse.events callbacks') :
    (∃ parser whole, ended wellFormed (callbacks.foldl Progress.next (.live .init)).parse = .ok parser ∧
      ended wellFormed (callbacks'.foldl Progress.next (.live .init)).parse = .ok whole ∧
      parser.squeeze = whole.squeeze) ∨
    ∃ failure, ended wellFormed (callbacks.foldl Progress.next (.live .init)).parse = .error failure ∧
      ended wellFormed (callbacks'.foldl Progress.next (.live .init)).parse = .error failure := by
  cases wellFormed with
  | false => exact .inr ⟨.xmlParsingError, rfl, rfl⟩
  | true =>
    have squeezed := Progress.foldl_same (.live .init) (same rfl)
    have state := congrArg Parse.state squeezed
    by_cases failed : (callbacks'.foldl Progress.next (.live .init)).parse.state = .err
    · exact .inr ⟨.rssParsingError, if_pos (state.trans failed), if_pos failed⟩
    · have live : _ ≠ Parse.State.err := fun same => failed (state.symm.trans same)
      exact .inl ⟨_, _, if_neg live, if_neg failed, squeezed⟩

/-- A loop has come to what the parse in one piece comes to. -/
def AgreesWith (outcome : Outcome LoopError Parse) (response : Response) : Prop :=
  (∃ parser whole, outcome = .ok parser ∧ parse response = .ok whole ∧
    parser.squeeze = whole.squeeze) ∨
  ∃ failure, outcome = .error (.client failure) ∧ parse response = .error failure

/-- On its way through the tokens raw names are stored in an unknown element whose two names do
not fit into the buffer of its tag. -/
def Overrun (debug : Bool) (tokens : List Token) : Prop :=
  ∃ event ∈ (Reader.machine debug).history {} tokens, event.before.Overruns event.input

instance (debug : Bool) (tokens : List Token) : Decidable (Overrun debug tokens) :=
  inferInstanceAs (Decidable (∃ event ∈ _, _))

/-- A loop through tokens that report the body agrees with the parse in one piece, unless it reads
memory that was given back. -/
theorem concluded_agrees (debug : Bool) {tokens : List Token} {response : Response}
    (events : response.body.isTree → Token.report tokens = Parse.events response.body.callbacks) :
    let outcome := concluded debug {} {} tokens response.body.isTree
    (AgreesWith outcome response ∨ outcome = .error .useAfterFree ∧ Overrun debug tokens) ∧
      ∀ whole, parse response = .ok whole → (Overrun debug tokens ↔ outcome = .error .useAfterFree) := by
  intro outcome
  have followed : Parse.follow debug {} {} tokens = _ := Parse.follow_eq debug {} tokens
  have reached := Reader.final_progress debug tokens
  have told := Reader.told_final debug tokens
  by_cases stale : ∃ event ∈ (Reader.machine debug).history {} tokens, event.output = true
  · have undefined : outcome = .error .useAfterFree := by
      simp only [outcome, concluded]
      rw [followed, if_pos stale]
      rfl
    exact ⟨.inr ⟨undefined, told.read stale⟩, fun _ _ => ⟨fun _ => undefined, fun _ => told.read stale⟩⟩
  · have defined : outcome = (ended response.body.isTree
        ((tokens.flatMap Token.callbacks).foldl Progress.next (.live .init)).parse).mapError .client := by
      simp only [outcome, concluded]
      rw [followed, if_neg stale, reached]
      rfl
    rw [defined]
    rcases ended_agrees events with ⟨parser, whole, first, second, squeezed⟩ | ⟨failure, first, second⟩
    · rw [first]
      refine ⟨.inl (.inl ⟨parser, whole, rfl, (parse_eq response).trans second, squeezed⟩), ?_⟩
      intro expected accepted
      obtain ⟨_, _, _, _, _, last⟩ := parse_eq_ok.mp accepted
      have state : parser.squeeze.state = whole.squeeze.state := congrArg Parse.state squeezed
      obtain rfl : whole = expected := Outcome.ok.inj (second.symm.trans ((parse_eq response).symm.trans accepted))
      refine ⟨fun overrun => absurd (Reader.stale_of_overrun ?_ overrun) stale, nofun⟩
      rw [reached, ← ended_eq_ok first]
      exact state.trans (congrArg Parse.state last)
    · rw [first]
      have refused := (parse_eq response).trans second
      exact ⟨.inl (.inr ⟨failure, rfl, refused⟩), fun whole accepted => by simp [refused] at accepted⟩

/-- Read through buffers of 512 bytes, a body is accepted or refused as if it were parsed in one
piece, and an accepted one comes to the same values up to white space, unless the name of an
unknown element is read after its memory was given back. -/
theorem parseLoop_agrees (debug : Bool) {xml : XmlParser ξ} {data : Bytes} {response : Response}
    (describes : xml.Describes data response.body) :
    let tokens := (xml.run xml.create (buffers data)).1
    let outcome := parseLoop debug xml xml.create {} {} data
    (AgreesWith outcome response ∨ outcome = .error .useAfterFree ∧ Overrun debug tokens) ∧
      ∀ whole, parse response = .ok whole → (Overrun debug tokens ↔ outcome = .error .useAfterFree) := by
  intro tokens outcome
  have looped : outcome = _ := parseLoop_eq debug xml xml.create {} {} data
  rw [describes.verdict _ (buffers_cut data)] at looped
  rw [looped]
  exact concluded_agrees debug fun tree => describes.events tree _ (buffers_cut data)

end Client

/-- One more character in front; text is passed in one piece. -/
def Parse.Callback.prepend (char : UInt8) : List Parse.Callback → List Parse.Callback
  | .characterData s :: later => .characterData (char :: s) :: later
  | callbacks => .characterData [char] :: callbacks

/-- The calls that say what happened in one buffer. -/
def Parse.Event.gather : List Parse.Event → List Parse.Callback
  | [] => []
  | .character char :: later => Parse.Callback.prepend char (gather later)
  | event :: later => event.callback :: gather later

theorem Parse.events_prepend (char : UInt8) (callbacks : List Parse.Callback) :
    Parse.events (Parse.Callback.prepend char callbacks) = .character char :: Parse.events callbacks := by
  fun_cases Parse.Callback.prepend char callbacks <;> rfl

theorem Parse.events_gather (happened : List Parse.Event) :
    Parse.events (Parse.Event.gather happened) = happened := by
  fun_induction Parse.Event.gather happened with
  | case1 => rfl
  | case2 char later ih => rw [Parse.events_prepend, ih]
  | case3 event later other ih =>
    cases event with
    | character char => exact absurd rfl (other char)
    | _ => exact congrArg _ ih

/-- The token of a call, in a document that is UTF-8. -/
def Parse.Callback.token : Parse.Callback → Token
  | .elementStart name atts => .startTag name name.length atts
  | .characterData s => .text s
  | .elementEnd name => .endTag name

theorem Parse.Callback.flatMap_token (callbacks : List Parse.Callback) :
    (callbacks.map token).flatMap Token.callbacks = callbacks := by
  induction callbacks with
  | nil => rfl
  | cons callback rest ih =>
    rw [List.map_cons, List.flatMap_cons, ih]
    cases callback <;> rfl

/-- A document byte by byte, each with the event it completes. -/
abbrev Script := List (UInt8 × Option Parse.Event)

namespace Script

def data (script : Script) : Bytes := script.map Prod.fst

/-- A tag is known once it is complete. -/
def tag (text : Bytes) (event : Parse.Event) : Script :=
  text.dropLast.map (·, none) ++ text.getLast?.toList.map (·, some event)

def text (text : Bytes) : Script := text.map fun char => (char, some (.character char))

/-- The tokens of a part of the document that is parsed at once. -/
def tokens (script : Script) : List Token :=
  (Parse.Event.gather (script.filterMap Prod.snd)).map Parse.Callback.token ++ [.storeRawNames]

theorem report_tokens (script : Script) : Token.report script.tokens = script.filterMap Prod.snd := by
  rw [Token.report, tokens, List.flatMap_append, Parse.Callback.flatMap_token, List.flatMap_singleton, Token.callbacks,
    List.append_nil, Parse.events_gather]

/-- A parser that knows a single document and reports what each buffer completes of it. -/
def parser (script : Script) : XmlParser Script where
  create := script
  parseBuffer later buf isFinal :=
    if isFinal then ([], if later = [] then some [] else none)
    else if data (later.take buf.length) = buf then
      (tokens (later.take buf.length), some (later.drop buf.length))
    else ([], none)

theorem run_of_script (script later : Script) (buffers : List Bytes)
    (cut : buffers.flatten = later.data) :
    (script.parser.run later buffers).2 = true ∧
      Token.report (script.parser.run later buffers).1 = later.filterMap Prod.snd := by
  induction buffers generalizing later with
  | nil =>
    have finished : later = [] := by simpa [data] using cut.symm
    simp [XmlParser.run, parser, finished, Token.report, Parse.events]
  | cons buf rest ih =>
    have first : data (later.take buf.length) = buf := by
      rw [data, List.map_take, ← data, ← cut, List.flatten_cons, List.take_left]
    have further : rest.flatten = data (later.drop buf.length) := by
      rw [data, List.map_drop, ← data, ← cut, List.flatten_cons, List.drop_left]
    have called : script.parser.parseBuffer later buf false =
        (tokens (later.take buf.length), some (later.drop buf.length)) := by
      simp [parser, first]
    obtain ⟨fine, said⟩ := ih (later.drop buf.length) further
    rw [XmlParser.run_taken called]
    refine ⟨fine, ?_⟩
    rw [Token.report_append, said, report_tokens, ← List.filterMap_append, List.take_append_drop]

theorem parser_describes (script : Script) {body : Body} (tree : body.isTree)
    (same : script.filterMap Prod.snd = Parse.events body.callbacks) :
    script.parser.Describes script.data body where
  verdict buffers cut := (run_of_script script script buffers cut.data).1.trans tree.symm
  events _ buffers cut := (run_of_script script script buffers cut.data).2.trans same

end Script

/-- A channel with a title. -/
def titleScript : Script :=
  .tag (bytes "<rss version=\"2.0\">")
      (.elementStart TAG_NAME_RSS [ATTR_NAME_VERSION, RSS_SUPPORTED_VERSION]) ++
    .tag (bytes "<channel>") (.elementStart TAG_NAME_CHANNEL []) ++
    .tag (bytes "<title>") (.elementStart TAG_NAME_TITLE []) ++ .text (bytes "Q A") ++
    .tag (bytes "</title>") (.elementEnd TAG_NAME_TITLE) ++
    .tag (bytes "</channel>") (.elementEnd TAG_NAME_CHANNEL) ++
    .tag (bytes "</rss>") (.elementEnd TAG_NAME_RSS)

/-- A channel with an unknown element of 18 bytes, in which the first buffer ends. -/
def updateScript : Script :=
  .tag (bytes "<rss version=\"2.0\">")
      (.elementStart TAG_NAME_RSS [ATTR_NAME_VERSION, RSS_SUPPORTED_VERSION]) ++
    .tag (bytes "<channel>") (.elementStart TAG_NAME_CHANNEL []) ++
    .tag (bytes "<sy:updateFrequency>") (.elementStart (bytes "sy:updateFrequency") []) ++
    .text (List.replicate 500 0x20) ++
    .tag (bytes "</sy:updateFrequency>") (.elementEnd (bytes "sy:updateFrequency")) ++
    .tag (bytes "</channel>") (.elementEnd TAG_NAME_CHANNEL) ++
    .tag (bytes "</rss>") (.elementEnd TAG_NAME_RSS)

def titleResponse : Response :=
  .checked (.rss [.channel [(TAG_NAME_TITLE, bytes "Q A")] []]) (by decide +kernel)

def updateResponse : Response :=
  .checked (.rss [.channel [(bytes "sy:updateFrequency", List.replicate 500 0x20)] []])
    (by decide +kernel)

theorem scripts_accepted : (∃ whole, Client.parse titleResponse = .ok whole) ∧
    ∃ whole, Client.parse updateResponse = .ok whole :=
  ⟨Outcome.exists_of_isSome (by decide +kernel), Outcome.exists_of_isSome (by decide +kernel)⟩

/-- The loop reads the one body as it is in one piece, and of the other a name that is gone. -/
theorem parseLoop_agrees_update :
    (∃ parser, Client.parseLoop false titleScript.parser titleScript {} {} titleScript.data = .ok parser) ∧
      Client.parseLoop false updateScript.parser updateScript {} {} updateScript.data =
        .error .useAfterFree := by
  have first : titleScript.parser.Describes titleScript.data titleResponse.body :=
    titleScript.parser_describes rfl (by decide +kernel)
  have second : updateScript.parser.Describes updateScript.data updateResponse.body :=
    updateScript.parser_describes rfl (by decide +kernel)
  obtain ⟨⟨_, accepted⟩, _, accepted'⟩ := scripts_accepted
  constructor
  · rcases (Client.parseLoop_agrees false first).1 with
      (⟨parser, _, read, _⟩ | ⟨failure, _, refused⟩) | ⟨_, overrun⟩
    · exact ⟨parser, read⟩
    · cases accepted.symm.trans refused
    · exact absurd overrun (by decide +kernel)
  · exact ((Client.parseLoop_agrees false second).2 _ accepted').mp (by decide +kernel)

end Xrss.Rss
