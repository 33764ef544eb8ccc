import Xrss.Rss.CacheRoundTrip
import Xrss.Rss.GrammarSemantics

namespace Xrss.Rss

open Zig Config

/-- How expat reports a body: the element tree of a well-formed document, or
the calls made before a parsing error. -/
inductive Body where
  | tree (name : Bytes) (attrs : Attrs) (children : List Node)
  | malformed (callbacks : List Parse.Callback)

def Body.callbacks : Body → List Parse.Callback
  | .tree name attrs children => (Node.element name attrs children).callbacks
  | .malformed callbacks => callbacks

/-- A fetched body; what the parser makes of it fits into memory. -/
structure Response where
  body : Body
  usize : ∀ parser, Parse.feed {} body.callbacks = .ok parser → parser.data.Within .usize

inductive ClientError where
  | xmlParsingError
  | rssParsingError
  deriving Repr, DecidableEq

namespace Client

/-- Running out of memory is left out, and so is the position of an error. -/
def parse (response : Response) : Outcome ClientError Parse := do
  let parser ← (Parse.feed {} response.body.callbacks).mapError Empty.elim
  match response.body with
  | .malformed _ => .error .xmlParsingError
  | .tree _ _ _ => if parser.state = .err then .error .rssParsingError else .ok parser

/-- A body is parsed exactly when it is a well-formed feed. -/
theorem parse_eq_ok {response : Response} {parser : Parse} :
    parse response = .ok parser ↔ ∃ name attrs children,
      response.body = .tree name attrs children ∧ (Node.element name attrs children).IsFeed ∧
        parser = { data := ⟨(Node.element name attrs children).denote⟩, state := .«end» } := by
  obtain ⟨body, usize⟩ := response
  cases body with
  | malformed callbacks =>
    simp only [parse, Body.callbacks]
    cases (Parse.feed {} callbacks).mapError Empty.elim <;> simp
  | tree name attrs children =>
    obtain ⟨final, fed, ⟨feed, rfl⟩ | ⟨refused, failed⟩⟩ := feed_tree name attrs children
    · simp only [parse, Body.callbacks, fed]
      constructor
      · intro parsed
        exact ⟨name, attrs, children, rfl, feed, by simpa using parsed.symm⟩
      · intro accepted
        rcases accepted with ⟨_, _, _, same, _, rfl⟩
        cases same
        simp
    · simp only [parse, Body.callbacks, fed]
      constructor
      · intro parsed
        simp [failed] at parsed
      · intro accepted
        rcases accepted with ⟨_, _, _, same, feed, _⟩
        cases same
        exact absurd feed refused

theorem usize_of_parse {response : Response} {parser : Parse}
    (parsed : parse response = .ok parser) : parser.data.Within .usize := by
  apply response.usize
  unfold parse at parsed
  obtain ⟨fed, ran, checked⟩ := Outcome.bind_eq_ok.mp parsed
  rw [Outcome.mapError_eq_ok] at ran
  cases shape : response.body with
  | malformed _ => simp [shape] at checked
  | tree _ _ _ =>
    simp only [shape] at checked ran
    split at checked
    · cases checked
    · cases checked
      exact ran

/-- The cache file of a parsed feed can be read back exactly when the feed
keeps the limits of `read`. -/
theorem read_back_iff {response : Response} {parser : Parse}
    (parsed : parse response = .ok parser) :
    (∃ result, (Data.read {} ioBuf.capacity).run parser.data.write = .ok result) ↔
      parser.data.Within ioBuf.limits := by
  have decodes := decodes_read ioBuf parser.data (usize_of_parse parsed)
  rw [← List.append_nil parser.data.write]
  constructor
  · intro success
    rcases success with ⟨result, success⟩
    by_contra excess
    exact decodes.rejects excess [] result success
  · intro within
    exact ⟨_, decodes.accepts within []⟩

end Client

/-- An element without attributes. -/
def Node.plain (tag : Bytes) (children : List Node) : Node := .element tag ⟨[], by decide⟩ children

def Node.leaf (tag text : Bytes) : Node := .plain tag [.text text]

/-- A channel element of leaves and items of leaves. -/
def Node.channel (props : List (Bytes × Bytes)) (items : List (List (Bytes × Bytes))) : Node :=
  .plain TAG_NAME_CHANNEL
    (props.map (fun prop => .leaf prop.1 prop.2) ++
      items.map fun item => .plain TAG_NAME_ITEM (item.map fun prop => .leaf prop.1 prop.2))

/-- A document of one channel with these children. -/
def oneChannel (children : List Node) : Node :=
  .element TAG_NAME_RSS ⟨[⟨ATTR_NAME_VERSION, RSS_SUPPORTED_VERSION⟩], by decide⟩
    [.plain TAG_NAME_CHANNEL children]

theorem oneChannel_accepted :
    Parse.feed {} (oneChannel []).callbacks = .ok { data := ⟨[{}]⟩, state := .«end» } := by
  decide +kernel

/-- A version 2.0 document with these children. -/
def Body.rss (children : List Node) : Body :=
  .tree TAG_NAME_RSS ⟨[⟨ATTR_NAME_VERSION, RSS_SUPPORTED_VERSION⟩], by decide⟩ children

/-- A response whose size was computed. -/
def Response.checked (body : Body)
    (computed : (Parse.feed {} body.callbacks).toOption.all
      fun parser => decide (parser.data.Within .usize)) : Response where
  body := body
  usize parser fed := by simpa [fed] using computed

def emptyChannels (count : Nat) : Body := .rss (List.replicate count (.plain TAG_NAME_CHANNEL []))

/-- A channel of two items, one of them with a link. -/
theorem read_back_news :
    ∃ response parser, Client.parse response = .ok parser ∧
      parser.data.channels.map (·.items.length) = [2] ∧
      ((∃ result, (Data.read {} ioBuf.capacity).run parser.data.write = .ok result) ↔
        parser.data.Within ioBuf.limits) := by
  let response : Response := .checked (.rss [.channel
      [(TAG_NAME_TITLE, bytes "News"), (TAG_NAME_DESCRIPTION, bytes "Daily")]
      [[(TAG_NAME_GUID, bytes "1"), (TAG_NAME_LINK, bytes "news/1")],
        [(TAG_NAME_GUID, bytes "2")]]]) (by decide +kernel)
  have parses : ∃ parser ∈ (Client.parse response).toOption,
      parser.data.channels.map (·.items.length) = [2] := by decide +kernel
  obtain ⟨parser, returned, items⟩ := parses
  have parsed := Outcome.toOption_eq_some.mp returned
  exact ⟨response, parser, parsed, items, Client.read_back_iff parsed⟩

theorem read_back_nine_channels :
    ∃ response parser, Client.parse response = .ok parser ∧ parser.state = .«end» ∧
      (Data.read {} ioBuf.capacity).run parser.data.write = .error .tooManyChannels := by
  refine ⟨.checked (emptyChannels 9) (by decide +kernel),
    { data := ⟨List.replicate 9 {}⟩, state := .«end» }, ?_⟩
  decide +kernel

end Xrss.Rss
