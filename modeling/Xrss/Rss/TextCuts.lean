import Xrss.Rss.StageRefinement

/-! What does not depend on how expat cuts text into calls: everything but the white space
in the stored values. -/

namespace Xrss.Rss

open Zig Config

/-- A text without its white space. -/
def squeeze (text : Bytes) : Bytes := text.filter (!isWhitespace ·)

theorem squeeze_append (first second : Bytes) :
    squeeze (first ++ second) = squeeze first ++ squeeze second :=
  List.filter_append ..

theorem squeeze_trim (text : Bytes) : squeeze (trim isWhitespace text) = squeeze text :=
  filter_trim text

theorem trim_squeeze (text : Bytes) : trim isWhitespace (squeeze text) = squeeze text := by
  apply trim_eq_self
  intro char member
  simpa using (List.mem_filter.mp member).2

theorem blank_squeeze {text : Bytes} :
    Blank isWhitespace (squeeze text) ↔ Blank isWhitespace text := by
  rw [← trim_eq_nil, trim_squeeze, squeeze, List.filter_eq_nil_iff]
  simp [Blank]

def Item.squeeze (self : Item) : Item := ⟨self.props.map (Option.map Rss.squeeze)⟩

def Channel.squeeze (self : Channel) : Channel :=
  ⟨self.props.map (Option.map Rss.squeeze), self.items.map Item.squeeze⟩

def Data.squeeze (self : Data) : Data := ⟨self.channels.map Channel.squeeze⟩

def Parse.squeeze (self : Parse) : Parse :=
  { self with data := self.data.squeeze, activeData := Rss.squeeze self.activeData }

def Parse.Callback.squeeze : Parse.Callback → Parse.Callback
  | .characterData s => .characterData (Rss.squeeze s)
  | callback => callback

theorem Channel.squeeze_set (self : Channel) (key : Channel.Property) (value : Bytes) :
    { self.squeeze with props := self.squeeze.props.set key (some (Rss.squeeze value)) } =
      Channel.squeeze { self with props := self.props.set key (some value) } := by
  simp [Channel.squeeze, EnumArray.map_set]

theorem Item.squeeze_set (self : Item) (key : Item.Property) (value : Bytes) :
    { self.squeeze with props := self.squeeze.props.set key (some (Rss.squeeze value)) } =
      Item.squeeze { self with props := self.props.set key (some value) } := by
  simp [Item.squeeze, EnumArray.map_set]

/-- What a document says, its text character by character. -/
inductive Parse.Event where
  | elementStart (name : Bytes) (atts : List Bytes)
  | character (char : UInt8)
  | elementEnd (name : Bytes)
  deriving DecidableEq

def Parse.Callback.events : Parse.Callback → List Parse.Event
  | .elementStart name atts => [.elementStart name atts]
  | .characterData s => s.map .character
  | .elementEnd name => [.elementEnd name]

/-- What a sequence of calls says, however its text is cut. -/
def Parse.events (callbacks : List Parse.Callback) : List Parse.Event :=
  callbacks.flatMap Parse.Callback.events

theorem Parse.events_append (first second : List Parse.Callback) :
    Parse.events (first ++ second) = Parse.events first ++ Parse.events second :=
  List.flatMap_append

/-- The call that says nothing else. -/
def Parse.Event.callback : Parse.Event → Parse.Callback
  | .elementStart name atts => .elementStart name atts
  | .character char => .characterData [char]
  | .elementEnd name => .elementEnd name

section Focus

variable {κ : Type} [DecidableEq κ] [LevelProperty κ] {props : EnumArray κ (Option Bytes)}

def Focus.squeeze : Focus props → Focus (props.map (Option.map Rss.squeeze))
  | .idle => .idle
  | .property key vacant buffer => .property key (by simp [vacant]) (Rss.squeeze buffer)
  | .sink name => .sink name

theorem Focus.start_squeeze (name : Bytes) :
    Focus.start (props.map (Option.map Rss.squeeze)) name =
      (Focus.start props name).map Focus.squeeze := by
  unfold Focus.start
  cases LevelProperty.ofTag κ name with
  | none => rfl
  | some key =>
    cases filled : props.get key with
    | none => simp [filled, Focus.squeeze, Rss.squeeze]
    | some value => simp [filled]

omit [DecidableEq κ] [LevelProperty κ] in
theorem Focus.text_squeeze (focus : Focus props) (text : Bytes) :
    focus.squeeze.text (Rss.squeeze text) =
      (focus.text (trim isWhitespace text)).map Focus.squeeze := by
  cases focus with
  | property key vacant buffer =>
    simp [Focus.squeeze, Focus.text, squeeze_append, squeeze_trim]
  | _ => rfl

end Focus

namespace Stage

def squeeze : Stage → Stage
  | .init => .init
  | .rss channels => .rss (channels.map Channel.squeeze)
  | .channel done current focus =>
    .channel (done.map Channel.squeeze) current.squeeze focus.squeeze
  | .item done current entry focus =>
    .item (done.map Channel.squeeze) current.squeeze entry.squeeze focus.squeeze
  | .«end» channels => .«end» (channels.map Channel.squeeze)

theorem elementStart_squeeze (stage : Stage) (name : Bytes) (atts : List Bytes) :
    stage.squeeze.elementStart name atts = (stage.elementStart name atts).map squeeze := by
  by_cases paired : WellAttributed atts
  · cases stage with
    | init =>
      simp only [elementStart, squeeze, if_pos paired]
      split <;> rfl
    | rss channels =>
      simp only [elementStart, squeeze, if_pos paired]
      split <;> rfl
    | channel done current focus =>
      cases focus with
      | idle =>
        simp only [elementStart, squeeze, Focus.squeeze, if_pos paired]
        split
        · rfl
        · rw [Channel.squeeze, Focus.start_squeeze, Option.map_map, Option.map_map]
          rfl
      | _ => simp [elementStart, squeeze, Focus.squeeze]
    | item done current entry focus =>
      cases focus with
      | idle =>
        simp only [elementStart, squeeze, Focus.squeeze, if_pos paired]
        rw [Item.squeeze, Focus.start_squeeze, Option.map_map, Option.map_map]
        rfl
      | _ => simp [elementStart, squeeze, Focus.squeeze]
    | «end» channels => simp [elementStart, squeeze]
  · simp [elementStart, paired]

theorem characterData_squeeze (stage : Stage) (s : Bytes) :
    stage.squeeze.characterData (Rss.squeeze s) = (stage.characterData s).map squeeze := by
  by_cases blank : Blank isWhitespace s
  · simp [characterData, blank, blank_squeeze.mpr blank]
  · have visible : ¬ Blank isWhitespace (Rss.squeeze s) := fun empty => blank (blank_squeeze.mp empty)
    cases stage with
    | channel done current focus =>
      simp only [characterData, squeeze, if_neg blank, if_neg visible, trim_squeeze]
      rw [Option.map_map]
      exact (congrArg (Option.map _) (focus.text_squeeze s)).trans (Option.map_map ..)
    | item done current entry focus =>
      simp only [characterData, squeeze, if_neg blank, if_neg visible, trim_squeeze]
      rw [Option.map_map]
      exact (congrArg (Option.map _) (focus.text_squeeze s)).trans (Option.map_map ..)
    | _ => simp [characterData, squeeze, blank, visible]

theorem elementEnd_squeeze (stage : Stage) (name : Bytes) :
    stage.squeeze.elementEnd name = (stage.elementEnd name).map squeeze := by
  cases stage with
  | init => rfl
  | rss channels =>
    simp only [elementEnd, squeeze]
    split <;> rfl
  | channel done current focus =>
    cases focus with
    | idle =>
      simp only [elementEnd, squeeze, Focus.squeeze]
      split <;> simp [squeeze]
    | property key vacant buffer =>
      simp only [elementEnd, squeeze, Focus.squeeze]
      split
      · exact congrArg (fun closed => some (Stage.channel _ closed .idle)) (current.squeeze_set key buffer)
      · rfl
    | sink sink =>
      simp only [elementEnd, squeeze, Focus.squeeze]
      split <;> rfl
  | item done current entry focus =>
    cases focus with
    | idle =>
      simp only [elementEnd, squeeze, Focus.squeeze]
      split <;> simp [squeeze, Channel.squeeze, Focus.squeeze]
    | property key vacant buffer =>
      simp only [elementEnd, squeeze, Focus.squeeze]
      split
      · exact congrArg (fun closed => some (Stage.item _ _ closed .idle)) (entry.squeeze_set key buffer)
      · rfl
    | sink sink =>
      simp only [elementEnd, squeeze, Focus.squeeze]
      split <;> rfl
  | «end» channels => rfl

theorem step_squeeze (stage : Stage) (callback : Parse.Callback) :
    stage.squeeze.step callback.squeeze = (stage.step callback).map squeeze := by
  cases callback with
  | elementStart name atts => exact stage.elementStart_squeeze name atts
  | characterData s => exact stage.characterData_squeeze s
  | elementEnd name => exact stage.elementEnd_squeeze name

theorem parse_squeeze (stage : Stage) : stage.squeeze.parse = stage.parse.squeeze := by
  cases stage with
  | channel done current focus =>
    cases focus <;>
      simp [parse, squeeze, Parse.squeeze, Data.squeeze, Focus.squeeze, Focus.activeProperty,
        Focus.activeSink, Focus.activeData, Focus.depth, Rss.squeeze]
  | item done current entry focus =>
    cases focus <;>
      simp [parse, squeeze, Parse.squeeze, Data.squeeze, Focus.squeeze, Focus.activeProperty,
        Focus.activeSink, Focus.activeData, Focus.depth, Rss.squeeze, Channel.squeeze]
  | _ => simp [parse, squeeze, Parse.squeeze, Data.squeeze, Rss.squeeze]

theorem characterData_nil (stage : Stage) : stage.characterData [] = some stage := by
  simp [characterData, Blank]

/-- Once no white space is left, text may as well come in one piece. -/
theorem characterData_joins (stage : Stage) {first second : Bytes}
    (firstPlain : Rss.squeeze first = first) (secondPlain : Rss.squeeze second = second) :
    (stage.characterData first).bind (·.characterData second) =
      stage.characterData (first ++ second) := by
  have trimFirst : trim isWhitespace first = first := firstPlain ▸ trim_squeeze first
  have trimSecond : trim isWhitespace second = second := secondPlain ▸ trim_squeeze second
  have plain : Rss.squeeze (first ++ second) = first ++ second := by
    rw [squeeze_append, firstPlain, secondPlain]
  have trimBoth : trim isWhitespace (first ++ second) = first ++ second :=
    plain ▸ trim_squeeze (first ++ second)
  have noneBlank {text : Bytes} (same : trim isWhitespace text = text) :
      Blank isWhitespace text ↔ text = [] := by rw [← trim_eq_nil, same]
  by_cases nothing : first = []
  · rw [nothing, characterData_nil, Option.bind_some, List.nil_append]
  · by_cases more : second = []
    · simp only [more, characterData_nil, List.append_nil, Option.bind_fun_some]
    · cases stage with
      | channel done current focus =>
        cases focus <;>
          simp [characterData, noneBlank, trimFirst, trimSecond, trimBoth, nothing, more, Focus.text]
      | item done current entry focus =>
        cases focus <;>
          simp [characterData, noneBlank, trimFirst, trimSecond, trimBoth, nothing, more, Focus.text]
      | _ => simp [characterData, noneBlank, trimFirst, trimBoth, nothing]

theorem characterData_refused {stage next : Stage} {first second : Bytes}
    (read : stage.characterData first = some next) (refused : next.characterData second = none) :
    next = stage := by
  by_cases blank : Blank isWhitespace first
  · simpa [characterData, blank] using read.symm
  · by_cases more : Blank isWhitespace second
    · simp [characterData, more] at refused
    · cases stage with
      | channel done current focus =>
        cases focus <;> simp [characterData, blank, Focus.text] at read <;> subst read <;>
          simp [characterData, more, Focus.text] at refused
      | item done current entry focus =>
        cases focus <;> simp [characterData, blank, Focus.text] at read <;> subst read <;>
          simp [characterData, more, Focus.text] at refused
      | _ => simp [characterData, blank] at read

end Stage

namespace Progress

def squeeze : Progress → Progress
  | .live stage => .live stage.squeeze
  | .rejected stage => .rejected stage.squeeze

theorem parse_squeeze (progress : Progress) : progress.squeeze.parse = progress.parse.squeeze := by
  cases progress with
  | live stage => exact stage.parse_squeeze
  | rejected stage =>
    simp only [squeeze, parse, stage.parse_squeeze]
    rfl

theorem next_squeeze (progress : Progress) (callback : Parse.Callback) :
    progress.squeeze.next callback.squeeze = (progress.next callback).squeeze := by
  cases progress with
  | live stage =>
    simp only [squeeze, next, stage.step_squeeze]
    cases stage.step callback <;> rfl
  | rejected stage => rfl

/-- A single event, unless it is white space. -/
def hear (progress : Progress) (event : Parse.Event) : Progress := progress.next event.callback.squeeze

theorem next_nothing (progress : Progress) : progress.next (.characterData []) = progress := by
  cases progress with
  | live stage => simp only [next, Stage.step, stage.characterData_nil, ofStep]
  | rejected stage => rfl

theorem next_joins (progress : Progress) {first second : Bytes}
    (firstPlain : Rss.squeeze first = first) (secondPlain : Rss.squeeze second = second) :
    (progress.next (.characterData first)).next (.characterData second) =
      progress.next (.characterData (first ++ second)) := by
  cases progress with
  | live stage =>
    have joins := stage.characterData_joins firstPlain secondPlain
    simp only [next, Stage.step, ← joins]
    cases read : stage.characterData first with
    | none => rfl
    | some now =>
      simp only [ofStep, Option.bind_some]
      cases refused : now.characterData second with
      | none => rw [Stage.characterData_refused read refused]
      | some later => rfl
  | rejected stage => rfl

theorem next_events (progress : Progress) (callback : Parse.Callback) :
    progress.next callback.squeeze = callback.events.foldl hear progress := by
  cases callback with
  | elementStart name atts => rfl
  | elementEnd name => rfl
  | characterData s =>
    induction s generalizing progress with
    | nil => exact progress.next_nothing
    | cons char rest ih =>
      have plain (text : Bytes) : Rss.squeeze (Rss.squeeze text) = Rss.squeeze text := by
        simp [Rss.squeeze]
      have cut : Rss.squeeze (char :: rest) = Rss.squeeze [char] ++ Rss.squeeze rest :=
        squeeze_append [char] rest
      rw [Parse.Callback.squeeze, cut, ← progress.next_joins (plain [char]) (plain rest)]
      exact ih (progress.hear (.character char))

/-- Up to white space, a parse depends on the events alone. -/
theorem foldl_events (progress : Progress) (callbacks : List Parse.Callback) :
    (callbacks.foldl next progress).squeeze =
      (Parse.events callbacks).foldl hear progress.squeeze := by
  have squeezed : (callbacks.foldl next progress).squeeze =
      callbacks.foldl (fun now callback => now.next callback.squeeze) progress.squeeze :=
    (List.foldl_hom squeeze fun now callback => now.next_squeeze callback).symm
  rw [squeezed, Parse.events, List.foldl_flatMap]
  simp only [next_events]

theorem foldl_same (progress : Progress) {callbacks callbacks' : List Parse.Callback}
    (same : Parse.events callbacks = Parse.events callbacks') :
    (callbacks.foldl next progress).parse.squeeze = (callbacks'.foldl next progress).parse.squeeze := by
  rw [← parse_squeeze, ← parse_squeeze, foldl_events, foldl_events, same]

end Progress

/-- However expat cuts the text of a document, the parser ends in the same state with the same
values, up to white space inside them. -/
theorem feed_recut {callbacks callbacks' : List Parse.Callback}
    (same : Parse.events callbacks = Parse.events callbacks') :
    ∃ final final', Parse.feed {} callbacks = .ok final ∧ Parse.feed {} callbacks' = .ok final' ∧
      final.squeeze = final'.squeeze := by
  refine ⟨_, _, feed_follows (.live .init) callbacks, feed_follows (.live .init) callbacks', ?_⟩
  exact Progress.foldl_same (.live .init) same

/-- `Q &amp; A` in three calls and in one: the slots differ in their blanks only. -/
theorem feed_recut_entity :
    ∃ final final',
      Parse.feed {} [.elementStart TAG_NAME_RSS [ATTR_NAME_VERSION, RSS_SUPPORTED_VERSION],
        .elementStart TAG_NAME_CHANNEL [], .elementStart TAG_NAME_TITLE [],
        .characterData (bytes "Q "), .characterData (bytes "&"), .characterData (bytes " A"),
        .elementEnd TAG_NAME_TITLE] = .ok final ∧
      Parse.feed {} [.elementStart TAG_NAME_RSS [ATTR_NAME_VERSION, RSS_SUPPORTED_VERSION],
        .elementStart TAG_NAME_CHANNEL [], .elementStart TAG_NAME_TITLE [],
        .characterData (bytes "Q & A"), .elementEnd TAG_NAME_TITLE] = .ok final' ∧
      final.squeeze = final'.squeeze :=
  feed_recut (by decide +kernel)

end Xrss.Rss
