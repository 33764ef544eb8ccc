import Xrss.Rss.StageRefinement
import Xrss.Rss.TagStack
import Xrss.Transition.History

/-! How long the name of a skipped element can be read. `active_sink` points to the name that
expat passed to `elementStart`, in the buffer of a tag, and is compared with it again when the
element ends. In between `storeRawNames` may have moved the name. -/

namespace Xrss.Rss

open Zig Transition

/-- What expat finds in the content of a document: a name comes with the length it has in the
encoding of the document. `contentProcessor` stores the raw names whenever it returns, at the end
of a parse buffer and where the text refers to an internal entity. -/
inductive Token where
  | startTag (name : Bytes) (rawNameLength : Nat) (atts : List Bytes)
  | emptyElement (name : Bytes) (atts : List Bytes)
  | endTag (name : Bytes)
  | text (s : Bytes)
  | storeRawNames
  deriving DecidableEq

def Token.callbacks : Token → List Parse.Callback
  | .startTag name _ atts => [.elementStart name atts]
  | .emptyElement name atts => [.elementStart name atts, .elementEnd name]
  | .endTag name => [.elementEnd name]
  | .text s => [.characterData s]
  | .storeRawNames => []

/-- What the buffer of the tag must hold when the raw name is stored. -/
def Token.bufSize : Token → Option Nat
  | .startTag name rawNameLength _ => some (name.length + 1 + rawNameLength)
  | _ => none

/-- `elementEndImpl` comes to the comparison with `active_sink`. -/
def Parse.ComparesSink (self : Parse) : Prop :=
  (self.state = .channel ∨ self.state = .item) ∧ self.activeProperty = .null ∧ self.activeSink ≠ none

instance (self : Parse) : Decidable self.ComparesSink :=
  inferInstanceAs (Decidable ((self.state = .channel ∨ self.state = .item) ∧
    self.activeProperty = .null ∧ self.activeSink ≠ none))

/-- The tags of expat, and the block that `active_sink` points into. The name of an empty element
is in a pool, where it stays until the element has ended. -/
structure Names where
  tags : TagStack := {}
  sink : Option Nat := none

namespace Names

/-- The names after a token, by what it has made of the parser. -/
def next (self : Names) (before after : Parse) (token : Token) : Names :=
  let tags := match token with
    | .startTag name rawNameLength _ => self.tags.startTag name rawNameLength
    | .endTag _ => self.tags.endTag
    | .storeRawNames => self.tags.storeRawNames
    | _ => self.tags
  let sink := match before.activeSink, after.activeSink with
    | none, some _ => tags.tagStack.head?.map Tag.block
    | some _, some _ => self.sink
    | _, none => none
  { tags, sink }

/-- `active_sink` is read from a block that was given back: to be compared, or, where `debug`
messages are compiled in, to be printed with text that is left after trimming. -/
def readsFreed (debug : Bool) (self : Names) (parser : Parse) (token : Token) : Bool :=
  let reads := match token with
    | .endTag _ => true
    | .text s => debug && decide (trim isWhitespace s ≠ [])
    | _ => false
  reads && decide parser.ComparesSink && self.sink.any self.tags.heap.freed.contains

end Names

/-- The parser with the names it points to. -/
structure Reader extends Names where
  progress : Progress := .live .init

namespace Reader

def next (self : Reader) (token : Token) : Reader :=
  let progress := token.callbacks.foldl Progress.next self.progress
  { self.toNames.next self.progress.parse progress.parse token with progress }

def machine (debug : Bool) : Machine Reader Token Bool where
  answer self := self.readsFreed debug self.progress.parse
  next := next

end Reader

section Sink

theorem Focus.start_sink {κ : Type} [DecidableEq κ] [LevelProperty κ]
    {props : EnumArray κ (Option Bytes)} {name : Bytes} {focus : Focus props}
    (started : Focus.start props name = some focus) : ∀ sink ∈ focus.activeSink, sink = name := by
  unfold Focus.start at started
  split at started
  · cases started
    intro sink same
    exact (Option.some.inj same).symm
  · simp only [Option.dite_none_right_eq_some, Option.some.injEq] at started
    obtain ⟨vacant, rfl⟩ := started
    simp [Focus.activeSink]

theorem Focus.text_sink {κ : Type} [DecidableEq κ] [LevelProperty κ]
    {props : EnumArray κ (Option Bytes)} {focus grown : Focus props} {data : Bytes}
    (read : focus.text data = some grown) : grown.activeSink = focus.activeSink := by
  cases focus <;> cases read <;> rfl

theorem Stage.elementStart_sink {stage next : Stage} {name : Bytes} {atts : List Bytes}
    (opened : stage.elementStart name atts = some next) :
    stage.parse.activeSink = none ∧ ∀ sink ∈ next.parse.activeSink, sink = name := by
  unfold Stage.elementStart at opened
  split at opened
  · split at opened
    · simp only [Option.ite_none_right_eq_some, Option.some.injEq] at opened
      obtain ⟨_, rfl⟩ := opened
      exact ⟨rfl, nofun⟩
    · simp only [Option.ite_none_right_eq_some, Option.some.injEq] at opened
      obtain ⟨_, rfl⟩ := opened
      exact ⟨rfl, nofun⟩
    · split at opened
      · cases opened
        exact ⟨rfl, nofun⟩
      · obtain ⟨focus, started, rfl⟩ := Option.map_eq_some_iff.mp opened
        exact ⟨rfl, Focus.start_sink started⟩
    · obtain ⟨focus, started, rfl⟩ := Option.map_eq_some_iff.mp opened
      exact ⟨rfl, Focus.start_sink started⟩
    · cases opened
  · cases opened

theorem Stage.characterData_sink {stage next : Stage} {s : Bytes}
    (read : stage.characterData s = some next) : next.parse.activeSink = stage.parse.activeSink := by
  unfold Stage.characterData at read
  split at read
  · cases read
    rfl
  · split at read
    · obtain ⟨focus, grown, rfl⟩ := Option.map_eq_some_iff.mp read
      exact Focus.text_sink grown
    · obtain ⟨focus, grown, rfl⟩ := Option.map_eq_some_iff.mp read
      exact Focus.text_sink grown
    · cases read

theorem Stage.elementEnd_sink {stage next : Stage} {name : Bytes}
    (closed : stage.elementEnd name = some next) : next.parse.activeSink = none := by
  unfold Stage.elementEnd at closed
  split at closed
  case h_8 => cases closed
  all_goals
    simp only [Option.ite_none_right_eq_some, Option.some.injEq] at closed
    obtain ⟨_, rfl⟩ := closed
    rfl

end Sink

namespace Progress

/-- The unknown element that a live parse is in. -/
def sinkName : Progress → Option Bytes
  | .live stage => stage.parse.activeSink
  | .rejected _ => none

theorem comparesSink_iff (progress : Progress) :
    progress.parse.ComparesSink ↔ progress.sinkName ≠ none := by
  cases progress with
  | rejected stage => simp [Parse.ComparesSink, parse, sinkName]
  | live stage =>
    cases stage with
    | channel done current focus =>
      cases focus <;>
        simp [Parse.ComparesSink, parse, Stage.parse, sinkName, Focus.activeSink, Focus.activeProperty]
    | item done current entry focus =>
      cases focus <;>
        simp [Parse.ComparesSink, parse, Stage.parse, sinkName, Focus.activeSink, Focus.activeProperty]
    | _ => simp [Parse.ComparesSink, parse, Stage.parse, sinkName]

theorem activeSink_of_sinkName {progress : Progress} {sink : Bytes}
    (inside : progress.sinkName = some sink) : progress.parse.activeSink = some sink := by
  cases progress with
  | live stage => exact inside
  | rejected stage => cases inside

theorem sinkName_start {progress : Progress} {name sink : Bytes} {atts : List Bytes}
    (inside : (progress.next (.elementStart name atts)).sinkName = some sink) :
    progress.parse.activeSink = none ∧ progress.sinkName = none ∧ sink = name := by
  cases progress with
  | rejected stage => cases inside
  | live stage =>
    cases opened : stage.elementStart name atts with
    | none => simp [next, Stage.step, opened, ofStep, sinkName] at inside
    | some started =>
      simp only [next, Stage.step, opened, ofStep, sinkName] at inside
      obtain ⟨outside, named⟩ := Stage.elementStart_sink opened
      exact ⟨outside, outside, named sink inside⟩

theorem sinkName_text {progress : Progress} {s sink : Bytes}
    (inside : (progress.next (.characterData s)).sinkName = some sink) :
    progress.sinkName = some sink := by
  cases progress with
  | rejected stage => cases inside
  | live stage =>
    cases read : stage.characterData s with
    | none => simp [next, Stage.step, read, ofStep, sinkName] at inside
    | some grown =>
      simp only [next, Stage.step, read, ofStep, sinkName] at inside
      exact (Stage.characterData_sink read).symm.trans inside

theorem start_of_sink {progress : Progress} (inside : progress.sinkName ≠ none) (name : Bytes)
    (atts : List Bytes) : ∃ stage, progress.next (.elementStart name atts) = .rejected stage := by
  cases progress with
  | rejected stage => exact absurd rfl inside
  | live stage =>
    refine ⟨stage, ?_⟩
    cases opened : stage.elementStart name atts with
    | none => simp [next, Stage.step, opened, ofStep]
    | some started => exact absurd (Stage.elementStart_sink opened).1 inside

theorem text_of_sink {progress : Progress} (inside : progress.sinkName ≠ none) (s : Bytes) :
    (progress.next (.characterData s)).sinkName ≠ none ∨
      (progress.next (.characterData s)).parse.state = .err := by
  cases progress with
  | rejected stage => exact absurd rfl inside
  | live stage =>
    cases read : stage.characterData s with
    | none => exact .inr (by simp [next, Stage.step, read, ofStep, parse])
    | some grown =>
      left
      simp only [next, Stage.step, read, ofStep, sinkName, Stage.characterData_sink read]
      exact inside

theorem sinkName_end (progress : Progress) (name : Bytes) :
    (progress.next (.elementEnd name)).sinkName = none := by
  cases progress with
  | rejected stage => rfl
  | live stage =>
    cases closed : stage.elementEnd name with
    | none => simp [next, Stage.step, closed, ofStep, sinkName]
    | some left =>
      simp only [next, Stage.step, closed, ofStep, sinkName]
      exact Stage.elementEnd_sink closed

end Progress

namespace Reader

/-- The name that `active_sink` points to was moved. -/
def Dangling (self : Reader) : Prop :=
  self.progress.sinkName ≠ none ∧ ∃ block ∈ self.sink, block ∈ self.tags.heap.freed

/-- Raw names are stored in an unknown element whose two names do not fit into the buffer of its
tag: the one that was passed to `elementStart`, and the one in the parse buffer. -/
def Overruns (self : Reader) (token : Token) : Prop :=
  token = .storeRawNames ∧ self.progress.sinkName ≠ none ∧
    ∃ tag ∈ self.tags.tagStack.head?, tag.Outgrows

instance (self : Reader) (token : Token) : Decidable (self.Overruns token) :=
  inferInstanceAs (Decidable (_ ∧ _ ∧ ∃ tag ∈ self.tags.tagStack.head?,
    tag.stored = false ∧ tag.capacity < tag.bufSize))

/-- What holds at any time: the sink points to the name of the innermost tag, or did. -/
structure Sound (reader : Reader) : Prop where
  valid : reader.tags.Valid
  pointed : reader.progress.sinkName ≠ none →
    ∃ tag parent block, reader.tags.tagStack = tag :: parent ∧ reader.sink = some block ∧
      (block = tag.block ∨ block ∈ reader.tags.heap.freed)

theorem freed_next {self : Reader} (valid : self.tags.Valid) (token : Token) :
    (self.next token).tags.Valid ∧ self.tags.heap.freed ⊆ (self.next token).tags.heap.freed := by
  cases token with
  | startTag name rawNameLength atts => exact valid.startTag name rawNameLength
  | endTag name => exact ⟨valid.endTag.1, fun _ => valid.endTag.2 ▸ id⟩
  | storeRawNames => exact valid.storeRawNames
  | _ => exact ⟨valid, List.Subset.refl _⟩

/-- How a token leaves the parser in an unknown element: it opens one, whose name is in the
innermost tag, or nothing happens to the one that is open. -/
theorem inside_next {self : Reader} {token : Token} {sink : Bytes}
    (inside : (self.next token).progress.sinkName = some sink) :
    (self.progress.sinkName = none ∧ (∃ rawNameLength atts, token = .startTag sink rawNameLength atts) ∧
      (self.next token).sink = (self.next token).tags.tagStack.head?.map Tag.block) ∨
    (self.progress.sinkName = some sink ∧ (self.next token).sink = self.sink ∧
      (token = .storeRawNames ∨ (∃ s, token = .text s) ∧ (self.next token).tags = self.tags)) := by
  have after := Progress.activeSink_of_sinkName inside
  cases token with
  | startTag name rawNameLength atts =>
    obtain ⟨before, outside, rfl⟩ := Progress.sinkName_start inside
    refine .inl ⟨outside, ⟨rawNameLength, atts, rfl⟩, ?_⟩
    simp only [next, Names.next] at after ⊢
    rw [before, after]
  | emptyElement name atts =>
    have closed := Progress.sinkName_end (self.progress.next (.elementStart name atts)) name
    exact absurd (inside.symm.trans closed) (Option.some_ne_none sink)
  | endTag name =>
    exact absurd (inside.symm.trans (Progress.sinkName_end self.progress name)) (Option.some_ne_none sink)
  | text s =>
    have still := Progress.sinkName_text inside
    refine .inr ⟨still, ?_, .inr ⟨⟨s, rfl⟩, rfl⟩⟩
    simp only [next, Names.next] at after ⊢
    rw [Progress.activeSink_of_sinkName still, after]
  | storeRawNames =>
    have still : self.progress.parse.activeSink = some sink := after
    refine .inr ⟨inside, ?_, .inl rfl⟩
    simp only [next, Names.next, Token.callbacks, List.foldl_nil, still]

theorem Sound.next {self : Reader} (sound : self.Sound) (token : Token) : (self.next token).Sound := by
  obtain ⟨valid, freed⟩ := freed_next sound.valid token
  refine ⟨valid, fun inside => ?_⟩
  obtain ⟨name, inside⟩ := Option.ne_none_iff_exists'.mp inside
  rcases inside_next inside with ⟨_, ⟨_, _, rfl⟩, placed⟩ | ⟨still, kept, moved | ⟨_, same⟩⟩
  · exact ⟨_, _, _, rfl, placed, .inl rfl⟩
  · subst moved
    obtain ⟨tag, parent, block, stack, points, location⟩ := sound.pointed (by simp [still])
    obtain ⟨top, parent', stack', outgrown, fits⟩ := TagStack.storeRawNames_top stack
    refine ⟨top, parent', block, stack', kept.trans points, ?_⟩
    rcases location with rfl | gone
    · by_cases outgrows : tag.Outgrows
      · exact .inr (outgrown outgrows)
      · exact .inl (fits outgrows).symm
    · exact .inr (freed gone)
  · obtain ⟨tag, parent, block, stack, points, location⟩ := sound.pointed (by simp [still])
    exact ⟨tag, parent, block, by rw [same, stack], kept.trans points, same ▸ location⟩

/-- A sound pointer is moved away from by an overrun and by nothing else. -/
theorem dangling_next {self : Reader} (sound : self.Sound) {token : Token}
    (dangling : (self.next token).Dangling) : self.Dangling ∨ self.Overruns token := by
  have sound' := sound.next token
  obtain ⟨inside, block, points, gone⟩ := dangling
  obtain ⟨name, inside⟩ := Option.ne_none_iff_exists'.mp inside
  have used {tag : Tag} {parent : List Tag} (stack : (self.next token).tags.tagStack = tag :: parent) :
      tag.block ∉ (self.next token).tags.heap.freed :=
    sound'.valid.accounts.not_freed (by simp [TagStack.tags, stack])
  rcases inside_next inside with ⟨_, ⟨_, _, rfl⟩, placed⟩ | ⟨still, kept, moved | ⟨_, same⟩⟩
  · rw [placed] at points
    cases points
    exact absurd gone (used rfl)
  · subst moved
    obtain ⟨tag, parent, block', stack, points', location⟩ := sound.pointed (by simp [still])
    rw [kept, points'] at points
    cases points
    obtain ⟨top, parent', stack', _, fits⟩ := TagStack.storeRawNames_top stack
    rcases location with rfl | earlier
    · refine .inr ⟨rfl, by simp [still], tag, by simp [stack], ?_⟩
      by_contra room
      exact used stack' ((fits room).symm ▸ gone)
    · exact .inl ⟨by simp [still], _, points', earlier⟩
  · exact .inl ⟨by simp [still], block, kept ▸ points, same ▸ gone⟩

theorem dangling_of_overruns {self : Reader} (sound : self.Sound) {token : Token}
    (overruns : self.Overruns token) : (self.next token).Dangling := by
  obtain ⟨rfl, inside, tag, innermost, outgrows⟩ := overruns
  obtain ⟨tag', parent, block, stack, points, location⟩ := sound.pointed inside
  obtain ⟨name, inside⟩ := Option.ne_none_iff_exists'.mp inside
  rw [stack] at innermost
  cases innermost
  obtain ⟨_, _, _, outgrown, _⟩ := TagStack.storeRawNames_top stack
  have after : (self.next .storeRawNames).progress.sinkName = some name := inside
  refine ⟨by simp [after], block, ?_, ?_⟩
  · rcases inside_next after with ⟨outside, _⟩ | ⟨_, kept, _⟩
    · exact absurd (inside.symm.trans outside) (Option.some_ne_none name)
    · exact kept.trans points
  · rcases location with rfl | gone
    · exact outgrown outgrows
    · exact (freed_next sound.valid .storeRawNames).2 gone

/-- A pointer that dangles is read in the end, unless the document is refused before. -/
theorem of_dangling {self : Reader} (sound : self.Sound) (dangling : self.Dangling) (debug : Bool)
    (token : Token) :
    (self.next token).Dangling ∨ self.readsFreed debug self.progress.parse token = true ∨
      (self.next token).progress.parse.state = .err := by
  obtain ⟨inside, block, points, gone⟩ := dangling
  have gone' := (freed_next sound.valid token).2 gone
  cases token with
  | startTag name rawNameLength atts =>
    obtain ⟨stage, refused⟩ := Progress.start_of_sink inside name atts
    refine .inr (.inr ?_)
    simp only [next, Token.callbacks, List.foldl_cons, List.foldl_nil, refused]
    rfl
  | emptyElement name atts =>
    obtain ⟨stage, refused⟩ := Progress.start_of_sink inside name atts
    refine .inr (.inr ?_)
    simp only [next, Token.callbacks, List.foldl_cons, List.foldl_nil, refused]
    rfl
  | endTag name =>
    refine .inr (.inl ?_)
    simp only [Names.readsFreed, (Progress.comparesSink_iff _).mpr inside, decide_true, Bool.true_and]
    rw [Option.mem_def.mp points]
    simpa using gone
  | text s =>
    rcases Progress.text_of_sink inside s with still | refused
    · have after : (self.next (.text s)).progress.sinkName ≠ none := still
      obtain ⟨name, same⟩ := Option.ne_none_iff_exists'.mp after
      rcases inside_next same with ⟨_, ⟨_, _, impossible⟩, _⟩ | ⟨_, kept, _⟩
      · cases impossible
      · exact .inl ⟨after, block, kept ▸ points, gone'⟩
    · exact .inr (.inr refused)
  | storeRawNames =>
    have after : (self.next .storeRawNames).progress.sinkName ≠ none := inside
    obtain ⟨name, same⟩ := Option.ne_none_iff_exists'.mp after
    rcases inside_next same with ⟨_, ⟨_, _, impossible⟩, _⟩ | ⟨_, kept, _⟩
    · cases impossible
    · exact .inl ⟨after, block, kept ▸ points, gone'⟩

theorem sound_new : Sound {} := ⟨TagStack.valid_new, nofun⟩

theorem err_next {self : Reader} (refused : self.progress.parse.state = .err) (token : Token) :
    (self.next token).progress.parse.state = .err := by
  cases same : self.progress with
  | live stage =>
    rw [same] at refused
    exact absurd refused stage.parse_live
  | rejected stage =>
    simp only [next, same, foldl_rejected]
    rfl

theorem final_progress (debug : Bool) (tokens : List Token) :
    ((machine debug).final {} tokens).progress =
      (tokens.flatMap Token.callbacks).foldl Progress.next (.live .init) := by
  induction tokens using List.reverseRecOn with
  | nil => rfl
  | append_singleton tokens token ih =>
    rw [Machine.final_snoc, List.flatMap_append, List.foldl_append, ← ih, List.flatMap_singleton]
    rfl

/-- What a run so far says about the pointer: it has been moved away from in an overrun before it
dangled or was read in that state, and an overrun has led to that unless the document is refused. -/
structure Told (past : List (Event Reader Token Bool)) (reader : Reader) : Prop where
  sound : reader.Sound
  dangling : reader.Dangling → ∃ event ∈ past, event.before.Overruns event.input
  read : (∃ event ∈ past, event.output = true) → ∃ event ∈ past, event.before.Overruns event.input
  overrun : (∃ event ∈ past, event.before.Overruns event.input) →
    (∃ event ∈ past, event.output = true) ∨ reader.Dangling ∨ reader.progress.parse.state = .err

theorem dangling_of_readsFreed {self : Reader} {debug : Bool} {token : Token}
    (stale : self.readsFreed debug self.progress.parse token = true) : self.Dangling := by
  simp only [Names.readsFreed, Bool.and_eq_true, decide_eq_true_eq, Progress.comparesSink_iff,
    Option.any_eq_true, List.contains_iff_mem] at stale
  exact ⟨stale.1.2, stale.2⟩

theorem Told.next {debug : Bool} {past : List (Event Reader Token Bool)} {reader : Reader}
    (told : Told past reader) (token : Token) :
    Told (past ++ [(machine debug).event reader token]) (reader.next token) := by
  have longer {property : Event Reader Token Bool → Prop} (found : ∃ event ∈ past, property event) :
      ∃ event ∈ past ++ [(machine debug).event reader token], property event := by
    obtain ⟨event, member, holds⟩ := found
    exact ⟨event, List.mem_append_left _ member, holds⟩
  have last : (machine debug).event reader token ∈ past ++ [(machine debug).event reader token] := by simp
  refine ⟨told.sound.next token, fun dangling => ?_, fun read => ?_, fun overrun => ?_⟩
  · rcases dangling_next told.sound dangling with before | overruns
    · exact longer (told.dangling before)
    · exact ⟨_, last, overruns⟩
  · obtain ⟨event, member, stale⟩ := read
    rcases List.mem_append.mp member with earlier | now
    · exact longer (told.read ⟨event, earlier, stale⟩)
    · cases List.mem_singleton.mp now
      exact longer (told.dangling (dangling_of_readsFreed stale))
  · obtain ⟨event, member, overruns⟩ := overrun
    rcases List.mem_append.mp member with earlier | now
    · rcases told.overrun ⟨event, earlier, overruns⟩ with stale | dangling | refused
      · exact .inl (longer stale)
      · rcases of_dangling told.sound dangling debug token with still | stale | refused
        · exact .inr (.inl still)
        · exact .inl ⟨_, last, stale⟩
        · exact .inr (.inr refused)
      · exact .inr (.inr (err_next refused token))
    · cases List.mem_singleton.mp now
      exact .inr (.inl (dangling_of_overruns told.sound overruns))

theorem told_final (debug : Bool) (tokens : List Token) :
    Told ((machine debug).history {} tokens) ((machine debug).final {} tokens) :=
  (machine debug).history_induction (fun _ => True) Told
    ⟨sound_new, fun dangling => absurd rfl dangling.1, by simp, by simp⟩
    (fun _ _ token told _ => told.next token) tokens fun _ _ => trivial

/-- A parser that accepts in the end has read the name that was moved. -/
theorem stale_of_overrun {debug : Bool} {tokens : List Token}
    (accepted : ((machine debug).final {} tokens).progress.parse.state = .«end»)
    (overrun : ∃ event ∈ (machine debug).history {} tokens, event.before.Overruns event.input) :
    ∃ event ∈ (machine debug).history {} tokens, event.output = true := by
  rcases (told_final debug tokens).overrun overrun with stale | dangling | refused
  · exact stale
  · have compares := (Progress.comparesSink_iff _).mpr dangling.1
    rw [Parse.ComparesSink, accepted] at compares
    simp at compares
  · rw [accepted] at refused
    cases refused

theorem bufSize_final (debug : Bool) (tokens : List Token) :
    ∀ tag ∈ ((machine debug).final {} tokens).tags.tagStack,
      ∃ token ∈ tokens, token.bufSize = some tag.bufSize := by
  induction tokens using List.reverseRecOn with
  | nil => nofun
  | append_singleton tokens token ih =>
    have earlier {tag : Tag} (open_ : tag ∈ ((machine debug).final {} tokens).tags.tagStack) :
        ∃ token' ∈ tokens ++ [token], token'.bufSize = some tag.bufSize := by
      obtain ⟨token', member, size⟩ := ih tag open_
      exact ⟨token', List.mem_append_left _ member, size⟩
    rw [Machine.final_snoc]
    intro tag member
    cases token with
    | startTag name rawNameLength atts =>
      rcases List.mem_cons.mp member with rfl | below
      · exact ⟨_, List.mem_append_right _ (List.mem_singleton_self _), rfl⟩
      · exact earlier (TagStack.tagStack_take _ ▸ below)
    | endTag name => exact earlier (TagStack.endTag_subset _ member)
    | storeRawNames =>
      obtain ⟨tag', before, size⟩ := TagStack.bufSize_storeRawNames member
      exact size ▸ earlier before
    | _ => exact earlier member

end Reader

/-- While a feed is parsed that the parser accepts, the name of a skipped element is read from
memory that was given back exactly when raw names have been stored in an unknown element whose
two names do not fit into the buffer of its tag. -/
theorem stale_read_iff (debug : Bool) (tokens : List Token) {final : Parse}
    (fed : Parse.feed {} (tokens.flatMap Token.callbacks) = .ok final)
    (accepted : final.state = .«end») :
    (∃ event ∈ (Reader.machine debug).history {} tokens, event.output = true) ↔
      ∃ event ∈ (Reader.machine debug).history {} tokens, event.before.Overruns event.input := by
  have same : ((Reader.machine debug).final {} tokens).progress.parse = final := by
    have followed : Parse.feed {} (tokens.flatMap Token.callbacks) = .ok _ :=
      feed_follows (.live .init) (tokens.flatMap Token.callbacks)
    rw [Reader.final_progress]
    exact Outcome.ok.inj (followed.symm.trans fed)
  exact ⟨(Reader.told_final debug tokens).read, Reader.stale_of_overrun (same ▸ accepted)⟩

/-- A feed with `sy:updateFrequency`, in which the text refers to an entity. -/
theorem stale_read_iff_update :
    ∃ tokens : List Token, (∃ final, Parse.feed {} (tokens.flatMap Token.callbacks) = .ok final ∧
        final.state = .«end») ∧
      ∃ event ∈ (Reader.machine false).history {} tokens, event.output = true := by
  let tokens : List Token := [
    .startTag Config.TAG_NAME_RSS 3 [Config.ATTR_NAME_VERSION, Config.RSS_SUPPORTED_VERSION],
    .startTag Config.TAG_NAME_CHANNEL 7 [], .startTag (bytes "sy:updateFrequency") 18 [],
    .storeRawNames, .text (bytes "1"), .storeRawNames, .endTag (bytes "sy:updateFrequency"),
    .endTag Config.TAG_NAME_CHANNEL, .endTag Config.TAG_NAME_RSS]
  have fed : Parse.feed {} (tokens.flatMap Token.callbacks) =
      .ok { data := ⟨[{}]⟩, state := .«end» } := by decide +kernel
  exact ⟨tokens, ⟨_, fed, rfl⟩, (stale_read_iff false tokens fed rfl).mpr (by decide +kernel)⟩

/-- As long as both names of each start tag fit into a new buffer, unknown elements are skipped
safely, wherever raw names are stored and whether or not the document is accepted. -/
theorem short_names_read_live (debug : Bool) (tokens : List Token)
    (short : ∀ token ∈ tokens, ∀ size ∈ token.bufSize, size ≤ Tag.INIT_TAG_BUF_SIZE) :
    ∀ event ∈ (Reader.machine debug).history {} tokens, event.output = false := by
  intro event member
  by_contra stale
  obtain ⟨overrun, listed, overruns⟩ :=
    (Reader.told_final debug tokens).read ⟨event, member, by simpa using stale⟩
  obtain ⟨before, token, after, rfl, rfl⟩ := (Reader.machine debug).mem_history listed
  obtain ⟨_, _, tag, innermost, _, exceeds⟩ := overruns
  have opened := List.mem_of_mem_head? innermost
  have valid := (Reader.told_final debug before).sound.valid
  have room := valid.capacity tag (List.mem_append_left _ opened)
  obtain ⟨opening, earlier, size⟩ := Reader.bufSize_final debug before tag opened
  have less := short opening (List.mem_append_left _ earlier) _ size
  omega

/-- `content:encoded` has 15 bytes. -/
theorem short_names_read_live_encoded :
    ∃ tokens : List Token, Token.startTag (bytes "content:encoded") 15 [] ∈ tokens ∧
      ∀ event ∈ (Reader.machine true).history {} tokens, event.output = false := by
  let tokens : List Token := [
    .startTag Config.TAG_NAME_RSS 3 [Config.ATTR_NAME_VERSION, Config.RSS_SUPPORTED_VERSION],
    .startTag Config.TAG_NAME_CHANNEL 7 [], .startTag Config.TAG_NAME_ITEM 4 [],
    .startTag (bytes "content:encoded") 15 [], .text (bytes "Q"), .storeRawNames,
    .text (bytes "A"), .endTag (bytes "content:encoded")]
  exact ⟨tokens, by decide +kernel, short_names_read_live true tokens (by decide +kernel)⟩

end Xrss.Rss
