import Xrss.Rss.StageLevel
import Xrss.Rss.StageRefinement

namespace Xrss.Rss

open Zig Config

/-- The stored value of a property of the element that is open. -/
def Parse.slot (self : Parse) (key : Property) : Option Bytes :=
  match self.state with
  | .channel => do
    let channel ← self.data.channels.getLast?
    let key ← (Channel.Property.fromGeneric key : Outcome Empty _).toOption
    channel.props.get key
  | .item => do
    let channel ← self.data.channels.getLast?
    let item ← channel.items.getLast?
    let key ← (Item.Property.fromGeneric key : Outcome Empty _).toOption
    item.props.get key
  | _ => none

section Focus

variable {κ : Type} [DecidableEq κ] [LevelProperty κ] {props : EnumArray κ (Option Bytes)}

theorem Focus.start_property {name buffer : Bytes} {key : κ} {vacant : props.get key = none}
    (started : Focus.start props name = some (.property key vacant buffer)) :
    name = LevelProperty.tagName key ∧ buffer = [] := by
  unfold Focus.start at started
  split at started
  · cases started
  · rename_i other found
    split at started
    · cases started
      exact ⟨LevelProperty.ofTag_eq_some.mp found, rfl⟩
    · cases started

end Focus

namespace Stage

theorem of_started {stage next : Stage} {name : Bytes} {atts : List Bytes}
    (started : stage.elementStart name atts = some next)
    (active : next.parse.activeProperty ≠ .null) :
    (∃ done current key vacant, next = .channel done current (.property key vacant []) ∧
      name = LevelProperty.tagName key) ∨
    (∃ done current entry key vacant, next = .item done current entry (.property key vacant []) ∧
      name = LevelProperty.tagName key) := by
  unfold elementStart at started
  split at started
  · split at started
    · split at started <;> cases started
      exact absurd rfl active
    · split at started <;> cases started
      exact absurd rfl active
    · split at started
      · cases started
        exact absurd rfl active
      · obtain ⟨focus, opened, rfl⟩ := Option.map_eq_some_iff.mp started
        cases focus with
        | property key vacant buffer =>
          obtain ⟨tag, rfl⟩ := Focus.start_property opened
          exact .inl ⟨_, _, key, vacant, rfl, tag⟩
        | _ => exact absurd rfl active
    · obtain ⟨focus, opened, rfl⟩ := Option.map_eq_some_iff.mp started
      cases focus with
      | property key vacant buffer =>
        obtain ⟨tag, rfl⟩ := Focus.start_property opened
        exact .inr ⟨_, _, _, key, vacant, rfl, tag⟩
      | _ => exact absurd rfl active
    · cases started
  · cases started

end Stage

/-- A property element stores its chunks trimmed one by one. -/
theorem stored_text {callbacks : List Parse.Callback} {name : Bytes} {atts : List Bytes}
    {started : Parse} (fed : Parse.feed {} (callbacks ++ [.elementStart name atts]) = .ok started)
    (live : started.state ≠ .err) (active : started.activeProperty ≠ .null)
    (chunks : List Bytes) :
    ∃ final, started.feed (chunks.map .characterData ++ [.elementEnd name]) = .ok final ∧
      final.state = started.state ∧
      final.slot started.activeProperty = some (collectedText chunks) := by
  obtain ⟨next, ran, rfl⟩ := stage_of_feed fed live
  rw [Stage.run_append] at ran
  obtain ⟨stage, _, stepped⟩ := Option.bind_eq_some_iff.mp ran
  have opened : stage.elementStart name atts = some next := by
    simpa [Stage.step] using stepped
  rcases Stage.of_started opened active with
    ⟨done, current, key, vacant, rfl, rfl⟩ | ⟨done, current, entry, key, vacant, rfl, rfl⟩
  · have ended := (Stage.level_channel done current).run_property key vacant chunks
    refine ⟨_, feed_eq_of_run ended, rfl, ?_⟩
    simp [Stage.parse, Parse.slot, Focus.activeProperty]
  · have ended := (Stage.level_item done current).run_property key vacant chunks
    refine ⟨_, feed_eq_of_run ended, rfl, ?_⟩
    simp [Stage.parse, Parse.slot, Focus.activeProperty]

/-- The stored value is the trimmed text exactly when every cut between two
visible pieces touches no white space. -/
theorem stored_text_trimmed_iff {callbacks : List Parse.Callback} {name : Bytes}
    {atts : List Bytes} {started : Parse}
    (fed : Parse.feed {} (callbacks ++ [.elementStart name atts]) = .ok started)
    (live : started.state ≠ .err) (active : started.activeProperty ≠ .null)
    (chunks : List Bytes) :
    ∃ final value, started.feed (chunks.map .characterData ++ [.elementEnd name]) = .ok final ∧
      final.slot started.activeProperty = some value ∧
      (value = trim isWhitespace chunks.flatten ↔
        ∀ before after, chunks = before ++ after →
          CleanCut isWhitespace before.flatten after.flatten) := by
  obtain ⟨final, finished, _, stored⟩ := stored_text fed live active chunks
  exact ⟨final, _, finished, stored, flatten_trim_eq_iff chunks⟩

theorem stored_text_trimmed_title :
    ∃ started final value,
      Parse.feed {} ([.elementStart TAG_NAME_RSS [ATTR_NAME_VERSION, RSS_SUPPORTED_VERSION],
        .elementStart TAG_NAME_CHANNEL []] ++ [.elementStart TAG_NAME_TITLE []]) = .ok started ∧
      started.feed ([bytes " Daily", bytes "News "].map .characterData ++
        [.elementEnd TAG_NAME_TITLE]) = .ok final ∧
      final.slot started.activeProperty = some value ∧
      (value = bytes "DailyNews" ↔
        ∀ before after, [bytes " Daily", bytes "News "] = before ++ after →
          CleanCut isWhitespace before.flatten after.flatten) := by
  have fed : Parse.feed {} ([.elementStart TAG_NAME_RSS [ATTR_NAME_VERSION, RSS_SUPPORTED_VERSION],
      .elementStart TAG_NAME_CHANNEL []] ++ [.elementStart TAG_NAME_TITLE []]) =
      .ok ⟨⟨[{}]⟩, 12, .channel, .title, none, []⟩ := by decide +kernel
  have stored := stored_text_trimmed_iff fed (by decide) (by decide)
    [bytes " Daily", bytes "News "]
  have text : trim isWhitespace [bytes " Daily", bytes "News "].flatten = bytes "DailyNews" := by
    decide +kernel
  rw [text] at stored
  exact ⟨_, stored.choose, stored.choose_spec.choose, fed, stored.choose_spec.choose_spec⟩

/-- `Q &amp; A` reaches the parser in three calls and is stored without its
blanks, where a single call keeps them. -/
theorem stored_text_entity :
    ∃ started cut whole,
      Parse.feed {} [.elementStart TAG_NAME_RSS [ATTR_NAME_VERSION, RSS_SUPPORTED_VERSION],
        .elementStart TAG_NAME_CHANNEL [], .elementStart TAG_NAME_TITLE []] = .ok started ∧
      started.feed [.characterData (bytes "Q "), .characterData (bytes "&"),
        .characterData (bytes " A"), .elementEnd TAG_NAME_TITLE] = .ok cut ∧
      started.feed [.characterData (bytes "Q & A"), .elementEnd TAG_NAME_TITLE] = .ok whole ∧
      [bytes "Q ", bytes "&", bytes " A"].flatten = bytes "Q & A" ∧
      cut.slot .title = some (bytes "Q&A") ∧ whole.slot .title = some (bytes "Q & A") ∧
      bytes "Q&A" ≠ trim isWhitespace (bytes "Q & A") := by
  refine ⟨_, _, _, rfl, rfl, rfl, ?_⟩
  decide +kernel

end Xrss.Rss
