import Xrss.Main.Reservation
import Xrss.Rss.Client

namespace Xrss.Main

open Zig Datetime Rss

/-- The item loops stay within the slots that are reserved for the channel. -/
def Reserved (channel cacheChannel : Channel) : Prop :=
  coverage channel.items cacheChannel.items ≤ channel.items.length

instance (channel cacheChannel : Channel) : Decidable (Reserved channel cacheChannel) :=
  inferInstanceAs (Decidable (_ ≤ _))

theorem compareChannel_completes (grow : Growth) (state : MergeState)
    {channel cacheChannel : Channel} (reserved : Reserved channel cacheChannel) :
    (∃ next, compareChannel grow state channel cacheChannel = .ok next) ↔
      Mergeable channel cacheChannel := by
  simp only [compareChannel_eq_ok]
  cases stale : isStale channel cacheChannel with
  | true =>
    simp only [↓reduceIte]
    exact ⟨fun ⟨_, dated, _⟩ => ⟨dated, by simp [stale]⟩,
      fun mergeable => ⟨state, mergeable.dated, rfl⟩⟩
  | false =>
    simp only [Bool.false_eq_true, ↓reduceIte]
    constructor
    · intro success
      rcases success with ⟨_, dated, comparable, _⟩
      exact ⟨dated, fun _ => comparable⟩
    · intro mergeable
      have room : (state.reserve grow channel).items.length +
          (positions channel.items cacheChannel.items).length ≤
            (state.reserve grow channel).capacity := by
        have reserve : channel.items.length ≤ (state.reserve grow channel).capacity := by
          simpa [MergeState.reserve] using ArrayList.le_capacity_ensure grow
            state.toDelete.clearRetainingCapacity channel.items.length
        have covered := coverage_of_comparable (mergeable.comparable stale)
        simpa using Nat.le_trans (covered ▸ reserved) reserve
      obtain ⟨toDelete, extended⟩ := ArrayList.exists_extends.mpr room
      exact ⟨_, mergeable.dated, mergeable.comparable stale, toDelete, extended, rfl⟩

theorem mergeFound_completes {grow : Growth} {state : MergeState} {channel : Channel}
    {found : Option Channel}
    (reserved : ∀ cacheChannel, found = some cacheChannel → Reserved channel cacheChannel) :
    (∃ next, mergeFound grow state channel found = .ok next) ↔
      ∀ cacheChannel, found = some cacheChannel → Mergeable channel cacheChannel := by
  cases found with
  | none => simp [mergeFound]
  | some cacheChannel =>
    have completes := compareChannel_completes grow state (reserved cacheChannel rfl)
    simpa [mergeFound] using completes

/-- With all titles there and room in the reserve, the merge completes exactly
when each channel can be compared with the cached one of its title. -/
theorem merge_completes {grow : Growth} {data cache : Data}
    (titled : ∀ channel ∈ data.channels, channel.props.get .title ≠ none)
    (cacheTitled : ∀ channel ∈ cache.channels, channel.props.get .title ≠ none)
    (reserved : ∀ channel ∈ data.channels, ∀ cacheChannel,
      findCached cache.channels channel = some cacheChannel → Reserved channel cacheChannel) :
    (∃ output, merge grow data cache = .ok output) ↔
      ∀ channel ∈ data.channels, ∀ cacheChannel,
        findCached cache.channels channel = some cacheChannel → Mergeable channel cacheChannel := by
  have each : ∀ channel ∈ data.channels, ∀ state,
      (∃ next, mergeChannel grow state channel cache.channels = .ok next) ↔
        ∀ cacheChannel, findCached cache.channels channel = some cacheChannel →
          Mergeable channel cacheChannel := by
    intro channel member state
    rw [mergeChannel_of_titled ⟨fun _ => titled channel member, fun cacheChannel before =>
      cacheTitled cacheChannel ((List.takeWhile_prefix _).subset before)⟩]
    exact mergeFound_completes (reserved channel member)
  have completes := foldlM_completes data.channels each {}
  simpa [merge, Outcome.bind_eq_ok] using completes

structure DatesParse (data : Data) : Prop where
  built : ∀ channel ∈ data.channels, ∀ dateStr ∈ channel.props.get .lastBuildDate,
    (parseRfc1123ToNanos dateStr).toOption ≠ none
  published : ∀ channel ∈ data.channels, ∀ item ∈ channel.items,
    ∀ dateStr ∈ item.props.get .pubDate, (parseRfc1123ToNanos dateStr).toOption ≠ none

/-- The optional properties that merging a feed with itself relies on. -/
structure SelfMergeable (data : Data) : Prop where
  built : ∀ channel ∈ data.channels, channel.props.get .lastBuildDate ≠ none
  guids : ∀ channel ∈ data.channels, ∀ twin, findCached data.channels channel = some twin →
    isStale channel twin = false → ∀ item ∈ channel.items, ∀ other ∈ twin.items,
      item.props.get .guid ≠ none ∧ other.props.get .guid ≠ none
  dates : ∀ channel ∈ data.channels, ∀ twin, findCached data.channels channel = some twin →
    isStale channel twin = false → ∀ item ∈ channel.items, ∀ other ∈ twin.items,
      item.props.get .guid = other.props.get .guid →
        item.props.get .pubDate ≠ none ∧ other.props.get .pubDate ≠ none

theorem nanos_ne_none_iff {prop : Option Bytes}
    (parses : ∀ dateStr ∈ prop, (parseRfc1123ToNanos dateStr).toOption ≠ none) :
    nanos prop ≠ none ↔ prop ≠ none := by
  cases prop with
  | none => simp [nanos]
  | some dateStr => simpa [nanos] using parses dateStr rfl

theorem exists_findCached {channels : List Channel} {channel : Channel}
    (member : channel ∈ channels) : ∃ twin, findCached channels channel = some twin :=
  Option.isSome_iff_exists.mp (List.find?_isSome.mpr ⟨channel, member, by simp⟩)

theorem selfMergeable_iff {data : Data} (dates : DatesParse data) :
    (∀ channel ∈ data.channels, ∀ twin, findCached data.channels channel = some twin →
      Mergeable channel twin) ↔ SelfMergeable data := by
  have built {channel : Channel} (member : channel ∈ data.channels) :=
    nanos_ne_none_iff (dates.built channel member)
  have published {channel : Channel} (member : channel ∈ data.channels) {item : Item}
      (listed : item ∈ channel.items) := nanos_ne_none_iff (dates.published channel member item listed)
  constructor
  · intro mergeable
    refine ⟨fun channel member => ?_, fun channel member twin found current item listed other there => ?_,
      fun channel member twin found current item listed other there same => ?_⟩
    · obtain ⟨twin, found⟩ := exists_findCached member
      exact (built member).mp (mergeable channel member twin found).dated.fetched
    · have compared := (mergeable channel member twin found).comparable current item listed other there
      exact ⟨compared.guid, compared.cacheGuid⟩
    · have compared := (mergeable channel member twin found).comparable current item listed other there
      obtain ⟨cached, fetched⟩ := compared.dates same
      exact ⟨(published member listed).mp fetched,
        (published (List.mem_of_find?_eq_some found) there).mp cached⟩
  · intro complete channel member twin found
    have twinMember := List.mem_of_find?_eq_some found
    refine ⟨⟨(built twinMember).mpr (complete.built twin twinMember),
      (built member).mpr (complete.built channel member)⟩, fun current item listed other there => ?_⟩
    obtain ⟨guid, otherGuid⟩ := complete.guids channel member twin found current item listed other there
    refine ⟨guid, otherGuid, fun same => ?_⟩
    obtain ⟨dated, otherDated⟩ :=
      complete.dates channel member twin found current item listed other there same
    exact ⟨(published twinMember there).mpr otherDated, (published member listed).mpr dated⟩

/-- Merging a feed with an equal cached copy asks for properties that parsing
it does not. -/
theorem merge_self_completes_iff (grow : Growth) (data : Data)
    (titled : ∀ channel ∈ data.channels, channel.props.get .title ≠ none) (dates : DatesParse data)
    (reserved : ∀ channel ∈ data.channels, ∀ twin ∈ findCached data.channels channel,
      Reserved channel twin) :
    (∃ output, merge grow data data = .ok output) ↔ SelfMergeable data :=
  (merge_completes titled titled reserved).trans (selfMergeable_iff dates)

/-- One channel with one item, each with the properties the merge asks for. -/
def datedNews : Data where
  channels := [{
    props := ((EnumArray.initFill none).set .title (some (bytes "News"))).set .lastBuildDate
      (some (bytes "Sat, 07 Sep 2002 09:42:31 GMT"))
    items := [⟨((EnumArray.initFill none).set .guid (some (bytes "1"))).set .pubDate
      (some (bytes "Sat, 07 Sep 2002 00:00:00 GMT"))⟩] }]

theorem merge_self_completes_news :
    (∃ output, merge .std datedNews datedNews = .ok output) ↔ SelfMergeable datedNews :=
  merge_self_completes_iff .std datedNews (by decide +kernel) ⟨by decide +kernel, by decide +kernel⟩
    (by decide +kernel)

/-- A feed without a build date is parsed, but cannot be merged with its own
cached copy. -/
theorem merge_self_missing_build_date :
    ∃ response parser, Client.parse response = .ok parser ∧
      (∀ channel ∈ parser.data.channels, channel.props.get .title ≠ none) ∧
      DatesParse parser.data ∧
      merge .std parser.data parser.data = .error .missingBuildDate := by
  refine ⟨.checked (.rss [.channel [(Config.TAG_NAME_TITLE, bytes "News")] []]) (by decide +kernel),
    { data := ⟨[{ props := (EnumArray.initFill none).set .title (some (bytes "News")) }]⟩,
      state := .«end» }, by decide +kernel, by decide +kernel,
    ⟨by decide +kernel, by decide +kernel⟩, rfl⟩

end Xrss.Main
