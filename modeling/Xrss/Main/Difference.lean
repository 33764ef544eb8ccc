import Xrss.Main.AtMostOnce
import Xrss.Main.BuildDates

/-! Between two completed runs the cache file is not seen: the second prints the difference of the
two feeds. -/

namespace Xrss.Main

open Zig Rss

theorem covers_stored {item original : Item} (comparable : Comparable item original.cached) :
    covers original.cached item = covers original item := by
  obtain ⟨guid, filled⟩ := Option.ne_none_iff_exists'.mp comparable.cacheGuid
  obtain ⟨kept, _⟩ := cachedProp_eq_some.mp filled
  have guids : original.cached.props.get .guid = original.props.get .guid := by rw [filled, kept]
  have dates : nanos (original.cached.props.get .pubDate) = nanos (original.props.get .pubDate) :=
    nanos_cachedProp _
  rw [covers, covers, guids, dates]

theorem uncovered_stored {channel twin : Channel}
    (comparable : ∀ item ∈ channel.items, ∀ cacheItem ∈ twin.cached.items, Comparable item cacheItem) :
    uncovered channel twin.cached = uncovered channel twin := by
  rw [uncovered, uncovered]
  congr 1
  apply List.filter_congr
  intro item listed
  have same : twin.cached.items.any (covers · item) = twin.items.any (covers · item) := by
    rw [Channel.cached, List.any_map, Bool.eq_iff_iff, List.any_eq_true, List.any_eq_true]
    apply exists_congr
    intro original
    apply and_congr_right
    intro member
    rw [Function.comp, covers_stored (comparable item listed _ (List.mem_map_of_mem member))]
  rw [same]

theorem findCached_stored {channels : List Channel} {channel : Channel}
    (titled : Titled (channels.map Channel.cached) channel) :
    findCached (channels.map Channel.cached) channel = (findCached channels channel).map Channel.cached := by
  rw [findCached, findCached, List.find?_map]
  congr 1
  by_cases visible : ∃ title, channel.props.get .title = some title ∧ title ≠ []
  · obtain ⟨title, own, written⟩ := visible
    congr 1
    funext other
    rw [Function.comp, own, Bool.eq_iff_iff, beq_iff_eq, beq_iff_eq]
    exact cachedProp_eq_some.trans (and_iff_left written)
  · -- no title is stored empty, and where one was lost the search would not have come to its end
    have empty (other : Channel) (member : other ∈ channels) : channel.props.get .title = some [] := by
      have listed : channels.map Channel.cached ≠ [] := List.ne_nil_of_mem (List.mem_map_of_mem member)
      obtain ⟨title, own⟩ := Option.ne_none_iff_exists'.mp (titled.own listed)
      by_cases written : title = []
      · rw [own, written]
      · exact absurd ⟨title, own, written⟩ visible
    have stored : ∀ other ∈ channels, other.cached.props.get .title ≠ channel.props.get .title := by
      intro other member same
      rw [empty other member] at same
      exact (cachedProp_eq_some.mp same).2 rfl
    have nowhere : ∀ other ∈ channels, other.props.get .title ≠ channel.props.get .title := by
      intro other member same
      have missing : findCached (channels.map Channel.cached) channel = none := by
        rw [findCached, List.find?_map, List.find?_eq_none.mpr fun copy there => by
          simpa using stored copy there]
        rfl
      apply titled.of_not_found missing other.cached (List.mem_map_of_mem member)
      have lost : cachedProp (some []) = none := rfl
      exact (congrArg cachedProp (same.trans (empty other member))).trans lost
    rw [List.find?_eq_none.mpr fun other member => by simpa using stored other member,
      List.find?_eq_none.mpr fun other member => by simpa using nowhere other member]

theorem isStale_stored (channel former : Channel) :
    isStale channel former.cached = isStale channel former := by
  have dates : nanos (former.cached.props.get .lastBuildDate) =
      nanos (former.props.get .lastBuildDate) := nanos_cachedProp _
  rw [isStale, isStale, dates]

/-- What is fresh beside a stored feed is fresh beside the feed itself. -/
theorem fresh_stored {grow : Growth} {data fetched output : Data}
    (merged : merge grow fetched data.cached = .ok output) {channel : Channel}
    (member : channel ∈ fetched.channels) :
    fresh data.cached.channels channel = fresh data.channels channel := by
  have same := findCached_stored (titled_of_merge merged member)
  have found : findCached data.cached.channels channel =
    (findCached data.channels channel).map Channel.cached := same
  cases twin : findCached data.channels channel with
  | none =>
    rw [twin] at found
    simp [fresh, twin, found]
  | some former =>
    rw [twin] at found
    have stale := isStale_stored channel former
    have mergeable := mergeable_of_merge merged member found
    cases old : isStale channel former with
    | true => simp [fresh, twin, found, stale, old]
    | false =>
      have kept := uncovered_stored (mergeable.comparable (stale.trans old))
      simp [fresh, twin, found, stale, old, kept]

theorem difference_of_answers {grow : Growth} {file : CacheFile} {first second : Visit}
    {earlier later : Printed} (answered : (session grow).answer file first = .ok earlier)
    (answered' : (session grow).answer ((session grow).next file first) second = .ok later) :
    ∃ data fetched, Client.parse first.response = .ok { data, state := .«end» } ∧
      Client.parse second.response = .ok { data := fetched, state := .«end» } ∧
      merge grow fetched data.cached = .ok later.output ∧
      later.output.channels = fetched.channels.filterMap (fresh data.channels) := by
  obtain ⟨data, cache, completed⟩ := completed_of_answer answered
  obtain ⟨fetched, parsed, merged⟩ := merged_of_consecutive completed answered'
  refine ⟨data, fetched, completed.parsed, parsed, merged, ?_⟩
  rw [merge_ok merged]
  exact List.filterMap_congr fun channel member => fresh_stored merged member

/-- Of two completed runs in a row, the second prints what its feed adds to the first one's, as if
no cache file lay between them. -/
theorem prints_difference (grow : Growth) (file : CacheFile) (first second : Visit)
    (earlier later : Printed) (answered : (session grow).answer file first = .ok earlier)
    (answered' : (session grow).answer ((session grow).next file first) second = .ok later) :
    ∃ data fetched, Client.parse first.response = .ok { data, state := .«end» } ∧
      Client.parse second.response = .ok { data := fetched, state := .«end» } ∧
      later.output.channels = fetched.channels.filterMap (fresh data.channels) ∧
      later.stdout = (fetched.channels.filterMap (fresh data.channels)).flatMap titledText := by
  obtain ⟨data, fetched, parsed, parsed', _, prints⟩ := difference_of_answers answered answered'
  exact ⟨data, fetched, parsed, parsed', prints, prints ▸ stdout_of_answer answered'⟩

/-- A feed that has lost an item and found another. -/
theorem prints_difference_news :
    ∃ (first second : Visit) (later : Printed) (data fetched : Data),
      (session .std).answer ((session .std).next none first) second = .ok later ∧
        Client.parse first.response = .ok { data, state := .«end» } ∧
        Client.parse second.response = .ok { data := fetched, state := .«end» } ∧
        later.output.channels = fetched.channels.filterMap (fresh data.channels) ∧
        later.stdout = (fetched.channels.filterMap (fresh data.channels)).flatMap titledText := by
  let fetch (guids : List Bytes) (computed) : Visit :=
    .fetch (newsFeed (some (bytes "Sat, 07 Sep 2002 09:42:31 GMT")) guids) computed
  let first : Visit := fetch [bytes "1", bytes "2"] (by decide +kernel)
  let second : Visit := fetch [bytes "2", bytes "3"] (by decide +kernel)
  have completes : ((session .std).answer none first).toOption.isSome ∧
      ((session .std).answer ((session .std).next none first) second).toOption.isSome := by
    decide +kernel
  obtain ⟨earlier, answered⟩ := Outcome.exists_of_isSome completes.1
  obtain ⟨later, answered'⟩ := Outcome.exists_of_isSome completes.2
  obtain ⟨data, fetched, parsed, parsed', prints⟩ :=
    prints_difference .std none first second earlier later answered answered'
  exact ⟨first, second, later, data, fetched, answered', parsed, parsed', prints⟩

/-- A channel that is compared with its own copy has nothing left to print. -/
theorem uncovered_self {channel : Channel}
    (comparable : ∀ item ∈ channel.items, ∀ cacheItem ∈ channel.cached.items, Comparable item cacheItem) :
    uncovered channel channel = { channel with items := [] } := by
  rw [uncovered]
  congr 1
  rw [List.filter_eq_nil_iff]
  intro item listed
  have own := comparable item listed item.cached (List.mem_map_of_mem listed)
  obtain ⟨guid, filled⟩ := Option.ne_none_iff_exists'.mp own.cacheGuid
  have same : item.props.get .guid = item.cached.props.get .guid := by
    rw [filled, (cachedProp_eq_some.mp filled).1]
  obtain ⟨instant, dated⟩ := Option.ne_none_iff_exists'.mp (own.dates same).2
  have covered : covers item item = true := by simp [covers_of_dated rfl dated dated]
  have any : channel.items.any (covers · item) = true := List.any_eq_true.mpr ⟨item, listed, covered⟩
  simp [any]

theorem isStale_self (channel : Channel) : isStale channel channel = false := by
  rw [isStale]
  cases nanos (channel.props.get .lastBuildDate) <;> simp

theorem unchanged_feed_prints_no_item (grow : Growth) (file : CacheFile) (first second : Visit)
    (earlier later : Printed) (answered : (session grow).answer file first = .ok earlier)
    (answered' : (session grow).answer ((session grow).next file first) second = .ok later)
    (unchanged : second.response = first.response)
    (distinct : ∀ parser, Client.parse first.response = .ok parser → DistinctTitles parser.data) :
    ∃ data, Client.parse first.response = .ok { data, state := .«end» } ∧
      later.output.channels = (data.channels.map fun channel => { channel with items := [] }) ∧
      later.stdout =
        data.channels.flatMap fun channel => titledText { channel with items := [] } := by
  obtain ⟨data, fetched, parsed, parsed', merged, prints⟩ := difference_of_answers answered answered'
  rw [unchanged, parsed] at parsed'
  cases parsed'
  suffices emptied : later.output.channels =
      data.channels.map fun channel => { channel with items := [] } from
    ⟨data, parsed, emptied, by rw [stdout_of_answer answered', emptied, List.flatMap_map]⟩
  rw [prints, ← List.filterMap_eq_map]
  apply List.filterMap_congr
  intro channel member
  have stored : channel.cached ∈ data.cached.channels := List.mem_map_of_mem member
  have titled := titled_of_merge merged member
  obtain ⟨title, own⟩ := Option.ne_none_iff_exists'.mp (titled.own (List.ne_nil_of_mem stored))
  have titles := distinct _ parsed
  have found := titles.findCached own member own
  have twin : findCached data.cached.channels channel = some channel.cached := by
    have same : findCached data.cached.channels channel =
        (findCached data.channels channel).map Channel.cached := findCached_stored titled
    rw [same, found, Option.map_some]
  have current : isStale channel channel.cached = false :=
    (isStale_stored channel channel).trans (isStale_self channel)
  have left := uncovered_self ((mergeable_of_merge merged member twin).comparable current)
  simp [fresh, found, isStale_self, left]

theorem unchanged_feed_prints_no_item_news :
    ∃ (visit : Visit) (later : Printed) (data : Data),
      (session .std).answer ((session .std).next none visit) visit = .ok later ∧
        data.channels ≠ [] ∧
        later.output.channels = (data.channels.map fun channel => { channel with items := [] }) ∧
        later.stdout =
          data.channels.flatMap fun channel => titledText { channel with items := [] } := by
  let visit : Visit := .fetch
    (newsFeed (some (bytes "Sat, 07 Sep 2002 09:42:31 GMT")) [bytes "1"]) (by decide +kernel)
  have completes : ((session .std).answer none visit).toOption.isSome ∧
      ((session .std).answer ((session .std).next none visit) visit).toOption.isSome := by decide +kernel
  have distinct : ∀ parser ∈ (Client.parse visit.response).toOption, DistinctTitles parser.data ∧
      parser.data.channels ≠ [] := by decide +kernel
  obtain ⟨earlier, answered⟩ := Outcome.exists_of_isSome completes.1
  obtain ⟨later, answered'⟩ := Outcome.exists_of_isSome completes.2
  obtain ⟨data, parsed, prints⟩ := unchanged_feed_prints_no_item .std none visit visit earlier later
    answered answered' rfl fun parser parsed => (distinct parser (Outcome.toOption_eq_some.mpr parsed)).1
  exact ⟨visit, later, data, answered', (distinct _ (Outcome.toOption_eq_some.mpr parsed)).2, prints⟩

end Xrss.Main
