import Mathlib.Data.List.TakeWhile
import Xrss.Main.Merge

namespace Xrss.Main

open Zig Datetime Rss

/-- The instant a date property stands for. -/
def nanos (prop : Option Bytes) : Option Int :=
  prop.bind fun dateStr => (parseRfc1123ToNanos dateStr).toOption

theorem parseDate_eq_ok {missing : MergeError} {prop : Option Bytes} {instant : Int} :
    parseDate missing prop = .ok instant ↔ nanos prop = some instant := by
  cases prop <;> simp [parseDate, nanos, Outcome.ofOption, Outcome.toOption_eq_some]

theorem parseDate_avoids {reason : Panic} (overflow : .overflow ≠ reason)
    (bounds : .outOfBounds ≠ reason) (missing : MergeError) (prop : Option Bytes) :
    (parseDate missing prop).Avoids reason :=
  .bind (.ofOption _ _) fun _ _ => .mapError (parseRfc1123ToNanos_avoids overflow bounds _) _

/-- The cached item is the same one in a version that is no older. -/
def covers (cacheItem item : Item) : Bool :=
  item.props.get .guid == cacheItem.props.get .guid &&
    match nanos (cacheItem.props.get .pubDate), nanos (item.props.get .pubDate) with
    | some cachePubDate, some itemPubDate => decide (itemPubDate ≤ cachePubDate)
    | _, _ => false

/-- What comparing two items needs. -/
structure Comparable (item cacheItem : Item) : Prop where
  guid : item.props.get .guid ≠ none
  cacheGuid : cacheItem.props.get .guid ≠ none
  dates : item.props.get .guid = cacheItem.props.get .guid →
    nanos (cacheItem.props.get .pubDate) ≠ none ∧ nanos (item.props.get .pubDate) ≠ none

theorem covers_of_dated {item cacheItem : Item} {cachePubDate itemPubDate : Int}
    (same : item.props.get .guid = cacheItem.props.get .guid)
    (cacheDated : nanos (cacheItem.props.get .pubDate) = some cachePubDate)
    (dated : nanos (item.props.get .pubDate) = some itemPubDate) :
    covers cacheItem item = decide (itemPubDate ≤ cachePubDate) := by
  simp [covers, same, cacheDated, dated]

theorem covers_of_ne {item cacheItem : Item}
    (different : item.props.get .guid ≠ cacheItem.props.get .guid) :
    covers cacheItem item = false := by
  simp [covers, different]

theorem compareItem_of_comparable {item cacheItem : Item} (comparable : Comparable item cacheItem)
    (itemIdx : Nat) (toDelete : ArrayList Nat) :
    compareItem item itemIdx toDelete cacheItem =
      if covers cacheItem item then toDelete.appendAssumeCapacity itemIdx else .ok toDelete := by
  obtain ⟨guid, filled⟩ := Option.ne_none_iff_exists'.mp comparable.guid
  obtain ⟨cacheGuid, cacheFilled⟩ := Option.ne_none_iff_exists'.mp comparable.cacheGuid
  by_cases equal : guid = cacheGuid
  · have same : item.props.get .guid = cacheItem.props.get .guid := by
      rw [filled, cacheFilled, equal]
    obtain ⟨cacheDated, dated⟩ := comparable.dates same
    obtain ⟨cachePubDate, cacheDated⟩ := Option.ne_none_iff_exists'.mp cacheDated
    obtain ⟨itemPubDate, dated⟩ := Option.ne_none_iff_exists'.mp dated
    simp [compareItem, filled, cacheFilled, equal, Outcome.ofOption, parseDate_eq_ok.mpr cacheDated,
      parseDate_eq_ok.mpr dated, covers_of_dated same cacheDated dated]
  · have different : item.props.get .guid ≠ cacheItem.props.get .guid := by
      rw [filled, cacheFilled]
      exact fun same => equal (Option.some.inj same)
    simp [compareItem, filled, cacheFilled, equal, Outcome.ofOption, covers_of_ne different]

/-- The call before one that is left by no error has returned. -/
theorem exists_value_of_through {α β : Type} {outcome : Outcome MergeError α}
    {next : α → Outcome MergeError β} (avoids : outcome.Avoids .assertion)
    (through : (∃ result, (outcome >>= next) = .ok result) ∨ (outcome >>= next) = .panic .assertion) :
    ∃ value, outcome = .ok value ∧
      ((∃ result, next value = .ok result) ∨ next value = .panic .assertion) := by
  cases outcome with
  | ok value => exact ⟨value, rfl, through⟩
  | error failure => simp at through
  | panic reason =>
    have reached : reason = .assertion := by simpa using through
    exact absurd (congrArg Outcome.panic reached) avoids

/-- A round of items that cannot be compared ends before it comes to the list. -/
theorem comparable_of_compareItem {item cacheItem : Item} {itemIdx : Nat} {toDelete : ArrayList Nat}
    (through : (∃ next, compareItem item itemIdx toDelete cacheItem = .ok next) ∨
      compareItem item itemIdx toDelete cacheItem = .panic .assertion) :
    Comparable item cacheItem := by
  have date (missing : MergeError) (prop : Option Bytes) :
      (parseDate missing prop).Avoids .assertion := parseDate_avoids (by decide) (by decide) _ _
  obtain ⟨guid, filled, through⟩ := exists_value_of_through (.ofOption _ _) through
  obtain ⟨cacheGuid, cacheFilled, through⟩ := exists_value_of_through (.ofOption _ _) through
  rw [Outcome.ofOption_eq_ok] at filled cacheFilled
  refine ⟨by simp [filled], by simp [cacheFilled], fun same => ?_⟩
  have equal : guid = cacheGuid := Option.some.inj (by rw [← filled, ← cacheFilled, same])
  rw [if_pos equal] at through
  obtain ⟨cachePubDate, cacheDated, through⟩ := exists_value_of_through (date _ _) through
  obtain ⟨itemPubDate, dated, _⟩ := exists_value_of_through (date _ _) through
  rw [parseDate_eq_ok] at cacheDated dated
  exact ⟨by simp [cacheDated], by simp [dated]⟩

theorem compareItem_eq_ok {item cacheItem : Item} {itemIdx : Nat} {toDelete next : ArrayList Nat} :
    compareItem item itemIdx toDelete cacheItem = .ok next ↔
      Comparable item cacheItem ∧
        toDelete.Extends (if covers cacheItem item then [itemIdx] else []) next := by
  by_cases comparable : Comparable item cacheItem
  · rw [compareItem_of_comparable comparable, and_iff_right comparable]
    split
    · exact ArrayList.appendAssumeCapacity_eq_ok
    · simp [eq_comm]
  · constructor
    · exact fun ran => absurd (comparable_of_compareItem (.inl ⟨next, ran⟩)) comparable
    · exact fun found => absurd found.1 comparable

/-- The recorded positions: an item's own, once for each cached item that
covers it. -/
def positions (items cacheItems : List Item) : List Nat :=
  items.zipIdx.flatMap fun entry =>
    cacheItems.flatMap fun cacheItem => if covers cacheItem entry.1 then [entry.2] else []

theorem scanCacheItems_eq_ok {item : Item} {itemIdx : Nat} {cacheItems : List Item}
    {toDelete next : ArrayList Nat} :
    cacheItems.foldlM (compareItem item itemIdx) toDelete = .ok next ↔
      (∀ cacheItem ∈ cacheItems, Comparable item cacheItem) ∧
        toDelete.Extends
          (cacheItems.flatMap fun cacheItem => if covers cacheItem item then [itemIdx] else [])
          next := by
  apply ArrayList.foldlM_extends
  exact fun _ _ _ => compareItem_eq_ok

theorem scanItems_eq_ok {items cacheItems : List Item} {toDelete next : ArrayList Nat} :
    scanItems items cacheItems toDelete = .ok next ↔
      (∀ item ∈ items, ∀ cacheItem ∈ cacheItems, Comparable item cacheItem) ∧
        toDelete.Extends (positions items cacheItems) next := by
  have scanned : scanItems items cacheItems toDelete = .ok next ↔
      (∀ entry ∈ items.zipIdx, ∀ cacheItem ∈ cacheItems, Comparable entry.1 cacheItem) ∧
        toDelete.Extends (positions items cacheItems) next := by
    apply ArrayList.foldlM_extends
    exact fun _ _ _ => scanCacheItems_eq_ok
  rw [scanned]
  refine and_congr_left fun _ => ⟨fun every item member => ?_, fun every entry member => ?_⟩
  · obtain ⟨index, found⟩ := List.mem_iff_getElem?.mp member
    exact every (item, index) (List.mem_zipIdx_iff_getElem?.mpr found)
  · exact every entry.1 (List.fst_mem_of_mem_zipIdx member)

theorem mem_positions {items cacheItems : List Item} {index : Nat} :
    index ∈ positions items cacheItems ↔
      ∃ item, items[index]? = some item ∧ cacheItems.any (covers · item) := by
  simp only [positions, List.mem_flatMap, List.any_eq_true]
  constructor
  · intro found
    rcases found with ⟨⟨item, position⟩, paired, cacheItem, member, recorded⟩
    split at recorded
    · rename_i covered
      rw [List.mem_singleton] at recorded
      subst recorded
      exact ⟨item, List.mem_zipIdx_iff_getElem?.mp paired, cacheItem, member, covered⟩
    · cases recorded
  · intro found
    rcases found with ⟨item, found, cacheItem, member, covered⟩
    exact ⟨(item, index), List.mem_zipIdx_iff_getElem?.mpr found, cacheItem, member, by simp [covered]⟩

/-- The fetched channel without the items its cached one covers. -/
def uncovered (channel cacheChannel : Channel) : Channel :=
  { channel with
    items := channel.items.filter fun item => !cacheChannel.items.any (covers · item) }

theorem removePositions (items cacheItems : List Item) :
    (orderedRemoveMany items (sortAsc (positions items cacheItems)) : Outcome ε (List Item)) =
      .ok (items.filter fun item => !cacheItems.any (covers · item)) := by
  have bounded : ∀ index ∈ positions items cacheItems, index < items.length := by
    intro index recorded
    obtain ⟨item, found, _⟩ := mem_positions.mp recorded
    exact (List.getElem?_eq_some_iff.mp found).1
  rw [orderedRemoveMany_sortAsc items _ bounded, map_fst_filter_zipIdx]
  intro entry paired
  have found := List.mem_zipIdx_iff_getElem?.mp paired
  rw [Bool.eq_iff_iff, List.contains_iff_mem, mem_positions]
  constructor
  · intro found
    rcases found with ⟨item, same, covered⟩
    rw [found] at same
    cases same
    exact covered
  · exact fun covered => ⟨entry.1, found, covered⟩

/-- The cached channel was built later than the fetched one. -/
def isStale (channel cacheChannel : Channel) : Bool :=
  match nanos (cacheChannel.props.get .lastBuildDate), nanos (channel.props.get .lastBuildDate) with
  | some cacheBuildDate, some channelBuildDate => decide (channelBuildDate < cacheBuildDate)
  | _, _ => false

structure Dated (channel cacheChannel : Channel) : Prop where
  cached : nanos (cacheChannel.props.get .lastBuildDate) ≠ none
  fetched : nanos (channel.props.get .lastBuildDate) ≠ none

/-- The emptied `to_delete` with room for one position per item. -/
def MergeState.reserve (self : MergeState) (grow : Growth) (channel : Channel) : ArrayList Nat :=
  self.toDelete.clearRetainingCapacity.ensureUnusedCapacity grow channel.items.length

@[simp] theorem MergeState.items_reserve (self : MergeState) (grow : Growth) (channel : Channel) :
    (self.reserve grow channel).items = [] := by
  simp [reserve]

theorem isStale_of_built {channel cacheChannel : Channel} {cacheBuildDate channelBuildDate : Int}
    (cacheBuilt : nanos (cacheChannel.props.get .lastBuildDate) = some cacheBuildDate)
    (built : nanos (channel.props.get .lastBuildDate) = some channelBuildDate) :
    isStale channel cacheChannel = decide (channelBuildDate < cacheBuildDate) := by
  simp [isStale, cacheBuilt, built]

theorem compareItems_eq_ok {grow : Growth} {state next : MergeState}
    {channel cacheChannel : Channel} :
    (scanItems channel.items cacheChannel.items (state.reserve grow channel) >>= fun toDelete =>
        orderedRemoveMany channel.items toDelete.sort.items >>= fun items =>
          .ok ({ state with toDelete := toDelete.sort }.append { channel with items })) = .ok next ↔
      (∀ item ∈ channel.items, ∀ cacheItem ∈ cacheChannel.items, Comparable item cacheItem) ∧
        ∃ toDelete, (state.reserve grow channel).Extends
            (positions channel.items cacheChannel.items) toDelete ∧
          next = { state with toDelete := toDelete.sort }.append (uncovered channel cacheChannel) := by
  have removed {toDelete : ArrayList Nat} (extended : (state.reserve grow channel).Extends
      (positions channel.items cacheChannel.items) toDelete) :
      (orderedRemoveMany channel.items toDelete.sort.items : Outcome MergeError (List Item)) =
        .ok (uncovered channel cacheChannel).items := by
    have recorded : toDelete.items = positions channel.items cacheChannel.items := by
      simpa using extended.1
    rw [ArrayList.items_sort, recorded, removePositions]
    rfl
  rw [Outcome.bind_eq_ok]
  constructor
  · intro success
    obtain ⟨toDelete, scanned, finished⟩ := success
    obtain ⟨comparable, extended⟩ := scanItems_eq_ok.mp scanned
    rw [removed extended] at finished
    exact ⟨comparable, toDelete, extended, (Outcome.ok.inj finished).symm⟩
  · intro conditions
    obtain ⟨comparable, toDelete, extended, same⟩ := conditions
    refine ⟨toDelete, scanItems_eq_ok.mpr ⟨comparable, extended⟩, ?_⟩
    rw [removed extended, same]
    rfl

theorem compareChannel_eq_ok {grow : Growth} {state next : MergeState}
    {channel cacheChannel : Channel} :
    compareChannel grow state channel cacheChannel = .ok next ↔
      Dated channel cacheChannel ∧
        if isStale channel cacheChannel then next = state
        else (∀ item ∈ channel.items, ∀ cacheItem ∈ cacheChannel.items, Comparable item cacheItem) ∧
          ∃ toDelete, (state.reserve grow channel).Extends
              (positions channel.items cacheChannel.items) toDelete ∧
            next = { state with toDelete := toDelete.sort }.append (uncovered channel cacheChannel) := by
  by_cases dated : Dated channel cacheChannel
  · obtain ⟨cacheBuildDate, cacheBuilt⟩ := Option.ne_none_iff_exists'.mp dated.cached
    obtain ⟨channelBuildDate, built⟩ := Option.ne_none_iff_exists'.mp dated.fetched
    have unfolded : compareChannel grow state channel cacheChannel =
        if cacheBuildDate ≤ channelBuildDate then
          scanItems channel.items cacheChannel.items (state.reserve grow channel) >>= fun toDelete =>
            orderedRemoveMany channel.items toDelete.sort.items >>= fun items =>
              .ok ({ state with toDelete := toDelete.sort }.append { channel with items })
        else .ok state := by
      rw [compareChannel, parseDate_eq_ok.mpr cacheBuilt, parseDate_eq_ok.mpr built]
      rfl
    rw [unfolded, isStale_of_built cacheBuilt built, and_iff_right dated]
    by_cases current : cacheBuildDate ≤ channelBuildDate
    · simpa [current, Int.not_lt.mpr current] using compareItems_eq_ok
    · simp [current, Int.lt_of_not_ge current, eq_comm]
  · constructor
    · intro success
      simp only [compareChannel, Outcome.bind_eq_ok, parseDate_eq_ok] at success
      obtain ⟨cacheBuildDate, cacheBuilt, channelBuildDate, built, _⟩ := success
      exact absurd ⟨by simp [cacheBuilt], by simp [built]⟩ dated
    · intro conditions
      exact absurd conditions.1 dated

/-- The first cached channel of the fetched channel's title. -/
def findCached (cacheChannels : List Channel) (channel : Channel) : Option Channel :=
  cacheChannels.find? fun cacheChannel =>
    cacheChannel.props.get .title == channel.props.get .title

/-- The titles that are looked at are there: the channel's own, and those of
the cached channels before the first of the same title. -/
structure Titled (cacheChannels : List Channel) (channel : Channel) : Prop where
  own : cacheChannels ≠ [] → channel.props.get .title ≠ none
  cached : ∀ cacheChannel ∈ cacheChannels.takeWhile
      (fun cacheChannel => cacheChannel.props.get .title != channel.props.get .title),
    cacheChannel.props.get .title ≠ none

/-- A search that finds nothing has looked at all titles. -/
theorem Titled.of_not_found {cacheChannels : List Channel} {channel : Channel}
    (titled : Titled cacheChannels channel) (missing : findCached cacheChannels channel = none) :
    ∀ cacheChannel ∈ cacheChannels, cacheChannel.props.get .title ≠ none := by
  have looked := titled.cached
  rw [List.takeWhile_eq_self_iff.mpr fun cacheChannel member => by
    simpa using List.find?_eq_none.mp missing cacheChannel member] at looked
  exact looked

def mergeFound (grow : Growth) (state : MergeState) (channel : Channel) :
    Option Channel → Outcome MergeError MergeState
  | none => .ok (state.append channel)
  | some cacheChannel => compareChannel grow state channel cacheChannel

theorem mergeChannel_of_titled {grow : Growth} {state : MergeState} {channel : Channel}
    {cacheChannels : List Channel} (titled : Titled cacheChannels channel) :
    mergeChannel grow state channel cacheChannels =
      mergeFound grow state channel (findCached cacheChannels channel) := by
  induction cacheChannels with
  | nil => rfl
  | cons cacheChannel rest ih =>
    obtain ⟨title, own⟩ := Option.ne_none_iff_exists'.mp (titled.own (by simp))
    by_cases same : cacheChannel.props.get .title = some title
    · simp [mergeChannel, findCached, mergeFound, Outcome.unwrap, own, same]
    · have before := titled.cached
      rw [List.takeWhile_cons_of_pos (by simpa [own] using same)] at before
      obtain ⟨cacheTitle, cached⟩ := Option.ne_none_iff_exists'.mp (before cacheChannel (by simp))
      have different : title ≠ cacheTitle := fun equal => same (by rw [cached, equal])
      have later := ih ⟨fun _ => by simp [own], fun other member => before other (by simp [member])⟩
      simp [mergeChannel, findCached, Outcome.unwrap, own, cached, different, Ne.symm different]
      simpa [findCached, own] using later

theorem mergeChannel_of_untitled {grow : Growth} {state : MergeState} {channel : Channel}
    {cacheChannels : List Channel} (untitled : ¬ Titled cacheChannels channel) :
    mergeChannel grow state channel cacheChannels = .panic .unwrapNull := by
  induction cacheChannels with
  | nil => exact absurd ⟨fun impossible => absurd rfl impossible, by simp⟩ untitled
  | cons cacheChannel rest ih =>
    cases own : channel.props.get .title with
    | none => simp [mergeChannel, Outcome.unwrap, own]
    | some title =>
      cases cached : cacheChannel.props.get .title with
      | none => simp [mergeChannel, Outcome.unwrap, own, cached]
      | some cacheTitle =>
        by_cases same : title = cacheTitle
        · refine absurd ⟨fun _ => by simp [own], ?_⟩ untitled
          simp [own, cached, same]
        · have rest : ¬ Titled rest channel := fun titled => untitled
            ⟨fun _ => by simp [own], by
              rw [List.takeWhile_cons_of_pos (by simp [own, cached, Ne.symm same])]
              simpa [cached] using titled.cached⟩
          simpa [mergeChannel, Outcome.unwrap, own, cached, same] using ih rest

/-- What is put out for a fetched channel. -/
def fresh (cacheChannels : List Channel) (channel : Channel) : Option Channel :=
  match findCached cacheChannels channel with
  | none => some channel
  | some cacheChannel =>
    if isStale channel cacheChannel then none else some (uncovered channel cacheChannel)

/-- Only items are taken away. -/
theorem props_of_fresh {cacheChannels : List Channel} {channel kept : Channel}
    (found : fresh cacheChannels channel = some kept) : kept.props = channel.props := by
  unfold fresh at found
  split at found
  · cases found
    rfl
  · split at found
    · cases found
    · cases found
      rfl

theorem mergeChannel_ok {grow : Growth} {state next : MergeState} {channel : Channel}
    {cacheChannels : List Channel}
    (merged : mergeChannel grow state channel cacheChannels = .ok next) :
    next.output.channels = state.output.channels ++ (fresh cacheChannels channel).toList := by
  by_cases titled : Titled cacheChannels channel
  · rw [mergeChannel_of_titled titled] at merged
    cases found : findCached cacheChannels channel with
    | none =>
      rw [found] at merged
      cases merged
      simp [fresh, found, MergeState.append]
    | some cacheChannel =>
      rw [found] at merged
      obtain ⟨_, compared⟩ := compareChannel_eq_ok.mp merged
      cases stale : isStale channel cacheChannel with
      | true =>
        simp only [stale, ↓reduceIte] at compared
        simp [fresh, found, stale, compared]
      | false =>
        simp only [stale, Bool.false_eq_true, ↓reduceIte] at compared
        obtain ⟨_, toDelete, _, rfl⟩ := compared
        simp [fresh, found, stale, MergeState.append]
  · rw [mergeChannel_of_untitled titled] at merged
    cases merged

/-- A completed merge puts out what is fresh of each channel, in order. -/
theorem merge_ok {grow : Growth} {data cache output : Data}
    (merged : merge grow data cache = .ok output) :
    output.channels = data.channels.filterMap (fresh cache.channels) := by
  simp only [merge, Outcome.bind_eq_ok, Outcome.pure_eq_ok, Outcome.ok.injEq] at merged
  obtain ⟨final, ran, rfl⟩ := merged
  have collected := foldlM_collects (fun state : MergeState => state.output.channels)
    (fun _ _ _ stepped => mergeChannel_ok stepped) ran
  rw [collected, List.filterMap_eq_flatMap_toList]
  rfl

theorem titled_of_merge {grow : Growth} {data cache output : Data}
    (merged : merge grow data cache = .ok output) {channel : Channel}
    (member : channel ∈ data.channels) : Titled cache.channels channel := by
  obtain ⟨final, ran, _⟩ := Outcome.bind_eq_ok.mp merged
  obtain ⟨state, next, stepped⟩ := foldlM_steps ran channel member
  by_contra untitled
  rw [mergeChannel_of_untitled untitled] at stepped
  cases stepped

structure Mergeable (channel cacheChannel : Channel) : Prop where
  dated : Dated channel cacheChannel
  comparable : isStale channel cacheChannel = false →
    ∀ item ∈ channel.items, ∀ cacheItem ∈ cacheChannel.items, Comparable item cacheItem

/-- A completed merge was able to compare whatever it compared. -/
theorem mergeable_of_merge {grow : Growth} {data cache output : Data}
    (merged : merge grow data cache = .ok output) {channel cacheChannel : Channel}
    (member : channel ∈ data.channels)
    (found : findCached cache.channels channel = some cacheChannel) :
    Mergeable channel cacheChannel := by
  have titled := titled_of_merge merged member
  obtain ⟨final, ran, _⟩ := Outcome.bind_eq_ok.mp merged
  obtain ⟨state, next, stepped⟩ := foldlM_steps ran channel member
  rw [mergeChannel_of_titled titled, found] at stepped
  obtain ⟨dated, compared⟩ := compareChannel_eq_ok.mp stepped
  refine ⟨dated, fun current => ?_⟩
  simp only [current, Bool.false_eq_true, ↓reduceIte] at compared
  exact compared.1

/-- A completed merge puts out exactly what is fresh of each channel, in order,
and every date this takes has been parsed. -/
theorem merge_puts_out_fresh (grow : Growth) (data cache output : Data)
    (merged : merge grow data cache = .ok output) :
    output.channels = data.channels.filterMap (fresh cache.channels) ∧
      ∀ channel ∈ data.channels, ∀ cacheChannel,
        findCached cache.channels channel = some cacheChannel → Mergeable channel cacheChannel :=
  ⟨merge_ok merged, fun _ member _ found => mergeable_of_merge merged member found⟩

/-- The cache holds the only item of the channel twice. -/
theorem merge_puts_out_fresh_news :
    ∃ data cache output, merge .std data cache = .ok output ∧
      output.channels = data.channels.filterMap (fresh cache.channels) ∧
      data ≠ output ∧ output.channels ≠ [] := by
  let item : Item := ⟨((EnumArray.initFill none).set .guid (some (bytes "1"))).set .pubDate
    (some (bytes "Sat, 07 Sep 2002 00:00:00 GMT"))⟩
  let news (items : List Item) : Data := ⟨[{
    props := ((EnumArray.initFill none).set .title (some (bytes "News"))).set .lastBuildDate
      (some (bytes "Sat, 07 Sep 2002 09:42:31 GMT"))
    items }]⟩
  have merged : merge .std (news [item]) (news [item, item]) = .ok (news []) := by decide +kernel
  exact ⟨_, _, _, merged, (merge_puts_out_fresh .std _ _ _ merged).1, by decide +kernel,
    by decide +kernel⟩

end Xrss.Main
