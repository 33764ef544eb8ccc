import Xrss.Main.Session
import Xrss.Rss.CacheImage

namespace Xrss.Main

open Zig Rss

/-- The channels the bytes of the cache file stand for. -/
def cachedData (file : CacheFile) : Data :=
  ((file.bind fun content => (Data.contents.run content).toOption).map Prod.fst).getD {}

/-- A channel that the cache held and holds again has a build date, no earlier
than the one it had. -/
def BuildsKept (event : RunEvent) : Prop :=
  ∀ former ∈ (cachedData event.before).channels, ∀ latter ∈ (cachedData event.after).channels,
    former.props.get .title ≠ none → former.props.get .title = latter.props.get .title →
      ∃ old ∈ nanos (former.props.get .lastBuildDate),
        ∃ new ∈ nanos (latter.props.get .lastBuildDate), old ≤ new

instance (event : RunEvent) : Decidable (BuildsKept event) := by
  unfold BuildsKept
  infer_instance

/-- No fetched channel was built before the cached channel of its title. -/
def NoneStale (event : RunEvent) : Prop :=
  ∀ parser ∈ (Client.parse event.input.response).toOption, ∀ channel ∈ parser.data.channels,
    ∀ cacheChannel ∈ findCached (cachedData event.before).channels channel,
      isStale channel cacheChannel = false

instance (event : RunEvent) : Decidable (NoneStale event) := by
  unfold NoneStale
  infer_instance

theorem cachedData_written {data : Data} (usize : data.Within .usize) :
    cachedData (some data.write) = data.cached := by
  simp [cachedData, contents_write data usize]

theorem cachedData_opened {faults : Faults} {file : CacheFile} {cache : Data}
    (opened : openCache faults file = .ok (some cache)) :
    cachedData file = cache ∧ cache.cached = cache := by
  obtain ⟨content, rest, rfl, read⟩ := openCache_some opened
  obtain ⟨unread, whole⟩ := readFile_faultless read
  exact ⟨by simp [cachedData, contents_of_read ioBuf whole], cached_of_read ioBuf whole⟩

theorem title_visible {cache : Data} (stored : cache.cached = cache) {channel : Channel}
    (member : channel ∈ cache.channels) {title : Bytes} (own : channel.props.get .title = some title) :
    title ≠ [] := by
  rw [← stored] at member
  obtain ⟨original, _, rfl⟩ := List.mem_map.mp member
  exact (cachedProp_eq_some.mp own).2

theorem DistinctTitles.cached {data : Data} (distinct : DistinctTitles data) :
    DistinctTitles data.cached := by
  have visible (prop : Option Bytes) : cachedProp prop = prop.filter (· ≠ []) := by
    match prop with
    | none => rfl
    | some [] => rfl
    | some (_ :: _) => rfl
  have titles : (data.cached.channels.filterMap fun channel => channel.props.get .title) =
      (data.channels.filterMap fun channel => channel.props.get .title).filter (· ≠ []) := by
    rw [Data.cached, List.filterMap_map, List.filter_filterMap]
    exact List.filterMap_congr fun channel _ => visible (channel.props.get .title)
  rw [DistinctTitles, titles]
  exact distinct.filter _

theorem DistinctTitles.findCached {cache : Data} (distinct : DistinctTitles cache)
    {channel former : Channel} {title : Bytes} (own : channel.props.get .title = some title)
    (there : former ∈ cache.channels) (same : former.props.get .title = some title) :
    findCached cache.channels channel = some former := by
  cases found : Main.findCached cache.channels channel with
  | none =>
    have missed := List.find?_eq_none.mp found former there
    simp [own, same] at missed
  | some twin =>
    have titled : twin.props.get .title = some title := by
      rw [← own]
      simpa using List.find?_some found
    rw [distinct.eq_of_title (List.mem_of_find?_eq_some found) there titled same]

theorem nanos_cachedProp (prop : Option Bytes) : nanos (cachedProp prop) = nanos prop := by
  match prop with
  | none => rfl
  | some [] => rfl
  | some (_ :: _) => rfl

theorem title_findCached {cache : Data} {channel former : Channel}
    (found : findCached cache.channels channel = some former) :
    former.props.get .title = channel.props.get .title := by
  simpa using List.find?_some found

/-- What a completed run compares with the cache has a title that the cache
keeps, and build dates. -/
theorem compared_of_completed {grow : Growth} {visit : Visit} {file : CacheFile} {printed : Printed}
    {data : Data} {found : Option Data} (completed : Completed grow visit file printed data found)
    {channel former : Channel} (member : channel ∈ data.channels)
    (twin : findCached (cachedData file).channels channel = some former) :
    (∃ title, channel.props.get .title = some title ∧ title ≠ []) ∧ Mergeable channel former := by
  cases found with
  | none =>
    rw [openCache_none completed.opened] at twin
    cases twin
  | some cache =>
    obtain ⟨same, stored⟩ := cachedData_opened completed.opened
    rw [same] at twin
    have merged := Outcome.mapError_eq_ok.mp completed.merged
    have there := List.mem_of_find?_eq_some twin
    have titled := (titled_of_merge merged member).own (List.ne_nil_of_mem there)
    obtain ⟨title, own⟩ := Option.ne_none_iff_exists'.mp titled
    have visible := title_visible stored there ((title_findCached twin).trans own)
    exact ⟨⟨title, own, visible⟩, mergeable_of_merge merged member twin⟩

/-- A completed run keeps the build dates exactly when nothing it fetched is
stale. -/
theorem buildsKept_of_run {grow : Growth} {file : CacheFile} {visit : Visit} {printed : Printed}
    (answered : (session grow).answer file visit = .ok printed)
    (distinct : DistinctTitles (cachedData file)) :
    BuildsKept ((session grow).event file visit) ↔ NoneStale ((session grow).event file visit) := by
  obtain ⟨data, found, completed⟩ := completed_of_answer answered
  have usize : data.Within .usize := Client.usize_of_parse completed.parsed
  have after : (cachedData ((session grow).next file visit)).channels =
      data.channels.map Channel.cached := by
    rw [completed.written, cachedData_written usize]
    rfl
  have built (channel : Channel) :
      nanos (channel.cached.props.get .lastBuildDate) = nanos (channel.props.get .lastBuildDate) :=
    nanos_cachedProp _
  constructor
  · intro kept parser parsed channel member former twin
    cases parsed.symm.trans (Outcome.toOption_eq_some.mpr completed.parsed)
    obtain ⟨⟨title, own, visible⟩, _⟩ := compared_of_completed completed member twin
    have there : former ∈ (cachedData file).channels := List.mem_of_find?_eq_some twin
    have here : channel.cached ∈ (cachedData ((session grow).next file visit)).channels := by
      rw [after]
      exact List.mem_map_of_mem member
    have same : former.props.get .title = some title := (title_findCached twin).trans own
    have stays : channel.cached.props.get .title = some title := cachedProp_eq_some.mpr ⟨own, visible⟩
    obtain ⟨old, oldBuilt, new, newBuilt, later⟩ := kept former there channel.cached here
      (by simp [same]) (same.trans stays.symm)
    rw [built] at newBuilt
    rw [isStale_of_built oldBuilt newBuilt]
    simpa using later
  · intro current former there latter here titled same
    obtain ⟨title, own⟩ := Option.ne_none_iff_exists'.mp titled
    obtain ⟨channel, member, rfl⟩ := List.mem_map.mp (after ▸ here)
    obtain ⟨fetched, _⟩ := cachedProp_eq_some.mp (same.symm.trans own)
    have twin := distinct.findCached fetched there own
    obtain ⟨_, mergeable⟩ := compared_of_completed completed member twin
    obtain ⟨old, oldBuilt⟩ := Option.ne_none_iff_exists'.mp mergeable.dated.cached
    obtain ⟨new, newBuilt⟩ := Option.ne_none_iff_exists'.mp mergeable.dated.fetched
    have fresh := current _ (Outcome.toOption_eq_some.mpr completed.parsed) channel member former twin
    rw [isStale_of_built oldBuilt newBuilt] at fresh
    exact ⟨old, oldBuilt, new, by rw [built]; exact newBuilt, by simpa using fresh⟩

/-- The cache has distinct titles, and every past run kept the build dates
exactly when nothing it fetched was stale. -/
structure BuildsTracked (past : List RunEvent) (file : CacheFile) : Prop where
  distinct : DistinctTitles (cachedData file)
  kept : ∀ event ∈ past, BuildsKept event ↔ NoneStale event

/-- In a session of completed runs, a run keeps the build dates in the cache
exactly when nothing it fetched is stale. -/
theorem builds_kept_iff (grow : Growth) (start : CacheFile) (visits : List Visit)
    (distinctStart : DistinctTitles (cachedData start))
    (completes : ∀ event ∈ (session grow).history start visits, ∃ printed, event.output = .ok printed)
    (distinct : ∀ visit ∈ visits, ∀ parser, Client.parse visit.response = .ok parser →
      DistinctTitles parser.data) :
    ∀ event ∈ (session grow).history start visits, BuildsKept event ↔ NoneStale event := by
  have preserved : ∀ past file visit, BuildsTracked past file →
      (∃ printed, (session grow).answer file visit = .ok printed) ∧
        (∀ parser, Client.parse visit.response = .ok parser → DistinctTitles parser.data) →
      BuildsTracked (past ++ [(session grow).event file visit]) ((session grow).next file visit) := by
    rintro past file visit ⟨titles, kept⟩ ⟨⟨printed, answered⟩, fetched⟩
    constructor
    · obtain ⟨data, _, completed⟩ := completed_of_answer answered
      rw [completed.written, cachedData_written (Client.usize_of_parse completed.parsed)]
      exact (fetched _ completed.parsed).cached
    · intro event member
      rcases List.mem_append.mp member with earlier | last
      · exact kept event earlier
      · rw [List.mem_singleton.mp last]
        exact buildsKept_of_run answered titles
  have tracked := (session grow).history_induction
    (fun event => (∃ printed, event.output = .ok printed) ∧
      ∀ parser, Client.parse event.input.response = .ok parser → DistinctTitles parser.data)
    BuildsTracked ⟨distinctStart, by simp⟩ preserved visits fun event member => by
      refine ⟨completes event member, ?_⟩
      obtain ⟨_, visit, _, rfl, rfl⟩ := (session grow).mem_history member
      exact distinct visit (by simp)
  exact tracked.kept

theorem builds_kept_news :
    ∃ visits : List Visit, visits.length = 2 ∧
      ∀ event ∈ (session .std).history none visits, BuildsKept event ↔ NoneStale event := by
  exact ⟨newsTwice, rfl, builds_kept_iff .std none newsTwice (by decide +kernel) newsTwice_completes
    newsTwice_distinct⟩

theorem stale_feed_replaces_cache :
    ∃ visits : List Visit,
      (∀ event ∈ (session .std).history none visits, event.output.toOption.isSome) ∧
      (∀ visit ∈ visits, ∃ parser ∈ (Client.parse visit.response).toOption,
        DistinctTitles parser.data ∧
        ∀ channel ∈ parser.data.channels, ∀ title ∈ channel.props.get .title, title ≠ []) ∧
      ∃ event ∈ (session .std).history none visits, ¬ BuildsKept event := by
  refine ⟨[.fetch (newsFeed (some (bytes "Mon, 09 Sep 2002 00:00:00 GMT")) []) (by decide +kernel),
    .fetch (newsFeed (some (bytes "Sun, 08 Sep 2002 00:00:00 GMT")) []) (by decide +kernel)], ?_⟩
  decide +kernel

end Xrss.Main
