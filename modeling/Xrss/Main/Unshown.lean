import Xrss.Main.Session

namespace Xrss.Main

open Zig Rss

/-- Some completed run has printed an item with this guid under this title. -/
def Shown (past : List RunEvent) (title guid : Bytes) : Prop :=
  ∃ event ∈ past, ∃ printed ∈ event.output.toOption, Carries printed.output title (HasGuid guid)

instance (past : List RunEvent) (title guid : Bytes) : Decidable (Shown past title guid) :=
  inferInstanceAs (Decidable (∃ event ∈ past, ∃ printed ∈ event.output.toOption,
    Carries printed.output title (HasGuid guid)))

/-- The cached channel holds an item of this item's guid; an empty one is not
cached. -/
def KnownTo (cacheChannel : Channel) (item : Item) : Prop :=
  ∀ guid ∈ item.props.get .guid, guid ≠ [] → ∃ cacheItem ∈ cacheChannel.items, HasGuid guid cacheItem

instance (cacheChannel : Channel) : DecidablePred (KnownTo cacheChannel) := fun item =>
  inferInstanceAs (Decidable (∀ guid ∈ item.props.get .guid, guid ≠ [] →
    ∃ cacheItem ∈ cacheChannel.items, HasGuid guid cacheItem))

/-- A fetched channel that the cache holds in a later build has no item whose
guid the cached channel lacks. -/
def StaleKnown (event : RunEvent) : Prop :=
  ∀ parser ∈ (Client.parse event.input.response).toOption,
    ∀ found ∈ (openCache event.input.faults event.before).toOption, ∀ cache ∈ found,
      ∀ channel ∈ parser.data.channels, ∀ cacheChannel ∈ findCached cache.channels channel,
        isStale channel cacheChannel → ∀ item ∈ channel.items, KnownTo cacheChannel item

instance (event : RunEvent) : Decidable (StaleKnown event) := by
  unfold StaleKnown
  infer_instance

theorem carries_of_cached {data : Data} {title guid : Bytes}
    (carried : Carries data.cached title (HasGuid guid)) :
    ∃ channel ∈ data.channels, channel.props.get .title = some title ∧
      ∃ item ∈ channel.items, HasGuid guid item ∧ guid ≠ [] := by
  obtain ⟨_, listed, titled, _, stored, filled⟩ := carried
  obtain ⟨channel, member, rfl⟩ := List.mem_map.mp listed
  obtain ⟨item, inside, rfl⟩ := List.mem_map.mp stored
  obtain ⟨own, _⟩ := cachedProp_eq_some.mp titled
  obtain ⟨guidOwn, visible⟩ := cachedProp_eq_some.mp filled
  exact ⟨channel, member, own, item, inside, guidOwn, visible⟩

/-- An item of a merged channel is put out, or the cache holds its guid under
that title. -/
theorem merged_or_cached {grow : Growth} {data cache output : Data} {title guid : Bytes}
    (merged : merge grow data cache = .ok output) {channel : Channel}
    (member : channel ∈ data.channels) (own : channel.props.get .title = some title)
    {item : Item} (listed : item ∈ channel.items) (filled : HasGuid guid item)
    (known : ∀ cacheChannel ∈ findCached cache.channels channel, isStale channel cacheChannel →
      ∃ cacheItem ∈ cacheChannel.items, HasGuid guid cacheItem) :
    Carries output title (HasGuid guid) ∨ Carries cache title (HasGuid guid) := by
  have printed {kept : Channel} (survived : fresh cache.channels channel = some kept)
      (inside : item ∈ kept.items) : Carries output title (HasGuid guid) := by
    refine ⟨kept, ?_, by rw [props_of_fresh survived, own], item, inside, filled⟩
    rw [merge_ok merged]
    exact List.mem_filterMap.mpr ⟨channel, member, survived⟩
  cases found : findCached cache.channels channel with
  | none => exact .inl (printed (by simp [fresh, found]) listed)
  | some cacheChannel =>
    have there := List.mem_of_find?_eq_some found
    have titled : cacheChannel.props.get .title = some title := by
      rw [← own]
      simpa using List.find?_some found
    cases stale : isStale channel cacheChannel with
    | true =>
      obtain ⟨cacheItem, inside, same⟩ := known cacheChannel found stale
      exact .inr ⟨cacheChannel, there, titled, cacheItem, inside, same⟩
    | false =>
      cases covered : cacheChannel.items.any (covers · item) with
      | true =>
        obtain ⟨cacheItem, inside, covering⟩ := List.any_eq_true.mp covered
        simp only [covers, Bool.and_eq_true, beq_iff_eq] at covering
        exact .inr ⟨cacheChannel, there, titled, cacheItem, inside, covering.1.symm.trans filled⟩
      | false =>
        have survived : fresh cache.channels channel = some (uncovered channel cacheChannel) := by
          simp [fresh, found, stale]
        exact .inl (printed survived (List.mem_filter.mpr ⟨listed, by simp [covered]⟩))

/-- A completed run caches nothing that it has not printed, unless the cache
it found held it already. -/
theorem cached_of_run {grow : Growth} {file : CacheFile} {visit : Visit} {printed : Printed}
    (answered : (session grow).answer file visit = .ok printed)
    (written : ∀ content ∈ file, ∃ data : Data, data.Within .usize ∧ data.write = content)
    (known : StaleKnown ((session grow).event file visit)) {title guid : Bytes}
    (carried : CacheCarries ((session grow).next file visit) title (HasGuid guid)) :
    Carries printed.output title (HasGuid guid) ∨ CacheCarries file title (HasGuid guid) := by
  obtain ⟨data, found, completed⟩ := completed_of_answer answered
  have usize : data.Within .usize := Client.usize_of_parse completed.parsed
  rw [completed.written, cacheCarries_written usize] at carried
  obtain ⟨channel, member, own, item, listed, filled, visible⟩ := carries_of_cached carried
  cases found with
  | none =>
    have everything : data = printed.output := Outcome.ok.inj completed.merged
    rw [← everything]
    exact .inl ⟨channel, member, own, item, listed, filled⟩
  | some cache =>
    have kept := merged_or_cached (Outcome.mapError_eq_ok.mp completed.merged) member own listed
      filled fun cacheChannel twin stale =>
        known _ (Outcome.toOption_eq_some.mpr completed.parsed) _
          (Outcome.toOption_eq_some.mpr completed.opened) cache rfl channel member cacheChannel twin
          stale item listed guid filled visible
    obtain ⟨content, _, rfl, _⟩ := openCache_some completed.opened
    obtain ⟨former, fits, rfl⟩ := written content rfl
    rw [cacheCarries_written fits, ← openCache_written fits completed.opened]
    exact kept

/-- The cache file is some run's, and everything in it was printed by a run of
the past. -/
structure CacheShown (past : List RunEvent) (file : CacheFile) : Prop where
  written : ∀ content ∈ file, ∃ data : Data, data.Within .usize ∧ data.write = content
  shown : ∀ title guid, CacheCarries file title (HasGuid guid) → Shown past title guid

/-- As long as a stale channel brings nothing new, everything in the cache was
printed once. -/
theorem cached_was_shown (grow : Growth) (visits : List Visit)
    (completes : ∀ event ∈ (session grow).history none visits, ∃ printed, event.output = .ok printed)
    (known : ∀ event ∈ (session grow).history none visits, StaleKnown event) (title guid : Bytes)
    (carried : CacheCarries ((session grow).final none visits) title (HasGuid guid)) :
    Shown ((session grow).history none visits) title guid := by
  have initial : CacheShown [] none := ⟨by simp, by simp [CacheCarries]⟩
  have preserved : ∀ past file visit, CacheShown past file →
      (∃ printed, (session grow).answer file visit = .ok printed) ∧
        StaleKnown ((session grow).event file visit) →
      CacheShown (past ++ [(session grow).event file visit]) ((session grow).next file visit) := by
    rintro past file visit ⟨written, shown⟩ ⟨⟨printed, answered⟩, known⟩
    obtain ⟨data, _, completed⟩ := completed_of_answer answered
    constructor
    · rw [completed.written]
      rintro _ ⟨⟩
      exact ⟨data, Client.usize_of_parse completed.parsed, rfl⟩
    · intro title guid carried
      rcases cached_of_run answered written known carried with now | before
      · exact ⟨(session grow).event file visit, by simp, printed,
          Outcome.toOption_eq_some.mpr answered, now⟩
      · obtain ⟨event, member, earlier⟩ := shown title guid before
        exact ⟨event, by simp [member], earlier⟩
  have invariant := (session grow).history_induction
    (fun event => (∃ printed, event.output = .ok printed) ∧ StaleKnown event) CacheShown
    initial preserved visits fun event member => ⟨completes event member, known event member⟩
  exact invariant.shown title guid carried

/-- A second run on a feed that was built before the cached one, and a third on a new feed. -/
theorem cached_was_shown_news :
    ∃ visits : List Visit,
      (∃ event ∈ (session .std).history none visits, ∃ printed ∈ event.output.toOption,
        event.before ≠ none ∧ printed.output.channels = [] ∧ event.after ≠ event.before) ∧
      CacheCarries ((session .std).final none visits) (bytes "News") (HasGuid (bytes "3")) ∧
      Shown ((session .std).history none visits) (bytes "News") (bytes "3") := by
  let visits : List Visit :=
    [.fetch (newsFeed (some (bytes "Mon, 09 Sep 2002 00:00:00 GMT")) [bytes "1", bytes "2"])
      (by decide +kernel),
    .fetch (newsFeed (some (bytes "Sun, 08 Sep 2002 00:00:00 GMT")) [bytes "1"]) (by decide +kernel),
    .fetch (newsFeed (some (bytes "Tue, 10 Sep 2002 00:00:00 GMT")) [bytes "1", bytes "3"])
      (by decide +kernel)]
  have completes : ∀ event ∈ (session .std).history none visits, event.output.toOption.isSome := by
    decide +kernel
  have known : ∀ event ∈ (session .std).history none visits, StaleKnown event := by decide +kernel
  have carried : CacheCarries ((session .std).final none visits) (bytes "News")
      (HasGuid (bytes "3")) := by decide +kernel
  refine ⟨visits, by decide +kernel, carried, ?_⟩
  exact cached_was_shown .std visits
    (fun event member => Outcome.exists_of_isSome (completes event member)) known _ _ carried

/-- A stale feed with a new item: the second run prints nothing and caches it. -/
theorem stale_item_never_shown :
    ∃ visits : List Visit,
      (∀ event ∈ (session .std).history none visits, event.output.toOption.isSome) ∧
      (∀ visit ∈ visits, ∃ parser ∈ (Client.parse visit.response).toOption,
        DistinctTitles parser.data ∧
        ∀ channel ∈ parser.data.channels, ∀ title ∈ channel.props.get .title, title ≠ []) ∧
      CacheCarries ((session .std).final none visits) (bytes "News") (HasGuid (bytes "2")) ∧
      ¬ Shown ((session .std).history none visits) (bytes "News") (bytes "2") := by
  refine ⟨[.fetch (newsFeed (some (bytes "Mon, 09 Sep 2002 00:00:00 GMT")) [bytes "1"])
      (by decide +kernel),
    .fetch (newsFeed (some (bytes "Sun, 08 Sep 2002 00:00:00 GMT")) [bytes "1", bytes "2"])
      (by decide +kernel)], ?_⟩
  decide +kernel

end Xrss.Main
