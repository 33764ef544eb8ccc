import Xrss.Main.BuildDates
import Xrss.Main.CacheMemory
import Xrss.Main.Display
import Xrss.Main.SelfMerge

/-! What keeps a URL alive: feeds that can be compared with each other, and cache files that are
written whole. Any other fault is over with the run it strikes. -/

namespace Xrss.Main

open Zig Rss

/-- A feed that can be read back and compared with any other such feed. -/
structure Reliable (data : Data) : Prop where
  within : data.Within ioBuf.limits
  titled : ∀ channel ∈ data.channels, cachedProp (channel.props.get .title) ≠ none
  built : ∀ channel ∈ data.channels, nanos (channel.props.get .lastBuildDate) ≠ none
  guids : ∀ channel ∈ data.channels, ∀ item ∈ channel.items, cachedProp (item.props.get .guid) ≠ none
  distinct : ∀ channel ∈ data.channels, (channel.items.map fun item => item.props.get .guid).Nodup
  published : ∀ channel ∈ data.channels, ∀ item ∈ channel.items,
    nanos (item.props.get .pubDate) ≠ none

instance (data : Data) : Decidable (Reliable data) :=
  decidable_of_iff (data.Within ioBuf.limits ∧
      (∀ channel ∈ data.channels, cachedProp (channel.props.get .title) ≠ none) ∧
      (∀ channel ∈ data.channels, nanos (channel.props.get .lastBuildDate) ≠ none) ∧
      (∀ channel ∈ data.channels, ∀ item ∈ channel.items, cachedProp (item.props.get .guid) ≠ none) ∧
      (∀ channel ∈ data.channels, (channel.items.map fun item => item.props.get .guid).Nodup) ∧
      ∀ channel ∈ data.channels, ∀ item ∈ channel.items, nanos (item.props.get .pubDate) ≠ none)
    ⟨fun ⟨within, titled, built, guids, distinct, published⟩ =>
        ⟨within, titled, built, guids, distinct, published⟩,
      fun reliable => ⟨reliable.within, reliable.titled, reliable.built, reliable.guids,
        reliable.distinct, reliable.published⟩⟩

theorem cachedProp_of_visible {prop : Option Bytes} (visible : cachedProp prop ≠ none) :
    cachedProp prop = prop := by
  obtain ⟨value, kept⟩ := Option.ne_none_iff_exists'.mp visible
  rw [kept, (cachedProp_eq_some.mp kept).1]

theorem cachedProp_idem (prop : Option Bytes) : cachedProp (cachedProp prop) = cachedProp prop := by
  by_cases hidden : cachedProp prop = none
  · rw [hidden]
    rfl
  · rw [cachedProp_of_visible hidden, cachedProp_of_visible hidden]

theorem ne_none_of_visible {prop : Option Bytes} (visible : cachedProp prop ≠ none) : prop ≠ none := by
  intro missing
  exact visible (by rw [missing]; rfl)

theorem slotsWithin_cached {κ : Type} {limit : Nat} {props : EnumArray κ (Option Bytes)}
    (within : SlotsWithin limit props) : SlotsWithin limit (cachedSlots props) := by
  intro key val kept
  exact within key val (cachedProp_eq_some.mp kept).1

theorem within_cached {data : Data} {limits : Limits} (within : data.Within limits) :
    data.cached.Within limits := by
  refine ⟨by simpa [Data.cached] using within.channels, fun channel member => ?_⟩
  obtain ⟨original, listed, rfl⟩ := List.mem_map.mp member
  have fits := within.each original listed
  refine ⟨slotsWithin_cached fits.values, by simpa [Channel.cached] using fits.items, ?_⟩
  intro item inside
  obtain ⟨source, present, rfl⟩ := List.mem_map.mp inside
  exact slotsWithin_cached (fits.itemValues source present)

theorem Reliable.cached {data : Data} (reliable : Reliable data) : Reliable data.cached where
  within := within_cached reliable.within
  titled channel member := by
    obtain ⟨original, listed, rfl⟩ := List.mem_map.mp member
    exact (cachedProp_idem _).symm ▸ reliable.titled original listed
  built channel member := by
    obtain ⟨original, listed, rfl⟩ := List.mem_map.mp member
    exact (nanos_cachedProp _).symm ▸ reliable.built original listed
  guids channel member item inside := by
    obtain ⟨original, listed, rfl⟩ := List.mem_map.mp member
    obtain ⟨source, present, rfl⟩ := List.mem_map.mp inside
    exact (cachedProp_idem _).symm ▸ reliable.guids original listed source present
  distinct channel member := by
    obtain ⟨original, listed, rfl⟩ := List.mem_map.mp member
    have same : (original.cached.items.map fun item => item.props.get .guid) =
        original.items.map fun item => item.props.get .guid := by
      rw [Channel.cached, List.map_map]
      apply List.map_congr_left
      intro item present
      exact cachedProp_of_visible (reliable.guids original listed item present)
    rw [same]
    exact reliable.distinct original listed
  published channel member item inside := by
    obtain ⟨original, listed, rfl⟩ := List.mem_map.mp member
    obtain ⟨source, present, rfl⟩ := List.mem_map.mp inside
    exact (nanos_cachedProp _).symm ▸ reliable.published original listed source present

theorem Reliable.mergeable {data cache : Data} (reliable : Reliable data) (reliable' : Reliable cache)
    {channel cacheChannel : Channel} (member : channel ∈ data.channels)
    (there : cacheChannel ∈ cache.channels) :
    Dated channel cacheChannel ∧
      ∀ item ∈ channel.items, ∀ cacheItem ∈ cacheChannel.items, Comparable item cacheItem := by
  refine ⟨⟨reliable'.built cacheChannel there, reliable.built channel member⟩, ?_⟩
  intro item listed cacheItem inside
  exact ⟨ne_none_of_visible (reliable.guids channel member item listed),
    ne_none_of_visible (reliable'.guids cacheChannel there cacheItem inside),
    fun _ => ⟨reliable'.published cacheChannel there cacheItem inside,
      reliable.published channel member item listed⟩⟩

theorem Reliable.merge (grow : Growth) {data cache : Data} (reliable : Reliable data)
    (reliable' : Reliable cache) : ∃ output, Main.merge grow data cache = .ok output := by
  have compared (channel : Channel) (member : channel ∈ data.channels) (cacheChannel : Channel)
      (found : findCached cache.channels channel = some cacheChannel) :=
    reliable.mergeable reliable' member (List.mem_of_find?_eq_some found)
  apply (merge_completes (fun channel member => ne_none_of_visible (reliable.titled channel member))
    (fun channel member => ne_none_of_visible (reliable'.titled channel member)) ?_).mpr
  · intro channel member cacheChannel found
    obtain ⟨dated, comparable⟩ := compared channel member cacheChannel found
    exact ⟨dated, fun _ => comparable⟩
  · intro channel member cacheChannel found
    exact coverage_le_of_distinct (reliable'.distinct cacheChannel (List.mem_of_find?_eq_some found))

/-- A memory that no such feed gets stuck on. -/
def Sound (memory : Memory) : Prop :=
  memory ≠ .broken ∧ ∀ cache, memory = .holds cache → Reliable cache

theorem opened_of_readable {file : CacheFile} (readable : Memory.ofFile file ≠ .broken) :
    ∃ cache, openCache {} file = .ok cache := by
  cases file with
  | none => exact ⟨none, rfl⟩
  | some content =>
    by_contra unopened
    apply readable
    refine ofFile_eq_broken.mpr ⟨content, rfl, fun result read => unopened ⟨some result.1, ?_⟩⟩
    exact openCache_eq_ok.mpr ⟨⟨rfl, rfl⟩, .inr ⟨content, result.1, result.2, rfl, read, rfl⟩⟩

theorem Reliable.output {grow : Growth} {data output : Data} {cache : Option Data}
    (reliable : Reliable data) (merged : mergeOutput grow data cache = .ok output) :
    ∀ channel ∈ output.channels, channel.props.get .title ≠ none := by
  have own (channel : Channel) (member : channel ∈ data.channels) : channel.props.get .title ≠ none :=
    ne_none_of_visible (reliable.titled channel member)
  cases cache with
  | none =>
    cases merged
    exact own
  | some cache =>
    rw [merge_ok (Outcome.mapError_eq_ok.mp merged)]
    intro channel member
    obtain ⟨fetched, listed, kept⟩ := List.mem_filterMap.mp member
    rw [props_of_fresh kept]
    exact own fetched listed

theorem answer_of_sound {grow : Growth} {file : CacheFile} {response : Response} {parser : Parse}
    (sound : Sound (Memory.ofFile file)) (parsed : Client.parse response = .ok parser)
    (reliable : Reliable parser.data) :
    ∃ printed, (session grow).answer file { response } = .ok printed := by
  obtain ⟨cache, opened⟩ := opened_of_readable sound.1
  have merges : ∃ output, mergeOutput grow parser.data cache = .ok output := by
    cases cache with
    | none => exact ⟨parser.data, rfl⟩
    | some cache =>
      obtain ⟨output, merged⟩ := reliable.merge grow (sound.2 cache (ofFile_of_opened opened))
      exact ⟨output, Outcome.mapError_eq_ok.mpr merged⟩
  obtain ⟨output, merged⟩ := merges
  have rendered : (printOutput output : Outcome RunError Bytes) = _ :=
    printOutput_eq_ok.mpr ⟨reliable.output merged, rfl⟩
  have prepared : prepare {} file response = .ok (parser.data, cache) :=
    prepare_eq_ok.mpr ⟨parser, parsed, rfl, opened, rfl⟩
  have finished : finish grow {} parser.data cache = .ok ⟨output, output.channels.flatMap titledText⟩ := by
    rw [finish, merged, Outcome.ok_bind, rendered]
    rfl
  refine ⟨⟨output, output.channels.flatMap titledText⟩, ?_⟩
  exact (congrArg RunResult.outcome (run_of_prepared prepared)).trans finished

/-- A run that writes its cache file whole, or not at all, leaves a sound memory. -/
theorem sound_next {grow : Growth} {file : CacheFile} {visit : Visit}
    (sound : Sound (Memory.ofFile file)) (whole : visit.faults.writeLimit = none)
    (reliable : ∀ parser, Client.parse visit.response = .ok parser → Reliable parser.data) :
    Sound (Memory.ofFile ((session grow).next file visit)) := by
  rw [ofFile_next]
  cases storing : stored ((session grow).event file visit) with
  | none => exact sound
  | some memory =>
    obtain ⟨⟨data, cache⟩, ready, rfl⟩ := Option.map_eq_some_iff.mp storing
    obtain ⟨parser, parsed, rfl, _⟩ := prepare_eq_ok.mp (Outcome.toOption_eq_some.mp ready)
    have kept := reliable parser parsed
    have written : (writeFile visit.faults parser.data).1 = parser.data.write := by
      simp [writeFile, whole]
    have holds : Memory.ofWrite visit.faults parser.data = .holds parser.data.cached :=
      if_pos ⟨written, kept.within⟩
    refine ⟨fun broken => (nomatch holds.symm.trans broken), fun found same => ?_⟩
    cases holds.symm.trans same
    exact kept.cached

theorem sound_final {grow : Growth} {start : CacheFile} (sound : Sound (Memory.ofFile start))
    {visits : List Visit} (whole : ∀ visit ∈ visits, visit.faults.writeLimit = none)
    (reliable : ∀ visit ∈ visits, ∀ parser, Client.parse visit.response = .ok parser →
      Reliable parser.data) : Sound (Memory.ofFile ((session grow).final start visits)) := by
  induction visits using List.reverseRecOn with
  | nil => exact sound
  | append_singleton visits visit ih =>
    rw [Transition.Machine.final_snoc]
    exact sound_next
      (ih (fun other member => whole other (by simp [member]))
        fun other member => reliable other (by simp [member]))
      (whole visit (by simp)) (reliable visit (by simp))

/-- As long as the feeds of a URL are reliable and no write is broken off, each run without
faults of its own completes, whatever struck the runs before it. -/
theorem faultless_run_completes (grow : Growth) (start : CacheFile)
    (sound : Sound (Memory.ofFile start)) (visits : List Visit)
    (whole : ∀ visit ∈ visits, visit.faults.writeLimit = none)
    (reliable : ∀ visit ∈ visits, ∀ parser, Client.parse visit.response = .ok parser →
      Reliable parser.data) :
    ∀ event ∈ (session grow).history start visits, event.input.faults = {} →
      ∀ parser, Client.parse event.input.response = .ok parser →
        ∃ printed, event.output = .ok printed := by
  intro event member faultless parser parsed
  obtain ⟨before, visit, after, rfl, rfl⟩ := (session grow).mem_history member
  have reached : Sound (Memory.ofFile ((session grow).final start before)) :=
    sound_final sound (fun other listed => whole other (by simp [listed]))
      fun other listed => reliable other (by simp [listed])
  obtain ⟨faults, response⟩ := visit
  obtain rfl : faults = {} := faultless
  exact answer_of_sound reached parsed (reliable { response } (by simp) parser parsed)

/-- A feed that is fetched three times, with a cache that cannot be read in the second run. -/
theorem faultless_run_completes_news :
    ∃ visits : List Visit,
      (∃ event ∈ (session .std).history none visits, event.output = .error (.read .readFailed)) ∧
        ∀ event ∈ (session .std).history none visits, event.input.faults = {} →
          ∀ parser, Client.parse event.input.response = .ok parser →
            ∃ printed, event.output = .ok printed := by
  let visit : Visit := .fetch
    (newsFeed (some (bytes "Sat, 07 Sep 2002 09:42:31 GMT")) [bytes "1"]) (by decide +kernel)
  let visits : List Visit := [visit, { visit with faults := { readLimit := some 3 } }, visit]
  have reliable : ∀ visit ∈ visits, ∀ parser ∈ (Client.parse visit.response).toOption,
      Reliable parser.data := by decide +kernel
  refine ⟨visits, by decide +kernel, ?_⟩
  exact faultless_run_completes .std none ⟨by decide, fun _ => by simp [Memory.ofFile]⟩ visits (by decide +kernel)
    fun visit member parser parsed => reliable visit member parser (Outcome.toOption_eq_some.mpr parsed)

end Xrss.Main
