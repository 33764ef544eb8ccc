import Mathlib.Data.List.Pairwise
import Xrss.Main.RunSpec

namespace Xrss.Main

open Zig Rss

/-- A channel of this title holds an item that passes the test. -/
def Carries (data : Data) (title : Bytes) (test : Item → Prop) : Prop :=
  ∃ channel ∈ data.channels, channel.props.get .title = some title ∧ ∃ item ∈ channel.items, test item

instance (data : Data) (title : Bytes) (test : Item → Prop) [DecidablePred test] :
    Decidable (Carries data title test) :=
  inferInstanceAs (Decidable (∃ channel ∈ data.channels, channel.props.get .title = some title ∧
    ∃ item ∈ channel.items, test item))

def IsVersion (guid pubDate : Bytes) (item : Item) : Prop :=
  item.props.get .guid = some guid ∧ item.props.get .pubDate = some pubDate

def HasGuid (guid : Bytes) (item : Item) : Prop := item.props.get .guid = some guid

instance (guid pubDate : Bytes) : DecidablePred (IsVersion guid pubDate) := fun item =>
  inferInstanceAs (Decidable (item.props.get .guid = some guid ∧ item.props.get .pubDate = some pubDate))

instance (guid : Bytes) : DecidablePred (HasGuid guid) := fun item =>
  inferInstanceAs (Decidable (item.props.get .guid = some guid))

def DistinctTitles (data : Data) : Prop :=
  (data.channels.filterMap fun channel => channel.props.get .title).Nodup

instance (data : Data) : Decidable (DistinctTitles data) :=
  inferInstanceAs (Decidable (List.Nodup _))

/-- The bytes of the cache file stand for data that carries the item. -/
def CacheCarries (file : CacheFile) (title : Bytes) (test : Item → Prop) : Prop :=
  ∃ content ∈ file, ∃ found ∈ (Data.contents.run content).toOption, Carries found.1 title test

instance (file : CacheFile) (title : Bytes) (test : Item → Prop) [DecidablePred test] :
    Decidable (CacheCarries file title test) :=
  inferInstanceAs (Decidable (∃ content ∈ file, ∃ found ∈ (Data.contents.run content).toOption,
    Carries found.1 title test))

theorem cacheCarries_written {data : Data} (usize : data.Within .usize) {title : Bytes}
    {test : Item → Prop} :
    CacheCarries (some data.write) title test ↔ Carries data.cached title test := by
  simp [CacheCarries, contents_write data usize, Outcome.toOption]

theorem DistinctTitles.eq_of_title {data : Data} (distinct : DistinctTitles data)
    {first second : Channel} {title : Bytes} (here : first ∈ data.channels)
    (there : second ∈ data.channels) (own : first.props.get .title = some title)
    (same : second.props.get .title = some title) : first = second := by
  by_contra different
  have apart := List.pairwise_filterMap.mp distinct
  have symmetric : Std.Symm fun left right : Channel =>
      ∀ title, left.props.get .title = some title →
        ∀ other, right.props.get .title = some other → title ≠ other :=
    ⟨fun _ _ related title own other same => (related other same title own).symm⟩
  exact apart.forall here there different title own title same rfl

theorem readFile_faultless {faults : Faults} {content : Bytes} {cache : Data} {rest : Bytes}
    (read : readFile faults content = .ok (cache, rest)) :
    ∃ unread, (Data.read {} ioBuf.capacity).run content = .ok (cache, unread) := by
  unfold readFile at read
  split at read
  · exact ⟨rest, read⟩
  · rename_i limit _
    have extended := (read_streams ioBuf.capacity).frames (content.take limit) cache rest
      (content.drop limit)
      (Outcome.mapError_eq_ok.mp read)
    rw [List.take_append_drop] at extended
    exact ⟨_, extended⟩

theorem openCache_some {faults : Faults} {file : CacheFile} {cache : Data}
    (opened : openCache faults file = .ok (some cache)) :
    ∃ content rest, file = some content ∧ readFile faults content = .ok (cache, rest) := by
  obtain ⟨_, ⟨_, missing⟩ | ⟨content, found, rest, same, read, present⟩⟩ := openCache_eq_ok.mp opened
  · cases missing
  · cases present
    exact ⟨content, rest, same, read⟩

theorem openCache_none {faults : Faults} {file : CacheFile}
    (opened : openCache faults file = .ok none) : file = none := by
  obtain ⟨_, ⟨absent, _⟩ | ⟨_, _, _, _, _, present⟩⟩ := openCache_eq_ok.mp opened
  · exact absent
  · cases present

/-- The cache of a run is the data the run before wrote, with no empty values. -/
theorem openCache_written {faults : Faults} {data cache : Data} (usize : data.Within .usize)
    (opened : openCache faults (some data.write) = .ok (some cache)) : cache = data.cached := by
  obtain ⟨content, rest, same, read⟩ := openCache_some opened
  cases same
  obtain ⟨unread, whole⟩ := readFile_faultless read
  have decodes := decodes_read ioBuf data usize
  rw [← List.append_nil data.write] at whole
  by_cases within : data.Within ioBuf.limits
  · rw [decodes.accepts within] at whole
    cases whole
    rfl
  · exact absurd whole (decodes.rejects within [] _)

/-- The same feed of one item, fetched twice. -/
def newsTwice : List Visit := List.replicate 2 (.fetch
  (newsFeed (some (bytes "Sat, 07 Sep 2002 09:42:31 GMT")) [bytes "1"]) (by decide +kernel))

theorem newsTwice_completes :
    ∀ event ∈ (session .std).history none newsTwice, ∃ printed, event.output = .ok printed := by
  have completes : ∀ event ∈ (session .std).history none newsTwice, event.output.toOption.isSome := by
    decide +kernel
  intro event member
  exact Outcome.exists_of_isSome (completes event member)

theorem newsTwice_distinct : ∀ visit ∈ newsTwice, ∀ parser,
    Client.parse visit.response = .ok parser → DistinctTitles parser.data := by
  have distinct : ∀ visit ∈ newsTwice, ∀ parser ∈ (Client.parse visit.response).toOption,
      DistinctTitles parser.data := by decide +kernel
  intro visit member parser parsed
  exact distinct visit member parser (Outcome.toOption_eq_some.mpr parsed)

end Xrss.Main
