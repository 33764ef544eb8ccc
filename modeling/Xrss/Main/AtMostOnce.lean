import Xrss.Main.Display
import Xrss.Main.Session

namespace Xrss.Main

open Zig Rss

theorem covers_cached {item original : Item} {guid pubDate : Bytes}
    (fetched : IsVersion guid pubDate item) (stored : IsVersion guid pubDate original)
    (comparable : Comparable item original.cached) : covers original.cached item = true := by
  obtain ⟨cachedGuid, filled⟩ := Option.ne_none_iff_exists'.mp comparable.cacheGuid
  obtain ⟨kept, _⟩ := cachedProp_eq_some.mp filled
  have equal : item.props.get .guid = original.cached.props.get .guid := by
    rw [fetched.1, filled, ← kept, stored.1]
  obtain ⟨cachedDated, dated⟩ := comparable.dates equal
  obtain ⟨instant, published⟩ := Option.ne_none_iff_exists'.mp dated
  have same : original.cached.props.get .pubDate = item.props.get .pubDate := by
    cases cachedFilled : original.cached.props.get .pubDate with
    | none => simp [cachedFilled, nanos] at cachedDated
    | some dateStr =>
      obtain ⟨dateKept, _⟩ := cachedProp_eq_some.mp cachedFilled
      rw [fetched.2, ← dateKept, stored.2]
  simp [covers_of_dated equal (same ▸ published) published]

section Merge

variable {grow : Growth} {data fetched output : Data} (distinct : DistinctTitles data)
  (merged : merge grow fetched data.cached = .ok output)

include distinct merged

theorem findCached_cached {title : Bytes} {channel twin : Channel}
    (member : channel ∈ fetched.channels) (own : channel.props.get .title = some title)
    (there : twin ∈ data.channels) (same : twin.props.get .title = some title) :
    findCached data.cached.channels channel = some twin.cached := by
  have stored : twin.cached ∈ data.cached.channels := List.mem_map_of_mem there
  cases found : findCached data.cached.channels channel with
  | none =>
    have lost := (titled_of_merge merged member).of_not_found found twin.cached stored
    obtain ⟨kept, filled⟩ := Option.ne_none_iff_exists'.mp lost
    obtain ⟨original, _⟩ := cachedProp_eq_some.mp filled
    rw [same] at original
    cases original
    have missed := List.find?_eq_none.mp found twin.cached stored
    simp [filled, own] at missed
  | some cacheChannel =>
    obtain ⟨other, listed, rfl⟩ := List.mem_map.mp (List.mem_of_find?_eq_some found)
    have equal : other.cached.props.get .title = some title := by
      rw [← own]
      simpa using List.find?_some found
    obtain ⟨original, _⟩ := cachedProp_eq_some.mp equal
    rw [distinct.eq_of_title listed there original same]

/-- A version that the cached feed holds is not put out. -/
theorem not_merged_again {title guid pubDate : Bytes}
    (carried : Carries data title (IsVersion guid pubDate)) :
    ¬ Carries output title (IsVersion guid pubDate) := by
  intro again
  rcases again with ⟨kept, printed, titled, item, listed, printedVersion⟩
  obtain ⟨twin, there, twinTitled, original, stored, version⟩ := carried
  rw [merge_ok merged] at printed
  obtain ⟨channel, member, survived⟩ := List.mem_filterMap.mp printed
  rw [props_of_fresh survived] at titled
  have found := findCached_cached distinct merged member titled there twinTitled
  rw [fresh, found] at survived
  dsimp only at survived
  split at survived
  · cases survived
  · rename_i current
    cases survived
    obtain ⟨inside, uncovered⟩ := List.mem_filter.mp listed
    have cachedMember : original.cached ∈ twin.cached.items := List.mem_map_of_mem stored
    have comparable := (mergeable_of_merge merged member found).comparable (by simpa using current)
      item inside original.cached cachedMember
    have covered := covers_cached printedVersion version comparable
    have any : twin.cached.items.any (covers · item) = true :=
      List.any_eq_true.mpr ⟨original.cached, cachedMember, covered⟩
    simp [any] at uncovered

end Merge

theorem merged_of_consecutive {grow : Growth} {file : CacheFile} {first second : Visit}
    {earlier later : Printed} {data : Data} {cache : Option Data}
    (before : Completed grow first file earlier data cache)
    (answered : (session grow).answer ((session grow).next file first) second = .ok later) :
    ∃ fetched, Client.parse second.response = .ok { data := fetched, state := .«end» } ∧
      merge grow fetched data.cached = .ok later.output := by
  obtain ⟨fetched, found, after⟩ := completed_of_answer answered
  have opened := after.opened
  rw [before.written] at opened
  cases found with
  | none => exact absurd (openCache_none opened) (by simp)
  | some cached =>
    have usize : data.Within .usize := Client.usize_of_parse before.parsed
    rw [openCache_written usize opened] at after
    exact ⟨fetched, after.parsed, Outcome.mapError_eq_ok.mp after.merged⟩

/-- A completed run that follows a completed run merges with the feed of that one. -/
theorem merged_of_successor {grow : Growth} {start : CacheFile} {visits : List Visit} {index : Nat}
    {first second : RunEvent} {earlier later : Printed}
    (there : ((session grow).history start visits)[index]? = some first)
    (here : ((session grow).history start visits)[index + 1]? = some second)
    (before : first.output = .ok earlier) (after : second.output = .ok later) :
    ∃ data fetched, Client.parse first.input.response = .ok { data, state := .«end» } ∧
      Client.parse second.input.response = .ok { data := fetched, state := .«end» } ∧
        merge grow fetched data.cached = .ok later.output := by
  have consecutive := (session grow).history_consecutive there here
  obtain ⟨_, visit, _, _, rfl⟩ := (session grow).mem_history (List.mem_of_getElem? there)
  obtain ⟨_, next, _, _, rfl⟩ := (session grow).mem_history (List.mem_of_getElem? here)
  obtain ⟨data, cache, completed⟩ := completed_of_answer before
  have answered : (session grow).answer _ next = .ok later := after
  rw [show (session grow).final start _ = _ from consecutive] at answered
  obtain ⟨fetched, parsed, merged⟩ := merged_of_consecutive completed answered
  exact ⟨data, fetched, completed.parsed, parsed, merged⟩

section Stretch

variable {grow : Growth} {start : CacheFile} {visits : List Visit} {title guid pubDate : Bytes}
  {i j : Nat}
  (completes : ∀ event ∈ (session grow).history start visits, ∃ printed, event.output = .ok printed)
  (distinct : ∀ visit ∈ visits, ∀ parser, Client.parse visit.response = .ok parser →
    DistinctTitles parser.data)
  (carried : ∀ k, i ≤ k → k ≤ j → ∀ event, ((session grow).history start visits)[k]? = some event →
    ∃ parser, Client.parse event.input.response = .ok parser ∧
      Carries parser.data title (IsVersion guid pubDate))

include completes distinct carried

/-- A run after the first of these merges with a feed that holds the version. -/
theorem not_printed_after {k : Nat} (after : i < k) (upTo : k ≤ j) {event : RunEvent}
    (here : ((session grow).history start visits)[k]? = some event) {printed : Printed}
    (output : event.output = .ok printed) :
    ¬ Carries printed.output title (IsVersion guid pubDate) := by
  obtain ⟨previous, rfl⟩ : ∃ previous, k = previous + 1 := ⟨k - 1, by omega⟩
  obtain ⟨first, there⟩ : ∃ first, ((session grow).history start visits)[previous]? = some first := by
    have bound := (List.getElem?_eq_some_iff.mp here).1
    exact ⟨_, List.getElem?_eq_getElem (by omega)⟩
  obtain ⟨earlier, before⟩ := completes first (List.mem_of_getElem? there)
  obtain ⟨data, fetched, parsed, _, merged⟩ := merged_of_successor there here before output
  obtain ⟨parser, carrying, holds⟩ := carried previous (by omega) (by omega) first there
  rw [parsed] at carrying
  cases carrying
  obtain ⟨_, visit, _, rfl, rfl⟩ := (session grow).mem_history (List.mem_of_getElem? there)
  exact not_merged_again (distinct visit (by simp) _ parsed) merged holds

end Stretch

/-- While every feed holds an item in one version, no run but the first prints
that version. -/
theorem printed_at_most_once (grow : Growth) (start : CacheFile) (visits : List Visit)
    (completes : ∀ event ∈ (session grow).history start visits, ∃ printed, event.output = .ok printed)
    (distinct : ∀ visit ∈ visits, ∀ parser, Client.parse visit.response = .ok parser →
      DistinctTitles parser.data)
    (title guid pubDate : Bytes) (i j : Nat)
    (carried : ∀ k, i ≤ k → k ≤ j → ∀ event, ((session grow).history start visits)[k]? = some event →
      ∃ parser, Client.parse event.input.response = .ok parser ∧
        Carries parser.data title (IsVersion guid pubDate)) :
    ∀ k, i < k → k ≤ j → ∀ event, ((session grow).history start visits)[k]? = some event →
      ∀ printed, event.output = .ok printed →
        ¬ Carries printed.output title (IsVersion guid pubDate) ∧
          printed.stdout = printed.output.channels.flatMap titledText := by
  intro k after upTo event here printed output
  exact ⟨not_printed_after completes distinct carried after upTo here output,
    stdout_of_event (List.mem_of_getElem? here) output⟩

/-- The same feed twice: the second run prints no item. -/
theorem printed_at_most_once_news :
    ∃ visits : List Visit, visits.length = 2 ∧
      ∀ k, 0 < k → k ≤ 1 → ∀ event, ((session .std).history none visits)[k]? = some event →
        ∀ printed, event.output = .ok printed →
          ¬ Carries printed.output (bytes "News")
            (IsVersion (bytes "1") (bytes "Sat, 07 Sep 2002 00:00:00 GMT")) ∧
          printed.stdout = printed.output.channels.flatMap titledText := by
  have carried : ∀ event ∈ (session .std).history none newsTwice,
      ∃ parser ∈ (Client.parse event.input.response).toOption, Carries parser.data (bytes "News")
        (IsVersion (bytes "1") (bytes "Sat, 07 Sep 2002 00:00:00 GMT")) := by decide +kernel
  refine ⟨newsTwice, rfl, ?_⟩
  apply printed_at_most_once .std none newsTwice newsTwice_completes newsTwice_distinct _ _ _ 0 1
  intro k _ _ event here
  obtain ⟨parser, parsed, holds⟩ := carried event (List.mem_of_getElem? here)
  exact ⟨parser, Outcome.toOption_eq_some.mp parsed, holds⟩

end Xrss.Main
