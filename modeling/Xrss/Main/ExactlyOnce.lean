import Xrss.Main.AtMostOnce
import Xrss.Main.CacheMemory

namespace Xrss.Main

open Zig Rss

/-- The guid is news under this title, and no channel of the title comes older than it is
remembered. -/
structure News (memory : Memory) (data : Data) (title guid : Bytes) : Prop where
  unknown : ∀ cache, memory = .holds cache → ¬ Carries cache title (HasGuid guid)
  current : ∀ cache, memory = .holds cache → ∀ channel ∈ data.channels,
    channel.props.get .title = some title → ∀ cacheChannel,
      findCached cache.channels channel = some cacheChannel → isStale channel cacheChannel = false

theorem carries_of_news {memory : Memory} {data output : Data} {title guid pubDate : Bytes}
    (readable : memory ≠ .broken) (news : News memory data title guid)
    (prints : output.channels = memory.prints data)
    (carried : Carries data title (IsVersion guid pubDate)) :
    Carries output title (IsVersion guid pubDate) := by
  obtain ⟨channel, member, titled, item, listed, version⟩ := carried
  cases memory with
  | empty => exact ⟨channel, prints ▸ member, titled, item, listed, version⟩
  | broken => exact absurd rfl readable
  | holds cache =>
    have printed {kept : Channel} (survived : fresh cache.channels channel = some kept)
        (inside : item ∈ kept.items) : Carries output title (IsVersion guid pubDate) := by
      refine ⟨kept, ?_, by rw [props_of_fresh survived, titled], item, inside, version⟩
      rw [prints]
      exact List.mem_filterMap.mpr ⟨channel, member, survived⟩
    cases found : findCached cache.channels channel with
    | none => exact printed (by simp [fresh, found]) listed
    | some cacheChannel =>
      have current := news.current cache rfl channel member titled cacheChannel found
      have cacheTitled : cacheChannel.props.get .title = some title := by
        rw [← titled]
        simpa using List.find?_some found
      have uncovering : cacheChannel.items.any (covers · item) = false := by
        apply List.any_eq_false.mpr
        intro cacheItem inside covering
        simp only [covers, Bool.and_eq_true, beq_iff_eq] at covering
        apply news.unknown cache rfl
        exact ⟨cacheChannel, List.mem_of_find?_eq_some found, cacheTitled, cacheItem, inside,
          covering.1.symm.trans version.1⟩
      have survived : fresh cache.channels channel = some (uncovered channel cacheChannel) := by
        simp [fresh, found, current]
      exact printed survived (List.mem_filter.mpr ⟨listed, by simp [uncovering]⟩)

end Xrss.Main
