import Xrss.Main.MergeSpec

namespace Xrss.Main

open Zig Rss

instance (item cacheItem : Item) : Decidable (Comparable item cacheItem) :=
  decidable_of_iff
    (item.props.get .guid ≠ none ∧ cacheItem.props.get .guid ≠ none ∧
      (item.props.get .guid = cacheItem.props.get .guid →
        nanos (cacheItem.props.get .pubDate) ≠ none ∧ nanos (item.props.get .pubDate) ≠ none))
    ⟨fun ⟨guid, cacheGuid, dates⟩ => ⟨guid, cacheGuid, dates⟩,
      fun comparable => ⟨comparable.guid, comparable.cacheGuid, comparable.dates⟩⟩

/-- The rounds of the two item loops in their order: an item with its index,
and a cached item. -/
def rounds (items cacheItems : List Item) : List ((Item × Nat) × Item) :=
  items.zipIdx.flatMap fun entry => cacheItems.map (entry, ·)

/-- A list that takes one more element. -/
def oneSlot : ArrayList Nat := ⟨[], 1, by decide⟩

/-- The arguments of the calls to `appendAssumeCapacity`, until the loops are
through or a round returns an error. -/
def appendCalls : List ((Item × Nat) × Item) → List Nat
  | [] => []
  | (entry, cacheItem) :: rest =>
    match compareItem entry.1 entry.2 oneSlot cacheItem with
    | .ok called => called.items ++ appendCalls rest
    | _ => []

/-- How often a cached item covers a fetched one, counted up to the first two
items that cannot be compared. -/
def coverage (items cacheItems : List Item) : Nat :=
  ((rounds items cacheItems).takeWhile fun round => Comparable round.1.1 round.2).countP
    fun round => covers round.2 round.1.1

theorem appendAssumeCapacity_full {toDelete : ArrayList Nat} {itemIdx : Nat} :
    (toDelete.appendAssumeCapacity itemIdx : Outcome MergeError (ArrayList Nat)) =
        .panic .assertion ↔ toDelete.capacity ≤ toDelete.items.length := by
  unfold ArrayList.appendAssumeCapacity
  split
  · rename_i room
    simpa using room
  · rename_i full
    simpa using full

/-- A round fails the capacity assertion when it records a position and the list
is full. -/
theorem compareItem_full {item cacheItem : Item} {itemIdx : Nat} {toDelete : ArrayList Nat} :
    compareItem item itemIdx toDelete cacheItem = .panic .assertion ↔
      Comparable item cacheItem ∧ covers cacheItem item = true ∧
        toDelete.capacity ≤ toDelete.items.length := by
  by_cases comparable : Comparable item cacheItem
  · rw [compareItem_of_comparable comparable, and_iff_right comparable]
    cases covers cacheItem item with
    | false => simp
    | true => simpa using appendAssumeCapacity_full
  · constructor
    · exact fun full => absurd (comparable_of_compareItem (.inr full)) comparable
    · exact fun conditions => absurd conditions.1 comparable

theorem appendCalls_cons {entry : Item × Nat} {cacheItem : Item} {rest : List ((Item × Nat) × Item)} :
    appendCalls ((entry, cacheItem) :: rest) =
      if Comparable entry.1 cacheItem then
        (if covers cacheItem entry.1 then [entry.2] else []) ++ appendCalls rest
      else [] := by
  by_cases comparable : Comparable entry.1 cacheItem
  · have room : ∃ called, oneSlot.Extends (if covers cacheItem entry.1 then [entry.2] else []) called :=
      ArrayList.exists_extends.mpr (by split <;> simp [oneSlot])
    obtain ⟨called, extended⟩ := room
    have ran := compareItem_eq_ok.mpr ⟨comparable, extended⟩
    have listed := extended.1
    simp only [oneSlot, List.nil_append] at listed
    simp only [appendCalls, ran, listed, if_pos comparable]
  · rw [if_neg comparable, appendCalls]
    cases ran : compareItem entry.1 entry.2 oneSlot cacheItem with
    | ok called => exact absurd (compareItem_eq_ok.mp ran).1 comparable
    | error failure => rfl
    | panic reason => rfl

/-- The loops fail the capacity assertion exactly when they make more calls than
the list has room for. -/
theorem rounds_full (pairs : List ((Item × Nat) × Item)) (toDelete : ArrayList Nat) :
    pairs.foldlM (fun toDelete round => compareItem round.1.1 round.1.2 toDelete round.2) toDelete =
        .panic .assertion ↔
      toDelete.capacity < toDelete.items.length + (appendCalls pairs).length := by
  induction pairs generalizing toDelete with
  | nil => simpa [appendCalls] using toDelete.fits
  | cons round rest ih =>
    obtain ⟨entry, cacheItem⟩ := round
    rw [List.foldlM_cons, Outcome.bind_eq_panic, compareItem_full, appendCalls_cons]
    by_cases comparable : Comparable entry.1 cacheItem
    · cases covered : covers cacheItem entry.1 with
      | false =>
        have kept : compareItem entry.1 entry.2 toDelete cacheItem = .ok toDelete :=
          compareItem_eq_ok.mpr ⟨comparable, by simp [covered]⟩
        simp [comparable, kept, ih]
      | true =>
        by_cases room : toDelete.items.length < toDelete.capacity
        · have extended : ∃ next, toDelete.Extends [entry.2] next :=
            ArrayList.exists_extends.mpr (by simpa using Nat.succ_le_of_lt room)
          obtain ⟨next, items, capacity⟩ := extended
          have recorded : compareItem entry.1 entry.2 toDelete cacheItem = .ok next :=
            compareItem_eq_ok.mpr ⟨comparable, by simpa [covered] using ⟨items, capacity⟩⟩
          have later := ih next
          simp only [items, capacity, List.length_append, List.length_singleton] at later
          simp only [comparable, recorded, Nat.not_le.mpr room, and_false, false_or,
            Outcome.ok.injEq, exists_eq_left', later, ↓reduceIte, List.length_append,
            List.length_singleton, Nat.add_assoc]
        · have full : toDelete.capacity ≤ toDelete.items.length := Nat.le_of_not_lt room
          simp only [comparable, full, and_self, true_or, ↓reduceIte, List.length_append,
            List.length_singleton, true_iff]
          omega
    · have refused : ∀ next, compareItem entry.1 entry.2 toDelete cacheItem ≠ .ok next :=
        fun next ran => comparable (compareItem_eq_ok.mp ran).1
      simpa [comparable, refused] using toDelete.fits

theorem scanItems_full {items cacheItems : List Item} {toDelete : ArrayList Nat} :
    scanItems items cacheItems toDelete = .panic .assertion ↔
      toDelete.capacity < toDelete.items.length + (appendCalls (rounds items cacheItems)).length := by
  have nested : scanItems items cacheItems toDelete = (rounds items cacheItems).foldlM
      (fun toDelete round => compareItem round.1.1 round.1.2 toDelete round.2) toDelete :=
    foldlM_nested (fun toDelete (entry : Item × Nat) => compareItem entry.1 entry.2 toDelete)
      items.zipIdx cacheItems toDelete
  rw [nested, rounds_full]

theorem length_appendCalls (items cacheItems : List Item) :
    (appendCalls (rounds items cacheItems)).length = coverage items cacheItems := by
  rw [coverage]
  induction rounds items cacheItems with
  | nil => rfl
  | cons round rest ih =>
    obtain ⟨entry, cacheItem⟩ := round
    rw [appendCalls_cons]
    by_cases comparable : Comparable entry.1 cacheItem
    · rw [List.takeWhile_cons_of_pos (by simpa using comparable), List.countP_cons, if_pos comparable,
        List.length_append, ih]
      cases covers cacheItem entry.1 <;> simp [Nat.add_comm]
    · rw [List.takeWhile_cons_of_neg (by simpa using comparable), if_neg comparable]
      rfl

/-- Each fetched item meets at most one cached item that satisfies a test of the pair. -/
theorem countP_rounds_le {items cacheItems : List Item} {test : Item → Item → Bool}
    (once : ∀ item, cacheItems.countP (fun cacheItem => test item cacheItem) ≤ 1) :
    (rounds items cacheItems).countP (fun round => test round.1.1 round.2) ≤ items.length := by
  have total (entries : List (Item × Nat)) :
      (entries.flatMap fun entry => cacheItems.map (entry, ·)).countP
        (fun round => test round.1.1 round.2) ≤ entries.length := by
    induction entries with
    | nil => simp
    | cons entry rest ih =>
      have first := once entry.1
      simp only [List.flatMap_cons, List.countP_append, List.countP_map, List.length_cons,
        Function.comp_def]
      omega
  exact Nat.le_trans (total items.zipIdx) (Nat.le_of_eq List.length_zipIdx)

/-- No guid twice among those there are: comparing stops at the first item without one. -/
theorem coverage_le_of_guids {items cacheItems : List Item}
    (distinct : (cacheItems.filterMap fun cacheItem => cacheItem.props.get .guid).Nodup) :
    coverage items cacheItems ≤ items.length := by
  let met (item cacheItem : Item) : Bool := covers cacheItem item && decide (Comparable item cacheItem)
  have once (item : Item) : cacheItems.countP (fun cacheItem => met item cacheItem) ≤ 1 := by
    cases own : item.props.get .guid with
    | none =>
      have unmet : ∀ cacheItem ∈ cacheItems, ¬ met item cacheItem = true := by
        intro cacheItem _ both
        rw [Bool.and_eq_true, decide_eq_true_eq] at both
        exact both.2.guid own
      rw [List.countP_eq_zero.mpr unmet]
      exact Nat.zero_le 1
    | some guid =>
      calc cacheItems.countP (fun cacheItem => met item cacheItem)
          ≤ cacheItems.countP fun cacheItem => cacheItem.props.get .guid == some guid :=
            List.countP_mono_left fun cacheItem _ both => by
              rw [Bool.and_eq_true] at both
              by_contra different
              rw [← own] at different
              simp [covers_of_ne (Ne.symm (by simpa using different))] at both
        _ = (cacheItems.filterMap fun cacheItem => cacheItem.props.get .guid).count guid :=
            List.count_filterMap.symm
        _ ≤ 1 := List.nodup_iff_count_le_one.mp distinct guid
  calc coverage items cacheItems
      = ((rounds items cacheItems).takeWhile fun round => Comparable round.1.1 round.2).countP
          fun round => met round.1.1 round.2 := by
        refine List.countP_congr fun round inside => ?_
        have comparable := List.mem_takeWhile_imp inside
        simp only [decide_eq_true_eq] at comparable
        simp [met, comparable]
    _ ≤ (rounds items cacheItems).countP fun round => met round.1.1 round.2 :=
        (List.takeWhile_sublist _).countP_le
    _ ≤ items.length := countP_rounds_le once

/-- No guid twice in the cached channel: each item is covered at most once. -/
theorem coverage_le_of_distinct {items cacheItems : List Item}
    (distinct : (cacheItems.map fun cacheItem => cacheItem.props.get .guid).Nodup) :
    coverage items cacheItems ≤ items.length := by
  apply coverage_le_of_guids
  have present := distinct.filterMap (f := id) fun _ _ _ first second => first.trans second.symm
  rwa [List.filterMap_map] at present

theorem length_positions (items cacheItems : List Item) :
    (positions items cacheItems).length =
      (rounds items cacheItems).countP fun round => covers round.2 round.1.1 := by
  have each (entry : Item × Nat) : (cacheItems.flatMap fun cacheItem =>
      if covers cacheItem entry.1 then [entry.2] else []).length =
        (cacheItems.map (entry, ·)).countP fun round => covers round.2 round.1.1 := by
    induction cacheItems with
    | nil => rfl
    | cons cacheItem rest ih =>
      rw [List.flatMap_cons, List.length_append, ih, List.map_cons, List.countP_cons, Nat.add_comm]
      cases covers cacheItem entry.1 <;> rfl
  rw [positions, rounds, List.length_flatMap, List.countP_flatMap]
  simp only [each, Function.comp_def]

/-- Where all items can be compared, there is one call for each recorded position. -/
theorem coverage_of_comparable {items cacheItems : List Item}
    (comparable : ∀ item ∈ items, ∀ cacheItem ∈ cacheItems, Comparable item cacheItem) :
    coverage items cacheItems = (positions items cacheItems).length := by
  have through : ((rounds items cacheItems).takeWhile fun round => Comparable round.1.1 round.2) =
      rounds items cacheItems := by
    apply List.takeWhile_eq_self_iff.mpr
    intro round member
    obtain ⟨entry, paired, found⟩ := List.mem_flatMap.mp member
    obtain ⟨cacheItem, inside, rfl⟩ := List.mem_map.mp found
    simpa using comparable entry.1 (List.fst_mem_of_mem_zipIdx paired) cacheItem inside
  rw [coverage, through, length_positions]

/-- The loops stay within the reserved slots exactly when the items are covered
no more often than there are items. Nothing less keeps the capacity assertion
from failing: how much spare room the list has is up to the growth policy. -/
theorem append_calls_reserved_iff (channel cacheChannel : Channel) :
    ((appendCalls (rounds channel.items cacheChannel.items)).length ≤ channel.items.length ↔
      coverage channel.items cacheChannel.items ≤ channel.items.length) ∧
    ((∀ (grow : Growth) (state : MergeState),
        scanItems channel.items cacheChannel.items (state.reserve grow channel) ≠
          .panic .assertion) ↔
      coverage channel.items cacheChannel.items ≤ channel.items.length) := by
  rw [length_appendCalls]
  refine ⟨Iff.rfl, ?_⟩
  simp only [ne_eq, scanItems_full, length_appendCalls, MergeState.items_reserve, List.length_nil,
    Nat.zero_add, Nat.not_lt]
  constructor
  · intro every
    have exact := every ⟨id, fun _ => Nat.le_refl _⟩ {}
    simp only [MergeState.reserve, ArrayList.clearRetainingCapacity, ArrayList.empty,
      ArrayList.ensureUnusedCapacity, List.length_nil, Nat.zero_add, id] at exact
    split at exact
    · rename_i few
      exact Nat.le_trans exact (Nat.zero_le _)
    · exact exact
  · intro covered grow state
    have reserve : channel.items.length ≤ (state.reserve grow channel).capacity := by
      simpa [MergeState.reserve] using ArrayList.le_capacity_ensure grow
        state.toDelete.clearRetainingCapacity channel.items.length
    exact Nat.le_trans covered reserve

/-- A guid that the cached channel holds often enough aborts the merge of a
single item. -/
theorem repeated_guid_aborts_merge :
    ∃ data cache : Data, (∃ channel ∈ data.channels,
        ∃ cacheChannel ∈ findCached cache.channels channel, isStale channel cacheChannel = false ∧
          channel.items.length < (appendCalls (rounds channel.items cacheChannel.items)).length) ∧
      merge .std data cache = .panic .assertion := by
  let item : Item := ⟨((EnumArray.initFill none).set .guid (some (bytes "1"))).set .pubDate
    (some (bytes "Sat, 07 Sep 2002 00:00:00 GMT"))⟩
  let news (count : Nat) : Data := ⟨[{
    props := ((EnumArray.initFill none).set .title (some (bytes "News"))).set .lastBuildDate
      (some (bytes "Sat, 07 Sep 2002 09:42:31 GMT"))
    items := List.replicate count item }]⟩
  refine ⟨news 1, news 18, ?_⟩
  decide +kernel

end Xrss.Main
