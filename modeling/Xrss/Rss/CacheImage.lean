import Xrss.Rss.CacheRoundTrip

namespace Xrss.Rss

open Zig Config Decoder

section Slots

variable {κ : Type} [DecidableEq κ] (capacity : Nat)

/-- The slots that were vacant take what their part of the bytes says, and the
others are left alone. -/
theorem readSlots_consumes (keys : List κ) (nodup : keys.Nodup)
    (props : EnumArray κ (Option Bytes)) (vacant : ∀ key ∈ keys, props.get key = none) :
    Consumes (readSlots capacity keys props) fun result consumed =>
      (∀ key, key ∉ keys → result.get key = props.get key) ∧
        consumed = keys.flatMap (fun key => writeProp (result.get key)) ∧
        ∀ key ∈ keys, PropWithin capacity (result.get key) := by
  induction keys generalizing props with
  | nil => exact .pure props (by simp)
  | cons key rest ih =>
    obtain ⟨fresh, restNodup⟩ := List.nodup_cons.mp nodup
    refine .bind (.takeInt _ _ _) fun propLen length counted => .ite (fun filled => ?_) fun empty => ?_
    · refine .bind (.take _ _ _) fun value image taken => ?_
      have later := ih restNodup (props.set key (some value)) fun other member => by
        have different : other ≠ key := fun same => fresh (by rwa [same] at member)
        rw [EnumArray.get_set_of_ne _ _ different, vacant other (by simp [member])]
      refine later.mono fun result consumed spec => ?_
      obtain ⟨kept, rfl, within⟩ := spec
      obtain ⟨rfl, rfl, fits⟩ := taken
      have own : result.get key = some image := by simpa using kept key fresh
      refine ⟨fun other outside => ?_, ?_, ?_⟩
      · simp only [List.mem_cons, not_or] at outside
        simpa [outside.1] using kept other outside.2
      · simp [own, writeProp, writeU64, counted]
      · simpa [own, PropWithin, fits] using within
    · have later := ih restNodup props fun other member => vacant other (by simp [member])
      refine later.mono fun result consumed spec => ?_
      obtain ⟨kept, rfl, within⟩ := spec
      have own : result.get key = none := by rw [kept key fresh, vacant key (by simp)]
      have zero : propLen = 0 := Nat.eq_zero_of_not_pos empty
      refine ⟨fun other outside => ?_, ?_, ?_⟩
      · simp only [List.mem_cons, not_or] at outside
        exact kept other outside.2
      · simp [own, writeProp, writeU64, counted, zero]
      · simpa [own, PropWithin] using within

theorem readProps_consumes [EnumKey κ] :
    Consumes (readProps capacity : CacheReader (EnumArray κ (Option Bytes))) fun props consumed =>
      consumed = writeProps props ∧ SlotsWithin capacity props := by
  refine (readSlots_consumes capacity EnumKey.values EnumKey.nodup _ (by simp)).mono ?_
  intro props consumed spec
  obtain ⟨_, rfl, within⟩ := spec
  refine ⟨?_, fun key => within key (EnumKey.complete key)⟩
  simp [writeProps, EnumArray.iterator, List.flatMap_map]

end Slots

variable (capacity : Nat)

theorem readItem_consumes :
    Consumes (readItem capacity) fun item consumed =>
      consumed = writeItem item ∧ SlotsWithin capacity item.props :=
  .bind (readProps_consumes capacity) fun props consumed slots =>
    .pure _ (by simpa [writeItem] using slots)

theorem readChannel_consumes :
    Consumes (readChannel capacity) fun channel consumed =>
      consumed = writeChannel channel ∧ channel.Within ⟨8, 1024, capacity⟩ := by
  refine .bind (readProps_consumes capacity) fun props slotBytes slots => ?_
  refine .bind (.takeInt _ _ _) fun itemCount countBytes counted => ?_
  refine .ite (fun _ => .fail _ _) fun few => ?_
  refine .bind (.times (readItem_consumes capacity) _) fun items itemBytes listed => .pure _ ?_
  obtain ⟨rfl, values⟩ := slots
  obtain ⟨rfl, rfl, itemValues⟩ := listed
  refine ⟨?_, values, Nat.le_of_not_lt few, itemValues⟩
  simp [writeChannel, writeU64, counted]

theorem read_consumes :
    Consumes (Data.read {} capacity) fun data consumed =>
      consumed = data.write ∧ data.Within ⟨8, 1024, capacity⟩ := by
  rw [read_empty]
  refine .bind (.take _ _ _) fun magic magicBytes taken => .ite (fun _ => .fail _ _) fun known => ?_
  refine .bind (.takeInt _ _ _) fun channelCount countBytes counted => ?_
  refine .ite (fun _ => .fail _ _) fun few => ?_
  refine .bind (.times (readChannel_consumes capacity) _) fun channels channelBytes listed => .pure _ ?_
  obtain ⟨rfl, _, _⟩ := taken
  obtain ⟨rfl, rfl, each⟩ := listed
  refine ⟨?_, Nat.le_of_not_lt few, each⟩
  simp [Data.write, writeU64, counted, not_not.mp known]

theorem cached_of_read (buffer : Buffer) {unread rest : Bytes} {data : Data}
    (read : (Data.read {} buffer.capacity).run unread = .ok (data, rest)) : data.cached = data := by
  obtain ⟨consumed, rfl, rfl, within⟩ := read_consumes buffer.capacity unread data rest read
  have fits : data.Within buffer.limits := within
  have again := (decodes_read buffer data fits.usize).accepts fits rest
  rw [read] at again
  exact (congrArg Prod.fst (Outcome.ok.inj again)).symm

theorem contents_of_read (buffer : Buffer) {unread rest : Bytes} {data : Data}
    (read : (Data.read {} buffer.capacity).run unread = .ok (data, rest)) :
    Data.contents.run unread = .ok (data, rest) := by
  have same := cached_of_read buffer read
  obtain ⟨consumed, rfl, rfl, within⟩ := read_consumes buffer.capacity unread data rest read
  have fits : data.Within buffer.limits := within
  have decoded := (decodes_contents data fits.usize).accepts trivial rest
  rwa [same] at decoded

/-- What `read` accepts begins with what `write` makes of the result, so no
other bytes stand for the same data. -/
theorem read_canonical (unread rest : Bytes) (data : Data)
    (read : (Data.read {} capacity).run unread = .ok (data, rest)) :
    unread = data.write ++ rest ∧
      ∀ other otherRest, (Data.read {} capacity).run other = .ok (data, otherRest) →
        ∃ consumed, unread = consumed ++ rest ∧ other = consumed ++ otherRest := by
  obtain ⟨consumed, rfl, rfl, _⟩ := read_consumes capacity unread data rest read
  refine ⟨rfl, fun other otherRest otherRead => ?_⟩
  obtain ⟨_, rfl, rfl, _⟩ := read_consumes capacity other data otherRest otherRead
  exact ⟨data.write, rfl, rfl⟩

/-- A channel with a title and two items. -/
def newsData : Data :=
  ⟨[{ props := (EnumArray.initFill none).set .title (some (bytes "News"))
      items := [⟨((EnumArray.initFill none).set .guid (some (bytes "1"))).set .title
          (some (bytes "First"))⟩,
        ⟨(EnumArray.initFill none).set .guid (some (bytes "2"))⟩] }]⟩

theorem read_canonical_news :
    ∃ unread rest data, (Data.read {} 1024).run unread = .ok (data, rest) ∧
      unread = data.write ++ rest ∧
      ∀ other otherRest, (Data.read {} 1024).run other = .ok (data, otherRest) →
        ∃ consumed, unread = consumed ++ rest ∧ other = consumed ++ otherRest := by
  have read : (Data.read {} 1024).run (newsData.write ++ bytes "tail") =
      .ok (newsData, bytes "tail") := by decide +kernel
  exact ⟨_, _, _, read, read_canonical 1024 _ _ _ read⟩

/-- A cache file that was cut off anywhere ends too early for `read`. -/
theorem read_truncated (buffer : Buffer) (data : Data) (within : data.Within buffer.limits)
    (cut : Bytes) (isPart : cut <+: data.write) (strict : cut ≠ data.write) :
    (Data.read {} buffer.capacity).run cut = .error .endOfStream := by
  obtain ⟨tail, whole⟩ := isPart
  rcases read_streams buffer.capacity cut tail with short | same
  · exact short
  · have accepted := (decodes_read buffer data within.usize).accepts within []
    rw [List.append_nil, ← whole, same] at accepted
    obtain ⟨⟨found, rest⟩, _, finished⟩ := Outcome.bind_eq_ok.mp accepted
    have nothing : rest ++ tail = [] := congrArg Prod.snd (Outcome.ok.inj finished)
    obtain ⟨_, rfl⟩ := List.append_eq_nil_iff.mp nothing
    exact absurd (by simpa using whole) strict

/-- The title is cut in two. -/
theorem read_truncated_title :
    ∃ before, newsData.write.take 23 = before ++ bytes "Ne" ∧
      (Data.read {} ioBuf.capacity).run (newsData.write.take 23) = .error .endOfStream :=
  ⟨newsData.write.take 21, by decide +kernel, read_truncated ioBuf newsData (by decide +kernel) _
    (List.take_prefix _ _) (by decide +kernel)⟩

/-- The bytes `read` accepts are the images of data within the limits that has no empty values,
with anything behind them. -/
theorem read_eq_ok_iff (buffer : Buffer) (unread rest : Bytes) (data : Data) :
    (Data.read {} buffer.capacity).run unread = .ok (data, rest) ↔
      unread = data.write ++ rest ∧ data.Within buffer.limits ∧ data.cached = data := by
  constructor
  · intro read
    obtain ⟨consumed, whole, rfl, within⟩ := read_consumes buffer.capacity unread data rest read
    exact ⟨whole, within, cached_of_read buffer read⟩
  · intro image
    obtain ⟨rfl, within, same⟩ := image
    have accepted := (decodes_read buffer data within.usize).accepts within rest
    rwa [same] at accepted

end Xrss.Rss
