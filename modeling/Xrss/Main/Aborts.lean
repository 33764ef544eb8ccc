import Xrss.Datetime.Fields
import Xrss.Main.CacheDir
import Xrss.Main.Recovery
import Xrss.Main.TitleUnwrap

/-! What aborts a run. No fault of the world does: every failed safety check goes back to a
value in one of the feeds, the fetched one or the last that was stored. -/

namespace Xrss.Datetime

open Zig

/-- The second count of the date fits into an `i64` of nanoseconds. -/
def Representable (dateStr : Bytes) : Prop :=
  ∀ fields, Readable dateStr fields → -9223372036 ≤ fields.seconds ∧ fields.seconds ≤ 9223372036

theorem representable_iff {dateStr : Bytes} :
    Representable dateStr ↔ (parseRfc1123ToNanos dateStr).Avoids .overflow := by
  by_cases read : ∃ fields, Readable dateStr fields
  · obtain ⟨fields, readable⟩ := read
    have only : Representable dateStr ↔ -9223372036 ≤ fields.seconds ∧ fields.seconds ≤ 9223372036 :=
      ⟨fun all => all fields readable, fun range other again => readable.unique again ▸ range⟩
    rw [only, readable.parse_eq, Outcome.Avoids, signed, Fields.nanos, NS_PER_S]
    split
    · simp
      omega
    · simp
      omega
  · obtain ⟨failure, refused⟩ := exists_error_of_unreadable (not_exists.mp read)
    rw [refused]
    exact ⟨fun _ => .error failure, fun _ fields readable => absurd ⟨fields, readable⟩ read⟩

instance (dateStr : Bytes) : Decidable (Representable dateStr) :=
  decidable_of_iff (parseRfc1123ToNanos dateStr ≠ .panic .overflow) representable_iff.symm

theorem parse_avoids {reason : Panic} {dateStr : Bytes}
    (fits : reason = .overflow → Representable dateStr) :
    (parseRfc1123ToNanos dateStr).Avoids reason := by
  by_cases overflow : reason = .overflow
  · subst overflow
    exact representable_iff.mp (fits rfl)
  · by_cases read : ∃ fields, Readable dateStr fields
    · obtain ⟨fields, readable⟩ := read
      rw [readable.parse_eq]
      exact signed_avoids (Ne.symm overflow) _ _
    · obtain ⟨failure, refused⟩ := exists_error_of_unreadable (not_exists.mp read)
      rw [refused]
      exact .error failure

end Xrss.Datetime

namespace Xrss.Rss

open Zig Decoder Config

/-- All values of the feed fit into the reader's buffer. -/
def Data.Buffered (data : Data) (buffer : Buffer) : Prop :=
  ∀ channel ∈ data.channels, SlotsWithin buffer.capacity channel.props ∧
    ∀ item ∈ channel.items, SlotsWithin buffer.capacity item.props

instance (data : Data) (buffer : Buffer) : Decidable (data.Buffered buffer) :=
  inferInstanceAs (Decidable (∀ channel ∈ data.channels, SlotsWithin buffer.capacity channel.props ∧
    ∀ item ∈ channel.items, SlotsWithin buffer.capacity item.props))

theorem settles_readChannel (buffer : Buffer) (channel : Channel) (usize : channel.Within .usize)
    (props : SlotsWithin buffer.capacity channel.props)
    (items : ∀ item ∈ channel.items, SlotsWithin buffer.capacity item.props) :
    Settles (readChannel buffer.capacity) (writeChannel channel) channel.cached := by
  have count := (decodes_takeU64 buffer channel.items.length usize.items).settles trivial
  have listed := (decodes_readItems buffer channel usize).settles items
  have checked := Settles.check (channel.items.length > 1024) ReadError.tooManyItems
    (listed.map fun items => Channel.mk (cachedSlots channel.props) items)
  rw [writeChannel, List.append_assoc]
  exact ((decodes_readProps buffer channel.props usize.values).settles props).bind (count.bind checked)

theorem settles_read (buffer : Buffer) (data : Data) (usize : data.Within .usize)
    (buffered : data.Buffered buffer) :
    Settles (Data.read {} buffer.capacity) data.write data.cached := by
  have channels := Settles.times writeChannel Channel.cached data.channels fun channel member =>
    settles_readChannel buffer channel (usize.each channel member) (buffered channel member).1
      (buffered channel member).2
  have few := Settles.check (data.channels.length > 8) ReadError.tooManyChannels (channels.map Data.mk)
  have counted : Settles
      (CacheReader.takeU64 buffer.capacity >>= fun channelCount =>
        if channelCount > 8 then Decoder.fail .tooManyChannels
        else (readChannel buffer.capacity).times channelCount >>= fun channels =>
          pure (Data.mk channels)) _ _ :=
    ((decodes_takeU64 buffer data.channels.length usize.channels).settles trivial).bind few
  have format := Settles.check (XRSS_FILE_MAGIC ≠ XRSS_FILE_MAGIC) ReadError.invalidFormat counted
  have magic := (decodes_take ReadError.endOfStream buffer.capacity XRSS_FILE_MAGIC).settles
    (Nat.le_trans (by decide) buffer.holdsU64)
  rw [Data.write, List.append_assoc, read_empty]
  exact magic.bind format

/-- The file of a feed aborts no read, wherever it was cut off, unless a value does not fit
into the reader's buffer. -/
theorem read_part_avoids {reason : Panic} (buffer : Buffer) {data : Data} (usize : data.Within .usize)
    (buffered : reason = .assertion → data.Buffered buffer) {part : Bytes}
    (isPart : part <+: data.write) : ((Data.read {} buffer.capacity).run part).Avoids reason := by
  by_cases assertion : reason = .assertion
  · exact (settles_read buffer data usize (buffered assertion)).avoids (read_streams _) isPart reason
  · exact read_avoids (Ne.symm assertion) _ part

end Xrss.Rss

namespace Xrss.Main

open Zig Rss Datetime

/-- What a feed must not lack or contain, lest a run aborts for this reason. -/
structure Spared (reason : Panic) (data : Data) : Prop where
  buffered : reason = .assertion → data.Buffered ioBuf
  distinct : reason = .assertion → ∀ channel ∈ data.channels,
    (channel.items.filterMap fun item => cachedProp (item.props.get .guid)).Nodup
  titled : reason = .unwrapNull → ∀ channel ∈ data.channels,
    cachedProp (channel.props.get .title) ≠ none
  built : reason = .overflow → ∀ channel ∈ data.channels,
    ∀ dateStr ∈ channel.props.get .lastBuildDate, Representable dateStr
  published : reason = .overflow → ∀ channel ∈ data.channels, ∀ item ∈ channel.items,
    ∀ dateStr ∈ item.props.get .pubDate, Representable dateStr

instance (reason : Panic) (data : Data) : Decidable (Spared reason data) :=
  decidable_of_iff ((reason = .assertion → data.Buffered ioBuf) ∧
      (reason = .assertion → ∀ channel ∈ data.channels,
        (channel.items.filterMap fun item => cachedProp (item.props.get .guid)).Nodup) ∧
      (reason = .unwrapNull → ∀ channel ∈ data.channels,
        cachedProp (channel.props.get .title) ≠ none) ∧
      (reason = .overflow → ∀ channel ∈ data.channels,
        ∀ dateStr ∈ channel.props.get .lastBuildDate, Representable dateStr) ∧
      (reason = .overflow → ∀ channel ∈ data.channels, ∀ item ∈ channel.items,
        ∀ dateStr ∈ item.props.get .pubDate, Representable dateStr))
    ⟨fun ⟨buffered, distinct, titled, built, published⟩ =>
        ⟨buffered, distinct, titled, built, published⟩,
      fun spared => ⟨spared.buffered, spared.distinct, spared.titled, spared.built, spared.published⟩⟩

section Merge

variable {reason : Panic}

theorem parseDate_spared {missing : MergeError} {prop : Option Bytes}
    (fits : reason = .overflow → ∀ dateStr ∈ prop, Representable dateStr) :
    (parseDate missing prop).Avoids reason := by
  refine .bind (.ofOption _ _) fun dateStr present => .mapError (parse_avoids fun overflow => ?_) _
  exact fits overflow dateStr (Outcome.ofOption_eq_ok.mp present)

/-- Only a full list aborts a round over items whose dates are representable. -/
theorem compareItem_spared {item cacheItem : Item} (itemIdx : Nat) (toDelete : ArrayList Nat)
    (other : reason ≠ .assertion)
    (published : reason = .overflow → ∀ dateStr ∈ item.props.get .pubDate, Representable dateStr)
    (cached : reason = .overflow → ∀ dateStr ∈ cacheItem.props.get .pubDate, Representable dateStr) :
    (compareItem item itemIdx toDelete cacheItem).Avoids reason := by
  have append : (toDelete.appendAssumeCapacity itemIdx : Outcome MergeError _).Avoids reason := by
    unfold ArrayList.appendAssumeCapacity
    split
    · exact .ok _
    · exact .panic (Ne.symm other)
  refine .bind (.ofOption _ _) fun _ _ => .bind (.ofOption _ _) fun _ _ => ?_
  refine .ite (fun _ => ?_) fun _ => .ok _
  refine .bind (parseDate_spared cached) fun _ _ => .bind (parseDate_spared published) fun _ _ => ?_
  exact .ite (fun _ => append) fun _ => .ok _

theorem scanItems_spared {items cacheItems : List Item} {toDelete : ArrayList Nat}
    (emptied : toDelete.items = []) (reserved : items.length ≤ toDelete.capacity)
    (distinct : reason = .assertion →
      (cacheItems.filterMap fun cacheItem => cacheItem.props.get .guid).Nodup)
    (published : reason = .overflow → ∀ item ∈ items,
      ∀ dateStr ∈ item.props.get .pubDate, Representable dateStr)
    (cached : reason = .overflow → ∀ cacheItem ∈ cacheItems,
      ∀ dateStr ∈ cacheItem.props.get .pubDate, Representable dateStr) :
    (scanItems items cacheItems toDelete).Avoids reason := by
  by_cases assertion : reason = .assertion
  · subst assertion
    intro full
    rw [scanItems_full, length_appendCalls, emptied] at full
    have covered : coverage items cacheItems ≤ items.length := coverage_le_of_guids (distinct rfl)
    simp only [List.length_nil, Nat.zero_add] at full
    omega
  · refine foldlM_avoids (fun entry member toDelete => foldlM_avoids (fun cacheItem inside toDelete => ?_) _) _
    exact compareItem_spared _ _ assertion
      (fun overflow => published overflow entry.1 (List.fst_mem_of_mem_zipIdx member))
      fun overflow => cached overflow cacheItem inside

/-- Comparing two channels of spared feeds, the second one as it was stored. -/
theorem compareChannel_spared {grow : Growth} {state : MergeState} {data past : Data}
    (spared : Spared reason data) (spared' : Spared reason past) {channel original : Channel}
    (member : channel ∈ data.channels) (there : original ∈ past.channels) :
    (compareChannel grow state channel original.cached).Avoids reason := by
  have built : reason = .overflow → ∀ dateStr ∈ original.cached.props.get .lastBuildDate,
      Representable dateStr := fun overflow dateStr present =>
    spared'.built overflow original there dateStr (cachedProp_eq_some.mp present).1
  have published : reason = .overflow → ∀ cacheItem ∈ original.cached.items,
      ∀ dateStr ∈ cacheItem.props.get .pubDate, Representable dateStr := by
    intro overflow cacheItem inside dateStr present
    obtain ⟨item, listed, rfl⟩ := List.mem_map.mp inside
    exact spared'.published overflow original there item listed dateStr (cachedProp_eq_some.mp present).1
  have distinct : reason = .assertion →
      (original.cached.items.filterMap fun cacheItem => cacheItem.props.get .guid).Nodup := by
    intro assertion
    rw [Channel.cached, List.filterMap_map]
    exact spared'.distinct assertion original there
  refine .bind (parseDate_spared built) fun _ _ =>
    .bind (parseDate_spared fun overflow => spared.built overflow channel member) fun _ _ => ?_
  refine .ite (fun _ => ?_) fun _ => .ok _
  have reserved : channel.items.length ≤ (state.reserve grow channel).capacity := by
    simpa [MergeState.reserve] using ArrayList.le_capacity_ensure grow
      state.toDelete.clearRetainingCapacity channel.items.length
  have scanned := scanItems_spared (state.items_reserve grow channel) reserved distinct
    (fun overflow => spared.published overflow channel member) published
  refine .bind scanned fun toDelete ran => .bind ?_ fun _ _ => .ok _
  have recorded : toDelete.items = positions channel.items original.cached.items := by
    simpa using (scanItems_eq_ok.mp ran).2.1
  rw [ArrayList.items_sort, recorded, removePositions]
  exact .ok _

theorem merge_spared {grow : Growth} {data past : Data} (spared : Spared reason data)
    (spared' : Spared reason past) : (merge grow data past.cached).Avoids reason := by
  refine .bind (foldlM_avoids (fun channel member state => ?_) _) fun _ _ => .ok _
  by_cases titled : Titled past.cached.channels channel
  · rw [mergeChannel_of_titled titled]
    cases found : findCached past.cached.channels channel with
    | none => exact .ok _
    | some cacheChannel =>
      obtain ⟨original, there, rfl⟩ := List.mem_map.mp (List.mem_of_find?_eq_some found)
      exact compareChannel_spared spared spared' member there
  · rw [mergeChannel_of_untitled titled]
    refine .panic fun unwrapNull => titled ⟨fun _ => ?_, fun cacheChannel before => ?_⟩
    · exact ne_none_of_visible (spared.titled unwrapNull.symm channel member)
    · obtain ⟨original, there, rfl⟩ := List.mem_map.mp ((List.takeWhile_sublist _).subset before)
      exact spared'.titled unwrapNull.symm original there

theorem printOutput_spared {output : Data} (titled : reason = .unwrapNull →
      ∀ channel ∈ output.channels, channel.props.get .title ≠ none) :
    (printOutput output : Outcome RunError Bytes).Avoids reason := by
  by_cases unwrapNull : reason = .unwrapNull
  · subst unwrapNull
    exact printOutput_avoids (titled rfl)
  · refine .bind (mapM_avoids fun channel _ => .bind ?_ fun _ _ => .ok _) fun _ _ => .ok _
    cases channel.props.get .title with
    | none => exact .panic (Ne.symm unwrapNull)
    | some title => exact .ok _

end Merge

/-- The reasons that a feed can give. -/
def Given (reason : Panic) : Prop := reason = .overflow ∨ reason = .unwrapNull ∨ reason = .assertion

theorem Spared.of_not_given {reason : Panic} (other : ¬ Given reason) (data : Data) :
    Spared reason data where
  buffered assertion := absurd (.inr (.inr assertion)) other
  distinct assertion := absurd (.inr (.inr assertion)) other
  titled unwrapNull := absurd (.inr (.inl unwrapNull)) other
  built overflow := absurd (.inl overflow) other
  published overflow := absurd (.inl overflow) other

/-- No read of the file aborts for this reason, wherever it breaks off, nor gives a feed that
makes a run abort. -/
def Left (reason : Panic) (file : CacheFile) : Prop :=
  ∀ content ∈ file, ∀ part, part <+: content →
    ((Data.read {} ioBuf.capacity).run part).Avoids reason ∧
      ∀ data rest, (Data.read {} ioBuf.capacity).run part = .ok (data, rest) → Spared reason data

theorem Left.none (reason : Panic) : Left reason none := nofun

theorem Left.of_not_given {reason : Panic} (other : ¬ Given reason) (file : CacheFile) :
    Left reason file := fun _ _ part _ =>
  ⟨read_avoids (fun assertion => other (.inr (.inr assertion.symm))) _ part,
    fun data _ _ => .of_not_given other data⟩

theorem Spared.cached {reason : Panic} {data : Data} (spared : Spared reason data) :
    Spared reason data.cached where
  buffered assertion channel member := by
    obtain ⟨original, listed, rfl⟩ := List.mem_map.mp member
    obtain ⟨props, items⟩ := spared.buffered assertion original listed
    refine ⟨slotsWithin_cached props, fun item inside => ?_⟩
    obtain ⟨source, present, rfl⟩ := List.mem_map.mp inside
    exact slotsWithin_cached (items source present)
  distinct assertion channel member := by
    obtain ⟨original, listed, rfl⟩ := List.mem_map.mp member
    rw [Channel.cached, List.filterMap_map]
    have same (item : Item) : cachedProp ((Item.cached item).props.get .guid) =
        cachedProp (item.props.get .guid) := cachedProp_idem _
    simpa only [Function.comp_def, same] using spared.distinct assertion original listed
  titled unwrapNull channel member := by
    obtain ⟨original, listed, rfl⟩ := List.mem_map.mp member
    exact (cachedProp_idem _).symm ▸ spared.titled unwrapNull original listed
  built overflow channel member dateStr present := by
    obtain ⟨original, listed, rfl⟩ := List.mem_map.mp member
    exact spared.built overflow original listed dateStr (cachedProp_eq_some.mp present).1
  published overflow channel member item inside dateStr present := by
    obtain ⟨original, listed, rfl⟩ := List.mem_map.mp member
    obtain ⟨source, found, rfl⟩ := List.mem_map.mp inside
    exact spared.published overflow original listed source found dateStr (cachedProp_eq_some.mp present).1

theorem left_of_part {reason : Panic} {data : Data} (spared : Spared reason data)
    (usize : data.Within .usize) {content : Bytes} (isPart : content <+: data.write) :
    Left reason (some content) := by
  intro _ same part front
  cases same
  have cut : part <+: data.write := front.trans isPart
  refine ⟨read_part_avoids ioBuf usize spared.buffered cut, fun found rest read => ?_⟩
  have holds : Memory.ofFile (some part) = .holds found := ofFile_eq_holds.mpr ⟨part, rest, rfl, read⟩
  rw [ofFile_part usize cut] at holds
  split at holds
  · cases holds
    exact spared.cached
  · cases holds

section Run

variable {grow : Growth} {reason : Panic}

theorem parse_response_avoids (response : Response) : (Client.parse response).Avoids reason := by
  have fed : Parse.feed {} response.body.callbacks = .ok _ :=
    feed_follows (.live .init) response.body.callbacks
  rw [Client.parse, fed]
  simp only [Outcome.mapError_ok, Outcome.ok_bind]
  split
  · exact .error _
  · exact .ite (fun _ => .error _) fun _ => .ok _

theorem finish_spared {faults : Faults} {data : Data} {cache : Option Data}
    (spared : Spared reason data)
    (remembered : ∀ cached, cache = some cached → ∃ past, Spared reason past ∧ cached = past.cached) :
    (finish grow faults data cache).Avoids reason := by
  have merged : (mergeOutput grow data cache).Avoids reason := by
    cases cache with
    | none => exact .ok _
    | some cached =>
      obtain ⟨past, spared', rfl⟩ := remembered cached rfl
      exact .mapError (merge_spared spared spared') _
  refine .bind merged fun output completed => .bind (printOutput_spared fun unwrapNull => ?_) fun _ _ =>
    .ite (fun _ => .error _) fun _ => .ok _
  have own (channel : Channel) (member : channel ∈ data.channels) : channel.props.get .title ≠ none :=
    ne_none_of_visible (spared.titled unwrapNull channel member)
  cases cache with
  | none =>
    cases completed
    exact own
  | some cached =>
    rw [merge_ok (Outcome.mapError_eq_ok.mp completed)]
    intro channel member
    obtain ⟨fetched, listed, kept⟩ := List.mem_filterMap.mp member
    rw [props_of_fresh kept]
    exact own fetched listed

theorem readFile_part (faults : Faults) (content : Bytes) :
    ∃ part inject, part <+: content ∧
      readFile faults content = ((Data.read {} ioBuf.capacity).run part).mapError inject := by
  unfold readFile
  cases faults.readLimit with
  | none =>
    refine ⟨content, id, List.prefix_rfl, ?_⟩
    cases (Data.read {} ioBuf.capacity).run content <;> rfl
  | some limit => exact ⟨content.take limit, _, List.take_prefix _ _, rfl⟩

theorem openCache_spared {file : CacheFile} (left : Left reason file) (faults : Faults) :
    (openCache faults file).Avoids reason ∧ ∀ cached, openCache faults file = .ok (some cached) →
      ∃ past, Spared reason past ∧ cached = past.cached := by
  cases file with
  | none =>
    refine ⟨.ite (fun _ => .error _) fun _ => .ite (fun _ => .error _) fun _ => .ok _, ?_⟩
    intro cached opened
    obtain ⟨_, ⟨_, impossible⟩ | ⟨_, _, _, impossible, _⟩⟩ := openCache_eq_ok.mp opened
    · cases impossible
    · cases impossible
  | some content =>
    obtain ⟨part, inject, front, read⟩ := readFile_part faults content
    obtain ⟨avoids, gives⟩ := left content rfl part front
    constructor
    · have found : (readFile faults content).Avoids reason := by
        rw [read]
        exact .mapError avoids _
      exact .ite (fun _ => .error _) fun _ => .ite (fun _ => .error _) fun _ =>
        .bind (.mapError found _) fun _ _ => .ok _
    · intro cached opened
      obtain ⟨_, ⟨impossible, _⟩ | ⟨_, found, rest, same, returned, kept⟩⟩ := openCache_eq_ok.mp opened
      · cases impossible
      · cases same
        cases kept
        rw [read, Outcome.mapError_eq_ok] at returned
        exact ⟨cached, gives cached rest returned, (cached_of_read ioBuf returned).symm⟩

theorem left_next {file : CacheFile} (left : Left reason file) {visit : Visit}
    (spared : ∀ parser, Client.parse visit.response = .ok parser → Spared reason parser.data) :
    Left reason ((session grow).next file visit) := by
  by_cases ready : ∃ result, prepare visit.faults file visit.response = .ok result
  · obtain ⟨⟨data, cache⟩, prepared⟩ := ready
    obtain ⟨parser, parsed, rfl, _⟩ := prepare_eq_ok.mp prepared
    have next : (session grow).next file visit = some (writeFile visit.faults parser.data).1 := by
      simp [session, run_of_prepared prepared]
    rw [next]
    exact left_of_part (spared parser parsed) (Client.usize_of_parse parsed) (writeFile_written _ _)
  · have next : (session grow).next file visit = file :=
      (run_of_unprepared (not_exists.mp ready)).1
    rw [next]
    exact left

theorem answer_spared {file : CacheFile} (left : Left reason file) {visit : Visit}
    (spared : ∀ parser, Client.parse visit.response = .ok parser → Spared reason parser.data) :
    ((session grow).answer file visit).Avoids reason := by
  obtain ⟨opens, remembered⟩ := openCache_spared left visit.faults
  have prepares : (prepare visit.faults file visit.response).Avoids reason :=
    .bind (.mapError (parse_response_avoids _) _) fun _ _ => .bind opens fun _ _ =>
      .ite (fun _ => .error _) fun _ => .ok _
  change (run grow visit.faults file visit.response).outcome.Avoids reason
  cases prepared : prepare visit.faults file visit.response with
  | error failure => simp [run, prepared, Outcome.Avoids]
  | panic other => simpa [run, prepared, Outcome.Avoids] using prepares
  | ok ready =>
    obtain ⟨data, cache⟩ := ready
    obtain ⟨parser, parsed, rfl, opened, _⟩ := prepare_eq_ok.mp prepared
    have wrote : (writeFile visit.faults parser.data).2.Avoids reason := by
      unfold writeFile
      split
      · exact .ok _
      · exact .error _
    rw [run_of_prepared prepared]
    refine .bind wrote fun _ _ => finish_spared (spared parser parsed) fun cached same => ?_
    exact remembered cached (same ▸ opened)

end Run

theorem left_final {grow : Growth} {reason : Panic} {start : CacheFile} (left : Left reason start)
    {visits : List Visit} (spared : ∀ visit ∈ visits, ∀ parser,
      Client.parse visit.response = .ok parser → Spared reason parser.data) :
    Left reason ((session grow).final start visits) := by
  induction visits using List.reverseRecOn with
  | nil => exact left
  | append_singleton visits visit ih =>
    rw [Transition.Machine.final_snoc]
    exact left_next (ih fun other member => spared other (by simp [member])) (spared visit (by simp))

theorem checkArgs_avoids (args : List Bytes) (reason : Panic) : (checkArgs args).Avoids reason := by
  unfold checkArgs
  split
  · exact .ite (fun _ => .error _) fun _ => .ok _
  · exact .error _

theorem main_avoids_of_unvisited {grow : Growth} {names : FileNames} {dir : CacheDir}
    {invocation : Invocation} (reason : Panic) (unvisited : ∀ url, invocation.visit url = none) :
    (main grow names dir invocation).outcome.Avoids reason := by
  have checks := checkArgs_avoids invocation.args reason
  unfold main
  cases checked : checkArgs invocation.args with
  | error failure => exact .error _
  | panic other => exact fun same => checks (by cases same; exact checked)
  | ok url =>
    by_cases help : url = bytes "--help"
    · simp only [if_pos help]
      exact .ite (fun _ => .error _) fun _ => .ok _
    · simp only [if_neg help, fetchFeed]
      cases fetched : invocation.fetched with
      | none => exact .error _
      | some response =>
        have selected := unvisited url
        simp [Invocation.visit, checked, help, fetched] at selected

/-- No call of the program aborts for a reason that no feed gives, whatever goes wrong in the calls
and wherever their transfers break off: overflow takes a date beyond the range of nanoseconds, an
unwrapped `null` a channel without a title, a failed assertion a value that does not fit into the
reader's buffer or a guid that a channel has twice. The files that are there at first give none
either; of a reason that feeds cannot give nothing is asked of them. -/
theorem spared_never_aborts (grow : Growth) (names : FileNames) (reason : Panic) (dir : CacheDir)
    (left : Given reason → ∀ file, Left reason (dir file)) (invocations : List Invocation)
    (spared : ∀ invocation ∈ invocations, ∀ response ∈ invocation.fetched, ∀ parser,
      Client.parse response = .ok parser → Spared reason parser.data) :
    ∀ event ∈ (program grow names).history dir invocations, event.output ≠ .panic reason := by
  have kind {invocation : Invocation} (member : invocation ∈ invocations) {url : Bytes} {visit : Visit}
      (visited : invocation.visit url = some visit) :
      ∀ parser, Client.parse visit.response = .ok parser → Spared reason parser.data := by
    obtain ⟨_, response, fetched, rfl⟩ := Invocation.visit_eq_some.mp visited
    exact spared invocation member response fetched
  have first (file : Bytes) : Left reason (dir file) := by
    by_cases given : Given reason
    · exact left given file
    · exact .of_not_given given _
  intro event member
  obtain ⟨before, invocation, after, rfl, rfl⟩ := (program grow names).mem_history member
  by_cases served : ∃ url visit, invocation.visit url = some visit
  · obtain ⟨url, visit, visited⟩ := served
    have selected : invocation.visitFile names (names.key (fileName url)) = some visit :=
      Invocation.visitFile_eq_some.mpr ⟨url, rfl, visited⟩
    have reached : Left reason ((program grow names).final dir before (names.key (fileName url))) := by
      have ended : (program grow names).final dir before (names.key (fileName url)) =
          (session grow).final (dir (names.key (fileName url)))
            (before.filterMap (Invocation.visitFile names (names.key (fileName url)))) :=
        (fileProjection grow names _).view_final dir before
      rw [ended]
      refine left_final (first _) fun earlier chosen => ?_
      obtain ⟨past, listed, chosen⟩ := List.mem_filterMap.mp chosen
      obtain ⟨other, _, visited⟩ := Invocation.visitFile_eq_some.mp chosen
      exact kind (List.mem_append_left _ listed) visited
    have answers : ((session grow).answer _ visit).Avoids reason :=
      answer_spared reached (kind (by simp) visited)
    have reported : (report ((session grow).answer _ visit)).Avoids reason :=
      .bind (.mapError answers _) fun _ _ => .ok _
    have same := (fileProjection grow names _).answers ((program grow names).final dir before) invocation
      visit selected
    exact fun aborted => reported (same.symm.trans aborted)
  · refine main_avoids_of_unvisited reason fun url => ?_
    rw [← Option.not_isSome_iff_eq_none, Option.isSome_iff_exists]
    exact fun found => served ⟨url, found⟩

/-- A feed without a guid twice, whose cache file is cut off in the first call: both calls fail. -/
theorem spared_never_aborts_news :
    ∃ invocations : List Invocation,
      ((program .std .exact).history (fun _ => none) invocations).map
          (fun event => event.output.toOption.isSome) = [false, false] ∧
      ∀ event ∈ (program .std .exact).history (fun _ => none) invocations,
        event.output ≠ .panic .assertion := by
  let response := (Visit.fetch
    (newsFeed (some (bytes "Sat, 07 Sep 2002 09:42:31 GMT")) [bytes "1"]) (by decide +kernel)).response
  let call (faults : Faults) : Invocation :=
    { args := [bytes "xrss", bytes "https://example.org"], fetched := some response, faults
      fresh := fun _ => 0 }
  let invocations : List Invocation := [call { writeLimit := some 100 }, call {}]
  have spared : ∀ parser ∈ (Client.parse response).toOption, Spared .assertion parser.data := by
    decide +kernel
  refine ⟨invocations, by decide +kernel, spared_never_aborts .std .exact .assertion (fun _ => none)
    (fun _ _ => .none _) invocations fun invocation member answer fetched parser parsed => ?_⟩
  have same : invocation.fetched = some response := by
    rcases List.mem_cons.mp member with rfl | member
    · rfl
    · rw [List.mem_singleton.mp member]
  obtain rfl : response = answer := Option.some.inj (same.symm.trans fetched)
  exact spared parser (Outcome.toOption_eq_some.mpr parsed)

end Xrss.Main
