import Xrss.Rss.Cache

namespace Xrss.Rss

open Zig Config Decoder

/-- A reader's buffer: a slice that can hold an integer and the magic. -/
structure Buffer where
  capacity : Nat
  usize : capacity < 2 ^ 64
  holdsU64 : 8 ≤ capacity

/-- `io_buf` of `main`. -/
def ioBuf : Buffer := ⟨1024, by decide, by decide⟩

/-- An empty value has no length to tell it from `null`. -/
def cachedProp : Option Bytes → Option Bytes
  | some [] => none
  | prop => prop

theorem cachedProp_eq_some {prop : Option Bytes} {val : Bytes} :
    cachedProp prop = some val ↔ prop = some val ∧ val ≠ [] := by
  match prop with
  | none => simp [cachedProp]
  | some [] => simp [cachedProp]
  | some (byte :: rest) =>
    simp only [cachedProp, Option.some.injEq, iff_self_and]
    rintro rfl
    exact List.cons_ne_nil _ _

def PropWithin (limit : Nat) (prop : Option Bytes) : Prop :=
  ∀ val ∈ prop, val.length ≤ limit

section Slots

variable {κ : Type}

def SlotsWithin (limit : Nat) (props : EnumArray κ (Option Bytes)) : Prop :=
  ∀ key, PropWithin limit (props.get key)

def cachedSlots (props : EnumArray κ (Option Bytes)) : EnumArray κ (Option Bytes) :=
  ⟨fun key => cachedProp (props.get key)⟩

end Slots

def Item.cached (self : Item) : Item := ⟨cachedSlots self.props⟩

def Channel.cached (self : Channel) : Channel := ⟨cachedSlots self.props, self.items.map Item.cached⟩

/-- The data a cache file stands for: empty values have become `null`. -/
def Data.cached (self : Data) : Data := ⟨self.channels.map Channel.cached⟩

/-- Bounds on the number of channels, the items of a channel and the length of
a value. -/
structure Limits where
  channels : Nat
  items : Nat
  values : Nat

/-- What `read` admits through this buffer. -/
def Buffer.limits (buffer : Buffer) : Limits := ⟨8, 1024, buffer.capacity⟩

/-- What memory can hold: every length is a `usize`. -/
def Limits.usize : Limits := ⟨2 ^ 64 - 1, 2 ^ 64 - 1, 2 ^ 64 - 1⟩

structure Channel.Within (channel : Channel) (limits : Limits) : Prop where
  values : SlotsWithin limits.values channel.props
  items : channel.items.length ≤ limits.items
  itemValues : ∀ item ∈ channel.items, SlotsWithin limits.values item.props

structure Data.Within (data : Data) (limits : Limits) : Prop where
  channels : data.channels.length ≤ limits.channels
  each : ∀ channel ∈ data.channels, channel.Within limits

instance (limit : Nat) (prop : Option Bytes) : Decidable (PropWithin limit prop) :=
  inferInstanceAs (Decidable (∀ val ∈ prop, val.length ≤ limit))

instance [EnumKey κ] (limit : Nat) (props : EnumArray κ (Option Bytes)) :
    Decidable (SlotsWithin limit props) :=
  decidable_of_iff (∀ key ∈ (EnumKey.values : List κ), PropWithin limit (props.get key))
    ⟨fun within key => within key (EnumKey.complete key), fun within key _ => within key⟩

instance (channel : Channel) (limits : Limits) : Decidable (channel.Within limits) :=
  decidable_of_iff (SlotsWithin limits.values channel.props ∧ channel.items.length ≤ limits.items ∧
      ∀ item ∈ channel.items, SlotsWithin limits.values item.props)
    ⟨fun ⟨values, items, itemValues⟩ => ⟨values, items, itemValues⟩,
      fun within => ⟨within.values, within.items, within.itemValues⟩⟩

instance (data : Data) (limits : Limits) : Decidable (data.Within limits) :=
  decidable_of_iff (data.channels.length ≤ limits.channels ∧
      ∀ channel ∈ data.channels, channel.Within limits)
    ⟨fun ⟨channels, each⟩ => ⟨channels, each⟩, fun within => ⟨within.channels, within.each⟩⟩

theorem SlotsWithin.mono {props : EnumArray κ (Option Bytes)} {limit limit' : Nat}
    (within : SlotsWithin limit props) (le : limit ≤ limit') : SlotsWithin limit' props :=
  fun key val filled => Nat.le_trans (within key val filled) le

/-- Whatever a reader admits has lengths a `usize` can hold. -/
theorem Data.Within.usize {data : Data} {buffer : Buffer} (within : data.Within buffer.limits) :
    data.Within .usize where
  channels := Nat.le_trans within.channels (by simp [Buffer.limits, Limits.usize])
  each channel member :=
    have fit := within.each channel member
    have values : buffer.limits.values ≤ Limits.usize.values := Nat.le_pred_of_lt buffer.usize
    { values := fit.values.mono values
      items := Nat.le_trans fit.items (by simp [Buffer.limits, Limits.usize])
      itemValues := fun item member => (fit.itemValues item member).mono values }

theorem decodes_takeU64 (buffer : Buffer) (value : Nat) (usize : value ≤ 2 ^ 64 - 1) :
    Decodes (CacheReader.takeU64 buffer.capacity) (writeU64 value) True value :=
  (decodes_takeInt _ _ _ _ (Nat.lt_of_le_pred (by decide) usize)).congr (by simp [buffer.holdsU64])

section Slots

variable {κ : Type} [DecidableEq κ]

/-- The slots after reading the values of `source` at `keys`. -/
def overlay (source : EnumArray κ (Option Bytes)) :
    List κ → EnumArray κ (Option Bytes) → EnumArray κ (Option Bytes)
  | [], props => props
  | key :: rest, props =>
    match cachedProp (source.get key) with
    | some value => overlay source rest (props.set key (some value))
    | none => overlay source rest props

theorem get_overlay (source : EnumArray κ (Option Bytes)) (keys : List κ)
    (props : EnumArray κ (Option Bytes)) (key : κ)
    (settled : props.get key = none ∨ props.get key = cachedProp (source.get key)) :
    (overlay source keys props).get key =
      if key ∈ keys then cachedProp (source.get key) else props.get key := by
  induction keys generalizing props with
  | nil => simp [overlay]
  | cons first rest ih =>
    rw [overlay]
    cases filled : cachedProp (source.get first) with
    | none =>
      rw [ih props settled]
      by_cases same : key = first
      · subst key
        rcases settled with vacant | value
        · simp [filled, vacant]
        · simp [filled, value]
      · simp [same]
    | some value =>
      by_cases same : key = first
      · subst key
        rw [ih _ (by simp [filled])]
        simp [filled]
      · rw [ih _ (by simpa [same] using settled)]
        simp [same]

theorem overlay_values [EnumKey κ] (source : EnumArray κ (Option Bytes)) :
    overlay source EnumKey.values (.initFill none) = cachedSlots source := by
  apply EnumArray.ext
  funext key
  rw [get_overlay _ _ _ _ (by simp), if_pos (EnumKey.complete key)]
  rfl

theorem decodes_readSlots (buffer : Buffer) (source : EnumArray κ (Option Bytes))
    (usize : SlotsWithin Limits.usize.values source) (keys : List κ) (props : EnumArray κ (Option Bytes)) :
    Decodes (readSlots buffer.capacity keys props)
      (keys.flatMap fun key => writeProp (source.get key))
      (∀ key ∈ keys, PropWithin buffer.capacity (source.get key)) (overlay source keys props) := by
  induction keys generalizing props with
  | nil => exact (Decodes.pure props).congr (by simp)
  | cons key rest ih =>
    rw [List.flatMap_cons, readSlots, overlay]
    match filled : source.get key with
    | none =>
      have length := decodes_takeU64 buffer 0 (by decide)
      exact (length.bind (ih props)).congr (by simp [filled, PropWithin])
    | some [] =>
      have length := decodes_takeU64 buffer 0 (by decide)
      exact (length.bind (ih props)).congr (by simp [filled, PropWithin])
    | some (byte :: bytes) =>
      have length := decodes_takeU64 buffer (byte :: bytes).length (usize key _ filled)
      have value := decodes_take ReadError.endOfStream buffer.capacity (byte :: bytes)
      have stored : Decodes
          (CacheReader.take buffer.capacity (byte :: bytes).length >>= fun value =>
            readSlots buffer.capacity rest (props.set key (some value))) _ _ _ :=
        value.bind (ih (props.set key (some (byte :: bytes))))
      rw [writeProp, List.append_assoc]
      exact (length.bind stored).congr (by simp [filled, PropWithin])

variable [EnumKey κ]

theorem decodes_readProps (buffer : Buffer) (props : EnumArray κ (Option Bytes))
    (usize : SlotsWithin Limits.usize.values props) :
    Decodes (readProps buffer.capacity) (writeProps props) (SlotsWithin buffer.capacity props)
      (cachedSlots props) := by
  have image : writeProps props = EnumKey.values.flatMap fun key => writeProp (props.get key) := by
    simp [writeProps, EnumArray.iterator, List.flatMap_map]
  rw [readProps, image, ← overlay_values]
  exact (decodes_readSlots buffer props usize _ _).congr
    ⟨fun within key => within key (EnumKey.complete key), fun within key _ => within key⟩

end Slots

theorem decodes_readItem (buffer : Buffer) (item : Item) (usize : SlotsWithin Limits.usize.values item.props) :
    Decodes (readItem buffer.capacity) (writeItem item) (SlotsWithin buffer.capacity item.props)
      item.cached :=
  (decodes_readProps buffer item.props usize).map Item.mk

theorem decodes_readItems (buffer : Buffer) (channel : Channel) (usize : channel.Within .usize) :
    Decodes ((readItem buffer.capacity).times channel.items.length) (channel.items.flatMap writeItem)
      (∀ item ∈ channel.items, SlotsWithin buffer.capacity item.props)
      (channel.items.map Item.cached) :=
  decodes_times writeItem _ Item.cached channel.items fun item member =>
    decodes_readItem buffer item (usize.itemValues item member)

theorem decodes_readChannel (buffer : Buffer) (channel : Channel) (usize : channel.Within .usize) :
    Decodes (readChannel buffer.capacity) (writeChannel channel) (channel.Within buffer.limits)
      channel.cached := by
  have props := decodes_readProps buffer channel.props usize.values
  have count := decodes_takeU64 buffer channel.items.length usize.items
  have items := decodes_readItems buffer channel usize
  have checked := decodes_check (channel.items.length > 1024) ReadError.tooManyItems
    (items.map fun items => Channel.mk (cachedSlots channel.props) items)
  rw [writeChannel, List.append_assoc]
  refine (props.bind (count.bind checked)).congr ⟨?_, ?_⟩
  · intro kept
    rcases kept with ⟨values, _, few, itemValues⟩
    exact ⟨values, Nat.le_of_not_lt few, itemValues⟩
  · intro within
    exact ⟨within.values, trivial, Nat.not_lt.mpr within.items, within.itemValues⟩

theorem read_empty (capacity : Nat) :
    Data.read {} capacity = (CacheReader.take capacity XRSS_FILE_MAGIC.length >>= fun magic =>
      if magic ≠ XRSS_FILE_MAGIC then Decoder.fail .invalidFormat
      else CacheReader.takeU64 capacity >>= fun channelCount =>
        if channelCount > 8 then Decoder.fail .tooManyChannels
        else (readChannel capacity).times channelCount >>= fun channels =>
          pure (Data.mk channels)) := rfl

theorem decodes_read (buffer : Buffer) (data : Data) (usize : data.Within .usize) :
    Decodes (Data.read {} buffer.capacity) data.write (data.Within buffer.limits) data.cached := by
  have channels := decodes_times writeChannel (Channel.Within · buffer.limits) Channel.cached
    data.channels fun channel member =>
      decodes_readChannel buffer channel (usize.each channel member)
  have few := decodes_check (data.channels.length > 8) ReadError.tooManyChannels
    (channels.map Data.mk)
  have counted : Decodes
      (CacheReader.takeU64 buffer.capacity >>= fun channelCount =>
        if channelCount > 8 then Decoder.fail .tooManyChannels
        else (readChannel buffer.capacity).times channelCount >>= fun channels =>
          pure (Data.mk channels)) _ _ _ :=
    (decodes_takeU64 buffer data.channels.length usize.channels).bind few
  have format := decodes_check (XRSS_FILE_MAGIC ≠ XRSS_FILE_MAGIC) ReadError.invalidFormat counted
  have magic := decodes_take ReadError.endOfStream buffer.capacity XRSS_FILE_MAGIC
  rw [Data.write, List.append_assoc, read_empty]
  refine Decodes.congr (Decodes.bind magic format) ⟨?_, ?_⟩
  · intro kept
    rcases kept with ⟨_, _, _, few, each⟩
    exact ⟨Nat.le_of_not_lt few, each⟩
  · intro within
    have length : XRSS_FILE_MAGIC.length ≤ buffer.capacity :=
      Nat.le_trans (by decide) buffer.holdsU64
    exact ⟨length, by simp, trivial, Nat.not_lt.mpr within.channels, within.each⟩

section Contents

/-- The largest buffer there can be. -/
def wholeBuffer : Buffer := ⟨2 ^ 64 - 1, by decide, by decide⟩

def channelContents : CacheReader Channel := do
  let props ← readProps wholeBuffer.capacity
  let itemCount ← CacheReader.takeU64 wholeBuffer.capacity
  let items ← (readItem wholeBuffer.capacity).times itemCount
  pure ⟨props, items⟩

/-- What the bytes of a cache file stand for: `read` without its limits. -/
def Data.contents : CacheReader Data := do
  let magic ← CacheReader.take wholeBuffer.capacity XRSS_FILE_MAGIC.length
  if magic ≠ XRSS_FILE_MAGIC then Decoder.fail .invalidFormat
  else do
    let channelCount ← CacheReader.takeU64 wholeBuffer.capacity
    let channels ← channelContents.times channelCount
    pure ⟨channels⟩

theorem decodes_channelContents (channel : Channel) (usize : channel.Within .usize) :
    Decodes channelContents (writeChannel channel) True channel.cached := by
  have props := decodes_readProps wholeBuffer channel.props usize.values
  have count := decodes_takeU64 wholeBuffer channel.items.length usize.items
  have items := decodes_readItems wholeBuffer channel usize
  rw [writeChannel, List.append_assoc]
  exact (props.bind (count.bind (items.map fun items =>
    Channel.mk (cachedSlots channel.props) items))).congr
      (iff_true_intro ⟨usize.values, trivial, usize.itemValues⟩)

theorem decodes_contents (data : Data) (usize : data.Within .usize) :
    Decodes Data.contents data.write True data.cached := by
  have channels := decodes_times writeChannel (fun _ => True) Channel.cached data.channels
    fun channel member => decodes_channelContents channel (usize.each channel member)
  have counted : Decodes
      (CacheReader.takeU64 wholeBuffer.capacity >>= fun channelCount =>
        channelContents.times channelCount >>= fun channels => pure (Data.mk channels)) _ _ _ :=
    (decodes_takeU64 wholeBuffer data.channels.length usize.channels).bind (channels.map Data.mk)
  have format := decodes_check (XRSS_FILE_MAGIC ≠ XRSS_FILE_MAGIC) ReadError.invalidFormat counted
  have magic := decodes_take ReadError.endOfStream wholeBuffer.capacity XRSS_FILE_MAGIC
  have whole : Decodes Data.contents _ _ data.cached := magic.bind format
  have length : XRSS_FILE_MAGIC.length ≤ wholeBuffer.capacity := by decide
  rw [Data.write, List.append_assoc]
  exact whole.congr (iff_true_intro ⟨length, by simp, trivial, fun _ _ => trivial⟩)

/-- The bytes `write` produces determine the data up to empty values, also where
`read` refuses them. -/
theorem contents_write (data : Data) (usize : data.Within .usize) :
    Data.contents.run data.write = .ok (data.cached, []) := by
  simpa using (decodes_contents data usize).accepts trivial []

end Contents

section Streams

variable {κ : Type} [DecidableEq κ] (capacity : Nat)

theorem readSlots_streams (keys : List κ) (props : EnumArray κ (Option Bytes)) :
    Streams .endOfStream (readSlots capacity keys props) := by
  induction keys generalizing props with
  | nil => exact .pure props
  | cons key rest ih =>
    exact .bind (.takeInt _ _) fun _ => .ite (.bind (.take _ _) fun _ => ih _) (ih _)

theorem readChannel_streams : Streams .endOfStream (readChannel capacity) := by
  have item : Streams .endOfStream (readItem capacity) :=
    .bind (readSlots_streams _ _ _) fun _ => .pure _
  exact .bind (readSlots_streams _ _ _) fun _ => .bind (.takeInt _ _) fun _ =>
    .ite (.fail _) (.bind (.times item _) fun _ => .pure _)

/-- What `read` makes of a file does not depend on the bytes it leaves unread. -/
theorem read_streams : Streams .endOfStream (Data.read {} capacity) := by
  rw [read_empty]
  exact .bind (.take _ _) fun _ => .ite (.fail _) <|
    .bind (.takeInt _ _) fun _ => .ite (.fail _) <|
      .bind (.times (readChannel_streams _) _) fun _ => .pure _

end Streams

/-- Whatever `write` put in front, `read` takes exactly that, as long as the
limits of the reader are kept. -/
theorem read_write (buffer : Buffer) (data : Data) (within : data.Within buffer.limits)
    (rest : Bytes) :
    (Data.read {} buffer.capacity).run (data.write ++ rest) = .ok (data.cached, rest) :=
  (decodes_read buffer data within.usize).accepts within rest

/-- An empty description comes back as none at all. -/
theorem read_write_news :
    (Data.read {} ioBuf.capacity).run
      (Data.write ⟨[⟨(EnumArray.initFill none).set .title (some (bytes "News")),
        [⟨(EnumArray.initFill none).set .description (some [])⟩]⟩]⟩ ++ bytes "tail") =
      .ok (⟨[⟨(EnumArray.initFill none).set .title (some (bytes "News")), [{}]⟩]⟩, bytes "tail") := by
  have read := read_write ioBuf
    ⟨[⟨(EnumArray.initFill none).set .title (some (bytes "News")),
      [⟨(EnumArray.initFill none).set .description (some [])⟩]⟩]⟩ (by decide +kernel) (bytes "tail")
  rw [read]
  decide +kernel

end Xrss.Rss
