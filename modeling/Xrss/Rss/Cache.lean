import Xrss.Rss.Data
import Xrss.Zig.Decoder

namespace Xrss.Rss

open Zig Config

inductive ReadError where
  | endOfStream
  | readFailed
  | invalidFormat
  | tooManyChannels
  | tooManyItems
  deriving Repr, DecidableEq

/-- The reader of a cache file whose buffer holds `capacity` bytes. -/
abbrev CacheReader (α : Type) := Decoder ReadError α

namespace CacheReader

def take (capacity length : Nat) : CacheReader Bytes := Decoder.take .endOfStream capacity length

/-- `takeInt(u64, .little)`. -/
def takeU64 (capacity : Nat) : CacheReader Nat := Decoder.takeInt .endOfStream capacity 8

end CacheReader

/-- `writeInt(u64, value, .little)`. -/
def writeU64 (value : Nat) : Bytes := encodeLE 8 value

section Props

variable {κ : Type} [DecidableEq κ] [EnumKey κ]

/-- The `while (iter.next())` loop of `read` over the slots of one element. -/
def readSlots (capacity : Nat) : List κ → EnumArray κ (Option Bytes) →
    CacheReader (EnumArray κ (Option Bytes))
  | [], props => pure props
  | key :: rest, props => do
    let propLen ← CacheReader.takeU64 capacity
    if propLen > 0 then do
      let value ← CacheReader.take capacity propLen
      readSlots capacity rest (props.set key (some value))
    else readSlots capacity rest props

def readProps (capacity : Nat) : CacheReader (EnumArray κ (Option Bytes)) :=
  readSlots capacity EnumKey.values (.initFill none)

def writeProp : Option Bytes → Bytes
  | some val => writeU64 val.length ++ val
  | none => writeU64 0

def writeProps (props : EnumArray κ (Option Bytes)) : Bytes :=
  props.iterator.flatMap fun entry => writeProp entry.2

end Props

def readItem (capacity : Nat) : CacheReader Item := do
  let props ← readProps capacity
  pure ⟨props⟩

def writeItem (item : Item) : Bytes := writeProps item.props

def readChannel (capacity : Nat) : CacheReader Channel := do
  let props ← readProps capacity
  let itemCount ← CacheReader.takeU64 capacity
  if itemCount > 1024 then Decoder.fail .tooManyItems
  else do
    let items ← (readItem capacity).times itemCount
    pure ⟨props, items⟩

def writeChannel (channel : Channel) : Bytes :=
  writeProps channel.props ++ writeU64 channel.items.length ++ channel.items.flatMap writeItem

/-- `Data.read`; it asserts that no channel is there yet. -/
def Data.read (self : Data) (capacity : Nat) : CacheReader Data := do
  let _ ← StateT.lift (Outcome.assert (self.channels = []))
  let magic ← CacheReader.take capacity XRSS_FILE_MAGIC.length
  if magic ≠ XRSS_FILE_MAGIC then Decoder.fail .invalidFormat
  else do
    let channelCount ← CacheReader.takeU64 capacity
    if channelCount > 8 then Decoder.fail .tooManyChannels
    else do
      let channels ← (readChannel capacity).times channelCount
      pure ⟨channels⟩

/-- `Data.write`. -/
def Data.write (self : Data) : Bytes :=
  XRSS_FILE_MAGIC ++ writeU64 self.channels.length ++ self.channels.flatMap writeChannel

end Xrss.Rss
