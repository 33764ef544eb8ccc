import Xrss.Datetime
import Xrss.Rss.Data
import Xrss.Zig.ArrayList

namespace Xrss.Main

open Zig Datetime Rss

inductive MergeError where
  | missingBuildDate
  | missingGUID
  | missingPubDate
  | date (failure : DateParseError)
  deriving Repr, DecidableEq

/-- `parseRfc1123ToNanos(prop orelse return error)`. -/
def parseDate (missing : MergeError) (prop : Option Bytes) : Outcome MergeError Int := do
  let dateStr ← .ofOption missing prop
  (parseRfc1123ToNanos dateStr).mapError .date

/-- The innermost loop body: `itemIdx` is recorded when the cache holds this
item in a version that is no older. -/
def compareItem (item : Item) (itemIdx : Nat) (toDelete : ArrayList Nat) (cacheItem : Item) :
    Outcome MergeError (ArrayList Nat) := do
  let guid ← .ofOption .missingGUID (item.props.get .guid)
  let cacheGuid ← .ofOption .missingGUID (cacheItem.props.get .guid)
  if guid = cacheGuid then do
    let cachePubDate ← parseDate .missingPubDate (cacheItem.props.get .pubDate)
    let itemPubDate ← parseDate .missingPubDate (item.props.get .pubDate)
    if cachePubDate ≥ itemPubDate then toDelete.appendAssumeCapacity itemIdx else .ok toDelete
  else .ok toDelete

def scanItems (items cacheItems : List Item) (toDelete : ArrayList Nat) :
    Outcome MergeError (ArrayList Nat) :=
  items.zipIdx.foldlM
    (fun toDelete entry => cacheItems.foldlM (compareItem entry.1 entry.2) toDelete) toDelete

/-- The two lists that live across the iterations of the channel loop. -/
structure MergeState where
  toDelete : ArrayList Nat := .empty
  output : Data := {}

def MergeState.append (self : MergeState) (channel : Channel) : MergeState :=
  { self with output := ⟨self.output.channels ++ [channel]⟩ }

/-- A channel with the cached channel of the same title; nothing is put out
when the cached one was built later. -/
def compareChannel (grow : Growth) (state : MergeState) (channel cacheChannel : Channel) :
    Outcome MergeError MergeState := do
  let cacheBuildDate ← parseDate .missingBuildDate (cacheChannel.props.get .lastBuildDate)
  let channelBuildDate ← parseDate .missingBuildDate (channel.props.get .lastBuildDate)
  if cacheBuildDate ≤ channelBuildDate then do
    let toDelete := state.toDelete.clearRetainingCapacity
    let toDelete := toDelete.ensureUnusedCapacity grow channel.items.length
    let toDelete ← scanItems channel.items cacheChannel.items toDelete
    let toDelete := toDelete.sort
    let items ← orderedRemoveMany channel.items toDelete.items
    .ok ({ state with toDelete }.append { channel with items })
  else .ok state

/-- The loop over the cached channels up to the first of the same title. -/
def mergeChannel (grow : Growth) (state : MergeState) (channel : Channel) :
    List Channel → Outcome MergeError MergeState
  | [] => .ok (state.append channel)
  | cacheChannel :: rest => do
    let title ← Outcome.unwrap (channel.props.get .title)
    let cacheTitle ← Outcome.unwrap (cacheChannel.props.get .title)
    if title = cacheTitle then compareChannel grow state channel cacheChannel
    else mergeChannel grow state channel rest

def merge (grow : Growth) (data cache : Data) : Outcome MergeError Data := do
  let state ← data.channels.foldlM (fun state channel => mergeChannel grow state channel cache.channels) {}
  pure state.output

end Xrss.Main
