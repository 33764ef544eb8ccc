import Xrss.Main.Merge
import Xrss.Rss.Client
import Xrss.Transition.History

/-! One run of `main` after the feed was fetched: parse, cache, merge, print.
The file of the feed's cache is the only state a run leaves to the next. -/

namespace Xrss.Main

open Zig Rss

/-- `{s:<16}`. -/
def padded (text : Bytes) : Bytes := text ++ List.replicate (16 - text.length) 0x20

def printProp (indent name value : Bytes) : Bytes :=
  indent ++ padded name ++ bytes " " ++ value ++ bytes "\n"

def printItem (item : Item) : Bytes :=
  bytes "    Item \x7b\n" ++
    (item.props.iterator.flatMap fun entry =>
      match entry.2 with
      | some val => printProp (bytes "      ") entry.1.generic.displayName val
      | none => []) ++
    bytes "    \x7d\n"

def printChannel (channel : Channel) : Outcome ε Bytes := do
  let title ← Outcome.unwrap (channel.props.get .title)
  pure (bytes "Channel " ++ title ++ bytes " \x7b\n" ++
    (channel.props.iterator.flatMap fun entry =>
      match entry.1, entry.2 with
      | .title, _ => []
      | key, some val => printProp (bytes "  ") key.generic.displayName val
      | _, none => []) ++
    bytes "  Items [\n" ++ channel.items.flatMap printItem ++ bytes "  ]\n\x7d\n")

/-- The last loop of `main`. -/
def printOutput (output : Data) : Outcome ε Bytes := do
  let parts ← output.channels.mapM printChannel
  pure parts.flatten

/-- What goes wrong outside the program during a run. A limit is the number of
bytes after which a transfer fails. -/
structure Faults where
  openDir : Bool := false
  openFile : Bool := false
  readLimit : Option Nat := none
  createFile : Bool := false
  writeLimit : Option Nat := none
  print : Bool := false

inductive RunError where
  | client (failure : ClientError)
  | openDir
  | openFile
  | read (failure : ReadError)
  | createFile
  | writeFailed
  | merge (failure : MergeError)
  | print
  deriving Repr, DecidableEq

/-- The content of the cache file, if there is one. -/
abbrev CacheFile := Option Bytes

/-- `cache.read` over the open file; a transfer that breaks off is no end of
stream. -/
def readFile (faults : Faults) (content : Bytes) : Outcome ReadError (Data × Bytes) :=
  match faults.readLimit with
  | none => (Data.read {} ioBuf.capacity).run content
  | some limit =>
    ((Data.read {} ioBuf.capacity).run (content.take limit)).mapError fun
      | .endOfStream => .readFailed
      | failure => failure

/-- The cache directory and the `has_cache` block. -/
def openCache (faults : Faults) (file : CacheFile) : Outcome RunError (Option Data) :=
  if faults.openDir then .error .openDir
  else if faults.openFile then .error .openFile
  else
    match file with
    | none => .ok none
    | some content => do
      let (cache, _) ← (readFile faults content).mapError .read
      .ok (some cache)

/-- The bytes that reach the created file, and how writing ends. -/
def writeFile (faults : Faults) (data : Data) : Bytes × Outcome RunError Unit :=
  match faults.writeLimit with
  | none => (data.write, .ok ())
  | some limit => (data.write.take limit, .error .writeFailed)

/-- The merge with the cache, or everything when there is none. -/
def mergeOutput (grow : Growth) (data : Data) : Option Data → Outcome RunError Data
  | some cache => (merge grow data cache).mapError .merge
  | none => .ok data

/-- What a completed run has printed: the channels it went through and the
bytes it made of them. -/
@[ext] structure Printed where
  output : Data
  stdout : Bytes

instance : DecidableEq Printed := fun left right =>
  decidable_of_iff (left.output = right.output ∧ left.stdout = right.stdout) Printed.ext_iff.symm

structure RunResult where
  file : CacheFile
  outcome : Outcome RunError Printed

/-- The run up to `createFile`, which truncates the cache file. -/
def prepare (faults : Faults) (file : CacheFile) (response : Response) :
    Outcome RunError (Data × Option Data) := do
  let parser ← (Client.parse response).mapError .client
  let cache ← openCache faults file
  if faults.createFile then .error .createFile else .ok (parser.data, cache)

/-- The run after the cache file was written. -/
def finish (grow : Growth) (faults : Faults) (data : Data) (cache : Option Data) :
    Outcome RunError Printed := do
  let output ← mergeOutput grow data cache
  let stdout ← printOutput output
  if faults.print then .error .print else .ok ⟨output, stdout⟩

def run (grow : Growth) (faults : Faults) (file : CacheFile) (response : Response) : RunResult :=
  match prepare faults file response with
  | .ok (data, cache) =>
    let (written, status) := writeFile faults data
    ⟨some written, status >>= fun _ => finish grow faults data cache⟩
  | .error failure => ⟨file, .error failure⟩
  | .panic reason => ⟨file, .panic reason⟩

/-- What one run meets: the world's faults and the feed it fetches. -/
structure Visit where
  faults : Faults := {}
  response : Response

/-- A run without faults that fetches this document. -/
def Visit.fetch (body : Body)
    (computed : (Parse.feed {} body.callbacks).toOption.all
      fun parser => decide (parser.data.Within .usize)) : Visit where
  response := .checked body computed

/-- A feed of one channel, News, whose items all have the same date. -/
def newsFeed (built : Option Bytes) (guids : List Bytes) : Body :=
  .rss [.channel
    ((Config.TAG_NAME_TITLE, bytes "News") ::
      (built.map fun dateStr => (Config.TAG_NAME_LAST_BUILD_DATE, dateStr)).toList)
    (guids.map fun guid => [(Config.TAG_NAME_GUID, guid),
      (Config.TAG_NAME_PUB_DATE, bytes "Sat, 07 Sep 2002 00:00:00 GMT")])]

/-- Successive runs against one URL. -/
def session (grow : Growth) :
    Transition.Machine CacheFile Visit (Outcome RunError Printed) where
  answer file visit := (run grow visit.faults file visit.response).outcome
  next file visit := (run grow visit.faults file visit.response).file

abbrev RunEvent := Transition.Event CacheFile Visit (Outcome RunError Printed)

end Xrss.Main
