import Xrss.Rss.Data
import Xrss.Zig.Integer
import Xrss.Zig.Trim

/-! The push parser of `rss/Parse.zig`: three callbacks over an explicit state.
No error return of the source comes after a write to the parser, so a failed
callback only replaces `state`. Logging is left out. -/

namespace Xrss.Rss

open Zig Config

/-- `Parse.Error`; allocation never fails here. -/
inductive Parse.Error where
  | expectedRSSTag
  | missingRSSVersion
  | unsupportedRSSVersion
  | expectedChannelTag
  | expectedItemTag
  | expectedPropertyTag
  | invalidProperty
  | duplicateProperty
  | missingRequiredProperty
  | attributeCountMismatch
  | duplicateAttribute
  | parsingEnded
  deriving Repr, DecidableEq

inductive Parse.State where
  | init
  | rss
  | channel
  | item
  | «end»
  | err
  deriving Repr, DecidableEq

structure Parse.Attr where
  name : Bytes
  value : Bytes
  deriving Repr, DecidableEq

/-- The parser's fields; `depth` is a `u8`, and `activeSink` is the name of the
unknown element being skipped. -/
@[ext] structure Parse where
  data : Data := {}
  depth : Nat := 0
  state : Parse.State := .init
  activeProperty : Property := .null
  activeSink : Option Bytes := none
  activeData : Bytes := []

instance : DecidableEq Parse := fun left right =>
  decidable_of_iff (left.data = right.data ∧ left.depth = right.depth ∧ left.state = right.state ∧
      left.activeProperty = right.activeProperty ∧ left.activeSink = right.activeSink ∧
      left.activeData = right.activeData) Parse.ext_iff.symm

namespace Parse

/-- The loop of `processAttrs` over the name and value pairs. -/
def collectAttrs (result : List Attr) : List Bytes → Outcome Error (List Attr)
  | name :: value :: rest =>
    if result.any (·.name == name) then .error .duplicateAttribute
    else collectAttrs (result ++ [⟨name, value⟩]) rest
  | _ => .ok result

/-- `atts` is the callback's array up to its null terminator. -/
def processAttrs (atts : List Bytes) : Outcome Error (List Attr) :=
  if atts.length % 2 ≠ 0 then .error .attributeCountMismatch
  else collectAttrs [] atts

/-- The first `version` attribute decides. -/
def checkVersion : List Attr → Outcome Error Unit
  | [] => .error .missingRSSVersion
  | attr :: rest =>
    if attr.name = ATTR_NAME_VERSION then
      if attr.value = RSS_SUPPORTED_VERSION then .ok () else .error .unsupportedRSSVersion
    else checkVersion rest

/-- `none` when the element is not the property `key`. -/
def startProperty (self : Parse) (name : Bytes) (key : Property) (target : Option Bytes) :
    Outcome Error (Option Parse) :=
  if name = key.tagName then
    if target ≠ none then .error .duplicateProperty
    else do
      let depth ← unsigned 8 (self.depth + DEPTH_STEP)
      .ok (some { self with activeProperty := key, depth })
  else .ok none

/-- The `while (iter.next())` loop around `startProperty`, and the sink after
it. -/
def startPropertyOrSink (self : Parse) (name : Bytes) :
    List (Property × Option Bytes) → Outcome Error Parse
  | [] => .ok { self with activeSink := some name }
  | (key, target) :: rest => do
    match ← self.startProperty name key target with
    | some started => .ok started
    | none => self.startPropertyOrSink name rest

def elementStartImpl (self : Parse) (name : Bytes) (attrs : List Attr) : Outcome Error Parse :=
  match self.state with
  | .init =>
    if name = TAG_NAME_RSS then do
      checkVersion attrs
      let depth ← unsigned 8 (self.depth + DEPTH_STEP)
      .ok { self with state := .rss, depth }
    else .error .expectedRSSTag
  | .rss =>
    if name = TAG_NAME_CHANNEL then do
      let depth ← unsigned 8 (self.depth + DEPTH_STEP)
      .ok { self with data := ⟨self.data.channels ++ [{}]⟩, state := .channel, depth }
    else .error .expectedChannelTag
  | .channel =>
    if self.activeSink ≠ none then .error .expectedPropertyTag
    else if self.activeProperty ≠ .null then .error .expectedPropertyTag
    else do
      let channel ← self.data.activeChannel
      if name = TAG_NAME_ITEM then do
        let depth ← unsigned 8 (self.depth + DEPTH_STEP)
        let data := self.data.setActiveChannel { channel with items := channel.items ++ [{}] }
        .ok { self with data, state := .item, depth }
      else
        self.startPropertyOrSink name
          (channel.props.iterator.map fun entry => (entry.1.generic, entry.2))
  | .item =>
    if self.activeSink ≠ none then .error .expectedPropertyTag
    else if self.activeProperty ≠ .null then .error .expectedPropertyTag
    else do
      let channel ← self.data.activeChannel
      let item ← channel.activeItem
      self.startPropertyOrSink name
        (item.props.iterator.map fun entry => (entry.1.generic, entry.2))
  | .«end» => .error .parsingEnded
  | .err => .ok self

/-- A callback that fails leaves the parser in `err`. -/
def elementStart (self : Parse) (name : Bytes) (atts : List Bytes) : Outcome Empty Parse :=
  (do
    let attrs ← processAttrs atts
    self.elementStartImpl name attrs).catchWith fun _ => { self with state := .err }

def appendCharacterData (self : Parse) (data : Bytes) : Outcome Error Parse :=
  if self.activeSink ≠ none then do
    Outcome.assert (self.activeProperty = .null)
    .ok self
  else .ok { self with activeData := self.activeData ++ data }

def characterDataImpl (self : Parse) (data : Bytes) : Outcome Error Parse :=
  if data = [] then .ok self
  else
    match self.state with
    | .init => .error .expectedRSSTag
    | .rss => .error .expectedChannelTag
    | .channel | .item =>
      if self.activeProperty = .null ∧ self.activeSink = none then .error .expectedPropertyTag
      else self.appendCharacterData data
    | .«end» => .error .parsingEnded
    | .err => .ok self

/-- Every chunk is trimmed on its own before it is looked at. -/
def characterData (self : Parse) (s : Bytes) : Outcome Empty Parse :=
  (self.characterDataImpl (trim isWhitespace s)).catchWith fun _ => { self with state := .err }

/-- `target` is the slot's present value and `store` writes it. -/
def endProperty (self : Parse) (target : Option Bytes) (store : Option Bytes → Data) :
    Outcome Error Parse := do
  Outcome.assert (target = none)
  let depth ← unsigned 8 (self.depth - DEPTH_STEP)
  .ok { self with
    data := store (some self.activeData), activeData := [], activeProperty := .null, depth }

/-- Leaving the sink or, when none is open, the enclosing element. -/
def endSinkOr (self : Parse) (name : Bytes) (close : Outcome Error Parse) : Outcome Error Parse :=
  match self.activeSink with
  | some sink => if name = sink then .ok { self with activeSink := none } else .error .expectedPropertyTag
  | none => close

def elementEndImpl (self : Parse) (name : Bytes) : Outcome Error Parse :=
  match self.state with
  | .init => .error .expectedRSSTag
  | .rss =>
    if name = TAG_NAME_RSS then do
      let depth ← unsigned 8 (self.depth - DEPTH_STEP)
      .ok { self with state := .«end», depth }
    else .error .expectedRSSTag
  | .channel =>
    if self.activeProperty ≠ .null then
      if name = self.activeProperty.tagName then do
        let channel ← self.data.activeChannel
        let key ← Channel.Property.fromGeneric self.activeProperty
        self.endProperty (channel.props.get key) fun value =>
          self.data.setActiveChannel { channel with props := channel.props.set key value }
      else .error .expectedPropertyTag
    else
      self.endSinkOr name
        (if name = TAG_NAME_CHANNEL then do
          let depth ← unsigned 8 (self.depth - DEPTH_STEP)
          .ok { self with state := .rss, depth }
        else .error .expectedChannelTag)
  | .item =>
    if self.activeProperty ≠ .null then
      if name = self.activeProperty.tagName then do
        let channel ← self.data.activeChannel
        let item ← channel.activeItem
        let key ← Item.Property.fromGeneric self.activeProperty
        self.endProperty (item.props.get key) fun value =>
          self.data.setActiveChannel
            (channel.setActiveItem { item with props := item.props.set key value })
      else .error .expectedPropertyTag
    else
      self.endSinkOr name
        (if name = TAG_NAME_ITEM then do
          let depth ← unsigned 8 (self.depth - DEPTH_STEP)
          .ok { self with state := .channel, depth }
        else .error .expectedItemTag)
  | .«end» => .error .parsingEnded
  | .err => .ok self

def elementEnd (self : Parse) (name : Bytes) : Outcome Empty Parse :=
  (self.elementEndImpl name).catchWith fun _ => { self with state := .err }

/-- The calls expat makes into the parser. -/
inductive Callback where
  | elementStart (name : Bytes) (atts : List Bytes)
  | characterData (s : Bytes)
  | elementEnd (name : Bytes)
  deriving Repr, DecidableEq

def handle (self : Parse) : Callback → Outcome Empty Parse
  | .elementStart name atts => self.elementStart name atts
  | .characterData s => self.characterData s
  | .elementEnd name => self.elementEnd name

/-- A sequence of callbacks, well nested or not. -/
def feed (self : Parse) (callbacks : List Callback) : Outcome Empty Parse :=
  callbacks.foldlM handle self

@[simp] theorem feed_nil (self : Parse) : self.feed [] = .ok self := rfl

end Parse

end Xrss.Rss
