import Xrss.Rss.TextChunks

/-! The documents the parser is for, stated on element trees: which trees are
feeds, and the data a feed denotes. -/

namespace Xrss.Rss

open Zig Config

/-- The attributes of an element, with the distinct names expat guarantees. -/
structure Attrs where
  list : List Parse.Attr
  distinct : (list.map (·.name)).Nodup

/-- The null-terminated array expat passes: names and values in turn. -/
def Attrs.atts (attrs : Attrs) : List Bytes := attrs.list.flatMap fun attr => [attr.name, attr.value]

/-- An element tree whose text arrives in chunks. -/
inductive Node where
  | text (chunk : Bytes)
  | element (name : Bytes) (attrs : Attrs) (children : List Node)

namespace Node

mutual

/-- The callbacks of an in-order traversal. -/
def callbacks : Node → List Parse.Callback
  | .text chunk => [.characterData chunk]
  | .element name attrs children =>
    .elementStart name attrs.atts :: (callbacksAll children ++ [.elementEnd name])

def callbacksAll : List Node → List Parse.Callback
  | [] => []
  | node :: rest => node.callbacks ++ callbacksAll rest

end

def isText : Node → Bool
  | .text _ => true
  | .element _ _ _ => false

def chunk? : Node → Option Bytes
  | .text chunk => some chunk
  | .element _ _ _ => none

def children : Node → List Node
  | .text _ => []
  | .element _ _ children => children

def attrList : Node → List Parse.Attr
  | .text _ => []
  | .element _ attrs _ => attrs.list

/-- An element with this tag. -/
def hasTag (tag : Bytes) : Node → Bool
  | .text _ => false
  | .element name _ _ => name == tag

/-- An element without element children. -/
def isLeaf : Node → Bool
  | .text _ => false
  | .element _ _ children => children.all isText

/-- A text chunk of white space only. -/
def isBlank : Node → Bool
  | .text chunk => decide (Blank isWhitespace chunk)
  | .element _ _ _ => false

/-- The text of a leaf: its chunks, each trimmed, in one piece. -/
def leafText (node : Node) : Bytes := collectedText (node.children.filterMap chunk?)

section Level

variable (κ : Type) [DecidableEq κ] [LevelProperty κ]

variable {κ} in
/-- A leaf that is the property `key` of its level. -/
def isProperty (key : κ) (node : Node) : Bool := node.isLeaf && node.hasTag (LevelProperty.tagName key)

/-- Each property tag of the level occurs at most once among the leaves. -/
def UniqueProperties (children : List Node) : Prop :=
  ∀ key : κ, children.countP (isProperty key) ≤ 1

/-- The property slots of an element: the text of its property leaves. -/
def denoteProps (children : List Node) : EnumArray κ (Option Bytes) :=
  ⟨fun key => (children.find? (isProperty key)).map leafText⟩

end Level

/-- What an item element may contain. -/
structure ItemContent (children : List Node) : Prop where
  shape : ∀ child ∈ children, child.isBlank ∨ child.isLeaf
  unique : UniqueProperties Item.Property children

/-- What a channel element may contain. -/
structure ChannelContent (children : List Node) : Prop where
  shape : ∀ child ∈ children, child.isBlank ∨ child.hasTag TAG_NAME_ITEM ∨ child.isLeaf
  items : ∀ child ∈ children, child.hasTag TAG_NAME_ITEM → ItemContent child.children
  unique : UniqueProperties Channel.Property children

/-- A feed: an `rss` root of version 2.0 with nothing but channels in it. -/
structure IsFeed (root : Node) : Prop where
  tag : root.hasTag TAG_NAME_RSS
  version : ⟨ATTR_NAME_VERSION, RSS_SUPPORTED_VERSION⟩ ∈ root.attrList
  shape : ∀ child ∈ root.children, child.isBlank ∨ child.hasTag TAG_NAME_CHANNEL
  channels : ∀ child ∈ root.children, child.hasTag TAG_NAME_CHANNEL → ChannelContent child.children

def denoteItem (node : Node) : Item := ⟨denoteProps Item.Property node.children⟩

def denoteChannel (node : Node) : Channel where
  props := denoteProps Channel.Property node.children
  items := (node.children.filter (hasTag TAG_NAME_ITEM)).map denoteItem

/-- The channels of a feed in document order. -/
def denote (root : Node) : List Channel :=
  (root.children.filter (hasTag TAG_NAME_CHANNEL)).map denoteChannel

end Node

end Xrss.Rss
