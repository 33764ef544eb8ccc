import Xrss.Rss.Config
import Xrss.Zig.EnumArray
import Xrss.Zig.Outcome

namespace Xrss.Rss

open Zig Config

/-- `Data.Property`. -/
inductive Property where
  | null
  | title
  | link
  | description
  | language
  | pubDate
  | lastBuildDate
  | generator
  | guid
  deriving Repr, DecidableEq

def Property.tagName : Property → Bytes
  | .null => TAG_NAME_NULL
  | .title => TAG_NAME_TITLE
  | .link => TAG_NAME_LINK
  | .description => TAG_NAME_DESCRIPTION
  | .language => TAG_NAME_LANGUAGE
  | .pubDate => TAG_NAME_PUB_DATE
  | .lastBuildDate => TAG_NAME_LAST_BUILD_DATE
  | .generator => TAG_NAME_GENERATOR
  | .guid => TAG_NAME_GUID

def Property.displayName : Property → Bytes
  | .null => DISPLAY_NAME_NULL
  | .title => DISPLAY_NAME_TITLE
  | .link => DISPLAY_NAME_LINK
  | .description => DISPLAY_NAME_DESCRIPTION
  | .language => DISPLAY_NAME_LANGUAGE
  | .pubDate => DISPLAY_NAME_PUB_DATE
  | .lastBuildDate => DISPLAY_NAME_LAST_BUILD_DATE
  | .generator => DISPLAY_NAME_GENERATOR
  | .guid => DISPLAY_NAME_GUID

theorem Property.tagName_injective : Function.Injective Property.tagName := by
  intro left right same
  cases left <;> cases right <;> first | rfl | exact absurd same (by decide)

/-- `Channel.Property`. -/
inductive Channel.Property where
  | title
  | link
  | description
  | language
  | pubDate
  | lastBuildDate
  | generator
  deriving Repr, DecidableEq

namespace Channel.Property

instance : EnumKey Channel.Property where
  values := [.title, .link, .description, .language, .pubDate, .lastBuildDate, .generator]
  nodup := by decide
  complete key := by cases key <;> decide

def generic : Channel.Property → Rss.Property
  | .title => .title
  | .link => .link
  | .description => .description
  | .language => .language
  | .pubDate => .pubDate
  | .lastBuildDate => .lastBuildDate
  | .generator => .generator

/-- The inverse of `generic`; a property without a counterpart panics. -/
def fromGeneric : Rss.Property → Outcome ε Channel.Property
  | .title => .ok .title
  | .link => .ok .link
  | .description => .ok .description
  | .language => .ok .language
  | .pubDate => .ok .pubDate
  | .lastBuildDate => .ok .lastBuildDate
  | .generator => .ok .generator
  | .null | .guid => .panic .message

@[simp] theorem fromGeneric_generic (key : Channel.Property) :
    (fromGeneric key.generic : Outcome ε Channel.Property) = .ok key := by
  cases key <;> rfl

theorem generic_injective : Function.Injective generic := by
  intro left right same
  cases left <;> cases right <;> first | rfl | cases same

@[simp] theorem generic_ne_null (key : Channel.Property) : key.generic ≠ .null := by
  cases key <;> exact Rss.Property.noConfusion

end Channel.Property

/-- `Channel.required_all`. -/
def Channel.requiredAll : List Channel.Property := [.title, .link, .description]

/-- `Item.Property`. -/
inductive Item.Property where
  | title
  | link
  | description
  | pubDate
  | guid
  deriving Repr, DecidableEq

namespace Item.Property

instance : EnumKey Item.Property where
  values := [.title, .link, .description, .pubDate, .guid]
  nodup := by decide
  complete key := by cases key <;> decide

def generic : Item.Property → Rss.Property
  | .title => .title
  | .link => .link
  | .description => .description
  | .pubDate => .pubDate
  | .guid => .guid

/-- The inverse of `generic`; a property without a counterpart panics. -/
def fromGeneric : Rss.Property → Outcome ε Item.Property
  | .title => .ok .title
  | .link => .ok .link
  | .description => .ok .description
  | .pubDate => .ok .pubDate
  | .guid => .ok .guid
  | .null | .language | .lastBuildDate | .generator => .panic .message

@[simp] theorem fromGeneric_generic (key : Item.Property) :
    (fromGeneric key.generic : Outcome ε Item.Property) = .ok key := by
  cases key <;> rfl

theorem generic_injective : Function.Injective generic := by
  intro left right same
  cases left <;> cases right <;> first | rfl | cases same

@[simp] theorem generic_ne_null (key : Item.Property) : key.generic ≠ .null := by
  cases key <;> exact Rss.Property.noConfusion

end Item.Property

/-- `Item.required_one_of`. -/
def Item.requiredOneOf : List Item.Property := [.title, .description]

/-- One item of a channel, `null` in every slot to begin with. -/
@[ext] structure Item where
  props : EnumArray Item.Property (Option Bytes) := .initFill none

instance : DecidableEq Item := fun left right =>
  decidable_of_iff (left.props = right.props) Item.ext_iff.symm

/-- One channel with its items in document order. -/
@[ext] structure Channel where
  props : EnumArray Channel.Property (Option Bytes) := .initFill none
  items : List Item := []

instance : DecidableEq Channel := fun left right =>
  decidable_of_iff (left.props = right.props ∧ left.items = right.items) Channel.ext_iff.symm

/-- `Channel.activeItem`: the last item; it asserts that there is one. -/
def Channel.activeItem (self : Channel) : Outcome ε Item :=
  match self.items.getLast? with
  | some item => .ok item
  | none => .panic .assertion

/-- Writing through the pointer `activeItem` returns. -/
def Channel.setActiveItem (self : Channel) (item : Item) : Channel :=
  { self with items := self.items.dropLast ++ [item] }

/-- `Data`, less its allocators. -/
@[ext] structure Data where
  channels : List Channel := []

instance : DecidableEq Data := fun left right =>
  decidable_of_iff (left.channels = right.channels) Data.ext_iff.symm

/-- `Data.activeChannel`: the last channel; it asserts that there is one. -/
def Data.activeChannel (self : Data) : Outcome ε Channel :=
  match self.channels.getLast? with
  | some channel => .ok channel
  | none => .panic .assertion

/-- Writing through the pointer `activeChannel` returns. -/
def Data.setActiveChannel (self : Data) (channel : Channel) : Data :=
  { self with channels := self.channels.dropLast ++ [channel] }

@[simp] theorem Channel.activeItem_append (props : EnumArray Channel.Property (Option Bytes))
    (items : List Item) (item : Item) :
    (Channel.activeItem ⟨props, items ++ [item]⟩ : Outcome ε Item) = .ok item := by
  simp [Channel.activeItem]

@[simp] theorem Data.activeChannel_append (channels : List Channel) (channel : Channel) :
    (Data.activeChannel ⟨channels ++ [channel]⟩ : Outcome ε Channel) = .ok channel := by
  simp [Data.activeChannel]

@[simp] theorem Channel.setActiveItem_append (props : EnumArray Channel.Property (Option Bytes))
    (items : List Item) (item next : Item) :
    Channel.setActiveItem ⟨props, items ++ [item]⟩ next = ⟨props, items ++ [next]⟩ := by
  simp [Channel.setActiveItem]

@[simp] theorem Data.setActiveChannel_append (channels : List Channel) (channel next : Channel) :
    Data.setActiveChannel ⟨channels ++ [channel]⟩ next = ⟨channels ++ [next]⟩ := by
  simp [Data.setActiveChannel]

end Xrss.Rss
