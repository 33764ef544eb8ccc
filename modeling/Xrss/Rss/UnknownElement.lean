import Xrss.Rss.Client

namespace Xrss.Rss

open Zig Config

namespace Node

/-- An element that is no property of this level. -/
structure Unknown (κ : Type) [DecidableEq κ] [LevelProperty κ] (node : Node) : Prop where
  element : node.isText = false
  foreign : ∀ key : κ, node.hasTag (LevelProperty.tagName key) = false

/-- The second document is the first with one more child at some position of a
channel or of an item, an element unknown there. -/
inductive Insertion (unknown : Node) : Node → Node → Prop where
  | channel {name : Bytes} {attrs channelAttrs : Attrs} {before after left right : List Node}
      (foreign : unknown.Unknown Channel.Property) (noItem : unknown.hasTag TAG_NAME_ITEM = false) :
      Insertion unknown
        (.element name attrs
          (before ++ .element TAG_NAME_CHANNEL channelAttrs (left ++ right) :: after))
        (.element name attrs
          (before ++ .element TAG_NAME_CHANNEL channelAttrs (left ++ unknown :: right) :: after))
  | item {name : Bytes} {attrs channelAttrs itemAttrs : Attrs}
      {before after above below left right : List Node} (foreign : unknown.Unknown Item.Property) :
      Insertion unknown
        (.element name attrs (before ++ .element TAG_NAME_CHANNEL channelAttrs
          (above ++ .element TAG_NAME_ITEM itemAttrs (left ++ right) :: below) :: after))
        (.element name attrs (before ++ .element TAG_NAME_CHANNEL channelAttrs
          (above ++ .element TAG_NAME_ITEM itemAttrs (left ++ unknown :: right) :: below) :: after))

section Level

variable {κ : Type} [DecidableEq κ] [LevelProperty κ]

theorem Unknown.not_property {node : Node} (unknown : node.Unknown κ) (key : κ) :
    isProperty key node = false := by
  simp [isProperty, unknown.foreign key]

theorem Unknown.not_blank {node : Node} (unknown : node.Unknown κ) : node.isBlank = false := by
  cases node with
  | text chunk => exact absurd unknown.element (by simp [isText])
  | element name attrs children => rfl

theorem uniqueProperties_insert {node : Node} (none : ∀ key : κ, isProperty key node = false)
    {left right : List Node} :
    UniqueProperties κ (left ++ node :: right) ↔ UniqueProperties κ (left ++ right) := by
  simp [UniqueProperties, List.countP_append, none]

theorem denoteProps_insert {node : Node} (none : ∀ key : κ, isProperty key node = false)
    {left right : List Node} :
    denoteProps κ (left ++ node :: right) = denoteProps κ (left ++ right) := by
  simp [denoteProps, List.find?_append, none]

end Level

theorem forall_mem_middle {p : Node → Prop} {node : Node} {left right : List Node} :
    (∀ child ∈ left ++ node :: right, p child) ↔ p node ∧ ∀ child ∈ left ++ right, p child := by
  simp only [List.forall_mem_append, List.forall_mem_cons, and_left_comm]

theorem itemContent_unknown {unknown : Node} (foreign : unknown.Unknown Item.Property)
    {left right : List Node} :
    ItemContent (left ++ unknown :: right) ↔ unknown.isLeaf ∧ ItemContent (left ++ right) := by
  have unique : UniqueProperties Item.Property (left ++ unknown :: right) ↔ _ :=
    uniqueProperties_insert foreign.not_property
  constructor
  · intro content
    obtain ⟨own, shape⟩ := forall_mem_middle.mp content.shape
    exact ⟨by simpa [foreign.not_blank] using own, shape, unique.mp content.unique⟩
  · intro both
    obtain ⟨leaf, content⟩ := both
    exact ⟨forall_mem_middle.mpr ⟨.inr leaf, content.shape⟩, unique.mpr content.unique⟩

theorem channelContent_unknown {unknown : Node} (foreign : unknown.Unknown Channel.Property)
    (noItem : unknown.hasTag TAG_NAME_ITEM = false) {left right : List Node} :
    ChannelContent (left ++ unknown :: right) ↔
      unknown.isLeaf ∧ ChannelContent (left ++ right) := by
  have unique : UniqueProperties Channel.Property (left ++ unknown :: right) ↔ _ :=
    uniqueProperties_insert foreign.not_property
  constructor
  · intro content
    obtain ⟨own, shape⟩ := forall_mem_middle.mp content.shape
    obtain ⟨_, items⟩ := forall_mem_middle.mp content.items
    exact ⟨by simpa [foreign.not_blank, noItem] using own, shape, items, unique.mp content.unique⟩
  · intro both
    obtain ⟨leaf, content⟩ := both
    exact ⟨forall_mem_middle.mpr ⟨.inr (.inr leaf), content.shape⟩,
      forall_mem_middle.mpr ⟨by simp [noItem], content.items⟩, unique.mpr content.unique⟩

section Item

variable {attrs : Attrs} {children above below : List Node}

theorem item_not_property (key : Channel.Property) :
    isProperty key (.element TAG_NAME_ITEM attrs children) = false := by
  have apart : (TAG_NAME_ITEM == LevelProperty.tagName key) = false := by cases key <;> decide
  simp [isProperty, hasTag, apart]

theorem channelContent_item :
    ChannelContent (above ++ .element TAG_NAME_ITEM attrs children :: below) ↔
      ItemContent children ∧ ChannelContent (above ++ below) := by
  have tagged : (Node.element TAG_NAME_ITEM attrs children).hasTag TAG_NAME_ITEM := by simp [hasTag]
  have unique : UniqueProperties Channel.Property
      (above ++ .element TAG_NAME_ITEM attrs children :: below) ↔ _ :=
    uniqueProperties_insert item_not_property
  constructor
  · intro content
    obtain ⟨_, shape⟩ := forall_mem_middle.mp content.shape
    obtain ⟨own, items⟩ := forall_mem_middle.mp content.items
    exact ⟨own tagged, shape, items, unique.mp content.unique⟩
  · intro both
    obtain ⟨own, content⟩ := both
    exact ⟨forall_mem_middle.mpr ⟨.inr (.inl tagged), content.shape⟩,
      forall_mem_middle.mpr ⟨fun _ => own, content.items⟩, unique.mpr content.unique⟩

theorem isFeed_channel {name : Bytes} {rootAttrs : Attrs} :
    (Node.element name rootAttrs (above ++ .element TAG_NAME_CHANNEL attrs children :: below)).IsFeed ↔
      ChannelContent children ∧ (Node.element name rootAttrs (above ++ below)).IsFeed := by
  have tagged : (Node.element TAG_NAME_CHANNEL attrs children).hasTag TAG_NAME_CHANNEL := by
    simp [hasTag]
  constructor
  · intro feed
    obtain ⟨_, shape⟩ := forall_mem_middle.mp feed.shape
    obtain ⟨own, channels⟩ := forall_mem_middle.mp feed.channels
    exact ⟨own tagged, feed.tag, feed.version, shape, channels⟩
  · intro both
    obtain ⟨own, feed⟩ := both
    exact ⟨feed.tag, feed.version, forall_mem_middle.mpr ⟨.inr tagged, feed.shape⟩,
      forall_mem_middle.mpr ⟨fun _ => own, feed.channels⟩⟩

end Item

theorem Insertion.elements {unknown document inserted : Node}
    (insertion : Insertion unknown document inserted) :
    ∃ name attrs children children',
      document = .element name attrs children ∧ inserted = .element name attrs children' := by
  cases insertion with
  | channel foreign noItem => exact ⟨_, _, _, _, rfl, rfl⟩
  | item foreign => exact ⟨_, _, _, _, rfl, rfl⟩

/-- Next to an unknown child, a feed stays a feed exactly when that child is a
leaf. -/
theorem Insertion.isFeed {unknown document inserted : Node}
    (insertion : Insertion unknown document inserted) :
    inserted.IsFeed ↔ unknown.isLeaf ∧ document.IsFeed := by
  cases insertion with
  | channel foreign noItem =>
    rw [isFeed_channel, isFeed_channel, channelContent_unknown foreign noItem, and_assoc]
  | item foreign =>
    simp only [isFeed_channel, channelContent_item, itemContent_unknown foreign, and_assoc]

theorem Insertion.denote_eq {unknown document inserted : Node}
    (insertion : Insertion unknown document inserted) : inserted.denote = document.denote := by
  cases insertion with
  | @channel name attrs channelAttrs before after left right foreign noItem =>
    have same : denoteChannel (.element TAG_NAME_CHANNEL channelAttrs (left ++ unknown :: right)) =
        denoteChannel (.element TAG_NAME_CHANNEL channelAttrs (left ++ right)) := by
      simp [denoteChannel, children, denoteProps_insert foreign.not_property, List.filter_append,
        noItem]
    simp [denote, children, List.filter_append, hasTag, same]
  | @item name attrs channelAttrs itemAttrs before after above below left right foreign =>
    have entry : denoteItem (.element TAG_NAME_ITEM itemAttrs (left ++ unknown :: right)) =
        denoteItem (.element TAG_NAME_ITEM itemAttrs (left ++ right)) := by
      simp [denoteItem, children, denoteProps_insert foreign.not_property]
    have same (children : List Node) :
        denoteProps Channel.Property (above ++ .element TAG_NAME_ITEM itemAttrs children :: below) =
          denoteProps Channel.Property (above ++ below) := denoteProps_insert item_not_property
    simp [denote, denoteChannel, children, List.filter_append, hasTag, same, entry]

end Node

/-- The parser ends with the same data as without an unknown element if that has
no element children, and otherwise fails. -/
theorem skip_unknown_iff (unknown document inserted : Node)
    (insertion : Node.Insertion unknown document inserted) (final : Parse)
    (accepted : Parse.feed {} document.callbacks = .ok final) (ended : final.state = .«end») :
    (Parse.feed {} inserted.callbacks = .ok final ↔ unknown.isLeaf) ∧
      (unknown.isLeaf = false →
        ∃ failed, Parse.feed {} inserted.callbacks = .ok failed ∧ failed.state = .err) := by
  have feeds := insertion.isFeed
  have same := insertion.denote_eq
  obtain ⟨name, attrs, children, children', rfl, rfl⟩ := insertion.elements
  obtain ⟨_, fed, ⟨feed, rfl⟩ | ⟨_, failed⟩⟩ := feed_tree name attrs children
  · cases accepted.symm.trans fed
    obtain ⟨other, otherFed, ⟨otherFeed, rfl⟩ | ⟨refused, failed⟩⟩ := feed_tree name attrs children'
    · have leaf := (feeds.mp otherFeed).1
      rw [otherFed, same]
      simp [leaf]
    · have nested : unknown.isLeaf = false := by
        by_contra leaf
        exact refused (feeds.mpr ⟨by simpa using leaf, feed⟩)
      refine ⟨?_, fun _ => ⟨other, otherFed, failed⟩⟩
      rw [otherFed, nested]
      simp only [Bool.false_eq_true, iff_false, Outcome.ok.injEq]
      intro same
      subst same
      cases failed
  · cases accepted.symm.trans fed
    rw [ended] at failed
    cases failed

theorem insertion_oneChannel {name : Bytes} (children : List Node)
    (foreign : ∀ key : Channel.Property, name ≠ LevelProperty.tagName key)
    (noItem : name ≠ TAG_NAME_ITEM) :
    Node.Insertion (.plain name children) (oneChannel []) (oneChannel [.plain name children]) :=
  @Node.Insertion.channel (.plain name children) TAG_NAME_RSS _ _ [] [] [] []
    ⟨rfl, fun key => by simpa [Node.plain, Node.hasTag] using foreign key⟩
    (by simpa [Node.plain, Node.hasTag] using noItem)

/-- An unknown element between the properties of a channel, with an item behind it. -/
theorem skip_unknown_ttl :
    ∃ (document inserted : Node) (final : Parse),
      Parse.feed {} document.callbacks = .ok final ∧ final.state = .«end» ∧
        final.data.channels.map (·.items.length) = [1] ∧
        Parse.feed {} inserted.callbacks = .ok final := by
  let left : List Node := [.leaf TAG_NAME_TITLE (bytes "News")]
  let right : List Node := [.leaf TAG_NAME_LINK (bytes "news"),
    .plain TAG_NAME_ITEM [.leaf TAG_NAME_GUID (bytes "1")]]
  have ttl : (Node.leaf (bytes "ttl") (bytes "60")).Unknown Channel.Property :=
    ⟨rfl, fun key => by cases key <;> decide⟩
  have insertion : Node.Insertion (.leaf (bytes "ttl") (bytes "60")) (oneChannel (left ++ right))
      (oneChannel (left ++ .leaf (bytes "ttl") (bytes "60") :: right)) :=
    @Node.Insertion.channel _ TAG_NAME_RSS _ _ [] [] left right ttl (by decide)
  have parses : ∃ final ∈ (Parse.feed {} (oneChannel (left ++ right)).callbacks).toOption,
      final.state = .«end» ∧ final.data.channels.map (·.items.length) = [1] := by decide +kernel
  obtain ⟨final, returned, ended, items⟩ := parses
  have accepted := Outcome.toOption_eq_some.mp returned
  have skipped := skip_unknown_iff _ _ _ insertion final accepted ended
  exact ⟨_, _, final, accepted, ended, items, skipped.1.mpr rfl⟩

/-- The parser stops at the first element inside of an unknown one. -/
theorem nested_unknown_refused :
    ∃ unknown document inserted : Node, Node.Insertion unknown document inserted ∧
      (∃ final, Parse.feed {} document.callbacks = .ok final ∧ final.state = .«end») ∧
      (Parse.feed {} inserted.callbacks).toOption.map (·.state) = some .err := by
  have insertion := insertion_oneChannel [.leaf (bytes "url") []]
    (fun key => show bytes "image" ≠ LevelProperty.tagName key by cases key <;> decide) (by decide)
  exact ⟨_, _, _, insertion, ⟨_, oneChannel_accepted, rfl⟩, by decide +kernel⟩

end Xrss.Rss
