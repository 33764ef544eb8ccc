import Xrss.Rss.Client
import Xrss.Rss.Nesting

namespace Xrss.Rss

open Zig Config

/-- Channels have all of their required properties and items one of theirs. -/
def Data.MeetsRequired (self : Data) : Prop :=
  ∀ channel ∈ self.channels,
    (∀ key ∈ Channel.requiredAll, channel.props.get key ≠ none) ∧
      ∀ item ∈ channel.items, ∃ key ∈ Item.requiredOneOf, item.props.get key ≠ none

instance (data : Data) : Decidable data.MeetsRequired :=
  inferInstanceAs (Decidable (∀ channel ∈ data.channels,
    (∀ key ∈ Channel.requiredAll, channel.props.get key ≠ none) ∧
      ∀ item ∈ channel.items, ∃ key ∈ Item.requiredOneOf, item.props.get key ≠ none))

namespace Parse

/-- Every start has its end, in the right order. -/
inductive WellNested : List Callback → Prop where
  | nil : WellNested []
  | characterData (s : Bytes) {rest : List Callback} (later : WellNested rest) :
      WellNested (.characterData s :: rest)
  | element (name : Bytes) (atts : List Bytes) {inner rest : List Callback}
      (inside : WellNested inner) (later : WellNested rest) :
      WellNested (.elementStart name atts :: (inner ++ .elementEnd name :: rest))

mutual

theorem WellNested.callbacks {rest : List Callback} (later : WellNested rest) :
    (node : Node) → WellNested (node.callbacks ++ rest)
  | .text chunk => .characterData chunk later
  | .element name attrs children => by
    have inside := WellNested.callbacksAll .nil children
    rw [List.append_nil] at inside
    simpa [Node.callbacks] using WellNested.element name attrs.atts inside later

theorem WellNested.callbacksAll {rest : List Callback} (later : WellNested rest) :
    (nodes : List Node) → WellNested (Node.callbacksAll nodes ++ rest)
  | [] => later
  | node :: nodes => by
    rw [Node.callbacksAll, List.append_assoc]
    exact (WellNested.callbacksAll later nodes).callbacks node

end

end Parse

namespace Node

/-- Each channel element has the required children, and each item element one of
those it needs. -/
def Complete (root : Node) : Prop :=
  ∀ channel ∈ root.children, channel.hasTag TAG_NAME_CHANNEL →
    (∀ key ∈ Channel.requiredAll,
      ∃ child ∈ channel.children, child.hasTag (LevelProperty.tagName key)) ∧
    ∀ item ∈ channel.children, item.hasTag TAG_NAME_ITEM →
      ∃ key ∈ Item.requiredOneOf, ∃ child ∈ item.children, child.hasTag (LevelProperty.tagName key)

section Level

variable {κ : Type} [DecidableEq κ] [LevelProperty κ]

/-- A property tag is on a leaf wherever only leaves may carry it. -/
theorem denoteProps_filled {children : List Node} {key : κ}
    (leaves : ∀ child ∈ children, child.hasTag (LevelProperty.tagName key) → child.isLeaf) :
    (denoteProps κ children).get key ≠ none ↔
      ∃ child ∈ children, child.hasTag (LevelProperty.tagName key) := by
  simp only [denoteProps, ne_eq, Option.map_eq_none_iff, List.find?_eq_none, isProperty,
    Bool.and_eq_true, not_and, Bool.not_eq_true, not_forall, Bool.not_eq_false, exists_prop]
  constructor
  · intro found
    obtain ⟨child, member, _, tagged⟩ := found
    exact ⟨child, member, tagged⟩
  · intro found
    obtain ⟨child, member, tagged⟩ := found
    exact ⟨child, member, leaves child member tagged, tagged⟩

end Level

theorem not_blank_of_hasTag {node : Node} {tag : Bytes} (tagged : node.hasTag tag) :
    node.isBlank = false := by
  cases node with
  | text chunk => cases tagged
  | element name attrs children => rfl

theorem ItemContent.leaf {children : List Node} (content : ItemContent children)
    (key : Item.Property) :
    ∀ child ∈ children, child.hasTag (LevelProperty.tagName key) → child.isLeaf := by
  intro child member tagged
  simpa [not_blank_of_hasTag tagged] using content.shape child member

theorem ChannelContent.leaf {children : List Node} (content : ChannelContent children)
    (key : Channel.Property) :
    ∀ child ∈ children, child.hasTag (LevelProperty.tagName key) → child.isLeaf := by
  intro child member tagged
  have apart : LevelProperty.tagName key ≠ TAG_NAME_ITEM := by cases key <;> decide
  have noItem : child.hasTag TAG_NAME_ITEM = false := by
    cases child with
    | text chunk => rfl
    | element name attrs children =>
      have same : name = LevelProperty.tagName key := by simpa [hasTag] using tagged
      simpa [hasTag, same] using apart
  simpa [not_blank_of_hasTag tagged, noItem] using content.shape child member

/-- A feed denotes data with the required properties exactly when its elements
have the children for them. -/
theorem IsFeed.meetsRequired {root : Node} (feed : root.IsFeed) :
    (Data.mk root.denote).MeetsRequired ↔ root.Complete := by
  have channelFilled {channel : Node} (content : ChannelContent channel.children)
      (key : Channel.Property) : channel.denoteChannel.props.get key ≠ none ↔ _ :=
    denoteProps_filled (content.leaf key)
  have itemFilled {item : Node} (content : ItemContent item.children) (key : Item.Property) :
      item.denoteItem.props.get key ≠ none ↔ _ := denoteProps_filled (content.leaf key)
  constructor
  · intro required channel member tagged
    have content := feed.channels channel member tagged
    have listed : channel.denoteChannel ∈ root.denote :=
      List.mem_map_of_mem (List.mem_filter.mpr ⟨member, tagged⟩)
    obtain ⟨all, each⟩ := required _ listed
    refine ⟨fun key needed => (channelFilled content key).mp (all key needed),
      fun item inside own => ?_⟩
    have entry : item.denoteItem ∈ channel.denoteChannel.items :=
      List.mem_map_of_mem (List.mem_filter.mpr ⟨inside, own⟩)
    obtain ⟨key, needed, filled⟩ := each _ entry
    exact ⟨key, needed, (itemFilled (content.items item inside own) key).mp filled⟩
  · intro complete _ listed
    obtain ⟨channel, kept, rfl⟩ := List.mem_map.mp listed
    obtain ⟨member, tagged⟩ := List.mem_filter.mp kept
    have content := feed.channels channel member tagged
    obtain ⟨all, each⟩ := complete channel member tagged
    refine ⟨fun key needed => (channelFilled content key).mpr (all key needed), fun _ entry => ?_⟩
    obtain ⟨item, kept, rfl⟩ := List.mem_map.mp entry
    obtain ⟨inside, own⟩ := List.mem_filter.mp kept
    obtain ⟨key, needed, filled⟩ := each item inside own
    exact ⟨key, needed, (itemFilled (content.items item inside own) key).mpr filled⟩

end Node

/-- The callbacks of one root element, with nothing but white space around it. -/
def IsDocument (callbacks : List Parse.Callback) (root : Node) : Prop :=
  ∃ before after, callbacks = Node.callbacksAll (before ++ root :: after) ∧
    (∀ node ∈ before, node.isBlank) ∧ ∀ node ∈ after, node.isBlank

theorem isDocument_root (root : Node) : IsDocument root.callbacks root :=
  ⟨[], [], by simp [Node.callbacksAll], by simp, by simp⟩

theorem blanks_callbacksAll {nodes : List Node} (blank : ∀ node ∈ nodes, node.isBlank) :
    Blanks (Node.callbacksAll nodes) := by
  induction nodes with
  | nil => nofun
  | cons node rest ih =>
    obtain ⟨first, later⟩ := List.forall_mem_cons.mp blank
    cases node with
    | element name attrs children => cases first
    | text chunk =>
      intro callback member
      rcases List.mem_cons.mp member with rfl | inside
      · exact ⟨chunk, rfl, by simpa [Node.isBlank] using first⟩
      · exact ih later callback inside

theorem Blanks.nodes {callbacks : List Parse.Callback} (blanks : Blanks callbacks) :
    ∃ nodes : List Node, callbacks = Node.callbacksAll nodes ∧ ∀ node ∈ nodes, node.isBlank := by
  induction callbacks with
  | nil => exact ⟨[], rfl, nofun⟩
  | cons callback rest ih =>
    obtain ⟨s, rfl, blank⟩ := blanks callback (by simp)
    obtain ⟨nodes, rfl, white⟩ := ih fun other member => blanks other (by simp [member])
    exact ⟨.text s :: nodes, rfl, List.forall_mem_cons.mpr ⟨by simpa [Node.isBlank] using blank, white⟩⟩

/-- Said with the nodes around the root or with their calls, it is the same. -/
theorem isDocument_iff {callbacks : List Parse.Callback} {root : Node} :
    IsDocument callbacks root ↔ Document root callbacks := by
  constructor
  · rintro ⟨before, after, rfl, blank, trailing⟩
    refine ⟨_, _, blanks_callbacksAll blank, blanks_callbacksAll trailing, ?_⟩
    rw [Node.callbacksAll_append, Node.callbacksAll, List.append_assoc]
  · rintro ⟨_, _, blanks, later, rfl⟩
    obtain ⟨before, rfl, blank⟩ := blanks.nodes
    obtain ⟨after, rfl, trailing⟩ := later.nodes
    refine ⟨before, after, ?_, blank, trailing⟩
    rw [Node.callbacksAll_append, Node.callbacksAll, List.append_assoc]

/-- A feed with white space around it ends with the channels it denotes. -/
theorem IsDocument.feed_eq {callbacks : List Parse.Callback} {root : Node}
    (document : IsDocument callbacks root) (feed : root.IsFeed) :
    Parse.feed {} callbacks = .ok { data := ⟨root.denote⟩, state := .«end» } := by
  have start : Stage.init.parse = {} := rfl
  have ran := (Stage.run_document (isDocument_iff.mp document) root.denote).mpr ⟨feed, rfl⟩
  exact start ▸ feed_eq_of_run ran

/-- A sequence that ends the parser is that of a feed. -/
theorem exists_feed_of_end {callbacks : List Parse.Callback} {final : Parse}
    (fed : Parse.feed {} callbacks = .ok final) (ended : final.state = .«end») :
    ∃ root, IsDocument callbacks root ∧ root.IsFeed ∧ final.data = ⟨root.denote⟩ := by
  obtain ⟨stage, ran, rfl⟩ := stage_of_feed fed (by simp [ended])
  cases stage with
  | «end» channels =>
    obtain ⟨root, document⟩ := Stage.document_of_run ran
    obtain ⟨feed, rfl⟩ := (Stage.run_document document channels).mp ran
    exact ⟨root, isDocument_iff.mpr document, feed, rfl⟩
  | _ => cases ended

/-- The parser enforces the required properties exactly on the sequences, well nested or not, that
are no feed or a complete one: where they are missing, it ends all the same. -/
theorem required_enforced_iff (callbacks : List Parse.Callback) :
    ((∀ final, Parse.feed {} callbacks = .ok final → final.state = .«end» →
        final.data.MeetsRequired) ∧
      ∀ root, IsDocument callbacks root → root.IsFeed → ¬ root.Complete →
        ∃ final, Parse.feed {} callbacks = .ok final ∧ final.state = .err) ↔
    ∀ root, IsDocument callbacks root → root.IsFeed → root.Complete := by
  constructor
  · intro enforced root document feed
    exact feed.meetsRequired.mp (enforced.1 _ (document.feed_eq feed) rfl)
  · intro complete
    refine ⟨fun final fed ended => ?_, fun root document feed violates =>
      (violates (complete root document feed)).elim⟩
    obtain ⟨root, document, feed, shown⟩ := exists_feed_of_end fed ended
    rw [shown]
    exact feed.meetsRequired.mpr (complete root document feed)

theorem oneChannel_wellNested (children : List Node) :
    Parse.WellNested (oneChannel children).callbacks := by
  simpa using Parse.WellNested.nil.callbacks (oneChannel children)

theorem bare_channel_not_required :
    ∃ root : Node, root.IsFeed ∧
      ¬ ((∀ final, Parse.feed {} root.callbacks = .ok final → final.state = .«end» →
            final.data.MeetsRequired) ∧
          ∀ other, IsDocument root.callbacks other → other.IsFeed → ¬ other.Complete →
            ∃ final, Parse.feed {} root.callbacks = .ok final ∧ final.state = .err) := by
  have bare : ¬ (oneChannel []).Complete := fun complete => by
    have titled := (complete (.plain TAG_NAME_CHANNEL []) (by simp [oneChannel, Node.children])
      (by decide)).1 .title (by decide)
    simp [Node.plain, Node.children] at titled
  have accepted : (oneChannel []).IsFeed := by
    obtain ⟨_, fed, ⟨feed, _⟩ | ⟨_, failed⟩⟩ := feed_tree TAG_NAME_RSS _ [.plain TAG_NAME_CHANNEL []]
    · exact feed
    · cases oneChannel_accepted.symm.trans fed
      cases failed
  exact ⟨_, accepted, fun enforced => bare ((required_enforced_iff _).mp enforced _
    (isDocument_root _) accepted)⟩

/-- A channel without title, link and description is accepted. -/
theorem bare_channel_accepted :
    ∃ callbacks final, Parse.WellNested callbacks ∧ Parse.feed {} callbacks = .ok final ∧
      final.state = .«end» ∧ ¬ final.data.MeetsRequired :=
  ⟨_, _, oneChannel_wellNested [], oneChannel_accepted, rfl, by decide⟩

end Xrss.Rss
