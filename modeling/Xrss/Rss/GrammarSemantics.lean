import Xrss.Rss.GrammarReader

namespace Xrss.Rss

open Zig Config

namespace Node

section Level

variable {κ : Type} [DecidableEq κ] [LevelProperty κ]

/-- An element another rule of the level takes care of. -/
def isSkipped (skip : Bytes → Bool) : Node → Bool
  | .text _ => false
  | .element name _ _ => skip name

/-- One child, as far as the property slots are concerned. -/
def readPropsChild (skip : Bytes → Bool) (props : EnumArray κ (Option Bytes)) :
    Node → Option (EnumArray κ (Option Bytes))
  | .text chunk => if Blank isWhitespace chunk then some props else none
  | .element name _ children => if skip name then some props else readLeaf props name children

def readProps (skip : Bytes → Bool) (props : EnumArray κ (Option Bytes)) (children : List Node) :
    Option (EnumArray κ (Option Bytes)) :=
  children.foldlM (readPropsChild skip) props

def PropsShape (skip : Bytes → Bool) (child : Node) : Prop :=
  child.isBlank ∨ child.isSkipped skip ∨ child.isLeaf

/-- The children fit into the slots that are still vacant. -/
structure PropsFit (skip : Bytes → Bool) (props : EnumArray κ (Option Bytes))
    (children : List Node) : Prop where
  shape : ∀ child ∈ children, PropsShape skip child
  room : ∀ key : κ, children.countP (isProperty key) ≤ if props.get key = none then 1 else 0

/-- The slots after the children: what was there, or the property's leaf. -/
def fill (props : EnumArray κ (Option Bytes)) (children : List Node) :
    EnumArray κ (Option Bytes) :=
  ⟨fun key => (props.get key).or ((children.find? (isProperty key)).map leafText)⟩

/-- What one child does to the slots: nothing, fill one, or be refused. -/
theorem readPropsChild_cases (skip : Bytes → Bool)
    (apart : ∀ key : κ, skip (LevelProperty.tagName key) = false)
    (props : EnumArray κ (Option Bytes)) (child : Node) :
    (readPropsChild skip props child = some props ∧ PropsShape skip child ∧
      ∀ key : κ, isProperty key child = false) ∨
    (∃ key, readPropsChild skip props child = some (props.set key (some child.leafText)) ∧
      PropsShape skip child ∧ props.get key = none ∧
      ∀ other, isProperty other child = decide (other = key)) ∨
    (readPropsChild skip props child = none ∧
      (¬ PropsShape skip child ∨ ∃ key, isProperty key child = true ∧ props.get key ≠ none)) := by
  cases child with
  | text chunk =>
    by_cases blank : Blank isWhitespace chunk
    · exact .inl (by simp [readPropsChild, blank, PropsShape, isBlank, isProperty, isLeaf])
    · exact .inr (.inr (by
        simp [readPropsChild, blank, PropsShape, isBlank, isSkipped, isLeaf]))
  | element name attrs children =>
    cases skipped : skip name with
    | true =>
      have foreign (key : κ) : name ≠ LevelProperty.tagName key := by
        rintro rfl
        rw [apart key] at skipped
        cases skipped
      exact .inl (by
        simp [readPropsChild, skipped, PropsShape, isSkipped, isProperty, hasTag, foreign])
    | false =>
      cases plain : children.all isText with
      | false =>
        have refused : PropsShape skip (.element name attrs children) ↔ False := by
          simp only [PropsShape, isBlank, isSkipped, skipped, isLeaf, plain, Bool.false_eq_true,
            or_self]
        exact .inr (.inr ⟨by simp only [readPropsChild, skipped, readLeaf, plain,
          Bool.false_eq_true, ↓reduceIte], .inl fun shape => refused.mp shape⟩)
      | true =>
        have shape : PropsShape skip (.element name attrs children) := .inr (.inr plain)
        cases found : LevelProperty.ofTag κ name with
        | none =>
          have foreign (key : κ) : name ≠ LevelProperty.tagName key := by
            intro same
            rw [LevelProperty.ofTag_eq_some.mpr same] at found
            cases found
          exact .inl ⟨by simp [readPropsChild, skipped, readLeaf, plain, found], shape,
            by simp [isProperty, hasTag, foreign]⟩
        | some key =>
          obtain rfl := LevelProperty.ofTag_eq_some.mp found
          have only (other : κ) : isProperty other
              (.element (LevelProperty.tagName key) attrs children) = decide (other = key) := by
            have same : LevelProperty.tagName key = LevelProperty.tagName other ↔ other = key :=
              ⟨fun tags => (LevelProperty.tagName_injective tags).symm, fun keys => by rw [keys]⟩
            simp only [isProperty, isLeaf, plain, hasTag, Bool.true_and, beq_eq_decide, same]
          by_cases vacant : props.get key = none
          · exact .inr (.inl ⟨key, by simp [readPropsChild, skipped, readLeaf, plain, found, vacant,
              leafText, Node.children], shape, vacant, only⟩)
          · exact .inr (.inr ⟨by simp [readPropsChild, skipped, readLeaf, plain, found, vacant],
              .inr ⟨key, by simp [only], vacant⟩⟩)

theorem PropsFit.cons_property {skip : Bytes → Bool} {props : EnumArray κ (Option Bytes)}
    {child : Node} {rest : List Node} {key : κ} (shape : PropsShape skip child)
    (vacant : props.get key = none)
    (only : ∀ other, isProperty other child = decide (other = key)) :
    PropsFit skip props (child :: rest) ↔
      PropsFit skip (props.set key (some child.leafText)) rest := by
  have room (other : κ) :
      ((child :: rest).countP (isProperty other) ≤ if props.get other = none then 1 else 0) ↔
        rest.countP (isProperty other) ≤
          if (props.set key (some child.leafText)).get other = none then 1 else 0 := by
    by_cases same : other = key
    · subst other
      simp [only, vacant]
    · simp [only, same]
  constructor
  · intro fit
    exact ⟨fun other member => fit.shape other (by simp [member]),
      fun other => (room other).mp (fit.room other)⟩
  · intro fit
    exact ⟨by simpa [shape] using fit.shape, fun other => (room other).mpr (fit.room other)⟩

theorem fill_cons_property {props : EnumArray κ (Option Bytes)} {child : Node} {rest : List Node}
    {key : κ} (vacant : props.get key = none)
    (only : ∀ other, isProperty other child = decide (other = key)) :
    fill props (child :: rest) = fill (props.set key (some child.leafText)) rest := by
  apply EnumArray.ext
  funext other
  by_cases same : other = key
  · subst other
    simp [fill, only, vacant]
  · simp [fill, only, same]

/-- The slots can be read exactly when the children fit, and then hold what
`fill` says. -/
theorem readProps_iff (skip : Bytes → Bool)
    (apart : ∀ key : κ, skip (LevelProperty.tagName key) = false)
    (props result : EnumArray κ (Option Bytes)) (children : List Node) :
    readProps skip props children = some result ↔
      PropsFit skip props children ∧ result = fill props children := by
  induction children generalizing props with
  | nil =>
    have unchanged : fill props [] = props := by simp [fill]
    have fits : PropsFit skip props [] := ⟨by simp, by simp⟩
    simp [readProps, unchanged, fits, eq_comm]
  | cons child rest ih =>
    rw [readProps, List.foldlM_cons]
    rcases readPropsChild_cases skip apart props child with
      ⟨read, shape, foreign⟩ | ⟨key, read, shape, vacant, only⟩ | ⟨refused, reason⟩
    · have fits : PropsFit skip props (child :: rest) ↔ PropsFit skip props rest := by
        constructor
        · intro fit
          exact ⟨fun other member => fit.shape other (by simp [member]),
            fun key => by simpa [foreign] using fit.room key⟩
        · intro fit
          exact ⟨by simpa [shape] using fit.shape, fun key => by simpa [foreign] using fit.room key⟩
      have same : fill props (child :: rest) = fill props rest := by simp [fill, foreign]
      rw [read, fits, same]
      exact ih props
    · rw [read, PropsFit.cons_property shape vacant only, fill_cons_property vacant only]
      exact ih _
    · rw [refused]
      constructor
      · intro impossible
        cases impossible
      · intro accepted
        rcases accepted with ⟨fit, _⟩
        rcases reason with ill | ⟨key, property, filled⟩
        · exact absurd (fit.shape child (by simp)) ill
        · have room := fit.room key
          simp [filled, property] at room

theorem propsFit_initFill {skip : Bytes → Bool} {children : List Node} :
    PropsFit skip (.initFill none : EnumArray κ (Option Bytes)) children ↔
      (∀ child ∈ children, PropsShape skip child) ∧ UniqueProperties κ children :=
  ⟨fun fit => ⟨fit.shape, fun key => by simpa using fit.room key⟩,
    fun ⟨shape, unique⟩ => ⟨shape, fun key => by simpa using unique key⟩⟩

theorem fill_initFill (children : List Node) :
    fill (.initFill none : EnumArray κ (Option Bytes)) children = denoteProps κ children := by
  simp [fill, denoteProps]

end Level

theorem readItem_eq (entry : Item) (children : List Node) :
    readItem entry children = (readProps (fun _ => false) entry.props children).map Item.mk := by
  induction children generalizing entry with
  | nil => rfl
  | cons child rest ih =>
    have first : readItemChild entry child =
        (readPropsChild (fun _ => false) entry.props child).map Item.mk := by
      cases child with
      | text chunk => by_cases blank : Blank isWhitespace chunk <;>
          simp [readItemChild, readPropsChild, blank]
      | element name attrs children => simp [readItemChild, readPropsChild]
    simp only [readItem, readProps, List.foldlM_cons, first] at ih ⊢
    cases readPropsChild (fun _ => false) entry.props child with
    | none => rfl
    | some props => exact ih ⟨props⟩

theorem readItem_iff (children : List Node) (entry : Item) :
    readItem {} children = some entry ↔
      ItemContent children ∧ entry = ⟨denoteProps Item.Property children⟩ := by
  have shapes : (∀ child ∈ children, PropsShape (fun _ => false) child) ↔
      ∀ child ∈ children, child.isBlank ∨ child.isLeaf := by
    have unskipped (child : Node) : child.isSkipped (fun _ => false) = false := by
      cases child <;> rfl
    simp [PropsShape, unskipped]
  have content : ItemContent children ↔
      (∀ child ∈ children, child.isBlank ∨ child.isLeaf) ∧
        UniqueProperties Item.Property children :=
    ⟨fun content => ⟨content.shape, content.unique⟩, fun ⟨shape, unique⟩ => ⟨shape, unique⟩⟩
  have apart (key : Item.Property) :
      (fun _ : Bytes => false) (LevelProperty.tagName key) = false := rfl
  rw [readItem_eq, Option.map_eq_some_iff]
  simp only [readProps_iff (fun _ => false) apart, propsFit_initFill, fill_initFill, shapes, content]
  constructor
  · intro success
    rcases success with ⟨props, ⟨fit, rfl⟩, rfl⟩
    exact ⟨fit, rfl⟩
  · intro content
    rcases content with ⟨fit, rfl⟩
    exact ⟨_, ⟨fit, rfl⟩, rfl⟩

/-- A sequence of nested elements: those with the tag are read and appended. -/
def readTagged (tag : Bytes) (readNode : Node → Option α) (done : List α) (child : Node) :
    Option (List α) :=
  if child.hasTag tag then (readNode child).map fun value => done ++ [value] else some done

theorem readTagged_iff (tag : Bytes) {readNode : Node → Option α} {Content : Node → Prop}
    {denote : Node → α}
    (each : ∀ child value, readNode child = some value ↔ Content child ∧ value = denote child)
    (done result : List α) (children : List Node) :
    children.foldlM (readTagged tag readNode) done = some result ↔
      (∀ child ∈ children, child.hasTag tag → Content child) ∧
        result = done ++ (children.filter (hasTag tag)).map denote := by
  induction children generalizing done with
  | nil =>
    suffices done = result ↔ result = done by simpa using this
    exact eq_comm
  | cons child rest ih =>
    rw [List.foldlM_cons, readTagged]
    cases tagged : child.hasTag tag with
    | false => simpa [tagged] using ih done
    | true =>
      cases read : readNode child with
      | none =>
        have ill : ¬ Content child := fun content => by
          rw [(each child _).mpr ⟨content, rfl⟩] at read
          cases read
        simp [ill, tagged]
      | some value =>
        obtain ⟨content, rfl⟩ := (each child value).mp read
        simpa [content, tagged] using ih (done ++ [denote child])

theorem readChannel_eq (current : Channel) (children : List Node) :
    readChannel current children =
      (readProps (fun name => name == TAG_NAME_ITEM) current.props children).bind fun props =>
        (children.foldlM (readTagged TAG_NAME_ITEM fun child => readItem {} child.children)
          current.items).map fun items => ⟨props, items⟩ := by
  induction children generalizing current with
  | nil => rfl
  | cons child rest ih =>
    simp only [readChannel, readProps, List.foldlM_cons] at ih ⊢
    cases child with
    | text chunk =>
      by_cases blank : Blank isWhitespace chunk
      · simpa [readChannelChild, readPropsChild, readTagged, blank, hasTag] using ih current
      · simp [readChannelChild, readPropsChild, blank]
    | element name attrs children =>
      by_cases tag : name = TAG_NAME_ITEM
      · cases read : readItem {} children with
        | none =>
          simp [readChannelChild, readPropsChild, readTagged, tag, hasTag, Node.children, read]
        | some entry =>
          simpa [readChannelChild, readPropsChild, readTagged, tag, hasTag, Node.children, read]
            using ih { current with items := current.items ++ [entry] }
      · cases read : readLeaf current.props name children with
        | none => simp [readChannelChild, readPropsChild, tag, read]
        | some props =>
          simpa [readChannelChild, readPropsChild, readTagged, tag, hasTag, read]
            using ih { current with props }

theorem readChannel_iff (node : Node) (channel : Channel) :
    readChannel {} node.children = some channel ↔
      ChannelContent node.children ∧ channel = node.denoteChannel := by
  have shapes : (∀ child ∈ node.children, PropsShape (fun name => name == TAG_NAME_ITEM) child) ↔
      ∀ child ∈ node.children, child.isBlank ∨ child.hasTag TAG_NAME_ITEM ∨ child.isLeaf := by
    have skipped (child : Node) :
        child.isSkipped (fun name => name == TAG_NAME_ITEM) = child.hasTag TAG_NAME_ITEM := by
      cases child <;> rfl
    simp only [PropsShape, skipped]
  have content : ChannelContent node.children ↔
      ((∀ child ∈ node.children, child.isBlank ∨ child.hasTag TAG_NAME_ITEM ∨ child.isLeaf) ∧
        UniqueProperties Channel.Property node.children) ∧
      ∀ child ∈ node.children, child.hasTag TAG_NAME_ITEM → ItemContent child.children :=
    ⟨fun content => ⟨⟨content.shape, content.unique⟩, content.items⟩,
      fun ⟨⟨shape, unique⟩, items⟩ => ⟨shape, items, unique⟩⟩
  have apart (key : Channel.Property) :
      (fun name => name == TAG_NAME_ITEM) (LevelProperty.tagName key) = false := by
    cases key <;> decide
  have itemsRead := readTagged_iff TAG_NAME_ITEM fun child entry => readItem_iff child.children entry
  rw [readChannel_eq, Option.bind_eq_some_iff]
  simp only [readProps_iff (fun name => name == TAG_NAME_ITEM) apart, propsFit_initFill,
    fill_initFill, shapes, content,
    Option.map_eq_some_iff, itemsRead, List.nil_append]
  constructor
  · intro success
    rcases success with ⟨props, ⟨fit, rfl⟩, items, ⟨items, rfl⟩, rfl⟩
    exact ⟨⟨fit, items⟩, rfl⟩
  · intro content
    rcases content with ⟨⟨fit, items⟩, rfl⟩
    exact ⟨_, ⟨fit, rfl⟩, _, ⟨items, rfl⟩, rfl⟩

theorem readRss_iff (done result : List Channel) (children : List Node) :
    readRss done children = some result ↔
      (∀ child ∈ children, child.isBlank ∨ child.hasTag TAG_NAME_CHANNEL) ∧
        children.foldlM (readTagged TAG_NAME_CHANNEL fun child => readChannel {} child.children)
          done = some result := by
  induction children generalizing done with
  | nil => simp [readRss]
  | cons child rest ih =>
    simp only [readRss, List.foldlM_cons, List.forall_mem_cons] at ih ⊢
    cases child with
    | text chunk =>
      by_cases blank : Blank isWhitespace chunk
      · have shape : (text chunk).isBlank := by simpa [isBlank] using blank
        have untagged : (text chunk).hasTag TAG_NAME_CHANNEL = false := rfl
        simp only [readRssChild, readTagged, blank, shape, untagged, ↓reduceIte, true_or,
          true_and, Bool.false_eq_true]
        exact ih done
      · simp [readRssChild, blank, isBlank, hasTag]
    | element name attrs children =>
      by_cases tag : name = TAG_NAME_CHANNEL
      · have tagged : (element name attrs children).hasTag TAG_NAME_CHANNEL = true := by
          simpa [hasTag] using tag
        simp only [readRssChild, readTagged, tagged, if_pos tag, ↓reduceIte, or_true, true_and,
          Node.children]
        cases readChannel {} children with
        | none => simp
        | some channel => exact ih (done ++ [channel])
      · simp [readRssChild, tag, isBlank, hasTag]

theorem read_iff (root : Node) (channels : List Channel) :
    root.read = some channels ↔ root.IsFeed ∧ channels = root.denote := by
  cases root with
  | text chunk =>
    constructor
    · intro impossible
      cases impossible
    · intro both
      rcases both with ⟨feed, _⟩
      cases feed.tag
  | element name attrs children =>
    have feed : (Node.element name attrs children).IsFeed ↔
        (name = TAG_NAME_RSS ∧ Stage.Versioned attrs.atts) ∧
        (∀ child ∈ children, child.isBlank ∨ child.hasTag TAG_NAME_CHANNEL) ∧
        ∀ child ∈ children, child.hasTag TAG_NAME_CHANNEL → ChannelContent child.children := by
      rw [attrs.versioned]
      constructor
      · intro feed
        exact ⟨⟨by simpa [hasTag] using feed.tag, feed.version⟩, feed.shape, feed.channels⟩
      · intro conditions
        rcases conditions with ⟨⟨tag, version⟩, shape, channels⟩
        exact ⟨by simpa [hasTag] using tag, version, shape, channels⟩
    have channelsRead := readTagged_iff TAG_NAME_CHANNEL readChannel_iff [] channels children
    rw [feed, read]
    by_cases root : name = TAG_NAME_RSS ∧ Stage.Versioned attrs.atts
    · rw [if_pos root, readRss_iff, channelsRead]
      simp only [root, and_self, true_and, and_assoc, List.nil_append]
      rfl
    · simp [root]

end Node

/-- On a tree the parser ends with the channels of a feed, or in `err`. -/
theorem feed_tree (name : Bytes) (attrs : Attrs) (children : List Node) :
    ∃ final, Parse.feed {} (Node.element name attrs children).callbacks = .ok final ∧
      ((Node.element name attrs children).IsFeed ∧
          final = { data := ⟨(Node.element name attrs children).denote⟩, state := .«end» } ∨
        ¬ (Node.element name attrs children).IsFeed ∧ final.state = .err) := by
  have ran := Stage.run_root name attrs children
  have start : Stage.init.parse = {} := rfl
  cases read : (Node.element name attrs children).read with
  | some channels =>
    obtain ⟨feed, rfl⟩ := (Node.read_iff _ _).mp read
    rw [read] at ran
    exact ⟨_, start ▸ feed_eq_of_run ran, .inl ⟨feed, rfl⟩⟩
  | none =>
    have refused : ¬ (Node.element name attrs children).IsFeed := fun feed => by
      rw [(Node.read_iff _ _).mpr ⟨feed, rfl⟩] at read
      cases read
    rw [read] at ran
    obtain ⟨last, failed⟩ := feed_eq_of_refused ran
    exact ⟨_, start ▸ failed, .inr ⟨refused, rfl⟩⟩

/-- The parser accepts exactly the feeds and ends with the channels they
denote; on any other tree it ends in `err`. -/
theorem parse_iff_isFeed (name : Bytes) (attrs : Attrs) (children : List Node) :
    ∃ final, Parse.feed {} (Node.element name attrs children).callbacks = .ok final ∧
      (final.state = .«end» ↔ (Node.element name attrs children).IsFeed) ∧
      (final.state = .«end» ∨ final.state = .err) ∧
      (final.state = .«end» →
        final.activeProperty = .null ∧ final.activeSink = none ∧
          final.data.channels = (Node.element name attrs children).denote) := by
  obtain ⟨final, fed, ⟨feed, rfl⟩ | ⟨refused, failed⟩⟩ := feed_tree name attrs children
  · exact ⟨_, fed, by simp [feed]⟩
  · exact ⟨_, fed, by simp [refused, failed]⟩

end Xrss.Rss
