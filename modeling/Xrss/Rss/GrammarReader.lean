import Xrss.Rss.Grammar

/-! A structural reader of element trees that is exactly what the stage machine
computes on their callbacks. -/

namespace Xrss.Rss

open Zig Config

section Attributes

theorem Parse.collectAttrs_distinct (result rest : List Parse.Attr)
    (distinct : ((result ++ rest).map (·.name)).Nodup) :
    Parse.collectAttrs result (rest.flatMap fun attr => [attr.name, attr.value]) =
      .ok (result ++ rest) := by
  induction rest generalizing result with
  | nil => simp [Parse.collectAttrs]
  | cons attr rest ih =>
    have fresh : result.any (·.name == attr.name) = false := by
      rw [List.any_eq_false]
      intro other member same
      rw [List.map_append, List.nodup_append] at distinct
      exact distinct.2.2 _ (List.mem_map_of_mem member) _ (by simp) (beq_iff_eq.mp same)
    have shifted : ((result ++ [attr] ++ rest).map (·.name)).Nodup := by simpa using distinct
    simpa [Parse.collectAttrs, fresh] using ih (result ++ [attr]) shifted

theorem Attrs.processAttrs (attrs : Attrs) : Parse.processAttrs attrs.atts = .ok attrs.list := by
  have even : attrs.atts.length % 2 = 0 := by
    have length : attrs.atts.length = attrs.list.length * 2 := by simp [Attrs.atts]
    omega
  simpa [Parse.processAttrs, even, Attrs.atts] using
    Parse.collectAttrs_distinct [] attrs.list (by simpa using attrs.distinct)

theorem Parse.checkVersion_iff (attrs : List Parse.Attr) (distinct : (attrs.map (·.name)).Nodup) :
    Parse.checkVersion attrs = .ok () ↔ ⟨ATTR_NAME_VERSION, RSS_SUPPORTED_VERSION⟩ ∈ attrs := by
  induction attrs with
  | nil => simp [Parse.checkVersion]
  | cons attr rest ih =>
    obtain ⟨fresh, restDistinct⟩ := List.nodup_cons.mp distinct
    rw [Parse.checkVersion, List.mem_cons]
    by_cases version : attr.name = ATTR_NAME_VERSION
    · have elsewhere : ⟨ATTR_NAME_VERSION, RSS_SUPPORTED_VERSION⟩ ∉ rest := fun member =>
        fresh (List.mem_map.mpr ⟨_, member, version.symm⟩)
      by_cases supported : attr.value = RSS_SUPPORTED_VERSION
      · rw [← version, ← supported]
        simp
      · have different : (⟨ATTR_NAME_VERSION, RSS_SUPPORTED_VERSION⟩ : Parse.Attr) ≠ attr := by
          rintro rfl
          exact supported rfl
        simp [version, supported, elsewhere, different]
    · have different : (⟨ATTR_NAME_VERSION, RSS_SUPPORTED_VERSION⟩ : Parse.Attr) ≠ attr := by
        rintro rfl
        exact version rfl
      simp [version, different, ih restDistinct]

theorem Attrs.wellAttributed (attrs : Attrs) : Stage.WellAttributed attrs.atts := by
  simp [Stage.WellAttributed, attrs.processAttrs]

theorem Attrs.versioned (attrs : Attrs) :
    Stage.Versioned attrs.atts ↔
      ⟨ATTR_NAME_VERSION, RSS_SUPPORTED_VERSION⟩ ∈ attrs.list := by
  simp [Stage.Versioned, attrs.processAttrs, Parse.checkVersion_iff _ attrs.distinct]

end Attributes

namespace Node

theorem callbacksAll_append (first second : List Node) :
    callbacksAll (first ++ second) = callbacksAll first ++ callbacksAll second := by
  induction first with
  | nil => rfl
  | cons node rest ih => rw [List.cons_append, callbacksAll, callbacksAll, ih, List.append_assoc]

section Level

variable {κ : Type} [DecidableEq κ] [LevelProperty κ]

/-- Read a leaf below a level; anything that is no leaf is refused. -/
def readLeaf (props : EnumArray κ (Option Bytes)) (name : Bytes) (children : List Node) :
    Option (EnumArray κ (Option Bytes)) :=
  if children.all isText then
    match LevelProperty.ofTag κ name with
    | none => some props
    | some key =>
      if props.get key = none then
        some (props.set key (some (collectedText (children.filterMap chunk?))))
      else none
  else none

end Level

def readItemChild (entry : Item) : Node → Option Item
  | .text chunk => if Blank isWhitespace chunk then some entry else none
  | .element name _ children => (readLeaf entry.props name children).map Item.mk

def readItem (entry : Item) (children : List Node) : Option Item :=
  children.foldlM readItemChild entry

def readChannelChild (current : Channel) : Node → Option Channel
  | .text chunk => if Blank isWhitespace chunk then some current else none
  | .element name _ children =>
    if name = TAG_NAME_ITEM then
      (readItem {} children).map fun entry => { current with items := current.items ++ [entry] }
    else (readLeaf current.props name children).map fun props => { current with props }

def readChannel (current : Channel) (children : List Node) : Option Channel :=
  children.foldlM readChannelChild current

def readRssChild (done : List Channel) : Node → Option (List Channel)
  | .text chunk => if Blank isWhitespace chunk then some done else none
  | .element name _ children =>
    if name = TAG_NAME_CHANNEL then (readChannel {} children).map fun channel => done ++ [channel]
    else none

def readRss (done : List Channel) (children : List Node) : Option (List Channel) :=
  children.foldlM readRssChild done

/-- The channels of a document, or nothing if it is no feed. -/
def read : Node → Option (List Channel)
  | .text _ => none
  | .element name attrs children =>
    if name = TAG_NAME_RSS ∧ Stage.Versioned attrs.atts then readRss [] children else none

end Node

namespace Stage

theorem characterData_blank (stage : Stage) {s : Bytes} (blank : Blank isWhitespace s) :
    stage.characterData s = some stage := by
  simp only [characterData, blank, ↓reduceIte]

/-- An element inside a property or a sink is refused wherever it stands. -/
theorem Busy.run_nested {stage : Stage} (busy : stage.Busy) (children : List Node)
    (nested : children.all Node.isText = false) : stage.run (Node.callbacksAll children) = none := by
  induction children generalizing stage with
  | nil => simp at nested
  | cons child rest ih =>
    cases child with
    | element name attrs children =>
      simp [Node.callbacksAll, Node.callbacks, step, busy.elementStart]
    | text chunk =>
      have later : rest.all Node.isText = false := by simpa [Node.isText] using nested
      simp only [Node.callbacksAll, Node.callbacks, List.cons_append, List.nil_append, run_cons, step]
      cases read : stage.characterData chunk with
      | none => rfl
      | some next => exact ih (busy.characterData read) later

theorem callbacksAll_text (children : List Node) (plain : children.all Node.isText = true) :
    Node.callbacksAll children = (children.filterMap Node.chunk?).map .characterData := by
  induction children with
  | nil => rfl
  | cons child rest ih =>
    cases child with
    | element name attrs children => simp [Node.isText] at plain
    | text chunk =>
      have later : rest.all Node.isText = true := by simpa [Node.isText] using plain
      simp [Node.callbacksAll, Node.callbacks, Node.chunk?, ih later]

section Level

variable {κ : Type} [DecidableEq κ] [LevelProperty κ]
  {stage : (props : EnumArray κ (Option Bytes)) → Focus props → Stage}

theorem Level.run_leaf (level : Level stage) (props : EnumArray κ (Option Bytes)) (name : Bytes)
    (children : List Node) :
    ((Focus.start props name).map (stage props)).bind (fun opened =>
        opened.run (Node.callbacksAll children ++ [.elementEnd name])) =
      (Node.readLeaf props name children).map fun props => stage props .idle := by
  unfold Focus.start Node.readLeaf
  cases plain : children.all Node.isText with
  | false =>
    have refused (focus : Focus props) (busy : focus ≠ .idle) :
        (stage props focus).run (Node.callbacksAll children ++ [.elementEnd name]) = none := by
      rw [run_append, (level.busy props focus busy).run_nested children plain, Option.bind_none]
    split
    · simp [refused]
    · split <;> simp [refused]
  | true =>
    rw [callbacksAll_text children plain]
    cases found : LevelProperty.ofTag κ name with
    | none =>
      simp only [Option.map_some, Option.bind_some, ↓reduceIte]
      rw [run_append, level.run_sink, Option.bind_some, run_cons, step, level.leaves]
      rfl
    | some key =>
      obtain rfl := LevelProperty.ofTag_eq_some.mp found
      by_cases vacant : props.get key = none
      · simp only [vacant, ↓reduceDIte, ↓reduceIte, Option.map_some, Option.bind_some]
        exact level.run_property key vacant _
      · simp [vacant]

end Level

theorem run_text (stage : Stage) (chunk : Bytes) :
    stage.run (Node.text chunk).callbacks = stage.characterData chunk := by
  simp [Node.callbacks, step]

theorem run_itemChild (done : List Channel) (current : Channel) (entry : Item) (child : Node) :
    (Stage.item done current entry .idle).run child.callbacks =
      (child.readItemChild entry).map fun entry => .item done current entry .idle := by
  cases child with
  | text chunk =>
    by_cases blank : Blank isWhitespace chunk <;>
      simp [run_text, characterData, blank, Node.readItemChild, Focus.text]
  | element name attrs children =>
    have opened : (Stage.item done current entry .idle).elementStart name attrs.atts =
        (Focus.start entry.props name).map (.item done current entry) := by
      simp [elementStart, attrs.wellAttributed]
    rw [Node.callbacks, run_cons, step, opened]
    rw [Node.readItemChild, Option.map_map]
    exact (level_item done current).run_leaf entry.props name children

theorem run_children {σ : Type} {stage : σ → Stage} {readChild : σ → Node → Option σ}
    (each : ∀ state child, (stage state).run child.callbacks = (readChild state child).map stage)
    (state : σ) (children : List Node) :
    (stage state).run (Node.callbacksAll children) =
      (children.foldlM readChild state).map stage := by
  induction children generalizing state with
  | nil => rfl
  | cons child rest ih =>
    rw [Node.callbacksAll, run_append, each, List.foldlM_cons]
    cases readChild state child with
    | none => rfl
    | some next => exact ih next

theorem run_channelChild (done : List Channel) (current : Channel) (child : Node) :
    (Stage.channel done current .idle).run child.callbacks =
      (child.readChannelChild current).map fun current => .channel done current .idle := by
  cases child with
  | text chunk =>
    by_cases blank : Blank isWhitespace chunk <;>
      simp [run_text, characterData, blank, Node.readChannelChild, Focus.text]
  | element name attrs children =>
    by_cases tag : name = TAG_NAME_ITEM
    · have opened : (Stage.channel done current .idle).elementStart name attrs.atts =
          some (.item done current {} .idle) := by
        simp [elementStart, attrs.wellAttributed, tag]
      have inside := run_children (run_itemChild done current) {} children
      rw [Node.callbacks, run_cons, step, opened, Option.bind_some, run_append, inside,
        Node.readChannelChild, if_pos tag, Node.readItem]
      cases List.foldlM Node.readItemChild {} children with
      | none => rfl
      | some entry => simp [step, elementEnd, tag]
    · have opened : (Stage.channel done current .idle).elementStart name attrs.atts =
          (Focus.start current.props name).map (.channel done current) := by
        simp [elementStart, attrs.wellAttributed, tag]
      rw [Node.callbacks, run_cons, step, opened, Node.readChannelChild, if_neg tag, Option.map_map]
      exact (level_channel done current).run_leaf current.props name children

theorem run_rssChild (done : List Channel) (child : Node) :
    (Stage.rss done).run child.callbacks = (child.readRssChild done).map .rss := by
  cases child with
  | text chunk =>
    by_cases blank : Blank isWhitespace chunk <;>
      simp [run_text, characterData, blank, Node.readRssChild]
  | element name attrs children =>
    by_cases tag : name = TAG_NAME_CHANNEL
    · have opened : (Stage.rss done).elementStart name attrs.atts =
          some (.channel done {} .idle) := by
        simp [elementStart, attrs.wellAttributed, tag]
      have inside := run_children (run_channelChild done) {} children
      rw [Node.callbacks, run_cons, step, opened, Option.bind_some, run_append, inside,
        Node.readRssChild, if_pos tag, Node.readChannel]
      cases List.foldlM Node.readChannelChild {} children with
      | none => rfl
      | some current => simp [step, elementEnd, tag]
    · simp [Node.callbacks, step, elementStart, tag, Node.readRssChild]

/-- On the callbacks of a tree the stage machine is the structural reader. -/
theorem run_root (name : Bytes) (attrs : Attrs) (children : List Node) :
    Stage.init.run (Node.element name attrs children).callbacks =
      (Node.element name attrs children).read.map .«end» := by
  by_cases root : name = TAG_NAME_RSS ∧ Versioned attrs.atts
  · have opened : Stage.init.elementStart name attrs.atts = some (.rss []) := by
      simp [elementStart, attrs.wellAttributed, root]
    have inside := run_children run_rssChild [] children
    rw [Node.callbacks, run_cons, step, opened, Option.bind_some, run_append, inside, Node.read,
      if_pos root, Node.readRss]
    cases List.foldlM Node.readRssChild [] children with
    | none => rfl
    | some channels => simp [step, elementEnd, root.1]
  · simp [Node.callbacks, step, elementStart, root, Node.read]

end Stage

end Xrss.Rss
