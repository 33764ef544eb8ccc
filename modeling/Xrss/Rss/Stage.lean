import Xrss.Rss.Parse

/-! The parser as a machine over stages. A stage holds exactly what is
meaningful at its level, so a stray buffer, a property of the wrong level or a
property over a filled slot cannot be written down. -/

namespace Xrss.Rss

open Zig Config

/-- The property enumeration of one level, inside `Property`. -/
class LevelProperty (κ : Type) [DecidableEq κ] extends EnumKey κ where
  generic : κ → Property
  generic_injective : Function.Injective generic
  generic_ne_null : ∀ key, generic key ≠ .null

instance : LevelProperty Channel.Property where
  generic := Channel.Property.generic
  generic_injective := Channel.Property.generic_injective
  generic_ne_null := Channel.Property.generic_ne_null

instance : LevelProperty Item.Property where
  generic := Item.Property.generic
  generic_injective := Item.Property.generic_injective
  generic_ne_null := Item.Property.generic_ne_null

@[simp] theorem LevelProperty.generic_channel (key : Channel.Property) :
    LevelProperty.generic key = key.generic := rfl

@[simp] theorem LevelProperty.generic_item (key : Item.Property) :
    LevelProperty.generic key = key.generic := rfl

section Level

variable {κ : Type} [DecidableEq κ] [LevelProperty κ]

/-- The tag of a property of this level. -/
def LevelProperty.tagName (key : κ) : Bytes := (LevelProperty.generic key).tagName

/-- The property a tag names at this level. -/
def LevelProperty.ofTag (κ : Type) [DecidableEq κ] [LevelProperty κ] (name : Bytes) : Option κ :=
  (EnumKey.values : List κ).find? fun key => decide (name = LevelProperty.tagName key)

theorem LevelProperty.tagName_injective :
    Function.Injective (LevelProperty.tagName : κ → Bytes) := fun _ _ same =>
  LevelProperty.generic_injective (Property.tagName_injective same)

theorem LevelProperty.ofTag_eq_some {name : Bytes} {key : κ} :
    LevelProperty.ofTag κ name = some key ↔ name = LevelProperty.tagName key := by
  constructor
  · intro found
    simpa using List.find?_some found
  · rintro rfl
    cases found : LevelProperty.ofTag κ (LevelProperty.tagName key) with
    | none =>
      have missing := List.find?_eq_none.mp found key (EnumKey.complete key)
      simp at missing
    | some other =>
      have same : LevelProperty.tagName key = LevelProperty.tagName other := by
        simpa using List.find?_some found
      rw [LevelProperty.tagName_injective same]

/-- What is open inside a channel or an item: nothing, a property that is being
read into a vacant slot, or an unknown element. -/
inductive Focus (props : EnumArray κ (Option Bytes)) where
  | idle
  | property (key : κ) (vacant : props.get key = none) (buffer : Bytes)
  | sink (name : Bytes)

namespace Focus

variable {props : EnumArray κ (Option Bytes)}

def activeProperty : Focus props → Property
  | .property key _ _ => LevelProperty.generic key
  | _ => .null

def activeSink : Focus props → Option Bytes
  | .sink name => some name
  | _ => none

def activeData : Focus props → Bytes
  | .property _ _ buffer => buffer
  | _ => []

def depth : Focus props → Nat
  | .property _ _ _ => DEPTH_STEP
  | _ => 0

/-- Entering an element that is neither `item` nor nested. -/
def start (props : EnumArray κ (Option Bytes)) (name : Bytes) : Option (Focus props) :=
  match LevelProperty.ofTag κ name with
  | none => some (.sink name)
  | some key => if vacant : props.get key = none then some (.property key vacant []) else none

/-- Text that survived trimming. -/
def text (data : Bytes) : Focus props → Option (Focus props)
  | .idle => none
  | .property key vacant buffer => some (.property key vacant (buffer ++ data))
  | .sink name => some (.sink name)

end Focus

end Level

/-- The parser's progress through a document that is still acceptable. -/
inductive Stage where
  | init
  | rss (channels : List Channel)
  | channel (done : List Channel) (current : Channel) (focus : Focus current.props)
  | item (done : List Channel) (current : Channel) (item : Item) (focus : Focus item.props)
  | «end» (channels : List Channel)

namespace Stage

/-- The attributes of an opening tag are pairs with distinct names. -/
def WellAttributed (atts : List Bytes) : Prop :=
  (Parse.processAttrs atts).toOption.isSome

instance (atts : List Bytes) : Decidable (WellAttributed atts) :=
  inferInstanceAs (Decidable (_ = _))

/-- The attributes name version 2.0. -/
def Versioned (atts : List Bytes) : Prop :=
  (Parse.processAttrs atts >>= Parse.checkVersion) = .ok ()

instance (atts : List Bytes) : Decidable (Versioned atts) :=
  inferInstanceAs (Decidable (_ = _))

def elementStart (stage : Stage) (name : Bytes) (atts : List Bytes) : Option Stage :=
  if WellAttributed atts then
    match stage with
    | .init => if name = TAG_NAME_RSS ∧ Versioned atts then some (.rss []) else none
    | .rss channels => if name = TAG_NAME_CHANNEL then some (.channel channels {} .idle) else none
    | .channel done current .idle =>
      if name = TAG_NAME_ITEM then some (.item done current {} .idle)
      else (Focus.start current.props name).map (.channel done current)
    | .item done current entry .idle => (Focus.start entry.props name).map (.item done current entry)
    | _ => none
  else none

def characterData (stage : Stage) (s : Bytes) : Option Stage :=
  if Blank isWhitespace s then some stage
  else
    match stage with
    | .channel done current focus =>
      (focus.text (trim isWhitespace s)).map (.channel done current)
    | .item done current entry focus =>
      (focus.text (trim isWhitespace s)).map (.item done current entry)
    | _ => none

def elementEnd (stage : Stage) (name : Bytes) : Option Stage :=
  match stage with
  | .rss channels => if name = TAG_NAME_RSS then some (.«end» channels) else none
  | .channel done current .idle =>
    if name = TAG_NAME_CHANNEL then some (.rss (done ++ [current])) else none
  | .channel done current (.property key _ buffer) =>
    if name = LevelProperty.tagName key then
      some (.channel done { current with props := current.props.set key (some buffer) } .idle)
    else none
  | .channel done current (.sink sink) =>
    if name = sink then some (.channel done current .idle) else none
  | .item done current entry .idle =>
    if name = TAG_NAME_ITEM then
      some (.channel done { current with items := current.items ++ [entry] } .idle)
    else none
  | .item done current entry (.property key _ buffer) =>
    if name = LevelProperty.tagName key then
      some (.item done current { entry with props := entry.props.set key (some buffer) } .idle)
    else none
  | .item done current entry (.sink sink) =>
    if name = sink then some (.item done current entry .idle) else none
  | _ => none

/-- `none` rejects the document. -/
def step (stage : Stage) : Parse.Callback → Option Stage
  | .elementStart name atts => stage.elementStart name atts
  | .characterData s => stage.characterData s
  | .elementEnd name => stage.elementEnd name

/-- The stages of a whole sequence of callbacks. -/
def run (stage : Stage) (callbacks : List Parse.Callback) : Option Stage :=
  callbacks.foldlM step stage

@[simp] theorem run_nil (stage : Stage) : stage.run [] = some stage := rfl

@[simp] theorem run_cons (stage : Stage) (callback : Parse.Callback) (rest : List Parse.Callback) :
    stage.run (callback :: rest) = (stage.step callback).bind fun next => next.run rest := rfl

theorem run_append (stage : Stage) (first second : List Parse.Callback) :
    stage.run (first ++ second) = (stage.run first).bind fun next => next.run second := by
  simp [run, List.foldlM_append]

/-- The parser fields a stage stands for. -/
def parse : Stage → Parse
  | .init => {}
  | .rss channels => { data := ⟨channels⟩, depth := DEPTH_STEP, state := .rss }
  | .channel done current focus =>
    { data := ⟨done ++ [current]⟩
      depth := 2 * DEPTH_STEP + focus.depth
      state := .channel
      activeProperty := focus.activeProperty
      activeSink := focus.activeSink
      activeData := focus.activeData }
  | .item done current entry focus =>
    { data := ⟨done ++ [{ current with items := current.items ++ [entry] }]⟩
      depth := 3 * DEPTH_STEP + focus.depth
      state := .item
      activeProperty := focus.activeProperty
      activeSink := focus.activeSink
      activeData := focus.activeData }
  | .«end» channels => { data := ⟨channels⟩, state := .«end» }

end Stage

end Xrss.Rss
