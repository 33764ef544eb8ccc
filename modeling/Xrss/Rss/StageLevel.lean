import Xrss.Rss.Stage

/-! Channels and items read their properties in the same way. A level is a
family of stages that does so, and what follows is proved for any of them. -/

namespace Xrss.Rss

open Zig Config

/-- The text of an element as the parser collects it: each chunk trimmed. -/
def collectedText (chunks : List Bytes) : Bytes := (chunks.map (trim isWhitespace)).flatten

namespace Stage

def Busy : Stage → Prop
  | .channel _ _ focus => focus ≠ .idle
  | .item _ _ _ focus => focus ≠ .idle
  | _ => False

theorem Busy.elementStart {stage : Stage} (busy : stage.Busy) (name : Bytes) (atts : List Bytes) :
    stage.elementStart name atts = none := by
  cases stage with
  | channel done current focus =>
    cases focus with
    | idle => exact absurd rfl busy
    | _ => simp [Stage.elementStart]
  | item done current entry focus =>
    cases focus with
    | idle => exact absurd rfl busy
    | _ => simp [Stage.elementStart]
  | _ => exact busy.elim

theorem Busy.characterData {stage next : Stage} {s : Bytes} (busy : stage.Busy)
    (read : stage.characterData s = some next) : next.Busy := by
  by_cases blank : Blank isWhitespace s
  · simp only [Stage.characterData, blank, ↓reduceIte, Option.some.injEq] at read
    rwa [← read]
  · cases stage with
    | channel done current focus =>
      simp only [Stage.characterData, blank, ↓reduceIte] at read
      cases focus with
      | idle => exact absurd rfl busy
      | _ => cases read; simp [Busy]
    | item done current entry focus =>
      simp only [Stage.characterData, blank, ↓reduceIte] at read
      cases focus with
      | idle => exact absurd rfl busy
      | _ => cases read; simp [Busy]
    | _ => exact busy.elim

variable {κ : Type} [DecidableEq κ] [LevelProperty κ]

/-- The stages of one open channel or item, by its slots and its focus. -/
structure Level (stage : (props : EnumArray κ (Option Bytes)) → Focus props → Stage) : Prop where
  busy : ∀ props focus, focus ≠ .idle → (stage props focus).Busy
  grows : ∀ props key vacant buffer s,
    (stage props (.property key vacant buffer)).characterData s =
      some (stage props (.property key vacant (buffer ++ trim isWhitespace s)))
  absorbs : ∀ props sink s,
    (stage props (.sink sink)).characterData s = some (stage props (.sink sink))
  stores : ∀ props key vacant buffer,
    (stage props (.property key vacant buffer)).elementEnd (LevelProperty.tagName key) =
      some (stage (props.set key (some buffer)) .idle)
  leaves : ∀ props sink,
    (stage props (.sink sink)).elementEnd sink = some (stage props .idle)

theorem level_channel (done : List Channel) (current : Channel) :
    Level fun props focus => .channel done { current with props } focus where
  busy _ _ open_ := open_
  grows props key vacant buffer s := by
    by_cases blank : Blank isWhitespace s
    · simp [characterData, blank, trim_eq_nil.mpr blank]
    · simp [characterData, blank, Focus.text]
  absorbs props sink s := by
    by_cases blank : Blank isWhitespace s <;> simp [characterData, blank, Focus.text]
  stores props key vacant buffer := by simp [elementEnd]
  leaves props sink := by simp [elementEnd]

theorem level_item (done : List Channel) (current : Channel) :
    Level fun props focus => .item done current ⟨props⟩ focus where
  busy _ _ open_ := open_
  grows props key vacant buffer s := by
    by_cases blank : Blank isWhitespace s
    · simp [characterData, blank, trim_eq_nil.mpr blank]
    · simp [characterData, blank, Focus.text]
  absorbs props sink s := by
    by_cases blank : Blank isWhitespace s <;> simp [characterData, blank, Focus.text]
  stores props key vacant buffer := by simp [elementEnd]
  leaves props sink := by simp [elementEnd]

variable {stage : (props : EnumArray κ (Option Bytes)) → Focus props → Stage}
  {props : EnumArray κ (Option Bytes)}

theorem Level.run_text (level : Level stage) (key : κ) (vacant : props.get key = none)
    (buffer : Bytes) (chunks : List Bytes) :
    (stage props (.property key vacant buffer)).run (chunks.map .characterData) =
      some (stage props (.property key vacant (buffer ++ collectedText chunks))) := by
  induction chunks generalizing buffer with
  | nil => simp [collectedText]
  | cons chunk rest ih =>
    rw [List.map_cons, run_cons, step, level.grows, Option.bind_some, ih, collectedText,
      collectedText, List.map_cons, List.flatten_cons, List.append_assoc]

theorem Level.run_sink (level : Level stage) (sink : Bytes) (chunks : List Bytes) :
    (stage props (.sink sink)).run (chunks.map .characterData) = some (stage props (.sink sink)) := by
  induction chunks with
  | nil => rfl
  | cons chunk rest ih => rw [List.map_cons, run_cons, step, level.absorbs, Option.bind_some, ih]

theorem Level.run_property (level : Level stage) (key : κ) (vacant : props.get key = none)
    (chunks : List Bytes) :
    (stage props (.property key vacant [])).run
        (chunks.map .characterData ++ [.elementEnd (LevelProperty.tagName key)]) =
      some (stage (props.set key (some (collectedText chunks))) .idle) := by
  rw [run_append, level.run_text, Option.bind_some, run_cons, step, level.stores]
  rfl

end Stage

end Xrss.Rss
