import Xrss.Rss.StageRefinement

namespace Xrss.Rss

open Zig Config

/-- How many of `rss`, `channel` and `item` are open. -/
def Parse.State.nesting : Parse.State → Nat
  | .rss => 1
  | .channel => 2
  | .item => 3
  | .init | .«end» | .err => 0

/-- The relation between the fields of a parser that has not failed. -/
structure Parse.Consistent (self : Parse) : Prop where
  depth : self.depth =
    DEPTH_STEP * (self.state.nesting + if self.activeProperty = .null then 0 else 1)
  outside : self.state = .init ∨ self.state = .rss ∨ self.state = .«end» →
    self.activeProperty = .null ∧ self.activeSink = none
  inChannel : self.state = .channel →
    self.activeProperty = .null ∨ ∃ key : Channel.Property, self.activeProperty = key.generic
  inItem : self.state = .item →
    self.activeProperty = .null ∨ ∃ key : Item.Property, self.activeProperty = key.generic
  exclusive : self.activeProperty = .null ∨ self.activeSink = none
  buffer : self.activeProperty = .null → self.activeData = []
  channelTarget : self.state = .channel → ∃ channel, self.data.channels.getLast? = some channel ∧
    ∀ key : Channel.Property, self.activeProperty = key.generic → channel.props.get key = none
  itemTarget : self.state = .item → ∃ channel, self.data.channels.getLast? = some channel ∧
    ∃ item, channel.items.getLast? = some item ∧
      ∀ key : Item.Property, self.activeProperty = key.generic → item.props.get key = none

section Focus

variable {κ : Type} [DecidableEq κ] [LevelProperty κ] {props : EnumArray κ (Option Bytes)}

theorem Focus.level (focus : Focus props) :
    focus.activeProperty = .null ∨ ∃ key : κ, focus.activeProperty = LevelProperty.generic key := by
  cases focus with
  | property key vacant buffer => exact .inr ⟨key, rfl⟩
  | _ => exact .inl rfl

theorem Focus.target (focus : Focus props) (key : κ)
    (active : focus.activeProperty = LevelProperty.generic key) : props.get key = none := by
  cases focus with
  | property other vacant buffer => rwa [← LevelProperty.generic_injective active]
  | _ => exact absurd active.symm (LevelProperty.generic_ne_null key)

theorem Focus.exclusive (focus : Focus props) :
    focus.activeProperty = .null ∨ focus.activeSink = none := by
  cases focus with
  | sink name => exact .inl rfl
  | _ => exact .inr rfl

theorem Focus.buffer (focus : Focus props) (passive : focus.activeProperty = .null) :
    focus.activeData = [] := by
  cases focus with
  | property key vacant buffer => exact absurd passive (LevelProperty.generic_ne_null key)
  | _ => rfl

theorem Focus.depth_eq (focus : Focus props) (nesting : Nat) :
    nesting * DEPTH_STEP + focus.depth =
      DEPTH_STEP * (nesting + if focus.activeProperty = .null then 0 else 1) := by
  have step : focus.depth = DEPTH_STEP * if focus.activeProperty = .null then 0 else 1 := by
    cases focus with
    | property key vacant buffer =>
      simp [Focus.depth, Focus.activeProperty, LevelProperty.generic_ne_null]
    | _ => rfl
  rw [step, Nat.mul_add, Nat.mul_comm nesting]

end Focus

/-- The fields a stage stands for are consistent: a stage cannot say otherwise. -/
theorem Stage.parse_consistent (stage : Stage) : stage.parse.Consistent := by
  cases stage with
  | init => constructor <;> simp [Stage.parse, Parse.State.nesting]
  | rss channels => constructor <;> simp [Stage.parse, Parse.State.nesting]
  | «end» channels => constructor <;> simp [Stage.parse, Parse.State.nesting]
  | channel done current focus =>
    exact {
      depth := focus.depth_eq 2
      outside := by simp [Stage.parse]
      inChannel := fun _ => focus.level
      inItem := by simp [Stage.parse]
      exclusive := focus.exclusive
      buffer := focus.buffer
      channelTarget := fun _ => ⟨current, by simp [Stage.parse], focus.target⟩
      itemTarget := by simp [Stage.parse] }
  | item done current entry focus =>
    exact {
      depth := focus.depth_eq 3
      outside := by simp [Stage.parse]
      inChannel := by simp [Stage.parse]
      inItem := fun _ => focus.level
      exclusive := focus.exclusive
      buffer := focus.buffer
      channelTarget := by simp [Stage.parse]
      itemTarget := fun _ => ⟨{ current with items := current.items ++ [entry] },
        by simp [Stage.parse], entry, by simp, focus.target⟩ }

/-- No sequence of callbacks trips a safety check. A parser that has not failed
is consistent, and one that has failed never changes again. -/
theorem feed_consistent (callbacks : List Parse.Callback) :
    ∃ final, Parse.feed {} callbacks = .ok final ∧
      (final.state ≠ .err → final.Consistent) ∧
      (final.state = .err → ∀ later, final.feed later = .ok final) := by
  refine ⟨_, feed_follows (.live .init) callbacks, ?_, ?_⟩
  · intro live
    cases reached : callbacks.foldl Progress.next (.live .init) with
    | live stage => exact stage.parse_consistent
    | rejected stage => exact absurd (by rw [reached]; rfl) live
  · intro failed later
    cases reached : callbacks.foldl Progress.next (.live .init) with
    | live stage => exact absurd (by rw [← failed, reached]; rfl) stage.parse_live
    | rejected stage => rw [feed_follows, foldl_rejected]

end Xrss.Rss
