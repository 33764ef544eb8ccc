import Xrss.Rss.Stage

namespace Xrss.Rss

open Zig Config

/-- A parse that is still live, or one that was rejected at a stage. -/
inductive Progress where
  | live (stage : Stage)
  | rejected (stage : Stage)

namespace Progress

def parse : Progress → Parse
  | .live stage => stage.parse
  | .rejected stage => { stage.parse with state := .err }

def ofStep (stage : Stage) : Option Stage → Progress
  | some next => .live next
  | none => .rejected stage

def next (progress : Progress) (callback : Parse.Callback) : Progress :=
  match progress with
  | .live stage => ofStep stage (stage.step callback)
  | .rejected stage => .rejected stage

end Progress

/-- A fallible callback and a stage step come to the same end. -/
def Agrees (outcome : Outcome Parse.Error Parse) : Option Stage → Prop
  | some next => outcome = .ok next.parse
  | none => ∃ failure, outcome = .error failure

theorem Agrees.catchWith {outcome : Outcome Parse.Error Parse} {next : Option Stage} {stage : Stage}
    (agrees : Agrees outcome next) :
    outcome.catchWith (fun _ => { stage.parse with state := .err }) =
      .ok (Progress.ofStep stage next).parse := by
  cases next with
  | some next =>
    have success : outcome = .ok next.parse := agrees
    rw [success]
    rfl
  | none =>
    obtain ⟨failure, same⟩ := agrees
    rw [same]
    rfl

namespace Parse

theorem collectAttrs_no_panic (result : List Attr) (atts : List Bytes) (reason : Panic) :
    collectAttrs result atts ≠ .panic reason := by
  fun_induction collectAttrs result atts with
  | case1 => simp
  | case2 result name value rest fresh ih => exact ih
  | case3 => simp

theorem processAttrs_cases (atts : List Bytes) :
    (∃ attrs, processAttrs atts = .ok attrs) ∨ ∃ failure, processAttrs atts = .error failure := by
  cases same : processAttrs atts with
  | ok attrs => exact .inl ⟨attrs, rfl⟩
  | error failure => exact .inr ⟨failure, rfl⟩
  | panic reason =>
    unfold processAttrs at same
    split at same
    · cases same
    · exact absurd same (collectAttrs_no_panic _ _ _)

theorem checkVersion_cases (attrs : List Attr) :
    checkVersion attrs = .ok () ∨ ∃ failure, checkVersion attrs = .error failure := by
  induction attrs with
  | nil => exact .inr ⟨_, rfl⟩
  | cons attr rest ih =>
    unfold checkVersion
    split
    · split
      · exact .inl rfl
      · exact .inr ⟨_, rfl⟩
    · exact ih

theorem depth_up {depth : Nat} (shallow : depth + DEPTH_STEP < 256) :
    (unsigned 8 (depth + DEPTH_STEP : Int) : Outcome Error Nat) = .ok (depth + DEPTH_STEP) := by
  rw [unsigned, if_pos ⟨by omega, by omega⟩]
  rfl

theorem depth_down (depth below : Nat) (deep : depth = below + DEPTH_STEP) (small : depth < 256) :
    (unsigned 8 (depth - DEPTH_STEP : Int) : Outcome Error Nat) = .ok below := by
  subst deep
  rw [Int.natCast_add, Int.add_sub_cancel, unsigned, if_pos ⟨by omega, by omega⟩]
  rfl

theorem endProperty_eq (self : Parse) (below : Nat) (deep : self.depth = below + DEPTH_STEP)
    (small : self.depth < 256) (store : Option Bytes → Data) :
    self.endProperty none store = .ok { self with
      data := store (some self.activeData), activeData := [], activeProperty := .null,
      depth := below } := by
  simp only [endProperty, Outcome.assert_of_true, Outcome.ok_bind, depth_down _ _ deep small]

variable {κ : Type} [DecidableEq κ] [LevelProperty κ]

theorem startPropertyOrSink_eq (self : Parse) (name : Bytes) (keys : List κ)
    (props : EnumArray κ (Option Bytes)) (shallow : self.depth + DEPTH_STEP < 256) :
    self.startPropertyOrSink name
        (keys.map fun key => (LevelProperty.generic key, props.get key)) =
      match keys.find? fun key => decide (name = LevelProperty.tagName key) with
      | none => .ok { self with activeSink := some name }
      | some key =>
        if props.get key = none then
          .ok { self with
            activeProperty := LevelProperty.generic key, depth := self.depth + DEPTH_STEP }
        else .error .duplicateProperty := by
  induction keys with
  | nil => rfl
  | cons key rest ih =>
    simp only [List.map_cons, startPropertyOrSink, startProperty, List.find?_cons]
    by_cases same : name = LevelProperty.tagName key
    · have tag : name = (LevelProperty.generic key).tagName := same
      rw [if_pos tag]
      by_cases vacant : props.get key = none
      · simp [same, vacant, depth_up shallow]
      · simp [same, vacant]
    · have tag : ¬ name = (LevelProperty.generic key).tagName := same
      simpa [tag, same] using ih

theorem startPropertyOrSink_agrees {props : EnumArray κ (Option Bytes)} (self : Parse)
    (name : Bytes) (wrap : Focus props → Stage) (shallow : self.depth + DEPTH_STEP < 256)
    (wrapped : ∀ focus, (wrap focus).parse = { self with
      depth := self.depth + focus.depth, activeProperty := focus.activeProperty,
      activeSink := focus.activeSink, activeData := focus.activeData })
    (idle : (wrap .idle).parse = self) :
    Agrees
      (self.startPropertyOrSink name
        (props.iterator.map fun entry => (LevelProperty.generic entry.1, entry.2)))
      ((Focus.start props name).map wrap) := by
  have entries : (props.iterator.map fun entry => (LevelProperty.generic entry.1, entry.2)) =
      EnumKey.values.map fun key => (LevelProperty.generic key, props.get key) := by
    simp [EnumArray.iterator]
  rw [entries, startPropertyOrSink_eq self name _ props shallow, Focus.start, LevelProperty.ofTag]
  rw [wrapped] at idle
  cases (EnumKey.values : List κ).find? fun key => decide (name = LevelProperty.tagName key) with
  | none =>
    simp only [Option.map_some, Agrees, wrapped]
    rw [← idle]
    rfl
  | some key =>
    by_cases vacant : props.get key = none
    · simp only [vacant, ↓reduceIte, ↓reduceDIte, Option.map_some, Agrees, wrapped]
      rw [← idle]
      rfl
    · simp [vacant, Agrees]

end Parse

namespace Stage

theorem elementStart_agrees (stage : Stage) (name : Bytes) (atts : List Bytes)
    (attrs : List Parse.Attr) (processed : Parse.processAttrs atts = .ok attrs) :
    Agrees (stage.parse.elementStartImpl name attrs) (stage.elementStart name atts) := by
  have wellAttributed : WellAttributed atts := by simp [WellAttributed, processed]
  have versioned : Versioned atts ↔ Parse.checkVersion attrs = .ok () := by
    simp [Versioned, processed]
  cases stage with
  | init =>
    simp only [Stage.elementStart, if_pos wellAttributed, versioned, parse, Parse.elementStartImpl]
    by_cases root : name = TAG_NAME_RSS
    · rcases Parse.checkVersion_cases attrs with checked | ⟨failure, checked⟩
      · simp only [root, checked, and_self, ↓reduceIte, Outcome.ok_bind]
        rw [Parse.depth_up (by decide)]
        rfl
      · simp [root, checked, Agrees]
    · simp [root, Agrees]
  | rss channels =>
    simp only [Stage.elementStart, if_pos wellAttributed, parse, Parse.elementStartImpl]
    by_cases tag : name = TAG_NAME_CHANNEL
    · simp only [tag, ↓reduceIte]
      rw [Parse.depth_up (by decide)]
      rfl
    · simp [tag, Agrees]
  | channel done current focus =>
    cases focus with
    | idle =>
      simp only [Stage.elementStart, if_pos wellAttributed]
      by_cases tag : name = TAG_NAME_ITEM
      · simp only [parse, Parse.elementStartImpl, Focus.activeSink, Focus.activeProperty,
          ne_eq, not_true_eq_false, ↓reduceIte, Data.activeChannel_append, Outcome.ok_bind, tag,
          Focus.depth, Data.setActiveChannel_append]
        rw [Parse.depth_up (by decide)]
        rfl
      · simp only [tag, ↓reduceIte]
        have opened := Parse.startPropertyOrSink_agrees (Stage.channel done current .idle).parse name
          (.channel done current) (show 2 * DEPTH_STEP + 0 + DEPTH_STEP < 256 by decide)
          (fun _ => rfl) rfl
        simpa [parse, Parse.elementStartImpl, Focus.activeSink, Focus.activeProperty, tag] using opened
    | property key vacant buffer =>
      simp [Stage.elementStart, parse, Parse.elementStartImpl, Focus.activeSink,
        Focus.activeProperty, Agrees]
    | sink sink => simp [Stage.elementStart, parse, Parse.elementStartImpl, Focus.activeSink, Agrees]
  | item done current entry focus =>
    cases focus with
    | idle =>
      have opened := Parse.startPropertyOrSink_agrees (Stage.item done current entry .idle).parse name
        (.item done current entry) (show 3 * DEPTH_STEP + 0 + DEPTH_STEP < 256 by decide)
        (fun _ => rfl) rfl
      simpa [Stage.elementStart, wellAttributed, parse, Parse.elementStartImpl, Focus.activeSink,
        Focus.activeProperty] using opened
    | property key vacant buffer =>
      simp [Stage.elementStart, parse, Parse.elementStartImpl, Focus.activeSink,
        Focus.activeProperty, Agrees]
    | sink sink => simp [Stage.elementStart, parse, Parse.elementStartImpl, Focus.activeSink, Agrees]
  | «end» channels => simp [Stage.elementStart, parse, Parse.elementStartImpl, Agrees]

theorem characterData_agrees (stage : Stage) (s : Bytes) :
    Agrees (stage.parse.characterDataImpl (trim isWhitespace s)) (stage.characterData s) := by
  by_cases blank : Blank isWhitespace s
  · simp [Stage.characterData, Parse.characterDataImpl, trim_eq_nil.mpr blank, blank, Agrees]
  · have visible : trim isWhitespace s ≠ [] := fun empty => blank (trim_eq_nil.mp empty)
    cases stage with
    | init => simp [Stage.characterData, blank, parse, Parse.characterDataImpl, visible, Agrees]
    | rss channels =>
      simp [Stage.characterData, blank, parse, Parse.characterDataImpl, visible, Agrees]
    | channel done current focus =>
      cases focus <;>
        simp [Stage.characterData, blank, parse, Parse.characterDataImpl, visible, Agrees,
          Focus.text, Focus.activeProperty, Focus.activeSink, Focus.activeData, Focus.depth,
          Parse.appendCharacterData]
    | item done current entry focus =>
      cases focus <;>
        simp [Stage.characterData, blank, parse, Parse.characterDataImpl, visible, Agrees,
          Focus.text, Focus.activeProperty, Focus.activeSink, Focus.activeData, Focus.depth,
          Parse.appendCharacterData]
    | «end» channels =>
      simp [Stage.characterData, blank, parse, Parse.characterDataImpl, visible, Agrees]

theorem elementEnd_agrees (stage : Stage) (name : Bytes) :
    Agrees (stage.parse.elementEndImpl name) (stage.elementEnd name) := by
  cases stage with
  | init => simp [Stage.elementEnd, parse, Parse.elementEndImpl, Agrees]
  | rss channels =>
    by_cases tag : name = TAG_NAME_RSS
    · simp only [Stage.elementEnd, parse, Parse.elementEndImpl, tag, ↓reduceIte]
      rfl
    · simp [Stage.elementEnd, parse, Parse.elementEndImpl, tag, Agrees]
  | channel done current focus =>
    cases focus with
    | idle =>
      by_cases tag : name = TAG_NAME_CHANNEL
      · simp only [Stage.elementEnd, parse, Parse.elementEndImpl, tag, Focus.activeProperty,
          Focus.activeSink, Focus.activeData, Focus.depth, Parse.endSinkOr, ne_eq,
          not_true_eq_false, ↓reduceIte]
        rw [Parse.depth_down (2 * DEPTH_STEP + 0) DEPTH_STEP rfl (by decide)]
        rfl
      · simp [Stage.elementEnd, parse, Parse.elementEndImpl, tag, Focus.activeProperty,
          Focus.activeSink, Parse.endSinkOr, Agrees]
    | property key vacant buffer =>
      by_cases tag : name = LevelProperty.tagName key
      · have tag' : name = key.generic.tagName := tag
        simp only [Stage.elementEnd, if_pos tag, parse, Parse.elementEndImpl, if_pos tag',
          Focus.activeProperty, LevelProperty.generic_channel, ne_eq,
          Channel.Property.generic_ne_null, not_false_eq_true, ↓reduceIte,
          Data.activeChannel_append, Outcome.ok_bind, Channel.Property.fromGeneric_generic, vacant]
        rw [Parse.endProperty_eq _ (2 * DEPTH_STEP) rfl
          (show 2 * DEPTH_STEP + DEPTH_STEP < 256 by decide)]
        simp [Agrees, parse, Focus.activeProperty, Focus.activeSink, Focus.activeData, Focus.depth]
      · have tag' : ¬ name = key.generic.tagName := tag
        simp [Stage.elementEnd, parse, Parse.elementEndImpl, tag, tag', Focus.activeProperty, Agrees]
    | sink sink =>
      by_cases same : name = sink <;>
        simp [Stage.elementEnd, parse, Parse.elementEndImpl, same, Focus.activeProperty,
          Focus.activeSink, Focus.activeData, Focus.depth, Parse.endSinkOr, Agrees]
  | item done current entry focus =>
    cases focus with
    | idle =>
      by_cases tag : name = TAG_NAME_ITEM
      · simp only [Stage.elementEnd, parse, Parse.elementEndImpl, tag, Focus.activeProperty,
          Focus.activeSink, Focus.activeData, Focus.depth, Parse.endSinkOr, ne_eq,
          not_true_eq_false, ↓reduceIte]
        rw [Parse.depth_down (3 * DEPTH_STEP + 0) (2 * DEPTH_STEP) rfl (by decide)]
        rfl
      · simp [Stage.elementEnd, parse, Parse.elementEndImpl, tag, Focus.activeProperty,
          Focus.activeSink, Parse.endSinkOr, Agrees]
    | property key vacant buffer =>
      by_cases tag : name = LevelProperty.tagName key
      · have tag' : name = key.generic.tagName := tag
        simp only [Stage.elementEnd, if_pos tag, parse, Parse.elementEndImpl, if_pos tag',
          Focus.activeProperty, LevelProperty.generic_item, ne_eq,
          Item.Property.generic_ne_null, not_false_eq_true, ↓reduceIte,
          Data.activeChannel_append, Channel.activeItem_append, Outcome.ok_bind,
          Item.Property.fromGeneric_generic, vacant]
        rw [Parse.endProperty_eq _ (3 * DEPTH_STEP) rfl
          (show 3 * DEPTH_STEP + DEPTH_STEP < 256 by decide)]
        simp [Agrees, parse, Focus.activeProperty, Focus.activeSink, Focus.activeData, Focus.depth]
      · have tag' : ¬ name = key.generic.tagName := tag
        simp [Stage.elementEnd, parse, Parse.elementEndImpl, tag, tag', Focus.activeProperty, Agrees]
    | sink sink =>
      by_cases same : name = sink <;>
        simp [Stage.elementEnd, parse, Parse.elementEndImpl, same, Focus.activeProperty,
          Focus.activeSink, Focus.activeData, Focus.depth, Parse.endSinkOr, Agrees]
  | «end» channels => simp [Stage.elementEnd, parse, Parse.elementEndImpl, Agrees]

end Stage

/-- Every callback keeps the parser at the fields of a stage, live or
rejected. -/
theorem handle_follows (progress : Progress) (callback : Parse.Callback) :
    progress.parse.handle callback = .ok (progress.next callback).parse := by
  cases progress with
  | live stage =>
    cases callback with
    | elementStart name atts =>
      rcases Parse.processAttrs_cases atts with ⟨attrs, processed⟩ | ⟨failure, processed⟩
      · simp only [Progress.parse, Parse.handle, Parse.elementStart, processed, Outcome.ok_bind]
        exact (stage.elementStart_agrees name atts attrs processed).catchWith
      · have refused : stage.elementStart name atts = none := by
          simp [Stage.elementStart, Stage.WellAttributed, processed, Outcome.toOption]
        simp [Progress.parse, Parse.handle, Parse.elementStart, processed, Progress.next,
          Stage.step, refused, Progress.ofStep]
    | characterData s => exact (stage.characterData_agrees s).catchWith
    | elementEnd name => exact (stage.elementEnd_agrees name).catchWith
  | rejected stage =>
    cases callback with
    | elementStart name atts =>
      rcases Parse.processAttrs_cases atts with ⟨attrs, processed⟩ | ⟨failure, processed⟩ <;>
        simp [Progress.parse, Progress.next, Parse.handle, Parse.elementStart, processed,
          Parse.elementStartImpl]
    | characterData s =>
      by_cases blank : trim isWhitespace s = [] <;>
        simp [Progress.parse, Progress.next, Parse.handle, Parse.characterData,
          Parse.characterDataImpl, blank]
    | elementEnd name => rfl

theorem feed_follows (progress : Progress) (callbacks : List Parse.Callback) :
    progress.parse.feed callbacks = .ok (callbacks.foldl Progress.next progress).parse :=
  foldlM_follows handle_follows callbacks progress

theorem foldl_rejected (stage : Stage) (callbacks : List Parse.Callback) :
    callbacks.foldl Progress.next (.rejected stage) = .rejected stage := by
  induction callbacks with
  | nil => rfl
  | cons callback rest ih => exact ih

theorem foldl_live (stage : Stage) (callbacks : List Parse.Callback) :
    ∃ last, callbacks.foldl Progress.next (.live stage) =
      Progress.ofStep last (stage.run callbacks) := by
  induction callbacks generalizing stage with
  | nil => exact ⟨stage, rfl⟩
  | cons callback rest ih =>
    simp only [List.foldl_cons, Stage.run_cons, Progress.next]
    cases stage.step callback with
    | some next => exact ih next
    | none => exact ⟨stage, foldl_rejected stage rest⟩

theorem feed_eq_of_run {stage final : Stage} {callbacks : List Parse.Callback}
    (ran : stage.run callbacks = some final) : stage.parse.feed callbacks = .ok final.parse := by
  obtain ⟨last, same⟩ := foldl_live stage callbacks
  have followed := feed_follows (.live stage) callbacks
  rw [same, ran] at followed
  exact followed

theorem feed_eq_of_refused {stage : Stage} {callbacks : List Parse.Callback}
    (refused : stage.run callbacks = none) :
    ∃ last : Stage, stage.parse.feed callbacks = .ok { last.parse with state := .err } := by
  obtain ⟨last, same⟩ := foldl_live stage callbacks
  have followed := feed_follows (.live stage) callbacks
  rw [same, refused] at followed
  exact ⟨last, followed⟩

theorem Stage.parse_live (stage : Stage) : stage.parse.state ≠ .err := by
  cases stage <;> simp [Stage.parse]

/-- A parser that is not in `err` stands at a stage. -/
theorem stage_of_feed {callbacks : List Parse.Callback} {final : Parse}
    (fed : Parse.feed {} callbacks = .ok final) (live : final.state ≠ .err) :
    ∃ stage, Stage.init.run callbacks = some stage ∧ final = stage.parse := by
  have start : Stage.init.parse = {} := rfl
  cases ran : Stage.init.run callbacks with
  | some stage =>
    have success := feed_eq_of_run ran
    rw [start, fed] at success
    exact ⟨stage, rfl, Outcome.ok.inj success⟩
  | none =>
    obtain ⟨last, failure⟩ := feed_eq_of_refused ran
    rw [start, fed] at failure
    exact absurd (by rw [Outcome.ok.inj failure]) live

end Xrss.Rss
