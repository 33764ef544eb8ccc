import Xrss.Rss.GrammarSemantics

/-! The parser checks the nesting of elements by itself: on arbitrary sequences of calls it
accepts feed documents and nothing else, and it goes on exactly as long as a sequence can still
become one. -/

namespace Xrss.Rss

open Zig Config

section Attributes

theorem Parse.collectAttrs_sound {result : List Parse.Attr} {atts : List Bytes}
    {attrs : List Parse.Attr} (distinct : (result.map (·.name)).Nodup) (even : atts.length % 2 = 0)
    (collected : Parse.collectAttrs result atts = .ok attrs) :
    (attrs.map (·.name)).Nodup ∧
      attrs.flatMap (fun attr => [attr.name, attr.value]) =
        result.flatMap (fun attr => [attr.name, attr.value]) ++ atts := by
  fun_induction Parse.collectAttrs result atts with
  | case1 => cases collected
  | case2 result name value rest fresh ih =>
    have unused : name ∉ result.map (·.name) := by simpa using fresh
    have extended : ((result ++ [⟨name, value⟩] : List Parse.Attr).map (·.name)).Nodup := by
      rw [List.map_append, List.nodup_append]
      refine ⟨distinct, by simp, ?_⟩
      intro other member single added same
      rw [List.map_singleton, List.mem_singleton] at added
      rw [same, added] at member
      exact unused member
    obtain ⟨names, flat⟩ := ih extended (by simp only [List.length_cons] at even; omega) collected
    exact ⟨names, by simpa using flat⟩
  | case3 atts result single =>
    cases collected
    have empty : atts = [] := by
      cases atts with
      | nil => rfl
      | cons name more =>
        cases more with
        | nil => simp at even
        | cons value later => exact absurd rfl (single name value later)
    exact ⟨distinct, by simp [empty]⟩

theorem Stage.WellAttributed.attrs {atts : List Bytes} (paired : Stage.WellAttributed atts) :
    ∃ attrs : Attrs, attrs.atts = atts := by
  obtain ⟨list, processed⟩ | ⟨failure, refused⟩ := Parse.processAttrs_cases atts
  · unfold Parse.processAttrs at processed
    split at processed
    · cases processed
    · rename_i even
      obtain ⟨distinct, same⟩ := Parse.collectAttrs_sound (by simp) (by simpa using even) processed
      exact ⟨⟨list, distinct⟩, same⟩
  · simp [Stage.WellAttributed, refused, Outcome.toOption] at paired

end Attributes

/-- The name of the element the focus stands in. -/
def Focus.names {κ : Type} [DecidableEq κ] [LevelProperty κ] {props : EnumArray κ (Option Bytes)} :
    Focus props → List Bytes
  | .idle => []
  | .property key _ _ => [LevelProperty.tagName key]
  | .sink name => [name]

theorem Focus.start_names {κ : Type} [DecidableEq κ] [LevelProperty κ]
    {props : EnumArray κ (Option Bytes)} {name : Bytes} {focus : Focus props}
    (started : Focus.start props name = some focus) : focus.names = [name] := by
  unfold Focus.start at started
  cases found : LevelProperty.ofTag κ name with
  | none =>
    simp only [found, Option.some.injEq] at started
    rw [← started, names]
  | some key =>
    simp only [found, Option.dite_none_right_eq_some, Option.some.injEq] at started
    obtain ⟨vacant, rfl⟩ := started
    rw [names, LevelProperty.ofTag_eq_some.mp found]

theorem Focus.text_names {κ : Type} [DecidableEq κ] [LevelProperty κ]
    {props : EnumArray κ (Option Bytes)} {focus grown : Focus props} {data : Bytes}
    (read : focus.text data = some grown) : grown.names = focus.names := by
  cases focus <;> cases read <;> rfl

namespace Stage

/-- The open elements, innermost first. -/
def names : Stage → List Bytes
  | .init => []
  | .rss _ => [TAG_NAME_RSS]
  | .channel _ _ focus => focus.names ++ [TAG_NAME_CHANNEL, TAG_NAME_RSS]
  | .item _ _ _ focus => focus.names ++ [TAG_NAME_ITEM, TAG_NAME_CHANNEL, TAG_NAME_RSS]
  | .«end» _ => []

theorem elementStart_names {stage next : Stage} {name : Bytes} {atts : List Bytes}
    (opened : stage.elementStart name atts = some next) :
    WellAttributed atts ∧ next.names = name :: stage.names := by
  unfold elementStart at opened
  split at opened
  · rename_i paired
    refine ⟨paired, ?_⟩
    split at opened
    · simp only [Option.ite_none_right_eq_some, Option.some.injEq] at opened
      obtain ⟨⟨rfl, _⟩, rfl⟩ := opened
      rfl
    · simp only [Option.ite_none_right_eq_some, Option.some.injEq] at opened
      obtain ⟨rfl, rfl⟩ := opened
      rfl
    · split at opened
      · rename_i tag
        cases opened
        rw [tag]
        rfl
      · obtain ⟨focus, started, rfl⟩ := Option.map_eq_some_iff.mp opened
        rw [names, Focus.start_names started]
        rfl
    · obtain ⟨focus, started, rfl⟩ := Option.map_eq_some_iff.mp opened
      rw [names, Focus.start_names started]
      rfl
    · cases opened
  · cases opened

theorem characterData_names {stage next : Stage} {s : Bytes}
    (read : stage.characterData s = some next) :
    next.names = stage.names ∧ (stage.names = [] → Blank isWhitespace s ∧ next = stage) := by
  unfold characterData at read
  split at read
  · rename_i blank
    cases read
    exact ⟨rfl, fun _ => ⟨blank, rfl⟩⟩
  · split at read
    · obtain ⟨focus, grown, rfl⟩ := Option.map_eq_some_iff.mp read
      rw [names, Focus.text_names grown]
      exact ⟨rfl, by simp [names]⟩
    · obtain ⟨focus, grown, rfl⟩ := Option.map_eq_some_iff.mp read
      rw [names, Focus.text_names grown]
      exact ⟨rfl, by simp [names]⟩
    · cases read

theorem elementEnd_names {stage next : Stage} {name : Bytes}
    (closed : stage.elementEnd name = some next) :
    stage.names = name :: next.names ∧ next ≠ .init := by
  unfold elementEnd at closed
  split at closed
  case h_8 => cases closed
  all_goals
    simp only [Option.ite_none_right_eq_some, Option.some.injEq] at closed
    obtain ⟨rfl, rfl⟩ := closed
    exact ⟨rfl, by simp⟩

end Stage

/-- An element that is still open. -/
structure Frame where
  name : Bytes
  attrs : Attrs
  children : List Node

/-- The calls so far, by the open elements, innermost first. -/
def openCallbacks : List Frame → List Parse.Callback
  | [] => []
  | frame :: outer =>
    openCallbacks outer ++ .elementStart frame.name frame.attrs.atts :: Node.callbacksAll frame.children

theorem openCallbacks_child (frame : Frame) (outer : List Frame) (child : Node) :
    openCallbacks ({ frame with children := frame.children ++ [child] } :: outer) =
      openCallbacks (frame :: outer) ++ child.callbacks := by
  simp [openCallbacks, Node.callbacksAll_append, Node.callbacksAll]

/-- Text of white space only. -/
def Blanks (callbacks : List Parse.Callback) : Prop :=
  ∀ callback ∈ callbacks, ∃ s, callback = .characterData s ∧ Blank isWhitespace s

theorem Blanks.snoc {callbacks : List Parse.Callback} (blanks : Blanks callbacks) {s : Bytes}
    (blank : Blank isWhitespace s) : Blanks (callbacks ++ [.characterData s]) := by
  intro callback member
  rcases List.mem_append.mp member with before | last
  · exact blanks callback before
  · exact ⟨s, List.mem_singleton.mp last, blank⟩

/-- The calls of a document with an element tree and white space around it. -/
def Document (tree : Node) (callbacks : List Parse.Callback) : Prop :=
  ∃ before after, Blanks before ∧ Blanks after ∧ callbacks = before ++ tree.callbacks ++ after

/-- How far a sequence of calls has come: before the root, inside of it or after it. -/
inductive Opened : List Parse.Callback → Stage → Prop where
  | prolog (blanks : Blanks callbacks) : Opened callbacks .init
  | inside (blanks : Blanks before) (frames : List Frame) (occupied : frames ≠ [])
      (names : frames.map (·.name) = stage.names) : Opened (before ++ openCallbacks frames) stage
  | closed (name : Bytes) (attrs : Attrs) (children : List Node)
      (document : Document (.element name attrs children) callbacks) : Opened callbacks (.«end» channels)

namespace Opened

theorem elementStart {callbacks : List Parse.Callback} {stage next : Stage} {name : Bytes}
    {atts : List Bytes} (opened : Opened callbacks stage)
    (stepped : stage.elementStart name atts = some next) :
    Opened (callbacks ++ [.elementStart name atts]) next := by
  obtain ⟨paired, names⟩ := Stage.elementStart_names stepped
  obtain ⟨attrs, rfl⟩ := paired.attrs
  cases opened with
  | prolog blanks => exact .inside blanks [⟨name, attrs, []⟩] (by simp) names.symm
  | inside blanks frames occupied same =>
    rw [List.append_assoc]
    exact .inside blanks (⟨name, attrs, []⟩ :: frames) (by simp) (by rw [List.map_cons, same, names])
  | closed => simp [Stage.elementStart] at stepped

theorem characterData {callbacks : List Parse.Callback} {stage next : Stage} {s : Bytes}
    (opened : Opened callbacks stage) (stepped : stage.characterData s = some next) :
    Opened (callbacks ++ [.characterData s]) next := by
  obtain ⟨names, outside⟩ := Stage.characterData_names stepped
  cases opened with
  | prolog blanks =>
    obtain ⟨blank, rfl⟩ := outside rfl
    exact .prolog (blanks.snoc blank)
  | inside blanks frames occupied same =>
    cases frames with
    | nil => exact absurd rfl occupied
    | cons frame outer =>
      have grown := openCallbacks_child frame outer (.text s)
      rw [Node.callbacks] at grown
      rw [List.append_assoc, ← grown]
      exact .inside blanks _ (by simp) (by rw [names, ← same]; rfl)
  | closed name attrs children document =>
    obtain ⟨blank, rfl⟩ := outside rfl
    obtain ⟨before, after, blanks, later, rfl⟩ := document
    exact .closed name attrs children ⟨before, _, blanks, later.snoc blank, by simp⟩

theorem elementEnd {callbacks : List Parse.Callback} {stage next : Stage} {name : Bytes}
    (opened : Opened callbacks stage) (stepped : stage.elementEnd name = some next) :
    Opened (callbacks ++ [.elementEnd name]) next := by
  obtain ⟨names, started⟩ := Stage.elementEnd_names stepped
  cases opened with
  | prolog => cases names
  | inside blanks frames occupied same =>
    rename_i before
    cases frames with
    | nil => exact absurd rfl occupied
    | cons frame outer =>
      obtain ⟨rfl, further⟩ := List.cons.inj (same.trans names)
      cases outer with
      | nil =>
        cases next with
        | init => exact absurd rfl started
        | «end» channels =>
          refine .closed frame.name frame.attrs frame.children ⟨before, [], blanks, nofun, ?_⟩
          simp [openCallbacks, Node.callbacks]
        | _ => simp [Stage.names] at further
      | cons parent rest =>
        have grown := openCallbacks_child parent rest (.element frame.name frame.attrs frame.children)
        have same : before ++ openCallbacks (frame :: parent :: rest) ++ [.elementEnd frame.name] =
            before ++ (openCallbacks (parent :: rest) ++
              (Node.element frame.name frame.attrs frame.children).callbacks) := by
          simp [openCallbacks, Node.callbacks]
        rw [same, ← grown]
        exact .inside blanks _ (by simp) further
  | closed => cases names

/-- Every stage is reached by the start of a document. -/
theorem of_run {callbacks : List Parse.Callback} {stage : Stage}
    (ran : Stage.init.run callbacks = some stage) : Opened callbacks stage := by
  induction callbacks using List.reverseRecOn generalizing stage with
  | nil =>
    cases ran
    exact .prolog nofun
  | append_singleton callbacks callback ih =>
    rw [Stage.run_append] at ran
    obtain ⟨before, reached, stepped⟩ := Option.bind_eq_some_iff.mp ran
    rw [Stage.run_cons, Option.bind_eq_some_iff] at stepped
    obtain ⟨next, stepped, same⟩ := stepped
    cases same
    cases callback with
    | elementStart name atts => exact (ih reached).elementStart stepped
    | characterData s => exact (ih reached).characterData stepped
    | elementEnd name => exact (ih reached).elementEnd stepped

end Opened

namespace Stage

theorem run_blanks (stage : Stage) {callbacks : List Parse.Callback} (blanks : Blanks callbacks) :
    stage.run callbacks = some stage := by
  induction callbacks with
  | nil => rfl
  | cons callback rest ih =>
    obtain ⟨s, rfl, blank⟩ := blanks callback (by simp)
    rw [run_cons, step, stage.characterData_blank blank, Option.bind_some]
    exact ih fun other member => blanks other (by simp [member])

/-- A document leads to the end exactly when its tree is a feed. -/
theorem run_document {tree : Node} {callbacks : List Parse.Callback}
    (document : Document tree callbacks) (channels : List Channel) :
    Stage.init.run callbacks = some (.«end» channels) ↔ tree.IsFeed ∧ channels = tree.denote := by
  obtain ⟨before, after, blanks, later, rfl⟩ := document
  rw [run_append, run_append, run_blanks _ blanks, Option.bind_some, ← Node.read_iff]
  cases tree with
  | text chunk =>
    rw [run_text]
    by_cases blank : Blank isWhitespace chunk
    · simp [characterData_blank _ blank, Node.read, run_blanks _ later]
    · simp [characterData, blank, Node.read]
  | element name attrs children =>
    rw [run_root]
    cases (Node.element name attrs children).read with
    | none => simp
    | some read => simp [run_blanks _ later]

theorem document_of_run {callbacks : List Parse.Callback} {channels : List Channel}
    (ran : Stage.init.run callbacks = some (.«end» channels)) : ∃ tree, Document tree callbacks := by
  cases Opened.of_run ran with
  | inside blanks frames occupied names =>
    rw [Stage.names, List.map_eq_nil_iff] at names
    exact absurd names occupied
  | closed name attrs children document => exact ⟨_, document⟩

/-- Calls that finish the document. -/
def closing : Stage → List Parse.Callback
  | .init =>
    [.elementStart TAG_NAME_RSS [ATTR_NAME_VERSION, RSS_SUPPORTED_VERSION], .elementEnd TAG_NAME_RSS]
  | stage => stage.names.map .elementEnd

theorem run_closing (stage : Stage) : ∃ channels, stage.run stage.closing = some (.«end» channels) := by
  cases stage with
  | init =>
    have paired : WellAttributed [ATTR_NAME_VERSION, RSS_SUPPORTED_VERSION] := by decide +kernel
    have versioned : Versioned [ATTR_NAME_VERSION, RSS_SUPPORTED_VERSION] := by decide +kernel
    exact ⟨[], by simp [closing, step, elementStart, paired, versioned, elementEnd]⟩
  | rss channels => exact ⟨channels, by simp [closing, names, step, elementEnd]⟩
  | channel done current focus =>
    cases focus <;>
      exact ⟨_, by simp [closing, names, Focus.names, step, elementEnd]; rfl⟩
  | item done current entry focus =>
    cases focus <;>
      exact ⟨_, by simp [closing, names, Focus.names, step, elementEnd]; rfl⟩
  | «end» channels => exact ⟨channels, rfl⟩

end Stage

/-- Among all sequences of calls, nested or not, the parser accepts those of feed documents, and
ends with the channels they denote. -/
theorem accepts_iff_document (callbacks : List Parse.Callback) (channels : List Channel) :
    (∃ final, Parse.feed {} callbacks = .ok final ∧ final.state = .«end» ∧
        final.data.channels = channels) ↔
      ∃ tree, Document tree callbacks ∧ tree.IsFeed ∧ channels = tree.denote := by
  constructor
  · intro accepted
    obtain ⟨final, fed, finished, rfl⟩ := accepted
    obtain ⟨stage, ran, rfl⟩ := stage_of_feed fed (by rw [finished]; nofun)
    cases stage with
    | «end» channels =>
      obtain ⟨tree, document⟩ := Stage.document_of_run ran
      exact ⟨tree, document, (Stage.run_document document channels).mp ran⟩
    | _ => cases finished
  · intro written
    obtain ⟨tree, document, feed⟩ := written
    exact ⟨_, feed_eq_of_run ((Stage.run_document document channels).mpr feed), rfl, rfl⟩

/-- The parser goes on exactly as long as the calls can still become a feed document. -/
theorem live_iff_viable (callbacks : List Parse.Callback) :
    ∃ final, Parse.feed {} callbacks = .ok final ∧
      (final.state ≠ .err ↔ ∃ rest tree, Document tree (callbacks ++ rest) ∧ tree.IsFeed) := by
  have start : Stage.init.parse = {} := rfl
  cases ran : Stage.init.run callbacks with
  | some stage =>
    refine ⟨stage.parse, start ▸ feed_eq_of_run ran, fun _ => ?_, fun _ => stage.parse_live⟩
    obtain ⟨channels, closed⟩ := stage.run_closing
    have finished : Stage.init.run (callbacks ++ stage.closing) = some (.«end» channels) := by
      rw [Stage.run_append, ran, Option.bind_some, closed]
    obtain ⟨tree, document⟩ := Stage.document_of_run finished
    exact ⟨_, tree, document, ((Stage.run_document document channels).mp finished).1⟩
  | none =>
    obtain ⟨last, failed⟩ := feed_eq_of_refused ran
    refine ⟨_, start ▸ failed, fun live => absurd rfl live, ?_⟩
    intro viable
    obtain ⟨rest, tree, document, feed⟩ := viable
    have finished := (Stage.run_document document tree.denote).mpr ⟨feed, rfl⟩
    rw [Stage.run_append, ran] at finished
    cases finished

end Xrss.Rss
