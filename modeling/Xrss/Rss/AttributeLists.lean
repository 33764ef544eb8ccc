import Mathlib.Data.List.Nodup
import Xrss.Rss.Attributes
import Xrss.Rss.GrammarReader
import Xrss.Zig.Simulation

/-! What the attribute list of a start tag is meant to be: the attributes of the tag, and after them
the default values that are declared for others. The lists that expat makes are these. -/

namespace Xrss.Rss

open Zig

/-- A declaration of an attribute, with the default value that it has. -/
structure Declared where
  name : Bytes
  isCdata : Bool
  value : Option Bytes
  deriving Repr, DecidableEq

/-- The first declaration of an attribute counts; `seen` are those that need no default value. -/
def defaults (seen : List Bytes) : List Declared → List Parse.Attr
  | [] => []
  | declared :: rest =>
    if declared.name ∈ seen then defaults seen rest
    else (declared.value.map (⟨declared.name, ·⟩)).toList ++ defaults (declared.name :: seen) rest

/-- Whether the value of an attribute is character data, if it is declared. -/
def declaredCdata (declared : List Declared) (name : Bytes) : Option Bool :=
  (declared.find? fun declared => decide (declared.name = name)).map (·.isCdata)

section Defaults

theorem defaults_congr {seen other : List Bytes} (same : ∀ name, name ∈ seen ↔ name ∈ other)
    (declared : List Declared) : defaults seen declared = defaults other declared := by
  induction declared generalizing seen other with
  | nil => rfl
  | cons first rest ih =>
    have longer : ∀ name, name ∈ first.name :: seen ↔ name ∈ first.name :: other := by
      intro name
      rw [List.mem_cons, List.mem_cons, same name]
    rw [defaults, defaults, ih same, ih longer]
    simp only [same first.name]

/-- An attribute without a default value needs none. -/
theorem defaults_cons_seen {name : Bytes} {declared : List Declared}
    (without : ∀ later ∈ declared, later.name = name → later.value = none) (seen : List Bytes) :
    defaults (name :: seen) declared = defaults seen declared := by
  induction declared generalizing seen with
  | nil => rfl
  | cons first rest ih =>
    rw [List.forall_mem_cons] at without
    by_cases listed : first.name ∈ seen
    · rw [defaults, defaults, if_pos (List.mem_cons_of_mem _ listed), if_pos listed]
      exact ih without.2 seen
    · by_cases same : first.name = name
      · rw [defaults, defaults, if_pos (same ▸ List.mem_cons_self), if_neg listed, without.1 same, same]
        rfl
      · have other : first.name ∉ name :: seen := by simp [same, listed]
        have swapped : ∀ listed, listed ∈ first.name :: name :: seen ↔
            listed ∈ name :: first.name :: seen := by
          simp [or_left_comm]
        rw [defaults, defaults, if_neg other, if_neg listed, defaults_congr swapped, ih without.2]

/-- One more declaration counts if it is the first one of its attribute. -/
theorem defaults_append (seen : List Bytes) (declared : List Declared) (last : Declared) :
    defaults seen (declared ++ [last]) = defaults seen declared ++
      if last.name ∈ seen ∨ last.name ∈ declared.map (·.name) then []
      else (last.value.map (⟨last.name, ·⟩)).toList := by
  induction declared generalizing seen with
  | nil => simp [defaults]
  | cons first rest ih =>
    rw [List.cons_append, defaults, defaults]
    split
    · rename_i listed
      rw [ih]
      congr 2
      simp only [List.map_cons, List.mem_cons, eq_iff_iff]
      constructor
      · exact fun known => known.imp_right .inr
      · rintro (known | same | known)
        · exact .inl known
        · exact .inl (same ▸ listed)
        · exact .inr known
    · rw [ih, List.append_assoc]
      congr 3
      simp only [List.map_cons, List.mem_cons, eq_iff_iff]
      tauto

theorem notMem_of_defaults {seen : List Bytes} {declared : List Declared} {attr : Parse.Attr}
    (member : attr ∈ defaults seen declared) : attr.name ∉ seen := by
  induction declared generalizing seen with
  | nil => cases member
  | cons first rest ih =>
    rw [defaults] at member
    split at member
    · exact ih member
    · rename_i fresh
      rcases List.mem_append.mp member with here | later
      · obtain ⟨value, _, rfl⟩ : ∃ value, first.value = some value ∧ ⟨first.name, value⟩ = attr := by
          simpa using here
        exact fresh
      · exact fun listed => ih later (List.mem_cons_of_mem _ listed)

theorem nodup_defaults (seen : List Bytes) (declared : List Declared) :
    ((defaults seen declared).map (·.name)).Nodup := by
  induction declared generalizing seen with
  | nil => exact List.nodup_nil
  | cons first rest ih =>
    rw [defaults]
    split
    · exact ih seen
    · cases first.value with
      | none => exact ih _
      | some value =>
        refine List.nodup_cons.mpr ⟨fun member => ?_, ih _⟩
        obtain ⟨attr, later, same⟩ := List.mem_map.mp member
        exact notMem_of_defaults later (same ▸ List.mem_cons_self)

theorem declaredCdata_append (declared : List Declared) (last : Declared) (name : Bytes) :
    declaredCdata (declared ++ [last]) name =
      (declaredCdata declared name).or (if last.name = name then some last.isCdata else none) := by
  rw [declaredCdata, List.find?_append, declaredCdata]
  cases declared.find? fun declared => decide (declared.name = name) with
  | some found => rfl
  | none =>
    by_cases same : last.name = name <;> simp [same]

theorem declaredCdata_eq_none {declared : List Declared} {name : Bytes} :
    declaredCdata declared name = none ↔ name ∉ declared.map (·.name) := by
  simp only [declaredCdata, Option.map_eq_none_iff, List.find?_eq_none, decide_eq_true_eq,
    List.mem_map, not_exists, not_and]

end Defaults

/-- What is declared for the elements. -/
abbrev Declarations := Bytes → List Declared

namespace Declarations

def add (declarations : Declarations) (element : Bytes) (declared : Declared) : Declarations :=
  Function.update declarations element (declarations element ++ [declared])

def declare (element : Bytes) (declarations : Declarations) (decl : AttributeDecl) :
    Outcome AttributeError Declarations :=
  if decl.keepProcessing = false then .ok declarations
  else
    match decl.value with
    | none => .ok (declarations.add element ⟨decl.name, decl.isCdata, none⟩)
    | some none => .error .invalidValue
    | some (some value) => .ok (declarations.add element ⟨decl.name, decl.isCdata, some value⟩)

/-- The next attribute of a start tag. -/
def specify (declared : List Declared) (attrs : List Parse.Attr) (att : SpecifiedAttribute) :
    Outcome AttributeError (List Parse.Attr) :=
  if att.name ∈ attrs.map (·.name) then .error .duplicateAttribute
  else if att.normalized = false then
    match att.stored ((declaredCdata declared att.name).getD true) with
    | none => .error .invalidValue
    | some value => .ok (attrs ++ [⟨att.name, value⟩])
  else .ok (attrs ++ [⟨att.name, att.value⟩])

def attributeList (declared : List Declared) (specified : List SpecifiedAttribute) :
    Outcome AttributeError (List Parse.Attr) := do
  let attrs ← specified.foldlM (specify declared) []
  .ok (attrs ++ defaults (attrs.map (·.name)) declared)

theorem specify_eq_ok {declared : List Declared} {attrs next : List Parse.Attr} {att : SpecifiedAttribute}
    (specified : specify declared attrs att = .ok next) :
    att.name ∉ attrs.map (·.name) ∧ ∃ value, next = attrs ++ [⟨att.name, value⟩] := by
  unfold specify at specified
  split at specified
  · cases specified
  · rename_i fresh
    refine ⟨fresh, ?_⟩
    split at specified
    · split at specified
      · cases specified
      · cases specified
        exact ⟨_, rfl⟩
    · cases specified
      exact ⟨_, rfl⟩

theorem nodup_attributeList {declared : List Declared} {specified : List SpecifiedAttribute}
    {attrs : List Parse.Attr} (listed : attributeList declared specified = .ok attrs) :
    (attrs.map (·.name)).Nodup := by
  rw [attributeList, Outcome.bind_eq_ok] at listed
  obtain ⟨given, collected, listed⟩ := listed
  cases listed
  have distinct : (given.map (·.name)).Nodup := by
    have empty : (([] : List Parse.Attr).map (·.name)).Nodup := List.nodup_nil
    refine foldlM_keeps (fun attrs : List Parse.Attr => (attrs.map (·.name)).Nodup)
      (fun attrs att next distinct stepped => ?_) empty collected
    obtain ⟨fresh, value, rfl⟩ := specify_eq_ok stepped
    rw [List.map_append, List.map_singleton, ← List.concat_eq_append]
    exact (List.nodup_concat _ _).mpr ⟨fresh, distinct⟩
  rw [List.map_append, List.nodup_append]
  refine ⟨distinct, nodup_defaults _ _, fun name here other there same => ?_⟩
  obtain ⟨attr, later, rfl⟩ := List.mem_map.mp there
  exact notMem_of_defaults later (same ▸ here)

def markup (state : Declarations × List (List Parse.Attr)) :
    Markup → Outcome AttributeError (Declarations × List (List Parse.Attr))
  | .attlist _ element decls => do
    let declarations ← decls.foldlM (declare element) state.1
    .ok (declarations, state.2)
  | .startTag _ _ tag specified => do
    let attrs ← attributeList (state.1 tag) specified
    .ok (state.1, state.2 ++ [attrs])

def startTags (markups : List Markup) : Outcome AttributeError (List (List Parse.Attr)) := do
  let last ← markups.foldlM markup (fun _ => [], [])
  .ok last.2

theorem nodup_startTags {markups : List Markup} {lists : List (List Parse.Attr)}
    (returned : startTags markups = .ok lists) : ∀ attrs ∈ lists, (attrs.map (·.name)).Nodup := by
  obtain ⟨last, ran, same⟩ := Outcome.bind_eq_ok.mp returned
  cases same
  refine foldlM_keeps (fun state : Declarations × List (List Parse.Attr) =>
    ∀ attrs ∈ state.2, (attrs.map (·.name)).Nodup) (fun state input next distinct stepped => ?_)
    (by simp) ran
  cases input with
  | attlist allotment element decls =>
    obtain ⟨declarations, _, same⟩ := Outcome.bind_eq_ok.mp stepped
    cases same
    exact distinct
  | startTag allotment room tag specified =>
    obtain ⟨attrs, listed, same⟩ := Outcome.bind_eq_ok.mp stepped
    cases same
    rw [List.forall_mem_append, List.forall_mem_singleton]
    exact ⟨distinct, nodup_attributeList listed⟩

end Declarations

end Xrss.Rss
