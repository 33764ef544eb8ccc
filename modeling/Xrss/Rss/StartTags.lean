import Xrss.Rss.DeclaredAttributes

/-! Expat's attribute lists are the ones that are meant. While a list is made, the flags are set for
just the attributes that are in it; between two start tags none is set. -/

namespace Xrss.Rss

open Zig Outcome

variable {hash : Bytes → Nat} {mentioned typeNames idNames : List Bytes} {short : Prop}
  {declarations : Declarations} {type : Named Bytes}

namespace Dtd

/-- The list that is made for an element, and its flags. -/
structure Collects (hash : Bytes → Nat) (mentioned : List Bytes) (declarations : Declarations)
    (typeNames idNames : List Bytes) (element : ElementType) (type : Named Bytes)
    (state : Dtd × AppAtts) (attrs : List Parse.Attr) : Prop where
  follows : state.1.Follows hash mentioned declarations typeNames idNames (attrs.map (·.name))
  element : state.1.elementType type = element
  listed : ∀ att ∈ state.2, att.1 ∈ register idNames
  attrs : attrs = state.2.map fun att => ⟨att.1.name, att.2⟩

namespace Collects

variable {element : ElementType} {state : Dtd × AppAtts} {attrs : List Parse.Attr}

theorem add (collects : Collects hash mentioned declarations typeNames idNames element type state attrs)
    {id : Named Bytes} (identified : id ∈ register idNames) (value : Bytes) :
    Collects hash mentioned declarations typeNames idNames element type
      (state.1.setFlag 1 id, state.2 ++ [(id, value)]) (attrs ++ [⟨id.name, value⟩]) where
  follows := by
    rw [List.map_append, List.map_singleton]
    refine collects.follows.setFlag identified ?_ fun other known => ?_
    · have member : id.name ∈ idNames := List.mem_of_getElem? (mem_register.mp identified)
      exact List.append_subset.mpr ⟨collects.follows.within, by simpa using member⟩
    · rw [List.mem_append, List.mem_singleton]
      split
      · rename_i same
        exact iff_of_true (.inr same) Nat.one_ne_zero
      · rename_i different
        exact or_iff_left different
  element := collects.element
  listed := by
    rw [List.forall_mem_append, List.forall_mem_singleton]
    exact ⟨collects.listed, identified⟩
  attrs := by
    rw [List.map_append, ← collects.attrs]
    rfl

theorem flag_iff (collects : Collects hash mentioned declarations typeNames idNames element type state attrs)
    {id : Named Bytes} (identified : id ∈ register idNames) :
    (state.1.attributeId id).flag ≠ 0 ↔ id.name ∈ attrs.map (·.name) :=
  collects.follows.flags id identified

theorem storeAttribute
    (collects : Collects hash mentioned declarations typeNames idNames element type state attrs)
    (listed : type ∈ register typeNames) {att : SpecifiedAttribute} (member : att.name ∈ mentioned)
    (tooMany : 2 ^ 59 ≤ mentioned.length → short) (denied : ¬ att.Granted → short) :
    Simulates (Excusable short)
      (fun next attrs => ∃ after,
        Collects hash mentioned declarations typeNames after element type next attrs)
      (Dtd.storeAttribute hash element state att)
      (Declarations.specify (declarations type.name) attrs att) := by
  refine (collects.follows.getAttributeId member tooMany
    fun lacking => denied fun granted => lacking granted.1).bind_ok ?_
  rintro ⟨dtd, attId⟩ ⟨named, same, after, identified, longer, follows⟩
  simp only at named same follows identified
  have current : Collects hash mentioned declarations typeNames after element type (dtd, state.2) attrs :=
    ⟨follows, by rw [← collects.element]; simp only [elementType, same],
      fun att held => register_subset longer (collects.listed att held), collects.attrs⟩
  have flag := current.flag_iff identified
  rw [named] at flag
  rw [Declarations.specify]
  simp only [flag]
  split
  · exact .error _
  · have cdata := (current.add identified []).follows.isCdata listed identified
    rw [(current.add identified []).element, named] at cdata
    split
    · rw [cdata]
      cases att.stored ((declaredCdata (declarations type.name) att.name).getD true) with
      | none => exact .error _
      | some value => exact .ok ⟨after, named ▸ current.add identified value⟩
    · split
      · rename_i none
        exact .excused _ ⟨rfl, denied fun granted => Bool.false_ne_true (none.symm.trans granted.2)⟩
      · exact .ok ⟨after, named ▸ current.add identified att.value⟩

theorem foldl_defaultAttribute {atts : List DefaultAttribute}
    (once : (atts.map DefaultAttribute.declared).Pairwise fun first later =>
      later.name = first.name → later.value = none)
    (identified : ∀ att ∈ atts, att.id ∈ register idNames)
    (collects : Collects hash mentioned declarations typeNames idNames element type state attrs) :
    Collects hash mentioned declarations typeNames idNames element type (atts.foldl defaultAttribute state)
      (attrs ++ defaults (attrs.map (·.name)) (atts.map DefaultAttribute.declared)) := by
  induction atts generalizing state attrs with
  | nil =>
    rw [List.map_nil, defaults, List.append_nil]
    exact collects
  | cons att rest ih =>
    rw [List.map_cons, List.pairwise_cons] at once
    rw [List.forall_mem_cons] at identified
    have flag := collects.flag_iff identified.1
    have named : att.declared.name = att.id.name := rfl
    have valued : att.declared.value = att.value := rfl
    rw [List.foldl_cons, List.map_cons, defaults, named, valued]
    cases stored : att.value with
    | none =>
      have kept : defaultAttribute state att = state := by rw [defaultAttribute, stored]
      rw [kept]
      split
      · exact ih once.2 identified.2 collects
      · -- later declarations of the attribute have no value either
        have without : ∀ later ∈ rest.map DefaultAttribute.declared,
            later.name = att.id.name → later.value = none := once.1
        rw [defaults_cons_seen without, Option.map_none, Option.toList_none, List.nil_append]
        exact ih once.2 identified.2 collects
    | some value =>
      by_cases listed : att.id.name ∈ attrs.map (·.name)
      · have kept : defaultAttribute state att = state := by
          rw [defaultAttribute, stored]
          exact if_neg (flag.mpr listed)
        rw [kept, if_pos listed]
        exact ih once.2 identified.2 collects
      · have added : defaultAttribute state att =
            (state.1.setFlag 1 att.id, state.2 ++ [(att.id, value)]) := by
          rw [defaultAttribute, stored]
          exact if_pos (by_contra fun set => listed (flag.mp set))
        have seen : ∀ name, name ∈ (attrs ++ [(⟨att.id.name, value⟩ : Parse.Attr)]).map (·.name) ↔
            name ∈ att.id.name :: attrs.map (·.name) := by
          intro name
          rw [List.map_append, List.mem_append, List.map_singleton, List.mem_singleton, List.mem_cons,
            or_comm]
        have later := ih once.2 identified.2 (collects.add identified.1 value)
        rw [defaults_congr seen, List.append_assoc] at later
        rw [added, if_neg listed]
        exact later

end Collects

theorem Follows.clearFlags {dtd : Dtd} {flagged : List Bytes} {appAtts : AppAtts}
    (follows : dtd.Follows hash mentioned declarations typeNames idNames flagged)
    (listed : ∀ att ∈ appAtts, att.1 ∈ register idNames) (all : flagged ⊆ appAtts.map (·.1.name)) :
    (dtd.clearFlags appAtts).Follows hash mentioned declarations typeNames idNames [] := by
  induction appAtts generalizing dtd flagged with
  | nil =>
    obtain rfl : flagged = [] := List.subset_nil.mp all
    exact follows
  | cons att rest ih =>
    rw [List.forall_mem_cons] at listed
    have cleared : (dtd.setFlag 0 att.1).Follows hash mentioned declarations typeNames idNames
        (flagged.filter fun name => decide (name ≠ att.1.name)) := by
      refine follows.setFlag listed.1 (fun name member => follows.within (List.mem_filter.mp member).1)
        fun other known => ?_
      rw [List.mem_filter, decide_eq_true_eq]
      split
      · rename_i same
        exact iff_of_false (fun member => member.2 same) fun zero => zero rfl
      · rename_i different
        exact and_iff_left different
    refine ih cleared listed.2 fun name member => ?_
    rw [List.mem_filter, decide_eq_true_eq] at member
    exact (List.mem_cons.mp (all member.1)).resolve_left member.2

theorem Follows.storeAtts {dtd : Dtd}
    (follows : dtd.Follows hash mentioned declarations typeNames idNames [])
    {tag : Bytes} (member : tag ∈ mentioned) (tooMany : 2 ^ 59 ≤ mentioned.length → short)
    {allotment : Allotment} (denied : ¬ allotment.Granted → short) {room : Bool}
    (full : room = false → short) {specified : List SpecifiedAttribute}
    (members : ∀ att ∈ specified, att.name ∈ mentioned)
    (refused : ∀ att ∈ specified, ¬ att.Granted → short) :
    Simulates (Excusable short)
      (fun result attrs => attrs = result.2.map (fun att => ⟨att.1.name, att.2⟩) ∧ ∃ types ids,
        result.1.Follows hash mentioned declarations types ids [])
      (dtd.storeAtts hash allotment room tag specified)
      (Declarations.attributeList (declarations tag) specified) := by
  refine (follows.tagType member tooMany denied).bind_ok ?_
  rintro ⟨dtd, type⟩ ⟨rfl, types, listed, follows⟩
  simp only at listed follows ⊢
  split
  · rename_i none
    exact .excused _ ⟨rfl, full none⟩
  have empty : Collects hash mentioned declarations types idNames (dtd.elementType type) type (dtd, []) [] :=
    ⟨follows, rfl, fun _ none => absurd none List.not_mem_nil, rfl⟩
  have collected : Simulates (Excusable short)
      (fun state attrs => ∃ ids,
        Collects hash mentioned declarations types ids (dtd.elementType type) type state attrs)
      (specified.foldlM (Dtd.storeAttribute hash (dtd.elementType type)) (dtd, []))
      (specified.foldlM (Declarations.specify (declarations type.name)) []) := by
    refine Simulates.foldlM specified (fun att held reached attrs collects => ?_) ⟨idNames, empty⟩
    obtain ⟨ids, collects⟩ := collects
    exact collects.storeAttribute listed (members att held) tooMany (refused att held)
  refine collected.bind ?_
  rintro state attrs ⟨ids, collects⟩
  have declared := collects.follows.declared type listed
  rw [collects.element] at declared
  have all := collects.foldl_defaultAttribute declared.once declared.ids
  have same := declared.defaults (attrs.map (·.name))
  rw [ElementType.kept] at same
  rw [same] at all
  refine .ok ⟨all.attrs, types, ids, all.follows.clearFlags all.listed ?_⟩
  rw [all.attrs, List.map_map]
  exact fun _ held => held

theorem follows_init (hash : Bytes → Nat) (mentioned : List Bytes) :
    ({} : Dtd).Follows hash mentioned (fun _ => []) [] [] [] where
  types := ⟨HashTable.represents_init hash, rfl, List.nil_subset _⟩
  ids := ⟨HashTable.represents_init hash, rfl, List.nil_subset _⟩
  declared := fun _ none => absurd none List.not_mem_nil
  undeclared := fun _ _ => rfl
  tokenized := fun _ none => absurd none List.not_mem_nil
  within := List.nil_subset _
  flags := fun _ none => absurd none List.not_mem_nil

end Dtd

namespace Markup

def names : Markup → List Bytes
  | .attlist _ element decls => element :: decls.map (·.name)
  | .startTag _ _ tag specified => tag :: specified.map (·.name)

def Granted : Markup → Prop
  | .attlist allotment _ decls => allotment.Granted ∧ ∀ decl ∈ decls, decl.Granted
  | .startTag allotment room _ specified => allotment.Granted ∧ room = true ∧ ∀ att ∈ specified, att.Granted

/-- Memory is not enough for a document, or, as for `room`, a count would pass `INT_MAX`. -/
def Short (markups : List Markup) : Prop :=
  (∃ markup ∈ markups, ¬ markup.Granted) ∨ 2 ^ 59 ≤ (markups.flatMap names).length

end Markup

/-- An attribute list as the array of its names and values. -/
def attsOfList (attrs : List Parse.Attr) : List Bytes := attrs.flatMap fun attr => [attr.name, attr.value]

/-- Between two start tags no flag is set, and the lists so far are the ones that are meant. -/
structure Delivers (hash : Bytes → Nat) (mentioned : List Bytes) (state : Dtd × List (List Bytes))
    (meaning : Declarations × List (List Parse.Attr)) : Prop where
  follows : ∃ types ids, state.1.Follows hash mentioned meaning.1 types ids []
  lists : state.2 = meaning.2.map attsOfList

theorem Delivers.markup {state : Dtd × List (List Bytes)} {meaning : Declarations × List (List Parse.Attr)}
    (agrees : Delivers hash mentioned state meaning) {markup : Markup} (members : markup.names ⊆ mentioned)
    (tooMany : 2 ^ 59 ≤ mentioned.length → short) (denied : ¬ markup.Granted → short) :
    Simulates (Excusable short) (Delivers hash mentioned) (Dtd.markup hash state markup)
      (Declarations.markup meaning markup) := by
  obtain ⟨types, ids, follows⟩ := agrees.follows
  cases markup with
  | attlist allotment element decls =>
    rw [Markup.names, List.cons_subset] at members
    have named : ∀ decl ∈ decls, decl.name ∈ mentioned := fun decl held =>
      members.2 (List.mem_map_of_mem held)
    refine (follows.attlist members.1 tooMany (fun lacking => denied fun granted => lacking granted.1) named
      fun decl held lacking => denied fun granted => lacking (granted.2 decl held)).bind ?_
    exact fun dtd declarations next => .ok ⟨next, agrees.lists⟩
  | startTag allotment room tag specified =>
    rw [Markup.names, List.cons_subset] at members
    have named : ∀ att ∈ specified, att.name ∈ mentioned := fun att held =>
      members.2 (List.mem_map_of_mem held)
    refine (follows.storeAtts members.1 tooMany (fun lacking => denied fun granted => lacking granted.1)
      (fun none => denied fun granted => Bool.false_ne_true (none.symm.trans granted.2.1)) named
      fun att held lacking => denied fun granted => lacking (granted.2.2 att held)).bind ?_
    rintro ⟨dtd, appAtts⟩ attrs ⟨rfl, next⟩
    refine .ok ⟨next, ?_⟩
    rw [List.map_append, ← agrees.lists, List.map_singleton, attsOfList, List.flatMap_map, attsOf]

theorem attsOfList_wellAttributed {attrs : List Parse.Attr} (distinct : (attrs.map (·.name)).Nodup) :
    Stage.WellAttributed (attsOfList attrs) :=
  Attrs.wellAttributed ⟨attrs, distinct⟩

/-- The arrays that the start tag handler gets are those that are meant, or else memory is not enough;
each of them is one that the handler accepts. -/
theorem startTags_agrees (hash : Bytes → Nat) (markups : List Markup) :
    (startTags hash markups =
        (Declarations.startTags markups >>= fun lists => .ok (lists.map attsOfList)) ∨
      startTags hash markups = .error .noMemory ∧ Markup.Short markups) ∧
    ∀ lists, startTags hash markups = .ok lists → ∀ atts ∈ lists, Stage.WellAttributed atts := by
  have start : Delivers hash (markups.flatMap Markup.names) ({}, []) (fun _ => [], []) :=
    ⟨⟨[], [], Dtd.follows_init hash _⟩, rfl⟩
  have ran : Simulates (Excusable (Markup.Short markups)) (Delivers hash (markups.flatMap Markup.names))
      (markups.foldlM (Dtd.markup hash) ({}, []))
      (markups.foldlM Declarations.markup (fun _ => [], [])) := by
    refine Simulates.foldlM markups (fun markup held state meaning agrees => ?_) start
    refine agrees.markup (fun name member => List.mem_flatMap.mpr ⟨markup, held, member⟩) .inr
      fun lacking => .inl ⟨markup, held, lacking⟩
  have same : Simulates (Excusable (Markup.Short markups))
      (fun value meaning => value = meaning.map attsOfList) (startTags hash markups)
      (Declarations.startTags markups) := ran.bind fun _ _ agrees => .ok agrees.lists
  have either := same.eq_or_excused
  refine ⟨either.imp_right ?_, fun lists returned atts member => ?_⟩
  · rintro ⟨failure, ⟨rfl, short⟩, failed⟩
    exact ⟨failed, short⟩
  · rcases either with agrees | ⟨failure, _, failed⟩
    · rw [returned] at agrees
      obtain ⟨meant, listed, equal⟩ := Outcome.bind_eq_ok.mp agrees.symm
      cases equal
      obtain ⟨attrs, held, rfl⟩ := List.mem_map.mp member
      exact attsOfList_wellAttributed (Declarations.nodup_startTags listed attrs held)
    · rw [returned] at failed
      cases failed

-- the attribute that is declared twice has its first default value, after the specified attribute
example : startTags (fun _ => 0)
    [.attlist {} [1]
        [{ name := [2], value := some (some [7]) }, { name := [2], value := some (some [8]) }],
      .startTag {} true [1] [{ name := [3], value := [9] }]] = .ok [[[3], [9], [2], [7]]] := by decide +kernel

end Xrss.Rss
