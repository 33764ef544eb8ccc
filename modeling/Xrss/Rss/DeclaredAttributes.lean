import Mathlib.Data.List.Find
import Mathlib.Data.List.Perm.Subperm
import Xrss.Rss.AttributeLists
import Xrss.Zig.Simulation

/-! What expat keeps of the declarations of attributes: of each attribute of an element the first
declaration counts, whatever the hash values are and as long as there is memory. -/

namespace Xrss.Rss

open Zig Outcome

variable {ρ : Type} {hash : Bytes → Nat} {mentioned typeNames idNames : List Bytes} {short : Prop}

/-- All allocations are granted. -/
def Allotment.Granted (allotment : Allotment) : Prop :=
  allotment.string = true ∧ allotment.grants.vector = true ∧ allotment.grants.entry = true

def AttributeDecl.Granted (decl : AttributeDecl) : Prop :=
  decl.allotment.Granted ∧ decl.room = true ∧ decl.grants.vector = true ∧ decl.grants.entry = true

def SpecifiedAttribute.Granted (att : SpecifiedAttribute) : Prop :=
  att.allotment.Granted ∧ att.room = true

/-- Only a lack of memory is excusable. -/
def Excusable (short : Prop) (failure : AttributeError) : Prop := failure = .noMemory ∧ short

/-- The names in a table are some of those that the document has. -/
structure Records.Represents (hash : Bytes → Nat) (mentioned : List Bytes) (records : Records ρ)
    (names : List Bytes) : Prop where
  table : records.table.Represents hash names
  cells : records.cells.length = names.length
  within : names ⊆ mentioned

namespace HashTable

theorem Represents.nodup {κ : Type} {hash : κ → Nat} {table : HashTable κ} {names : List κ}
    (represents : table.Represents hash names) : names.Nodup := by
  by_cases empty : table.v = []
  · have nobody : names.length = 0 := by rw [← represents.length, empty]; rfl
    rw [List.eq_nil_of_length_eq_zero nobody]
    exact List.nodup_nil
  · have distinct := (represents.laid empty).holds.distinct
    rw [(represents.listed.map _).nodup_iff, map_name_register] at distinct
    exact distinct

/-- Names that are some of those that the document has are no more than these. -/
theorem Represents.tooMany {table : HashTable Bytes} {names : List Bytes}
    (represents : table.Represents hash names) (within : names ⊆ mentioned) (large : 2 ^ 59 ≤ names.length) :
    2 ^ 59 ≤ mentioned.length :=
  large.trans (represents.nodup.subperm within).length_le

end HashTable

namespace Records

variable {records : Records ρ} {names : List Bytes}

/-- The entry of a name, which was there or is new. -/
structure Interned (hash : Bytes → Nat) (mentioned : List Bytes) (zero : ρ) (records : Records ρ)
    (names : List Bytes) (name : Bytes) (result : Records ρ × Named Bytes) (after : List Bytes) : Prop where
  represents : result.1.Represents hash mentioned after
  named : result.2.name = name
  listed : result.2 ∈ register after
  grown : (after = names ∧ result.1.cells = records.cells) ∨
    (name ∉ names ∧ after = names ++ [name] ∧ result.1.cells = records.cells ++ [zero])

theorem Represents.intern (represents : records.Represents hash mentioned names) {name : Bytes}
    (member : name ∈ mentioned) (tooMany : 2 ^ 59 ≤ mentioned.length → short) {allotment : Allotment}
    (denied : ¬ allotment.Granted → short) (zero : ρ) :
    Simulates (Excusable short) (fun result (_ : Unit) => ∃ after,
        Interned hash mentioned zero records names name result after)
      (records.intern hash allotment zero name) (.ok ()) := by
  rw [Records.intern]
  split
  · rename_i string
    exact .excused _ ⟨rfl, denied fun granted => Bool.false_ne_true (string.symm.trans granted.1)⟩
  · obtain ⟨table, entry, after, looked, same, looks⟩ :=
      HashTable.lookup_represents represents.table allotment.grants name true
    rw [looked]
    cases looks with
    | found here =>
      have kept : table.used = records.table.used := same.used.trans represents.table.used.symm
      refine .ok ⟨names, ⟨⟨same, ?_, represents.within⟩, rfl, mem_register.mpr here,
        .inl ⟨rfl, if_pos kept⟩⟩⟩
      simp only [if_pos kept]
      exact represents.cells
    | missing _ only => cases only
    | made absent _ _ =>
      have longer : table.used ≠ records.table.used := by
        rw [same.used, represents.table.used, List.length_append]
        exact Nat.succ_ne_self _
      refine .ok ⟨names ++ [name], ⟨⟨same, ?_, ?_⟩, rfl, mem_register.mpr List.getElem?_concat_length,
        .inr ⟨absent, rfl, if_neg longer⟩⟩⟩
      · simp only [if_neg longer, List.length_append, represents.cells]
        rfl
      · exact List.append_subset.mpr ⟨represents.within, by simpa using member⟩
    | denied _ _ why =>
      refine .excused _ ⟨rfl, ?_⟩
      rcases why with ⟨_, vector⟩ | entry | large
      · exact denied fun granted => Bool.false_ne_true (vector.symm.trans granted.2.1)
      · exact denied fun granted => Bool.false_ne_true (entry.symm.trans granted.2.2)
      · exact tooMany (represents.table.tooMany represents.within large)

theorem Represents.inside (represents : records.Represents hash mentioned names) {entry : Named Bytes}
    (listed : entry ∈ register names) : entry.place < records.cells.length := by
  rw [represents.cells]
  exact (List.getElem?_eq_some_iff.mp (mem_register.mp listed)).1

theorem Interned.isPrefix {zero : ρ} {name : Bytes} {result : Records ρ × Named Bytes} {after : List Bytes}
    (interned : Interned hash mentioned zero records names name result after) : names <+: after := by
  rcases interned.grown with ⟨rfl, _⟩ | ⟨_, rfl, _⟩
  · exact List.prefix_rfl
  · exact List.prefix_append names [name]

/-- Every other entry holds what it held, and a new one holds nothing yet. -/
theorem Interned.cell {zero : ρ} {name : Bytes} {result : Records ρ × Named Bytes} {after : List Bytes}
    (interned : Interned hash mentioned zero records names name result after)
    (represents : records.Represents hash mentioned names) {entry : Named Bytes}
    (listed : entry ∈ register after) :
    (entry ∈ register names ∧ result.1.cells[entry.place]? = records.cells[entry.place]?) ∨
      (entry.name = name ∧ name ∉ names ∧ result.1.cells[entry.place]? = some zero) := by
  rcases interned.grown with ⟨rfl, same⟩ | ⟨absent, rfl, same⟩
  · exact .inl ⟨listed, by rw [same]⟩
  · rw [register_append, List.mem_append, List.mem_singleton] at listed
    rcases listed with old | rfl
    · have inside := (List.getElem?_eq_some_iff.mp (mem_register.mp old)).1
      refine .inl ⟨old, ?_⟩
      rw [same, List.getElem?_append_left (by rw [represents.cells]; exact inside)]
    · refine .inr ⟨rfl, absent, ?_⟩
      rw [same, ← represents.cells]
      exact List.getElem?_concat_length

end Records

theorem name_of_place {names : List Bytes} {entry other : Named Bytes} (listed : entry ∈ register names)
    (otherListed : other ∈ register names) (same : entry.place = other.place) : entry.name = other.name :=
  Option.some.inj ((mem_register.mp listed).symm.trans (same ▸ mem_register.mp otherListed))

theorem register_subset {names after : List Bytes} (longer : names <+: after) :
    register names ⊆ register after :=
  fun _ listed => mem_register.mpr (getElem?_of_isPrefix longer (mem_register.mp listed))

def DefaultAttribute.declared (att : DefaultAttribute) : Declared := ⟨att.id.name, att.isCdata, att.value⟩

/-- What an element type keeps of the declarations. -/
def ElementType.kept (element : ElementType) : List Declared :=
  element.defaultAtts.map DefaultAttribute.declared

/-- An element type has what counts of the declarations for it: of the others with a name that was
declared before it has none with a default value. -/
structure ElementType.Follows (hash : Bytes → Nat) (idNames : List Bytes) (element : ElementType)
    (declared : List Declared) : Prop where
  ids : ∀ att ∈ element.defaultAtts, att.id ∈ register idNames
  names : ∃ names, element.defaultAttsNames.Represents hash names ∧
    ∀ name, name ∈ names ↔ name ∈ element.kept.map (·.name)
  listed : ∀ name, name ∈ element.kept.map (·.name) ↔ name ∈ declared.map (·.name)
  cdata : ∀ name, declaredCdata element.kept name = declaredCdata declared name
  defaults : ∀ seen, defaults seen element.kept = defaults seen declared
  once : element.kept.Pairwise fun first later => later.name = first.name → later.value = none

namespace ElementType.Follows

variable {element : ElementType} {declared : List Declared}

theorem empty (hash : Bytes → Nat) (idNames : List Bytes) : ({} : ElementType).Follows hash idNames [] where
  ids := by simp
  names := ⟨[], HashTable.represents_init hash, fun _ => Iff.rfl⟩
  listed := fun _ => Iff.rfl
  cdata := fun _ => rfl
  defaults := fun _ => rfl
  once := .nil

theorem mono {after : List Bytes} (follows : element.Follows hash idNames declared)
    (longer : idNames <+: after) : element.Follows hash after declared :=
  { follows with ids := fun att member => register_subset longer (follows.ids att member) }

theorem ignore (follows : element.Follows hash idNames declared) {last : Declared}
    (known : last.name ∈ declared.map (·.name)) : element.Follows hash idNames (declared ++ [last]) where
  ids := follows.ids
  names := follows.names
  listed := by
    intro name
    rw [follows.listed, List.map_append, List.mem_append, List.map_singleton, List.mem_singleton]
    constructor
    · exact .inl
    · rintro (before | rfl)
      · exact before
      · exact known
  cdata := by
    intro name
    rw [follows.cdata, declaredCdata_append]
    cases found : declaredCdata declared name with
    | some _ => rfl
    | none =>
      have other : last.name ≠ name := by
        rintro rfl
        exact declaredCdata_eq_none.mp found known
      rw [if_neg other]
      rfl
  defaults := by
    intro seen
    rw [follows.defaults, defaults_append, if_pos (.inr known), List.append_nil]
  once := follows.once

theorem keep (follows : element.Follows hash idNames declared) {attId : Named Bytes} {isCdata : Bool}
    {value : Option Bytes} (listed : attId ∈ register idNames)
    (fresh : value.isSome → attId.name ∉ declared.map (·.name))
    {table : HashTable Bytes} {names : List Bytes} (represents : table.Represents hash names)
    (longer : ∀ name, name ∈ names ↔ name ∈ element.kept.map (·.name) ∨ name = attId.name) :
    ({ defaultAtts := element.defaultAtts ++ [⟨attId, isCdata, value⟩], defaultAttsNames := table } :
        ElementType).Follows hash idNames (declared ++ [⟨attId.name, isCdata, value⟩]) := by
  have kept : ElementType.kept ⟨element.defaultAtts ++ [⟨attId, isCdata, value⟩], table⟩ =
      element.kept ++ [⟨attId.name, isCdata, value⟩] := by
    rw [ElementType.kept, List.map_append]
    rfl
  refine ⟨?_, ⟨names, represents, ?_⟩, ?_, ?_, ?_, ?_⟩
  · rw [List.forall_mem_append, List.forall_mem_singleton]
    exact ⟨follows.ids, listed⟩
  · intro name
    rw [kept, longer, List.map_append, List.mem_append, List.map_singleton, List.mem_singleton]
  · intro name
    rw [kept, List.map_append, List.map_append, List.mem_append, List.mem_append, follows.listed]
  · intro name
    rw [kept, declaredCdata_append, declaredCdata_append, follows.cdata]
  · intro seen
    rw [kept, defaults_append, defaults_append, follows.defaults]
    simp only [follows.listed]
  · rw [kept, List.pairwise_append]
    refine ⟨follows.once, List.pairwise_singleton _ _, fun first member later last same => ?_⟩
    obtain rfl := List.mem_singleton.mp last
    cases value with
    | none => rfl
    | some value =>
      refine absurd ?_ (fresh rfl)
      rw [← follows.listed]
      exact List.mem_map.mpr ⟨first, member, same.symm⟩

end ElementType.Follows

namespace Dtd

variable {dtd : Dtd} {declarations : Declarations} {flagged : List Bytes}

section Updates

theorem getD_modify {cells : List ρ} {place : Nat} (inside : place < cells.length) (change : ρ → ρ)
    (other : Nat) (zero : ρ) : ((cells.modify place change)[other]?).getD zero =
      if place = other then change ((cells[other]?).getD zero) else (cells[other]?).getD zero := by
  rw [List.getElem?_modify]
  split
  · rename_i same
    rw [List.getElem?_eq_getElem (same ▸ inside)]
    rfl
  · rw [Option.map_eq_map, Option.map_id']

theorem attributeId_setFlag {id : Named Bytes} (inside : id.place < dtd.attributeIds.cells.length)
    (flag : Nat) (other : Named Bytes) :
    (dtd.setFlag flag id).attributeId other =
      if id.place = other.place then { dtd.attributeId other with flag } else dtd.attributeId other :=
  getD_modify inside _ _ _

theorem attributeId_setTokenized {id : Named Bytes} (inside : id.place < dtd.attributeIds.cells.length)
    (other : Named Bytes) :
    (dtd.setTokenized id).attributeId other =
      if id.place = other.place then { dtd.attributeId other with maybeTokenized := true }
      else dtd.attributeId other :=
  getD_modify inside _ _ _

theorem elementType_setElementType {type : Named Bytes} (inside : type.place < dtd.elementTypes.cells.length)
    (element : ElementType) (other : Named Bytes) :
    (dtd.setElementType type element).elementType other =
      if type.place = other.place then element else dtd.elementType other := by
  simp only [elementType, setElementType, List.getElem?_set, inside, if_true]
  split <;> rfl

end Updates

/-- What is kept are the declarations, and the flags are set for the attributes with these names. -/
structure Follows (hash : Bytes → Nat) (mentioned : List Bytes) (dtd : Dtd) (declarations : Declarations)
    (typeNames idNames flagged : List Bytes) : Prop where
  types : dtd.elementTypes.Represents hash mentioned typeNames
  ids : dtd.attributeIds.Represents hash mentioned idNames
  declared : ∀ type ∈ register typeNames,
    (dtd.elementType type).Follows hash idNames (declarations type.name)
  undeclared : ∀ name, name ∉ typeNames → declarations name = []
  tokenized : ∀ type ∈ register typeNames, ∀ att ∈ (dtd.elementType type).defaultAtts,
    att.isCdata = false → (dtd.attributeId att.id).maybeTokenized = true
  within : flagged ⊆ idNames
  flags : ∀ id ∈ register idNames, (dtd.attributeId id).flag ≠ 0 ↔ id.name ∈ flagged

namespace Follows

theorem getAttributeId (follows : dtd.Follows hash mentioned declarations typeNames idNames flagged)
    {name : Bytes} (member : name ∈ mentioned) (tooMany : 2 ^ 59 ≤ mentioned.length → short)
    {allotment : Allotment} (denied : ¬ allotment.Granted → short) :
    Simulates (Excusable short) (fun result (_ : Unit) => result.2.name = name ∧
        result.1.elementTypes = dtd.elementTypes ∧ ∃ after, result.2 ∈ register after ∧
        idNames <+: after ∧ result.1.Follows hash mentioned declarations typeNames after flagged)
      (dtd.getAttributeId hash allotment name) (.ok ()) := by
  refine (follows.ids.intern member tooMany denied ({} : AttributeId)).bind_ok ?_
  rintro ⟨attributeIds, entry⟩ ⟨after, interned⟩
  have longer := interned.isPrefix
  have cell : ∀ id ∈ register after,
      (id ∈ register idNames ∧
        ({ dtd with attributeIds } : Dtd).attributeId id = dtd.attributeId id) ∨
      (id.name = name ∧ name ∉ idNames ∧ ({ dtd with attributeIds } : Dtd).attributeId id = {}) := by
    intro id listed
    rcases interned.cell follows.ids listed with ⟨old, same⟩ | ⟨named, fresh, same⟩
    · exact .inl ⟨old, congrArg (·.getD {}) same⟩
    · exact .inr ⟨named, fresh, congrArg (·.getD {}) same⟩
  refine .ok ⟨interned.named, rfl, after, interned.listed, longer, ?_⟩
  refine ⟨follows.types, interned.represents, fun type listed => (follows.declared type listed).mono longer,
    follows.undeclared, fun type listed att held tokens => ?_, fun name listed => ?_, fun id listed => ?_⟩
  · have old := (follows.declared type listed).ids att held
    rcases cell att.id (register_subset longer old) with ⟨_, same⟩ | ⟨named, fresh, _⟩
    · rw [same]
      exact follows.tokenized type listed att held tokens
    · exact absurd (named ▸ List.mem_of_getElem? (mem_register.mp old)) fresh
  · exact longer.subset (follows.within listed)
  · rcases cell id listed with ⟨old, same⟩ | ⟨named, fresh, same⟩
    · rw [same]
      exact follows.flags id old
    · rw [same, named]
      exact iff_of_false (fun flag => flag rfl) fun known => fresh (follows.within known)

/-- The other entries of the table of element types are as they were, and nothing is declared for a
new one. -/
theorem getElementType (follows : dtd.Follows hash mentioned declarations typeNames idNames flagged)
    {name : Bytes} (member : name ∈ mentioned) (tooMany : 2 ^ 59 ≤ mentioned.length → short)
    {allotment : Allotment} (denied : ¬ allotment.Granted → short) :
    Simulates (Excusable short) (fun result (_ : Unit) => result.2.name = name ∧
        ∃ after, result.2 ∈ register after ∧
          result.1.Follows hash mentioned declarations after idNames flagged)
      (dtd.getElementType hash allotment name) (.ok ()) := by
  refine (follows.types.intern member tooMany denied ({} : ElementType)).bind_ok ?_
  rintro ⟨elementTypes, entry⟩ ⟨after, interned⟩
  have cell : ∀ type ∈ register after,
      (type ∈ register typeNames ∧
        ({ dtd with elementTypes } : Dtd).elementType type = dtd.elementType type) ∨
      (type.name = name ∧ name ∉ typeNames ∧ ({ dtd with elementTypes } : Dtd).elementType type = {}) := by
    intro type listed
    rcases interned.cell follows.types listed with ⟨old, same⟩ | ⟨named, fresh, same⟩
    · exact .inl ⟨old, congrArg (·.getD {}) same⟩
    · exact .inr ⟨named, fresh, congrArg (·.getD {}) same⟩
  refine .ok ⟨interned.named, after, interned.listed, interned.represents, follows.ids,
    fun type listed => ?_, fun name missing => ?_, fun type listed att held tokens => ?_, follows.within,
    follows.flags⟩
  · rcases cell type listed with ⟨old, same⟩ | ⟨named, fresh, same⟩
    · rw [same]
      exact follows.declared type old
    · rw [same, named, follows.undeclared name fresh]
      exact .empty hash idNames
  · exact follows.undeclared name fun listed => missing (interned.isPrefix.subset listed)
  · rcases cell type listed with ⟨old, same⟩ | ⟨_, _, same⟩
    · rw [same] at held
      exact follows.tokenized type old att held tokens
    · rw [same] at held
      cases held

/-- An attribute that is declared for an element type has its declarations in a new cell of it. -/
theorem setElementType (follows : dtd.Follows hash mentioned declarations typeNames idNames flagged)
    {type : Named Bytes} (listed : type ∈ register typeNames) {element : ElementType} {last : Declared}
    (declared : element.Follows hash idNames (declarations type.name ++ [last]))
    (tokenized : ∀ att ∈ element.defaultAtts,
      att.isCdata = false → (dtd.attributeId att.id).maybeTokenized = true) :
    (dtd.setElementType type element).Follows hash mentioned (declarations.add type.name last)
      typeNames idNames flagged := by
  have cell := elementType_setElementType (follows.types.inside listed) element
  refine ⟨⟨follows.types.table, ?_, follows.types.within⟩, follows.ids, fun other known => ?_,
    fun name missing => ?_, fun other known att held tokens => ?_, follows.within, follows.flags⟩
  · rw [Dtd.setElementType, List.length_set]
    exact follows.types.cells
  · rw [cell]
    split
    · rename_i same
      rw [← name_of_place listed known same, Declarations.add, Function.update_self]
      exact declared
    · rename_i different
      have otherName : other.name ≠ type.name := fun same =>
        different (congrArg Named.place
          ((register_unique follows.types.table.nodup listed known).mpr same.symm))
      rw [Declarations.add, Function.update_of_ne otherName]
      exact follows.declared other known
  · have otherName : name ≠ type.name := by
      rintro rfl
      exact missing (List.mem_of_getElem? (mem_register.mp listed))
    rw [Declarations.add, Function.update_of_ne otherName]
    exact follows.undeclared name missing
  · rw [cell] at held
    split at held
    · exact tokenized att held tokens
    · exact follows.tokenized other known att held tokens

theorem ignore (follows : dtd.Follows hash mentioned declarations typeNames idNames flagged)
    {type : Named Bytes} (listed : type ∈ register typeNames) {last : Declared}
    (known : last.name ∈ (declarations type.name).map (·.name)) :
    dtd.Follows hash mentioned (declarations.add type.name last) typeNames idNames flagged := by
  have unchanged : dtd.setElementType type (dtd.elementType type) = dtd := by
    have inside := follows.types.inside listed
    simp only [Dtd.setElementType, elementType, List.getElem?_eq_getElem inside, Option.getD_some,
      List.set_getElem_self]
  rw [← unchanged]
  exact follows.setElementType listed ((follows.declared type listed).ignore known)
    (follows.tokenized type listed)

theorem setTokenized (follows : dtd.Follows hash mentioned declarations typeNames idNames flagged)
    {attId : Named Bytes} (listed : attId ∈ register idNames) :
    (dtd.setTokenized attId).Follows hash mentioned declarations typeNames idNames flagged := by
  have cell := attributeId_setTokenized (follows.ids.inside listed)
  refine { follows with
    ids := ⟨follows.ids.table, ?_, follows.ids.within⟩
    tokenized := fun type known att held tokens => ?_
    flags := fun id known => ?_ }
  · rw [Dtd.setTokenized, List.length_modify]
    exact follows.ids.cells
  · rw [cell]
    split
    · rfl
    · exact follows.tokenized type known att held tokens
  · rw [cell]
    split <;> exact follows.flags id known

theorem tokenize (follows : dtd.Follows hash mentioned declarations typeNames idNames flagged)
    {attId : Named Bytes} (listed : attId ∈ register idNames) (isCdata : Bool) :
    (if isCdata then dtd else dtd.setTokenized attId).Follows hash mentioned declarations typeNames idNames
        flagged ∧
      (isCdata = false →
        ((if isCdata then dtd else dtd.setTokenized attId).attributeId attId).maybeTokenized = true) := by
  cases isCdata with
  | true => exact ⟨follows, Bool.noConfusion⟩
  | false =>
    refine ⟨follows.setTokenized listed, fun _ => ?_⟩
    rw [if_neg Bool.false_ne_true, attributeId_setTokenized (follows.ids.inside listed), if_pos rfl]

theorem addDefaultAttribute (follows : dtd.Follows hash mentioned declarations typeNames idNames flagged)
    {type attId : Named Bytes} (listed : type ∈ register typeNames) (identified : attId ∈ register idNames)
    {value : Option Bytes} (fresh : value.isSome → attId.name ∉ (declarations type.name).map (·.name))
    (tooMany : 2 ^ 59 ≤ mentioned.length → short) {room : Bool} (full : room = false → short)
    {grants : Grants} (denied : grants.vector = false ∨ grants.entry = false → short) (isCdata : Bool) :
    Simulates (Excusable short)
      (fun next declarations => next.Follows hash mentioned declarations typeNames idNames flagged)
      (dtd.addDefaultAttribute hash room grants type attId isCdata value)
      (.ok (declarations.add type.name ⟨attId.name, isCdata, value⟩)) := by
  have declared := follows.declared type listed
  obtain ⟨names, represents, kept⟩ := declared.names
  have within : names ⊆ mentioned := by
    intro name member
    obtain ⟨_, declaration, rfl⟩ := List.mem_map.mp ((kept name).mp member)
    obtain ⟨att, held, rfl⟩ := List.mem_map.mp declaration
    exact follows.ids.within (List.mem_of_getElem? (mem_register.mp (declared.ids att held)))
  rw [Dtd.addDefaultAttribute]
  simp only
  split
  · rename_i none
    exact .excused _ ⟨rfl, full none⟩
  obtain ⟨table, entry, after, looked, same, looks⟩ :=
    HashTable.lookup_represents represents grants attId.name true
  rw [looked]
  have tokenized := follows.tokenize identified isCdata
  have added : (∀ name, name ∈ after ↔ name ∈ (dtd.elementType type).kept.map (·.name) ∨ name = attId.name) →
      ((if isCdata then dtd else dtd.setTokenized attId).setElementType type
        ⟨(dtd.elementType type).defaultAtts ++ [⟨attId, isCdata, value⟩], table⟩).Follows hash mentioned
          (declarations.add type.name ⟨attId.name, isCdata, value⟩) typeNames idNames flagged := by
    intro longer
    refine tokenized.1.setElementType listed (declared.keep identified fresh same longer) ?_
    rw [List.forall_mem_append, List.forall_mem_singleton]
    refine ⟨fun att held => tokenized.1.tokenized type listed att ?_, tokenized.2⟩
    cases isCdata <;> exact held
  cases looks with
  | found here =>
    refine .ok (added fun name => ?_)
    rw [← kept]
    exact ⟨.inl, fun known => known.elim id (· ▸ List.mem_of_getElem? here)⟩
  | missing _ only => cases only
  | made _ _ _ =>
    refine .ok (added fun name => ?_)
    rw [List.mem_append, List.mem_singleton, kept]
  | denied _ _ why =>
    refine .excused _ ⟨rfl, ?_⟩
    rcases why with ⟨_, vector⟩ | entry | large
    · exact denied (.inl vector)
    · exact denied (.inr entry)
    · exact tooMany (represents.tooMany within large)

theorem defineAttribute (follows : dtd.Follows hash mentioned declarations typeNames idNames flagged)
    {type attId : Named Bytes} (listed : type ∈ register typeNames) (identified : attId ∈ register idNames)
    (tooMany : 2 ^ 59 ≤ mentioned.length → short) {room : Bool} (full : room = false → short)
    {grants : Grants} (denied : grants.vector = false ∨ grants.entry = false → short) (isCdata isId : Bool)
    (value : Option Bytes) :
    Simulates (Excusable short)
      (fun next declarations => next.Follows hash mentioned declarations typeNames idNames flagged)
      (dtd.defineAttribute hash room grants type attId isCdata isId value)
      (.ok (declarations.add type.name ⟨attId.name, isCdata, value⟩)) := by
  have declared := follows.declared type listed
  obtain ⟨names, represents, kept⟩ := declared.names
  have known : attId.name ∈ names ↔ attId.name ∈ (declarations type.name).map (·.name) :=
    (kept _).trans (declared.listed _)
  rw [Dtd.defineAttribute]
  split
  · obtain ⟨table, entry, after, looked, _, looks⟩ :=
      HashTable.lookup_represents represents {} attId.name false
    rw [looked]
    cases looks with
    | found here => exact .ok (follows.ignore listed (known.mp (List.mem_of_getElem? here)))
    | missing absent _ =>
      exact follows.addDefaultAttribute listed identified (fun _ listed => absent (known.mpr listed)) tooMany
        full denied isCdata
    | made _ only _ => cases only
    | denied _ only _ => cases only
  · rename_i plain
    exact follows.addDefaultAttribute listed identified (fun some => absurd (.inl some) plain) tooMany full
      denied isCdata

theorem attributeDecl (follows : dtd.Follows hash mentioned declarations typeNames idNames flagged)
    {type : Named Bytes} (listed : type ∈ register typeNames) {decl : AttributeDecl}
    (member : decl.name ∈ mentioned) (tooMany : 2 ^ 59 ≤ mentioned.length → short)
    (denied : ¬ decl.Granted → short) :
    Simulates (Excusable short)
      (fun next declarations => ∃ after, next.Follows hash mentioned declarations typeNames after flagged)
      (dtd.attributeDecl hash type decl) (declarations.declare type.name decl) := by
  have full : decl.room = false → short := fun none =>
    denied fun granted => Bool.false_ne_true (none.symm.trans granted.2.1)
  have refused : decl.grants.vector = false ∨ decl.grants.entry = false → short := by
    rintro (vector | entry)
    · exact denied fun granted => Bool.false_ne_true (vector.symm.trans granted.2.2.1)
    · exact denied fun granted => Bool.false_ne_true (entry.symm.trans granted.2.2.2)
  refine (follows.getAttributeId member tooMany
    fun lacking => denied fun granted => lacking granted.1).bind_ok ?_
  rintro ⟨dtd, attId⟩ ⟨named, _, after, identified, _, follows⟩
  simp only at named
  rw [Declarations.declare, ← named]
  simp only
  split
  · exact .ok ⟨after, follows⟩
  · cases decl.value with
    | none =>
      exact (follows.defineAttribute listed identified tooMany full refused decl.isCdata decl.isId none).mono
        fun _ _ next => ⟨after, next⟩
    | some stored =>
      cases stored with
      | none => exact .error _
      | some value =>
        exact (follows.defineAttribute listed identified tooMany full refused decl.isCdata false
          (some value)).mono fun _ _ next => ⟨after, next⟩

theorem attlist (follows : dtd.Follows hash mentioned declarations typeNames idNames flagged)
    {element : Bytes} (member : element ∈ mentioned) (tooMany : 2 ^ 59 ≤ mentioned.length → short)
    {allotment : Allotment} (denied : ¬ allotment.Granted → short) {decls : List AttributeDecl}
    (members : ∀ decl ∈ decls, decl.name ∈ mentioned) (refused : ∀ decl ∈ decls, ¬ decl.Granted → short) :
    Simulates (Excusable short)
      (fun next declarations => ∃ typeNames after,
        next.Follows hash mentioned declarations typeNames after flagged)
      (dtd.attlist hash allotment element decls)
      (decls.foldlM (Declarations.declare element) declarations) := by
  refine (follows.getElementType member tooMany denied).bind_ok ?_
  rintro ⟨dtd, type⟩ ⟨rfl, types, listed, follows⟩
  refine (Simulates.foldlM decls (fun decl held reached declarations follows => ?_)
    (⟨idNames, follows⟩ : ∃ after, dtd.Follows hash mentioned declarations types after flagged)).mono
      fun _ _ next => ⟨types, next⟩
  obtain ⟨names, follows⟩ := follows
  exact follows.attributeDecl listed (members decl held) tooMany (refused decl held)

theorem tagType (follows : dtd.Follows hash mentioned declarations typeNames idNames flagged)
    {tag : Bytes} (member : tag ∈ mentioned) (tooMany : 2 ^ 59 ≤ mentioned.length → short)
    {allotment : Allotment} (denied : ¬ allotment.Granted → short) :
    Simulates (Excusable short) (fun result (_ : Unit) => result.2.name = tag ∧
        ∃ after, result.2 ∈ register after ∧
          result.1.Follows hash mentioned declarations after idNames flagged)
      (dtd.tagType hash allotment tag) (.ok ()) := by
  obtain ⟨table, entry, after, looked, _, looks⟩ :=
    HashTable.lookup_represents follows.types.table {} tag false
  rw [Dtd.tagType, looked]
  cases looks with
  | found here => exact .ok ⟨rfl, typeNames, mem_register.mpr here, follows⟩
  | missing _ _ => exact follows.getElementType member tooMany denied
  | made _ only _ => cases only
  | denied _ only _ => cases only

/-- The declarations that an element type keeps tell which values are character data. -/
theorem isCdata (follows : dtd.Follows hash mentioned declarations typeNames idNames flagged)
    {type attId : Named Bytes} (listed : type ∈ register typeNames) (identified : attId ∈ register idNames) :
    dtd.isCdata (dtd.elementType type) attId =
      (declaredCdata (declarations type.name) attId.name).getD true := by
  have declared := follows.declared type listed
  have found : declaredCdata (dtd.elementType type).kept attId.name =
      ((dtd.elementType type).defaultAtts.find? fun att => decide (attId = att.id)).map (·.isCdata) := by
    have same : ∀ att ∈ (dtd.elementType type).defaultAtts,
        decide (att.declared.name = attId.name) = decide (attId = att.id) := by
      intro att held
      rw [decide_eq_decide, eq_comm (a := attId),
        register_unique follows.ids.table.nodup (declared.ids att held) identified]
      rfl
    rw [declaredCdata, ElementType.kept, List.find?_map, ← List.find?_congr same, Option.map_map]
    rfl
  rw [← declared.cdata, found, Dtd.isCdata]
  split
  · rfl
  · rename_i plain
    cases first : (dtd.elementType type).defaultAtts.find? fun att => decide (attId = att.id) with
    | none => rfl
    | some att =>
      have held := List.mem_of_find?_eq_some first
      have same : attId = att.id := by simpa using List.find?_some first
      cases characters : att.isCdata with
      | true => exact characters.symm
      | false => exact absurd (same ▸ follows.tokenized type listed att held characters) plain

theorem setFlag (follows : dtd.Follows hash mentioned declarations typeNames idNames flagged)
    {id : Named Bytes} (identified : id ∈ register idNames) {flag : Nat} {after : List Bytes}
    (within : after ⊆ idNames)
    (written : ∀ other ∈ register idNames, other.name ∈ after ↔
      if other.name = id.name then flag ≠ 0 else other.name ∈ flagged) :
    (dtd.setFlag flag id).Follows hash mentioned declarations typeNames idNames after := by
  have cell := attributeId_setFlag (follows.ids.inside identified) flag
  refine { follows with
    ids := ⟨follows.ids.table, ?_, follows.ids.within⟩
    tokenized := fun type known att held tokens => ?_
    within
    flags := fun other known => ?_ }
  · rw [Dtd.setFlag, List.length_modify]
    exact follows.ids.cells
  · rw [cell]
    split <;> exact follows.tokenized type known att held tokens
  · rw [cell, written other known]
    by_cases same : other.name = id.name
    · rw [(register_unique follows.ids.table.nodup known identified).mpr same, if_pos rfl, if_pos rfl]
    · rw [if_neg fun place => same (name_of_place identified known place).symm, if_neg same]
      exact follows.flags other known

end Follows

end Dtd

end Xrss.Rss
