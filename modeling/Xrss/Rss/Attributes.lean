import Xrss.Rss.NameTable
import Xrss.Zig.Bytes
import Xrss.Zig.Outcome

/-! The attribute lists that expat makes for start tags. The names of attributes and elements are
kept in hash tables, with what the document type declaration says of them; a flag in front of the
name of an attribute tells whether the list has the attribute already. Without namespaces. -/

namespace Xrss.Rss

open Zig

variable {ρ : Type}

/-- Why a declaration or a start tag is refused; `endless` stands for a search in a hash table that
never ends. -/
inductive AttributeError where
  | noMemory
  | duplicateAttribute
  | invalidValue
  | endless
  deriving Repr, DecidableEq

/-- How the allocations for a name will be answered. -/
structure Allotment where
  string : Bool := true
  grants : Grants := {}
  deriving Repr, DecidableEq

/-- A hash table, and by place what its entries hold besides their names. -/
structure Records (ρ : Type) where
  table : HashTable Bytes := {}
  cells : List ρ := []

/-- `poolStoreString`, and `lookup` for an entry that is made when there is none. -/
def Records.intern (hash : Bytes → Nat) (allotment : Allotment) (zero : ρ) (records : Records ρ)
    (name : Bytes) : Outcome AttributeError (Records ρ × Named Bytes) :=
  if allotment.string = false then .error .noMemory
  else
    match records.table.lookup hash allotment.grants name true with
    | none => .error .endless
    | some (_, none) => .error .noMemory
    | some (table, some entry) =>
      let cells := if table.used = records.table.used then records.cells else records.cells ++ [zero]
      .ok ({ table, cells }, entry)

/-- `flag` is `name[-1]`. -/
structure AttributeId where
  flag : Nat := 0
  maybeTokenized : Bool := false
  deriving Repr, DecidableEq

structure DefaultAttribute where
  id : Named Bytes
  isCdata : Bool
  value : Option Bytes
  deriving Repr, DecidableEq

structure ElementType where
  defaultAtts : List DefaultAttribute := []
  defaultAttsNames : HashTable Bytes := {}
  deriving Repr, DecidableEq

structure Dtd where
  elementTypes : Records ElementType := {}
  attributeIds : Records AttributeId := {}

/-- An attribute as its declaration has it. `value` is its default value, as `storeAttributeValue`
stores it: `some none` when that fails. -/
structure AttributeDecl where
  name : Bytes
  isCdata : Bool := true
  isId : Bool := false
  value : Option (Option Bytes) := none
  keepProcessing : Bool := true
  allotment : Allotment := {}
  room : Bool := true
  grants : Grants := {}

/-- An attribute as its start tag has it. `stored` is what `storeAttributeValue` makes of its value,
as character data or as tokens: `none` when that fails. -/
structure SpecifiedAttribute where
  name : Bytes
  value : Bytes
  normalized : Bool := true
  stored : Bool → Option Bytes := fun _ => some value
  allotment : Allotment := {}
  room : Bool := true

namespace Dtd

variable (hash : Bytes → Nat)

def getElementType (allotment : Allotment) (dtd : Dtd) (name : Bytes) :
    Outcome AttributeError (Dtd × Named Bytes) := do
  let (elementTypes, entry) ← dtd.elementTypes.intern hash allotment {} name
  .ok ({ dtd with elementTypes }, entry)

def getAttributeId (allotment : Allotment) (dtd : Dtd) (name : Bytes) :
    Outcome AttributeError (Dtd × Named Bytes) := do
  let (attributeIds, entry) ← dtd.attributeIds.intern hash allotment {} name
  .ok ({ dtd with attributeIds }, entry)

def elementType (dtd : Dtd) (type : Named Bytes) : ElementType :=
  (dtd.elementTypes.cells[type.place]?).getD {}

def attributeId (dtd : Dtd) (id : Named Bytes) : AttributeId :=
  (dtd.attributeIds.cells[id.place]?).getD {}

def setElementType (dtd : Dtd) (type : Named Bytes) (element : ElementType) : Dtd :=
  { dtd with elementTypes.cells := dtd.elementTypes.cells.set type.place element }

def setFlag (flag : Nat) (dtd : Dtd) (id : Named Bytes) : Dtd :=
  { dtd with attributeIds.cells := dtd.attributeIds.cells.modify id.place ({ · with flag }) }

def setTokenized (dtd : Dtd) (id : Named Bytes) : Dtd :=
  { dtd with attributeIds.cells :=
      dtd.attributeIds.cells.modify id.place ({ · with maybeTokenized := true }) }

/-- The part of `defineAttribute` that adds the attribute to the list of the element type. There is
no `room` in a full list that cannot grow, for want of memory or because of `INT_MAX`. -/
def addDefaultAttribute (room : Bool) (grants : Grants) (dtd : Dtd) (type attId : Named Bytes)
    (isCdata : Bool) (value : Option Bytes) : Outcome AttributeError Dtd :=
  let element := dtd.elementType type
  if room = false then .error .noMemory
  else
    match element.defaultAttsNames.lookup hash grants attId.name true with
    | none => .error .endless
    | some (_, none) => .error .noMemory
    | some (defaultAttsNames, some _) =>
      let defaultAtts := element.defaultAtts ++ [⟨attId, isCdata, value⟩]
      .ok ((if isCdata then dtd else dtd.setTokenized attId).setElementType type
        { defaultAtts, defaultAttsNames })

def defineAttribute (room : Bool) (grants : Grants) (dtd : Dtd) (type attId : Named Bytes)
    (isCdata isId : Bool) (value : Option Bytes) : Outcome AttributeError Dtd :=
  if value.isSome ∨ isId then
    match (dtd.elementType type).defaultAttsNames.lookup hash {} attId.name false with
    | none => .error .endless
    | some (_, some _) => .ok dtd
    | some (_, none) => dtd.addDefaultAttribute hash room grants type attId isCdata value
  else dtd.addDefaultAttribute hash room grants type attId isCdata value

/-- What `doProlog` does at the name and at the default value of a declared attribute. An attribute
with a default value is not taken for an identifier. -/
def attributeDecl (type : Named Bytes) (dtd : Dtd) (decl : AttributeDecl) : Outcome AttributeError Dtd := do
  let (dtd, attId) ← dtd.getAttributeId hash decl.allotment decl.name
  if decl.keepProcessing = false then .ok dtd
  else
    match decl.value with
    | none => dtd.defineAttribute hash decl.room decl.grants type attId decl.isCdata decl.isId none
    | some none => .error .invalidValue
    | some (some value) =>
      dtd.defineAttribute hash decl.room decl.grants type attId decl.isCdata false (some value)

def attlist (allotment : Allotment) (dtd : Dtd) (element : Bytes) (decls : List AttributeDecl) :
    Outcome AttributeError Dtd := do
  let (dtd, type) ← dtd.getElementType hash allotment element
  decls.foldlM (attributeDecl hash type) dtd

/-- The element type of a start tag, which is made if it is not declared. -/
def tagType (allotment : Allotment) (dtd : Dtd) (tag : Bytes) : Outcome AttributeError (Dtd × Named Bytes) :=
  match dtd.elementTypes.table.lookup hash {} tag false with
  | none => .error .endless
  | some (_, some entry) => .ok (dtd, entry)
  | some (_, none) => dtd.getElementType hash allotment tag

/-- The names and values that are in `appAtts` so far. -/
abbrev AppAtts := List (Named Bytes × Bytes)

/-- An attribute whose value may be something else than character data is looked for in the list of
its element type. -/
def isCdata (dtd : Dtd) (element : ElementType) (attId : Named Bytes) : Bool :=
  if (dtd.attributeId attId).maybeTokenized then
    ((element.defaultAtts.find? fun att => decide (attId = att.id)).map (·.isCdata)).getD true
  else true

/-- An attribute of the start tag. -/
def storeAttribute (element : ElementType) (state : Dtd × AppAtts) (att : SpecifiedAttribute) :
    Outcome AttributeError (Dtd × AppAtts) := do
  let (dtd, attId) ← state.1.getAttributeId hash att.allotment att.name
  if (dtd.attributeId attId).flag ≠ 0 then .error .duplicateAttribute
  else
    let dtd := dtd.setFlag 1 attId
    if att.normalized = false then
      match att.stored (dtd.isCdata element attId) with
      | none => .error .invalidValue
      | some value => .ok (dtd, state.2 ++ [(attId, value)])
    else if att.room = false then .error .noMemory
    else .ok (dtd, state.2 ++ [(attId, att.value)])

/-- A default value, for an attribute that the list does not have. -/
def defaultAttribute (state : Dtd × AppAtts) (da : DefaultAttribute) : Dtd × AppAtts :=
  match da.value with
  | none => state
  | some value =>
    if (state.1.attributeId da.id).flag = 0 then (state.1.setFlag 1 da.id, state.2 ++ [(da.id, value)])
    else state

def clearFlags (dtd : Dtd) (appAtts : AppAtts) : Dtd :=
  appAtts.foldl (fun dtd att => dtd.setFlag 0 att.1) dtd

/-- `room` tells whether `m_atts` has, or gets, room for all attributes: their number is checked
against `INT_MAX` before `realloc` is asked. -/
def storeAtts (allotment : Allotment) (room : Bool) (dtd : Dtd) (tag : Bytes)
    (specified : List SpecifiedAttribute) : Outcome AttributeError (Dtd × AppAtts) := do
  let (dtd, type) ← dtd.tagType hash allotment tag
  let element := dtd.elementType type
  if room = false then .error .noMemory
  else
    let state ← specified.foldlM (storeAttribute hash element) (dtd, [])
    let (dtd, appAtts) := element.defaultAtts.foldl defaultAttribute state
    .ok (dtd.clearFlags appAtts, appAtts)

end Dtd

/-- The null-terminated array that the start tag handler gets. -/
def attsOf (appAtts : Dtd.AppAtts) : List Bytes := appAtts.flatMap fun att => [att.1.name, att.2]

/-- What a document has to say about attributes. -/
inductive Markup where
  | attlist (allotment : Allotment) (element : Bytes) (decls : List AttributeDecl)
  | startTag (allotment : Allotment) (room : Bool) (tag : Bytes) (specified : List SpecifiedAttribute)

/-- The next declaration or start tag, with the arrays that the handler has got. -/
def Dtd.markup (hash : Bytes → Nat) (state : Dtd × List (List Bytes)) :
    Markup → Outcome AttributeError (Dtd × List (List Bytes))
  | .attlist allotment element decls => do
    let dtd ← state.1.attlist hash allotment element decls
    .ok (dtd, state.2)
  | .startTag allotment room tag specified => do
    let (dtd, appAtts) ← state.1.storeAtts hash allotment room tag specified
    .ok (dtd, state.2 ++ [attsOf appAtts])

/-- The arrays that the start tag handler gets in the course of a document. -/
def startTags (hash : Bytes → Nat) (markups : List Markup) : Outcome AttributeError (List (List Bytes)) := do
  let last ← markups.foldlM (Dtd.markup hash) ({}, [])
  .ok last.2

end Xrss.Rss
