import Mathlib.Data.List.Basic
import Mathlib.Data.List.Nodup
import Xrss.Zig.Bytes

/-! The names of the open elements in the memory of expat, from `xmlparse.c`: the tags on
`m_tagStack` and `m_freeTagList`, each with a buffer. Memory is always to be had, and no name
comes near `INT_MAX` bytes. -/

namespace Xrss.Rss

open Zig

/-- The blocks of memory that were given back, and the next one to hand out. No block is handed
out twice: what a pointer to it meant is over once it was given back. -/
structure Heap where
  freed : List Nat := []
  next : Nat := 0

namespace Heap

def malloc (self : Heap) : Nat × Heap := (self.next, { self with next := self.next + 1 })

/-- `REALLOC`: the old pointer must not be used any more. -/
def realloc (self : Heap) (block : Nat) : Nat × Heap :=
  (self.next, ⟨block :: self.freed, self.next + 1⟩)

/-- Each block is one of those in use or was given back, and not both. -/
def Accounts (self : Heap) (blocks : List Nat) : Prop :=
  (blocks ++ self.freed).Perm (List.range self.next)

variable {self : Heap} {blocks : List Nat} {block : Nat}

theorem Accounts.perm (accounts : self.Accounts blocks) {blocks' : List Nat}
    (same : blocks'.Perm blocks) : self.Accounts blocks' :=
  (same.append_right _).trans accounts

theorem Accounts.malloc (accounts : self.Accounts blocks) :
    self.malloc.2.Accounts (self.malloc.1 :: blocks) := by
  rw [Accounts, Heap.malloc, List.range_succ]
  exact (accounts.cons self.next).trans (List.perm_append_singleton _ _).symm

theorem Accounts.realloc (accounts : self.Accounts (block :: blocks)) :
    (self.realloc block).2.Accounts ((self.realloc block).1 :: blocks) := by
  rw [Accounts, Heap.realloc, List.range_succ]
  have moved : (blocks ++ block :: self.freed).Perm (List.range self.next) :=
    List.perm_middle.trans accounts
  exact (moved.cons self.next).trans (List.perm_append_singleton _ _).symm

theorem Accounts.not_freed (accounts : self.Accounts blocks) (used : block ∈ blocks) :
    block ∉ self.freed := by
  have distinct : (blocks ++ self.freed).Nodup := accounts.nodup_iff.mpr List.nodup_range
  exact fun freed => List.disjoint_of_nodup_append distinct used freed

end Heap

/-- A `TAG`: its buffer, the length of the name in it, the length of the raw name, which is in
the encoding of the document, and whether that was stored behind the name. -/
structure Tag where
  block : Nat
  capacity : Nat
  allocated : 0 < capacity
  strLen : Nat := 0
  rawNameLength : Nat := 0
  stored : Bool := false

namespace Tag

def INIT_TAG_BUF_SIZE : Nat := 32

def realloc (self : Tag) (bufSize : Nat) (positive : 0 < bufSize) (heap : Heap) : Tag × Heap :=
  ({ self with block := (heap.realloc self.block).1, capacity := bufSize, allocated := positive },
    (heap.realloc self.block).2)

/-- The loop over `XmlConvert`: the buffer is doubled until the name fits, with a zero after it. -/
def convertName (self : Tag) (strLen : Nat) (heap : Heap) : Tag × Heap :=
  if strLen < self.capacity then (self, heap)
  else
    let grown := self.realloc (self.capacity * 2) (Nat.mul_pos self.allocated (by decide)) heap
    grown.1.convertName strLen grown.2
termination_by strLen + 1 - self.capacity
decreasing_by
  have positive := self.allocated
  change strLen + 1 - self.capacity * 2 < strLen + 1 - self.capacity
  omega

/-- What the buffer must hold for the raw name to be stored in it as well. -/
def bufSize (self : Tag) : Nat := self.strLen + 1 + self.rawNameLength

def storeRawName (self : Tag) (heap : Heap) : Tag × Heap :=
  let grown := if self.bufSize > self.capacity then
    self.realloc self.bufSize (Nat.add_pos_left (Nat.succ_pos _) _) heap else (self, heap)
  ({ grown.1 with stored := true }, grown.2)

end Tag

/-- `storeRawNames`: from the innermost tag to the first that is stored. -/
def storeRawNames : List Tag → Heap → List Tag × Heap
  | [], heap => ([], heap)
  | tag :: parent, heap =>
    if tag.stored then (tag :: parent, heap)
    else
      let done := tag.storeRawName heap
      let rest := storeRawNames parent done.2
      (done.1 :: rest.1, rest.2)

structure TagStack where
  tagStack : List Tag := []
  freeTagList : List Tag := []
  heap : Heap := {}

namespace TagStack

/-- The tag that `XML_TOK_START_TAG` takes. -/
def take (self : TagStack) : Tag × TagStack :=
  match self.freeTagList with
  | tag :: rest => (tag, { self with freeTagList := rest })
  | [] =>
    (⟨self.heap.malloc.1, Tag.INIT_TAG_BUF_SIZE, by decide, 0, 0, false⟩,
      { self with heap := self.heap.malloc.2 })

def startTag (self : TagStack) (name : Bytes) (rawNameLength : Nat) : TagStack :=
  let taken := self.take
  let converted := taken.1.convertName name.length taken.2.heap
  { taken.2 with
    tagStack :=
      { converted.1 with strLen := name.length, rawNameLength, stored := false } :: taken.2.tagStack
    heap := converted.2 }

def endTag (self : TagStack) : TagStack :=
  match self.tagStack with
  | tag :: parent => { self with tagStack := parent, freeTagList := tag :: self.freeTagList }
  | [] => self

/-- `contentProcessor` returns: the buffer is parsed, or an entity is to be parsed first. -/
def storeRawNames (self : TagStack) : TagStack :=
  let stored := Rss.storeRawNames self.tagStack self.heap
  { self with tagStack := stored.1, heap := stored.2 }

def tags (self : TagStack) : List Tag := self.tagStack ++ self.freeTagList

end TagStack

/-- The buffer of a tag may have been replaced by a larger one. -/
structure Tag.Grows (before after : Tag × Heap) : Prop where
  accounts : ∀ blocks, before.2.Accounts (before.1.block :: blocks) →
    after.2.Accounts (after.1.block :: blocks)
  freed : before.2.freed ⊆ after.2.freed
  capacity : before.1.capacity ≤ after.1.capacity

namespace Tag.Grows

theorem refl (pair : Tag × Heap) : Grows pair pair :=
  ⟨fun _ accounts => accounts, List.Subset.refl _, Nat.le_refl _⟩

theorem trans {first second third : Tag × Heap} (grows : Grows first second)
    (grows' : Grows second third) : Grows first third where
  accounts blocks accounts := grows'.accounts blocks (grows.accounts blocks accounts)
  freed := List.Subset.trans grows.freed grows'.freed
  capacity := Nat.le_trans grows.capacity grows'.capacity

theorem realloc (tag : Tag) {bufSize : Nat} (positive : 0 < bufSize) (larger : tag.capacity ≤ bufSize)
    (heap : Heap) : Grows (tag, heap) (tag.realloc bufSize positive heap) where
  accounts _ accounts := accounts.realloc
  freed := List.subset_cons_self _ _
  capacity := larger

theorem convertName (tag : Tag) (strLen : Nat) (heap : Heap) :
    Grows (tag, heap) (tag.convertName strLen heap) := by
  fun_induction Tag.convertName tag strLen heap with
  | case1 tag heap fits => exact refl _
  | case2 tag heap full grown ih =>
    exact trans (realloc tag _ (Nat.le_mul_of_pos_right _ (by decide)) heap) ih

theorem storeRawName (tag : Tag) (heap : Heap) : Grows (tag, heap) (tag.storeRawName heap) := by
  unfold Tag.storeRawName
  split
  · rename_i exceeds
    have grown := realloc tag (Nat.add_pos_left (Nat.succ_pos _) _) (Nat.le_of_lt exceeds) heap
    exact ⟨grown.accounts, grown.freed, grown.capacity⟩
  · exact ⟨fun _ accounts => accounts, List.Subset.refl _, Nat.le_refl _⟩

end Tag.Grows

section Stored

theorem storeRawNames_accounts {tags : List Tag} {heap : Heap} {blocks : List Nat}
    (accounts : heap.Accounts (tags.map Tag.block ++ blocks)) :
    (storeRawNames tags heap).2.Accounts ((storeRawNames tags heap).1.map Tag.block ++ blocks) := by
  induction tags generalizing heap blocks with
  | nil => exact accounts
  | cons tag parent ih =>
    rw [storeRawNames]
    split
    · exact accounts
    · have first := (Tag.Grows.storeRawName tag heap).accounts _ accounts
      exact (ih (first.perm List.perm_middle)).perm List.perm_middle.symm

theorem storeRawNames_freed (tags : List Tag) (heap : Heap) :
    heap.freed ⊆ (storeRawNames tags heap).2.freed := by
  induction tags generalizing heap with
  | nil => exact List.Subset.refl _
  | cons tag parent ih =>
    rw [storeRawNames]
    split
    · exact List.Subset.refl _
    · exact List.Subset.trans (Tag.Grows.storeRawName tag heap).freed (ih _)

theorem storeRawNames_capacity {tags : List Tag} {heap : Heap} {least : Nat}
    (sized : ∀ tag ∈ tags, least ≤ tag.capacity) :
    ∀ tag ∈ (storeRawNames tags heap).1, least ≤ tag.capacity := by
  induction tags generalizing heap with
  | nil => exact sized
  | cons tag parent ih =>
    rw [List.forall_mem_cons] at sized
    rw [storeRawNames]
    split
    · exact List.forall_mem_cons.mpr sized
    · exact List.forall_mem_cons.mpr
        ⟨Nat.le_trans sized.1 (Tag.Grows.storeRawName tag heap).capacity, ih sized.2⟩

theorem bufSize_storeRawName (tag : Tag) (heap : Heap) :
    (tag.storeRawName heap).1.bufSize = tag.bufSize := by
  unfold Tag.storeRawName
  split <;> rfl

theorem map_bufSize_storeRawNames (tags : List Tag) (heap : Heap) :
    (storeRawNames tags heap).1.map Tag.bufSize = tags.map Tag.bufSize := by
  induction tags generalizing heap with
  | nil => rfl
  | cons tag parent ih =>
    rw [storeRawNames]
    split
    · rfl
    · rw [List.map_cons, List.map_cons, ih, bufSize_storeRawName]

end Stored

/-- The raw name is not stored yet and has no room in the buffer. -/
def Tag.Outgrows (self : Tag) : Prop := self.stored = false ∧ self.capacity < self.bufSize

namespace TagStack

/-- What holds of the tags at any time. -/
structure Valid (held : TagStack) : Prop where
  accounts : held.heap.Accounts (held.tags.map Tag.block)
  capacity : ∀ tag ∈ held.tags, Tag.INIT_TAG_BUF_SIZE ≤ tag.capacity

theorem valid_new : Valid {} := ⟨List.Perm.refl [], nofun⟩

theorem Valid.take {self : TagStack} (valid : self.Valid) :
    self.take.2.heap.Accounts (self.take.1.block :: self.take.2.tags.map Tag.block) ∧
      Tag.INIT_TAG_BUF_SIZE ≤ self.take.1.capacity ∧
      (∀ tag ∈ self.take.2.tags, Tag.INIT_TAG_BUF_SIZE ≤ tag.capacity) ∧
      self.take.2.heap.freed = self.heap.freed := by
  obtain ⟨accounts, capacity⟩ := valid
  unfold TagStack.take
  split
  · rename_i tag rest free
    have spare : tag ∈ self.tags := by simp [tags, free]
    refine ⟨accounts.perm ?_, capacity tag spare, fun other member => capacity other ?_, rfl⟩
    · simp only [tags, free, List.map_append, List.map_cons]
      exact List.perm_middle.symm
    · simp only [tags, free, List.mem_append, List.mem_cons] at member ⊢
      exact member.imp_right .inr
  · exact ⟨accounts.malloc, Nat.le_refl _, capacity, rfl⟩

theorem Valid.startTag {self : TagStack} (valid : self.Valid) (name : Bytes) (rawNameLength : Nat) :
    (self.startTag name rawNameLength).Valid ∧
      self.heap.freed ⊆ (self.startTag name rawNameLength).heap.freed := by
  obtain ⟨accounts, capacity, others, freed⟩ := valid.take
  have grows := Tag.Grows.convertName self.take.1 name.length self.take.2.heap
  refine ⟨⟨grows.accounts _ accounts, ?_⟩, freed ▸ grows.freed⟩
  exact List.forall_mem_cons.mpr ⟨Nat.le_trans capacity grows.capacity, others⟩

theorem Valid.endTag {self : TagStack} (valid : self.Valid) :
    self.endTag.Valid ∧ self.endTag.heap = self.heap := by
  unfold TagStack.endTag
  split
  · rename_i tag parent stack
    have moved : (parent ++ tag :: self.freeTagList).Perm self.tags := by
      rw [tags, stack]
      exact List.perm_middle
    exact ⟨⟨valid.accounts.perm (moved.map _), fun other member =>
      valid.capacity other (moved.subset member)⟩, rfl⟩
  · exact ⟨valid, rfl⟩

theorem Valid.storeRawNames {self : TagStack} (valid : self.Valid) :
    self.storeRawNames.Valid ∧ self.heap.freed ⊆ self.storeRawNames.heap.freed := by
  refine ⟨⟨?_, ?_⟩, storeRawNames_freed _ _⟩
  · have accounts := valid.accounts
    rw [tags, List.map_append] at accounts ⊢
    exact storeRawNames_accounts accounts
  · intro tag member
    rcases List.mem_append.mp member with opened | free
    · exact storeRawNames_capacity (fun other inside => valid.capacity other (by simp [tags, inside]))
        tag opened
    · exact valid.capacity tag (List.mem_append_right _ free)

theorem tagStack_take (self : TagStack) : self.take.2.tagStack = self.tagStack := by
  unfold TagStack.take
  split <;> rfl

theorem endTag_subset (self : TagStack) : self.endTag.tagStack ⊆ self.tagStack := by
  unfold TagStack.endTag
  split
  · rename_i tag parent stack
    rw [stack]
    exact List.subset_cons_self tag parent
  · exact List.Subset.refl _

theorem bufSize_storeRawNames {self : TagStack} {tag : Tag} (member : tag ∈ self.storeRawNames.tagStack) :
    ∃ before ∈ self.tagStack, before.bufSize = tag.bufSize := by
  have sizes : self.storeRawNames.tagStack.map Tag.bufSize = self.tagStack.map Tag.bufSize :=
    map_bufSize_storeRawNames self.tagStack self.heap
  have size := List.mem_map_of_mem (f := Tag.bufSize) member
  rw [sizes] at size
  exact List.mem_map.mp size

/-- The innermost tag keeps its buffer when raw names are stored, unless it outgrows it. -/
theorem storeRawNames_top {self : TagStack} {tag : Tag} {parent : List Tag}
    (stack : self.tagStack = tag :: parent) :
    ∃ top parent', self.storeRawNames.tagStack = top :: parent' ∧
      (tag.Outgrows → tag.block ∈ self.storeRawNames.heap.freed) ∧
      (¬ tag.Outgrows → top.block = tag.block) := by
  rw [storeRawNames, stack, Rss.storeRawNames]
  by_cases stored : tag.stored = true
  · rw [if_pos stored]
    exact ⟨tag, parent, rfl, fun outgrows => absurd outgrows.1 (by simp [stored]), fun _ => rfl⟩
  · rw [if_neg stored]
    refine ⟨_, _, rfl, fun outgrows => ?_, fun fits => ?_⟩
    · apply storeRawNames_freed
      rw [Tag.storeRawName, if_pos outgrows.2]
      exact List.mem_cons_self
    · have room : ¬ tag.bufSize > tag.capacity := fun exceeds => fits ⟨by simpa using stored, exceeds⟩
      rw [Tag.storeRawName, if_neg room]

end TagStack

end Xrss.Rss
