import Xrss.Main.Run
import Xrss.Zig.Procedure

/-! Who owns the item lists. The merge moves them from the fetched feed to the output one by
one, and both are freed at the end, also after an error in between. -/

namespace Xrss.Main

open Zig Rss

/-- A channel with the memory of its item list, if the list has any. -/
structure Held where
  channel : Channel
  block : Option Nat

def Held.emptied (self : Held) : Held := ⟨{ self.channel with items := [] }, none⟩

def Held.setItems (items : List Item) (self : Held) : Held :=
  { self with channel := { self.channel with items } }

/-- What the merge works on: `client.parser.data`, `output` and `to_delete`, and how the
allocator is going to answer, as long as it does not always grant. -/
structure MergeMemory where
  fetched : List Held
  output : List Held := []
  toDelete : ArrayList Nat := .empty
  answers : List Bool := []

inductive MemoryError where
  | outOfMemory
  | run (failure : RunError)
  deriving Repr, DecidableEq

def MemoryError.ofMerge (failure : MergeError) : MemoryError := .run (.merge failure)

namespace MergeMemory

/-- The memory that `client.deinit` and `output.deinit` free. -/
def freed (self : MergeMemory) : List Nat :=
  self.fetched.filterMap Held.block ++ self.output.filterMap Held.block

def setItems (index : Nat) (items : List Item) (self : MergeMemory) : MergeMemory :=
  { self with fetched := self.fetched.modify index (.setItems items) }

/-- The channel is copied to the output, with the pointer to its items. -/
def move (index : Nat) (self : MergeMemory) : MergeMemory :=
  { self with
    output := self.output ++ self.fetched[index]?.toList
    fetched := self.fetched.modify index Held.emptied }

/-- What `merge` keeps track of. -/
def state (self : MergeMemory) : MergeState :=
  ⟨self.toDelete, ⟨self.output.map Held.channel⟩⟩

end MergeMemory

abbrev Merging := Procedure MergeMemory MemoryError

/-- A call that may have to allocate. -/
def allocate : Merging Unit := fun memory =>
  match memory.answers with
  | [] => (.ok (), memory)
  | true :: answers => (.ok (), { memory with answers })
  | false :: answers => (.error .outOfMemory, { memory with answers })

def attempt (outcome : Outcome MergeError α) : Merging α :=
  .lift (outcome.mapError .ofMerge)

/-- `try output.channels.append(gpa, channel.*)`, and the source channel gives up its items. -/
def putOut (index : Nat) : Merging Unit := do
  allocate
  .update (.move index)

def compareChannelIn (grow : Growth) (index : Nat) (channel cacheChannel : Channel) : Merging Unit := do
  let cacheBuildDate ← attempt (parseDate .missingBuildDate (cacheChannel.props.get .lastBuildDate))
  let channelBuildDate ← attempt (parseDate .missingBuildDate (channel.props.get .lastBuildDate))
  if cacheBuildDate ≤ channelBuildDate then do
    .update fun memory => { memory with toDelete := memory.toDelete.clearRetainingCapacity }
    allocate
    .update fun memory =>
      { memory with toDelete := memory.toDelete.ensureUnusedCapacity grow channel.items.length }
    let memory ← .read
    let toDelete ← attempt (scanItems channel.items cacheChannel.items memory.toDelete)
    .update fun memory => { memory with toDelete := toDelete.sort }
    let items ← attempt (orderedRemoveMany channel.items toDelete.sort.items)
    .update (.setItems index items)
    putOut index
  else pure ()

def mergeChannelIn (grow : Growth) (index : Nat) (channel : Channel) : List Channel → Merging Unit
  | [] => putOut index
  | cacheChannel :: rest => do
    let title ← attempt (.unwrap (channel.props.get .title))
    let cacheTitle ← attempt (.unwrap (cacheChannel.props.get .title))
    if title = cacheTitle then compareChannelIn grow index channel cacheChannel
    else mergeChannelIn grow index channel rest

def mergeAt (grow : Growth) (cache : Data) (index : Nat) : Merging Unit := do
  let memory ← .read
  match memory.fetched[index]? with
  | some held => mergeChannelIn grow index held.channel cache.channels
  | none => .lift (.panic .outOfBounds)

/-- `merge`, with the fetched channels where they are. -/
def mergeIn (grow : Growth) (cache : Data) : Merging Unit := do
  let memory ← .read
  .each (List.range' 0 memory.fetched.length) (mergeAt grow cache)

/-- `mergeOutput`; without a cache the two lists of channels change places. -/
def mergeOutputIn (grow : Growth) : Option Data → Merging Unit
  | some cache => mergeIn grow cache
  | none => .update fun memory => { memory with fetched := [], output := memory.fetched }

section Freed

variable {grow : Growth} {blocks : List Nat}

theorem filterMap_modify {block : α → Option β} {change : α → α}
    (same : ∀ item, block (change item) = block item) (items : List α) (index : Nat) :
    (items.modify index change).filterMap block = items.filterMap block := by
  induction items generalizing index with
  | nil => rw [List.modify_nil]
  | cons item rest ih =>
    cases index with
    | zero => rw [List.modify_zero_cons, List.filterMap_cons, List.filterMap_cons, same]
    | succ index => rw [List.modify_succ_cons, List.filterMap_cons, List.filterMap_cons, ih]

/-- What is taken out of a list at an index and what is left there. -/
theorem filterMap_modify_perm {block : α → Option β} {change : α → α}
    (taken : ∀ item, block (change item) = none) (items : List α) (index : Nat) :
    ((items.modify index change).filterMap block ++ items[index]?.toList.filterMap block).Perm
      (items.filterMap block) := by
  induction items generalizing index with
  | nil => simp
  | cons item rest ih =>
    cases index with
    | zero =>
      have front : [item].filterMap block ++ rest.filterMap block = (item :: rest).filterMap block := by
        rw [← List.filterMap_append]
        rfl
      rw [List.modify_zero_cons, List.filterMap_cons_none (taken item), ← front]
      exact List.perm_append_comm
    | succ index =>
      rw [List.modify_succ_cons, List.getElem?_cons_succ]
      cases own : block item with
      | none =>
        rw [List.filterMap_cons_none own, List.filterMap_cons_none own]
        exact ih index
      | some value =>
        rw [List.filterMap_cons_some own, List.filterMap_cons_some own]
        exact (ih index).cons value

theorem freed_setItems (index : Nat) (items : List Item) (memory : MergeMemory) :
    (memory.setItems index items).freed = memory.freed := by
  have same (held : Held) : (held.setItems items).block = held.block := rfl
  rw [MergeMemory.freed, MergeMemory.setItems, filterMap_modify same]
  rfl

/-- A block changes hands and is freed all the same. -/
theorem freed_move (index : Nat) (memory : MergeMemory) :
    (memory.move index).freed.Perm memory.freed := by
  have taken : ((memory.fetched.modify index Held.emptied).filterMap Held.block ++
      memory.fetched[index]?.toList.filterMap Held.block).Perm (memory.fetched.filterMap Held.block) :=
    filterMap_modify_perm (fun _ => rfl) _ _
  rw [MergeMemory.freed, MergeMemory.move, List.filterMap_append]
  exact (List.perm_append_comm.append_left _).trans
    ((List.append_assoc _ _ _ ▸ taken.append_right (memory.output.filterMap Held.block)))

/-- The same blocks will be freed. -/
def Frees (blocks : List Nat) (memory : MergeMemory) : Prop := memory.freed.Perm blocks

theorem allocate_keeps : Procedure.Keeps (Frees blocks) allocate := by
  intro memory frees
  unfold allocate
  split
  · exact frees
  · exact frees
  · exact frees

theorem putOut_keeps (index : Nat) : Procedure.Keeps (Frees blocks) (putOut index) :=
  .bind allocate_keeps fun _ => .update fun memory frees => (freed_move index memory).trans frees

theorem compareChannelIn_keeps (index : Nat) (channel cacheChannel : Channel) :
    Procedure.Keeps (Frees blocks) (compareChannelIn grow index channel cacheChannel) := by
  refine .bind (.lift _) fun _ => .bind (.lift _) fun _ => .ite ?_ (.pure _)
  refine .bind (.update fun _ frees => frees) fun _ => .bind allocate_keeps fun _ => ?_
  refine .bind (.update fun _ frees => frees) fun _ => .bind .read fun _ => .bind (.lift _) fun _ => ?_
  refine .bind (.update fun _ frees => frees) fun _ => .bind (.lift _) fun items => ?_
  refine .bind (.update fun memory frees => ?_) fun _ => putOut_keeps index
  rw [Frees, freed_setItems]
  exact frees

theorem mergeChannelIn_keeps (index : Nat) (channel : Channel) (cacheChannels : List Channel) :
    Procedure.Keeps (Frees blocks) (mergeChannelIn grow index channel cacheChannels) := by
  induction cacheChannels with
  | nil => exact putOut_keeps index
  | cons cacheChannel rest ih =>
    exact .bind (.lift _) fun _ => .bind (.lift _) fun _ =>
      .ite (compareChannelIn_keeps index channel cacheChannel) ih

theorem mergeIn_keeps (cache : Data) : Procedure.Keeps (Frees blocks) (mergeIn grow cache) := by
  refine .bind .read fun _ => .each fun index _ => .bind .read fun memory => ?_
  split
  · exact mergeChannelIn_keeps index _ _
  · exact .lift _

end Freed

section Agreement

variable {grow : Growth}

/-- The merge has got as far in memory, and the channels from an index on are as they were. -/
def Reached (memory : MergeMemory) (index : Nat) (state : MergeState) (_ : Unit)
    (reached : MergeMemory) : Prop :=
  reached.state = state ∧ reached.answers = [] ∧ reached.fetched.drop index = memory.fetched.drop index

theorem drop_modify (items : List α) (index : Nat) (change : α → α) :
    (items.modify index change).drop (index + 1) = items.drop (index + 1) := by
  apply List.ext_getElem?
  intro position
  have later : index ≠ index + 1 + position := by omega
  rw [List.getElem?_drop, List.getElem?_drop, List.getElem?_modify_ne _ _ later]

theorem allocate_granted {memory : MergeMemory} (granted : memory.answers = []) :
    allocate memory = (.ok (), memory) := by
  rw [allocate, granted]

theorem putOut_follows {memory memory' : MergeMemory} {index : Nat} {held : Held} {state : MergeState}
    (granted : memory'.answers = []) (there : memory'.fetched[index]? = some held)
    (later : memory'.fetched.drop (index + 1) = memory.fetched.drop (index + 1))
    (appended : memory'.state.append held.channel = state) :
    Procedure.Follows MemoryError.ofMerge (Reached memory (index + 1)) (.ok state)
      (putOut index memory') := by
  have ran : putOut index memory' = (.ok (), memory'.move index) :=
    Procedure.bind_of_ok (allocate_granted granted) _
  rw [ran, ← appended]
  refine .ok ⟨?_, granted, (drop_modify _ _ _).trans later⟩
  simp [MergeMemory.state, MergeMemory.move, MergeState.append, there]

theorem compareChannelIn_follows {memory : MergeMemory} {index : Nat} {held : Held}
    (granted : memory.answers = []) (there : memory.fetched[index]? = some held)
    (cacheChannel : Channel) :
    Procedure.Follows MemoryError.ofMerge (Reached memory (index + 1))
      (compareChannel grow memory.state held.channel cacheChannel)
      (compareChannelIn grow index held.channel cacheChannel memory) := by
  refine .bind (.lift _ _) fun cacheBuildDate _ _ same => ?_
  obtain ⟨rfl, rfl⟩ := same
  refine .bind (.lift _ _) fun channelBuildDate _ _ same => ?_
  obtain ⟨rfl, rfl⟩ := same
  split
  · rw [Procedure.update_bind, Procedure.bind_of_ok (allocate_granted (by exact granted)),
      Procedure.update_bind, Procedure.read_bind]
    refine .bind (.lift _ _) fun toDelete _ _ same => ?_
    obtain ⟨rfl, rfl⟩ := same
    rw [Procedure.update_bind]
    refine .bind (.lift _ _) fun items _ _ same => ?_
    obtain ⟨rfl, rfl⟩ := same
    rw [Procedure.update_bind]
    have kept : (memory.fetched.modify index (.setItems items))[index]? = some (held.setItems items) := by
      rw [List.getElem?_modify_eq, there]
      rfl
    exact putOut_follows granted kept (drop_modify _ _ _) rfl
  · exact .ok ⟨rfl, granted, rfl⟩

theorem mergeChannelIn_follows {memory : MergeMemory} {index : Nat} {held : Held}
    (granted : memory.answers = []) (there : memory.fetched[index]? = some held)
    (cacheChannels : List Channel) :
    Procedure.Follows MemoryError.ofMerge (Reached memory (index + 1))
      (mergeChannel grow memory.state held.channel cacheChannels)
      (mergeChannelIn grow index held.channel cacheChannels memory) := by
  induction cacheChannels with
  | nil => exact putOut_follows granted there rfl rfl
  | cons cacheChannel rest ih =>
    refine .bind (.lift _ _) fun title _ _ same => ?_
    obtain ⟨rfl, rfl⟩ := same
    refine .bind (.lift _ _) fun cacheTitle _ _ same => ?_
    obtain ⟨rfl, rfl⟩ := same
    split
    · exact compareChannelIn_follows granted there cacheChannel
    · exact ih

theorem each_follows {memory : MergeMemory} {index : Nat} {pending : List Held}
    (granted : memory.answers = []) (left : memory.fetched.drop index = pending) (cache : Data) :
    Procedure.Follows MemoryError.ofMerge (fun state _ reached => reached.state = state)
      ((pending.map Held.channel).foldlM
        (fun state channel => mergeChannel grow state channel cache.channels) memory.state)
      (Procedure.each (List.range' index pending.length) (mergeAt grow cache) memory) := by
  induction pending generalizing memory index with
  | nil => exact .ok rfl
  | cons held rest ih =>
    have there : memory.fetched[index]? = some held := by
      rw [← List.head?_drop, left]
      rfl
    have stepped : Procedure.Follows MemoryError.ofMerge (Reached memory (index + 1))
        (mergeChannel grow memory.state held.channel cache.channels) (mergeAt grow cache index memory) := by
      rw [mergeAt, Procedure.read_bind, there]
      exact mergeChannelIn_follows granted there cache.channels
    rw [List.length_cons, List.range'_succ, List.map_cons, List.foldlM_cons]
    refine .bind stepped fun state _ reached same => ?_
    obtain ⟨rfl, answers, later⟩ := same
    have left' : reached.fetched.drop (index + 1) = rest := by
      rw [later, ← List.drop_drop, left]
      rfl
    exact ih answers left'

/-- While the allocator grants, the merge in memory is `merge`. -/
theorem mergeIn_follows (fetched : List Held) (cache : Data) :
    Procedure.Follows MemoryError.ofMerge (fun output _ reached => reached.state.output = output)
      (merge grow ⟨fetched.map Held.channel⟩ cache) (mergeIn grow cache { fetched }) := by
  have started : mergeIn grow cache { fetched } =
      Procedure.each (List.range' 0 fetched.length) (mergeAt grow cache) { fetched } := rfl
  have all : ({ fetched } : MergeMemory).fetched.drop 0 = fetched := rfl
  rw [started]
  exact .map ((each_follows rfl all cache).mono fun _ _ _ same => congrArg MergeState.output same)

end Agreement

/-- Whatever ends the merge, an error, a failed allocation or the last channel: each item list
of the fetched feed is freed once, with the feed or with the output. As long as no allocation
fails the output is that of `mergeOutput`. -/
theorem merge_frees_once (grow : Growth) (fetched : List Held) (cache : Option Data)
    (answers : List Bool) :
    (mergeOutputIn grow cache { fetched, answers }).2.freed.Perm (fetched.filterMap Held.block) ∧
      Procedure.Follows MemoryError.run
        (fun output _ reached => reached.output.map Held.channel = output.channels)
        (mergeOutput grow ⟨fetched.map Held.channel⟩ cache) (mergeOutputIn grow cache { fetched }) := by
  cases cache with
  | none =>
    refine ⟨?_, .ok rfl⟩
    simp [mergeOutputIn, Procedure.update, MergeMemory.freed]
  | some cache =>
    constructor
    · apply mergeIn_keeps cache
      simp [Frees, MergeMemory.freed]
    · exact .mapError ((mergeIn_follows fetched cache).mono fun _ _ _ same => congrArg Data.channels same)

end Xrss.Main
