import Mathlib.Data.List.Sort
import Xrss.Zig.Outcome

namespace Xrss.Zig

/-- How `std.ArrayList` picks a new capacity: at least what was asked for. -/
structure Growth where
  growCapacity : Nat → Nat
  le_growCapacity : ∀ minimum, minimum ≤ growCapacity minimum

/-- Zig 0.16 on a list of `u64`, with cache lines of 128 bytes. -/
def Growth.std : Growth := ⟨fun minimum => minimum + (minimum / 2 + 16), fun _ => Nat.le_add_right _ _⟩

/-- A `std.ArrayList` whose spare capacity matters. -/
structure ArrayList (α : Type) where
  items : List α
  capacity : Nat
  fits : items.length ≤ capacity

namespace ArrayList

variable {α ε : Type}

def empty : ArrayList α := ⟨[], 0, Nat.le_refl 0⟩

def clearRetainingCapacity (self : ArrayList α) : ArrayList α :=
  ⟨[], self.capacity, Nat.zero_le _⟩

def ensureUnusedCapacity (grow : Growth) (self : ArrayList α) (additional : Nat) : ArrayList α :=
  if self.items.length + additional ≤ self.capacity then self
  else
    ⟨self.items, grow.growCapacity (self.items.length + additional),
      Nat.le_trans (Nat.le_add_right _ _) (grow.le_growCapacity _)⟩

/-- Appending without growing asserts that a reserved slot is left. -/
def appendAssumeCapacity (self : ArrayList α) (item : α) : Outcome ε (ArrayList α) :=
  if room : self.items.length < self.capacity then
    .ok ⟨self.items ++ [item], self.capacity, by simpa [Nat.succ_le_iff] using room⟩
  else .panic .assertion

@[simp] theorem items_clear (self : ArrayList α) : self.clearRetainingCapacity.items = [] := rfl

@[simp] theorem items_ensure (grow : Growth) (self : ArrayList α) (additional : Nat) :
    (self.ensureUnusedCapacity grow additional).items = self.items := by
  unfold ensureUnusedCapacity; split <;> rfl

theorem le_capacity_ensure (grow : Growth) (self : ArrayList α) (additional : Nat) :
    self.items.length + additional ≤ (self.ensureUnusedCapacity grow additional).capacity := by
  unfold ensureUnusedCapacity
  split
  · assumption
  · exact grow.le_growCapacity _

/-- `next` is the list after appending `added` without growing. -/
def Extends (self : ArrayList α) (added : List α) (next : ArrayList α) : Prop :=
  next.items = self.items ++ added ∧ next.capacity = self.capacity

@[simp] theorem extends_nil {self next : ArrayList α} : self.Extends [] next ↔ next = self := by
  obtain ⟨items, capacity, fits⟩ := self
  obtain ⟨items', capacity', fits'⟩ := next
  simp [Extends]

theorem extends_append {self next : ArrayList α} {first second : List α} :
    self.Extends (first ++ second) next ↔
      ∃ middle, self.Extends first middle ∧ middle.Extends second next := by
  constructor
  · intro extended
    rcases extended with ⟨items, capacity⟩
    have fits := next.fits
    rw [items, capacity, ← List.append_assoc, List.length_append] at fits
    refine ⟨⟨self.items ++ first, self.capacity, by omega⟩, ⟨rfl, rfl⟩, ?_, capacity⟩
    rw [items, List.append_assoc]
  · intro split
    rcases split with ⟨middle, ⟨items, capacity⟩, items', capacity'⟩
    exact ⟨by rw [items', items, List.append_assoc], by rw [capacity', capacity]⟩

theorem exists_extends {self : ArrayList α} {added : List α} :
    (∃ next, self.Extends added next) ↔ self.items.length + added.length ≤ self.capacity := by
  constructor
  · intro extended
    rcases extended with ⟨next, items, capacity⟩
    simpa [items, capacity] using next.fits
  · intro room
    exact ⟨⟨self.items ++ added, self.capacity, by simpa using room⟩, rfl, rfl⟩

theorem appendAssumeCapacity_eq_ok {self next : ArrayList α} {item : α} :
    (self.appendAssumeCapacity item : Outcome ε (ArrayList α)) = .ok next ↔
      self.Extends [item] next := by
  unfold appendAssumeCapacity Extends
  obtain ⟨items, capacity, fits⟩ := next
  by_cases room : self.items.length < self.capacity
  · simp [room, eq_comm]
  · simp only [room, ↓reduceDIte, reduceCtorEq, false_iff, not_and]
    rintro rfl rfl
    simp only [List.length_append, List.length_singleton] at fits
    exact room fits

/-- A loop of appends succeeds when each step may be taken and the list has
room for everything the steps append. -/
theorem foldlM_extends {step : ArrayList α → ι → Outcome ε (ArrayList α)} {Good : ι → Prop}
    {emit : ι → List α}
    (each : ∀ self input next, step self input = .ok next ↔
      Good input ∧ self.Extends (emit input) next)
    (inputs : List ι) (self next : ArrayList α) :
    inputs.foldlM step self = .ok next ↔
      (∀ input ∈ inputs, Good input) ∧ self.Extends (inputs.flatMap emit) next := by
  induction inputs generalizing self with
  | nil => simp [eq_comm]
  | cons input rest ih =>
    rw [List.foldlM_cons, Outcome.bind_eq_ok, List.flatMap_cons, extends_append, List.forall_mem_cons]
    constructor
    · intro success
      rcases success with ⟨middle, stepped, finished⟩
      obtain ⟨good, first⟩ := (each self input middle).mp stepped
      obtain ⟨later, second⟩ := (ih middle).mp finished
      exact ⟨⟨good, later⟩, middle, first, second⟩
    · intro conditions
      rcases conditions with ⟨⟨good, later⟩, middle, first, second⟩
      exact ⟨middle, (each self input middle).mpr ⟨good, first⟩, (ih middle).mpr ⟨later, second⟩⟩

end ArrayList

/-- `std.mem.sort` with `std.sort.asc`. -/
def sortAsc (list : List Nat) : List Nat := list.insertionSort (· ≤ ·)

/-- Sorting a list in place keeps its capacity. -/
def ArrayList.sort (self : ArrayList Nat) : ArrayList Nat :=
  ⟨sortAsc self.items, self.capacity, by simpa [sortAsc] using self.fits⟩

@[simp] theorem ArrayList.items_sort (self : ArrayList Nat) : self.sort.items = sortAsc self.items :=
  rfl

/-- `orderedRemoveMany`: drop every listed position, duplicates allowed. It
asserts that the positions are sorted and in bounds. -/
def orderedRemoveMany (items : List α) (sortedIndexes : List Nat) : Outcome ε (List α) :=
  if sortedIndexes.Pairwise (· ≤ ·) ∧ ∀ index ∈ sortedIndexes, index < items.length then
    .ok ((items.zipIdx.filter fun entry => !sortedIndexes.contains entry.2).map Prod.fst)
  else .panic .assertion

/-- Sorted in-bounds positions never trip the assertions. -/
theorem orderedRemoveMany_sortAsc (items : List α) (indexes : List Nat)
    (bounded : ∀ index ∈ indexes, index < items.length) :
    (orderedRemoveMany items (sortAsc indexes) : Outcome ε (List α)) =
      .ok ((items.zipIdx.filter fun entry => !indexes.contains entry.2).map Prod.fst) := by
  have sorted : (sortAsc indexes).Pairwise (· ≤ ·) := List.pairwise_insertionSort _ _
  have members (index : Nat) : index ∈ sortAsc indexes ↔ index ∈ indexes :=
    (List.perm_insertionSort _ _).mem_iff
  have same (index : Nat) : (sortAsc indexes).contains index = indexes.contains index := by
    rw [Bool.eq_iff_iff, List.contains_iff_mem, List.contains_iff_mem, members]
  unfold orderedRemoveMany
  rw [if_pos ⟨sorted, fun index member => bounded index ((members index).mp member)⟩]
  simp only [same]

theorem map_fst_filter_zipIdx (items : List α) (start : Nat) (drop : Nat → Bool) (test : α → Bool)
    (agree : ∀ entry ∈ items.zipIdx start, drop entry.2 = test entry.1) :
    ((items.zipIdx start).filter fun entry => !drop entry.2).map Prod.fst =
      items.filter fun item => !test item := by
  induction items generalizing start with
  | nil => rfl
  | cons item rest ih =>
    have first : drop start = test item := agree (item, start) (by simp)
    have later := ih (start + 1) fun entry member => agree entry (by simp [member])
    simp only [List.zipIdx_cons, List.filter_cons, first]
    cases test item <;> simp [later]

end Xrss.Zig
