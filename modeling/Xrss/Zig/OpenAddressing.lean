import Mathlib.Data.List.ReduceOption
import Mathlib.Data.Nat.Find
import Mathlib.Data.Nat.ModEq
import Mathlib.Logic.Function.Iterate

/-! Hash tables with open addressing, over any entries with keys and any order in which the slots
are looked at for a key, as long as it comes to every slot. -/

namespace Xrss.Zig

variable {α κ : Type}

section Slots

/-- What a slot holds. -/
def entryAt (slots : List (Option α)) (slot : Nat) : Option α := slots[slot]?.join

/-- The entries of a table, in the order of their slots. -/
def entries (slots : List (Option α)) : List α := slots.reduceOption

@[simp] theorem entries_cons_none (slots : List (Option α)) : entries (none :: slots) = entries slots :=
  List.reduceOption_cons_of_none slots

@[simp] theorem entries_cons_some (entry : α) (slots : List (Option α)) :
    entries (some entry :: slots) = entry :: entries slots := List.reduceOption_cons_of_some entry slots

@[simp] theorem entries_replicate_none (size : Nat) : entries (List.replicate size (none : Option α)) = [] :=
  List.reduceOption_replicate_none

@[simp] theorem entryAt_replicate (size slot : Nat) :
    entryAt (List.replicate size (none : Option α)) slot = none := by
  rw [entryAt, List.getElem?_replicate]
  split <;> rfl

theorem entryAt_set {slots : List (Option α)} {slot : Nat} (inside : slot < slots.length)
    (entry : Option α) (other : Nat) :
    entryAt (slots.set slot entry) other = if slot = other then entry else entryAt slots other := by
  simp only [entryAt, List.getElem?_set, inside, if_true]
  split <;> rfl

theorem mem_entries_of_entryAt {slots : List (Option α)} {slot : Nat} {entry : α}
    (here : entryAt slots slot = some entry) : entry ∈ entries slots :=
  List.reduceOption_mem_iff.mpr (List.mem_of_getElem? (Option.join_eq_some_iff.mp here))

theorem exists_entryAt {slots : List (Option α)} {entry : α} (member : entry ∈ entries slots) :
    ∃ slot, entryAt slots slot = some entry := by
  obtain ⟨slot, here⟩ := List.getElem?_of_mem (List.reduceOption_mem_iff.mp member)
  exact ⟨slot, Option.join_eq_some_iff.mpr here⟩

theorem exists_free {slots : List (Option α)} (room : (entries slots).length < slots.length) :
    ∃ slot < slots.length, entryAt slots slot = none := by
  induction slots with
  | nil => simp at room
  | cons slot rest ih =>
    cases slot with
    | none => exact ⟨0, Nat.zero_lt_succ _, rfl⟩
    | some entry =>
      rw [entries_cons_some, List.length_cons, List.length_cons] at room
      obtain ⟨free, inside, empty⟩ := ih (Nat.lt_of_succ_lt_succ room)
      exact ⟨free + 1, Nat.succ_lt_succ inside, empty⟩

theorem entries_set {slots : List (Option α)} {slot : Nat} (inside : slot < slots.length)
    (free : entryAt slots slot = none) (entry : α) :
    (entries (slots.set slot (some entry))).Perm (entry :: entries slots) := by
  induction slots generalizing slot with
  | nil => simp at inside
  | cons first rest ih =>
    cases slot with
    | zero =>
      obtain rfl : first = none := by simpa [entryAt] using free
      rw [List.set_cons_zero, entries_cons_some, entries_cons_none]
    | succ slot =>
      have later := ih (Nat.lt_of_succ_lt_succ inside) free
      rw [List.set_cons_succ]
      cases first with
      | none => simpa only [entries_cons_none] using later
      | some other =>
        rw [entries_cons_some, entries_cons_some]
        exact (later.cons other).trans (.swap entry other _)

theorem slot_unique {key : α → κ} {slots : List (Option α)}
    (distinct : ((entries slots).map key).Nodup) {slot other : Nat} {first second : α}
    (here : entryAt slots slot = some first) (there : entryAt slots other = some second)
    (same : key first = key second) : slot = other := by
  induction slots generalizing slot other with
  | nil => simp [entryAt] at here
  | cons head rest ih =>
    cases head with
    | none =>
      cases slot with
      | zero => simp [entryAt] at here
      | succ slot =>
        cases other with
        | zero => simp [entryAt] at there
        | succ other => exact congrArg _ (ih (by simpa using distinct) here there)
    | some entry =>
      rw [entries_cons_some, List.map_cons, List.nodup_cons] at distinct
      have fresh : ∀ {later : Nat} {named : α}, entryAt rest later = some named → key entry ≠ key named :=
        fun found equal => distinct.1 (equal ▸ List.mem_map_of_mem (mem_entries_of_entryAt found))
      cases slot with
      | zero =>
        obtain rfl : entry = first := by simpa [entryAt] using here
        cases other with
        | zero => rfl
        | succ other => exact absurd same (fresh there)
      | succ slot =>
        cases other with
        | zero =>
          obtain rfl : entry = second := by simpa [entryAt] using there
          exact absurd same.symm (fresh here)
        | succ other => exact congrArg _ (ih distinct.2 here there)

end Slots

section Scan

variable {slots : List (Option α)} {found : α → Bool} {next : Nat → Nat}

/-- Go from slot to slot until one is free or holds what is looked for; `none` when neither comes
within so many slots. -/
def scan (slots : List (Option α)) (found : α → Bool) (next : Nat → Nat) : Nat → Nat → Option Nat
  | 0, _ => none
  | fuel + 1, slot =>
    match entryAt slots slot with
    | none => some slot
    | some entry => if found entry then some slot else scan slots found next fuel (next slot)

def Stops (slots : List (Option α)) (found : α → Bool) (slot : Nat) : Prop :=
  ∀ entry, entryAt slots slot = some entry → found entry

theorem scan_of_stops {fuel slot : Nat} (stops : Stops slots found slot) :
    scan slots found next (fuel + 1) slot = some slot := by
  rw [scan]
  cases here : entryAt slots slot with
  | none => rfl
  | some entry => exact if_pos (stops entry here)

theorem exists_of_passes {slot : Nat} (passes : ¬ Stops slots found slot) :
    ∃ entry, entryAt slots slot = some entry ∧ found entry = false := by
  simpa only [Stops, not_forall, exists_prop, Bool.not_eq_true] using passes

theorem scan_of_passes {fuel slot : Nat} (passes : ¬ Stops slots found slot) :
    scan slots found next (fuel + 1) slot = scan slots found next fuel (next slot) := by
  obtain ⟨entry, here, misses⟩ := exists_of_passes passes
  rw [scan, here]
  exact if_neg (ne_true_of_eq_false misses)

/-- The search ends at the first slot that ends it. -/
theorem scan_eq_some {count fuel slot : Nat} (enough : count < fuel)
    (stops : Stops slots found (next^[count] slot))
    (passes : ∀ earlier < count, ¬ Stops slots found (next^[earlier] slot)) :
    scan slots found next fuel slot = some (next^[count] slot) := by
  induction count generalizing fuel slot with
  | zero =>
    obtain ⟨fuel, rfl⟩ : ∃ less, fuel = less + 1 := ⟨fuel - 1, by omega⟩
    exact scan_of_stops stops
  | succ count ih =>
    obtain ⟨fuel, rfl⟩ : ∃ less, fuel = less + 1 := ⟨fuel - 1, by omega⟩
    have first := passes 0 (Nat.zero_lt_succ _)
    rw [Function.iterate_zero_apply] at first
    rw [scan_of_passes first, Function.iterate_succ_apply]
    apply ih (Nat.lt_of_succ_lt_succ enough)
    · rwa [← Function.iterate_succ_apply]
    · intro earlier before
      rw [← Function.iterate_succ_apply]
      exact passes (earlier + 1) (Nat.succ_lt_succ before)

/-- A search that some slot within reach ends, ends at the first such slot. -/
theorem exists_scan {fuel slot : Nat} (ends : ∃ count < fuel, Stops slots found (next^[count] slot)) :
    ∃ count < fuel, scan slots found next fuel slot = some (next^[count] slot) ∧
      Stops slots found (next^[count] slot) ∧
      ∀ earlier < count, ¬ Stops slots found (next^[earlier] slot) := by
  classical
  obtain ⟨count, enough, stops⟩ := ends
  have some_count : ∃ count, Stops slots found (next^[count] slot) := ⟨count, stops⟩
  have within := Nat.lt_of_le_of_lt (Nat.find_min' some_count stops) enough
  have first := Nat.find_spec some_count
  have least : ∀ earlier < Nat.find some_count, ¬ Stops slots found (next^[earlier] slot) :=
    fun earlier before => Nat.find_min some_count before
  exact ⟨Nat.find some_count, within, scan_eq_some within first least, first, least⟩

end Scan

/-- The slots that are looked at for each key. -/
structure Probing (κ : Type) where
  size : Nat
  start : κ → Nat
  next : κ → Nat → Nat
  inside : ∀ key count, (next key)^[count] (start key) < size
  covers : ∀ key slot, slot < size → ∃ count < size, (next key)^[count] (start key) = slot

namespace Probing

variable (probing : Probing κ)

def search (slots : List (Option α)) (found : α → Bool) (key : κ) : Option Nat :=
  scan slots found (probing.next key) probing.size (probing.start key)

/-- The slot that is looked at after so many others. -/
def slot (key : κ) (count : Nat) : Nat := (probing.next key)^[count] (probing.start key)

/-- Every slot that is looked at before this one is taken. -/
def Reaches (slots : List (Option α)) (key : κ) (slot : Nat) : Prop :=
  ∃ count, probing.slot key count = slot ∧
    ∀ earlier < count, ∃ entry, entryAt slots (probing.slot key earlier) = some entry

/-- Each entry can be reached from where the search for its key starts, and no two entries have
one key. -/
structure Holds (key : α → κ) (slots : List (Option α)) : Prop where
  length : slots.length = probing.size
  reached : ∀ slot entry, entryAt slots slot = some entry → probing.Reaches slots (key entry) slot
  distinct : ((entries slots).map key).Nodup

variable {probing} {key : α → κ} {slots : List (Option α)}

/-- A free slot that ends the search for a key. -/
structure Vacant (probing : Probing κ) (slots : List (Option α)) (name : κ) (slot : Nat) : Prop where
  inside : slot < probing.size
  free : entryAt slots slot = none
  reached : probing.Reaches slots name slot

theorem vacant_start {name : κ} (free : entryAt slots (probing.start name) = none) :
    probing.Vacant slots name (probing.start name) where
  inside := probing.inside name 0
  free
  reached := ⟨0, rfl, fun _ none => absurd none (Nat.not_lt_zero _)⟩

theorem holds_empty (probing : Probing κ) (key : α → κ) :
    probing.Holds key (List.replicate probing.size none) where
  length := List.length_replicate
  reached := by
    intro slot entry here
    rw [entryAt_replicate] at here
    cases here
  distinct := by
    rw [entries_replicate_none]
    exact List.nodup_nil

theorem search_absent (length : slots.length = probing.size)
    (room : (entries slots).length < probing.size) (found : α → Bool)
    (absent : ∀ entry ∈ entries slots, found entry = false) (name : κ) :
    ∃ slot, probing.search slots found name = some slot ∧ probing.Vacant slots name slot := by
  obtain ⟨free, inside, empty⟩ := exists_free (length ▸ room)
  obtain ⟨count, enough, rfl⟩ := probing.covers name free (length ▸ inside)
  have stops : Stops slots found ((probing.next name)^[count] (probing.start name)) :=
    fun entry here => by rw [empty] at here; cases here
  obtain ⟨count, enough, ended, stops, passes⟩ := exists_scan ⟨count, enough, stops⟩
  refine ⟨_, ended, probing.inside name count, ?_, count, rfl, fun earlier before => ?_⟩
  · cases here : entryAt slots ((probing.next name)^[count] (probing.start name)) with
    | none => rfl
    | some entry =>
      have hit := stops entry here
      rw [absent entry (mem_entries_of_entryAt here)] at hit
      cases hit
  · obtain ⟨entry, here, _⟩ := exists_of_passes (passes earlier before)
    exact ⟨entry, here⟩

theorem Holds.search [DecidableEq κ] (holds : probing.Holds key slots) {entry : α}
    (member : entry ∈ entries slots) :
    ∃ slot, probing.search slots (fun other => decide (key other = key entry)) (key entry) = some slot ∧
      entryAt slots slot = some entry := by
  obtain ⟨slot, here⟩ := exists_entryAt member
  obtain ⟨taken, same, before⟩ := holds.reached slot entry here
  have inside : slot < probing.size := same ▸ probing.inside _ taken
  obtain ⟨count, enough, rfl⟩ := probing.covers (key entry) slot inside
  have stops : Stops slots (fun other => decide (key other = key entry))
      ((probing.next (key entry))^[count] (probing.start (key entry))) := by
    intro other there
    rw [here] at there
    cases there
    exact decide_eq_true rfl
  obtain ⟨first, _, ended, stopped, passes⟩ := exists_scan ⟨count, enough, stops⟩
  refine ⟨_, ended, ?_⟩
  -- the search passes over taken slots only, so that it ends at one with the key
  by_cases earlier : first < taken
  · obtain ⟨other, there⟩ := before first earlier
    have equal := of_decide_eq_true (stopped other there)
    have one := slot_unique holds.distinct there here equal
    rw [Probing.slot] at one
    rw [one]
    exact here
  · obtain rfl | later := Nat.eq_or_lt_of_not_lt earlier
    · rw [← Probing.slot, same]
      exact here
    · refine absurd ?_ (passes taken later)
      rw [← Probing.slot, same]
      exact stops

/-- Putting an entry where the search for its key ended. -/
theorem Holds.insert (holds : probing.Holds key slots) {entry : α} {slot : Nat}
    (vacant : probing.Vacant slots (key entry) slot)
    (absent : ∀ other ∈ entries slots, key other ≠ key entry) :
    probing.Holds key (slots.set slot (some entry)) := by
  have inside : slot < slots.length := holds.length ▸ vacant.inside
  have keeps : ∀ name target, probing.Reaches slots name target →
      probing.Reaches (slots.set slot (some entry)) name target := by
    rintro name target ⟨count, rfl, before⟩
    refine ⟨count, rfl, fun earlier less => ?_⟩
    rw [entryAt_set inside]
    split
    · exact ⟨entry, rfl⟩
    · exact before earlier less
  refine ⟨?_, fun target other here => ?_, ?_⟩
  · rw [List.length_set, holds.length]
  · rw [entryAt_set inside] at here
    split at here
    · rename_i same
      cases here
      exact keeps _ _ (same ▸ vacant.reached)
    · exact keeps _ _ (holds.reached target other here)
  · have listed := (entries_set inside vacant.free entry).map key
    rw [List.map_cons] at listed
    refine listed.nodup_iff.mpr (List.nodup_cons.mpr ⟨fun member => ?_, holds.distinct⟩)
    obtain ⟨other, held, same⟩ := List.mem_map.mp member
    exact absent other held same

/-- Move the entries of an old table to a new one, slot by slot. -/
def rehash (probing : Probing κ) (key : α → κ) : List (Option α) → List (Option α) → Option (List (Option α))
  | [], slots => some slots
  | none :: rest, slots => probing.rehash key rest slots
  | some entry :: rest, slots =>
    match probing.search slots (fun _ => false) (key entry) with
    | none => none
    | some slot => probing.rehash key rest (slots.set slot (some entry))

/-- A new table with room for the entries of the old one takes them all. -/
theorem Holds.rehash (holds : probing.Holds key slots) (old : List (Option α))
    (room : (entries old).length + (entries slots).length < probing.size)
    (distinct : ((entries old ++ entries slots).map key).Nodup) :
    ∃ grown, probing.rehash key old slots = some grown ∧ probing.Holds key grown ∧
      (entries grown).Perm (entries old ++ entries slots) := by
  induction old generalizing slots with
  | nil => exact ⟨slots, rfl, holds, .refl _⟩
  | cons first rest ih =>
    cases first with
    | none =>
      rw [entries_cons_none] at room distinct ⊢
      exact ih holds room distinct
    | some entry =>
      rw [entries_cons_some, List.length_cons] at room
      rw [entries_cons_some, List.cons_append, List.map_cons, List.nodup_cons] at distinct
      rw [entries_cons_some, List.cons_append]
      obtain ⟨slot, ended, vacant⟩ := search_absent holds.length
        (Nat.lt_of_le_of_lt (Nat.le_add_left _ _) room) (fun _ => false) (fun _ _ => rfl) (key entry)
      have inserted := holds.insert vacant fun other held same =>
        distinct.1 (same ▸ List.mem_map_of_mem (List.mem_append_right _ held))
      have listed := entries_set (holds.length ▸ vacant.inside) vacant.free entry
      have moved := (listed.append_left (entries rest)).trans List.perm_middle
      obtain ⟨grown, rehashed, held, same⟩ := ih inserted
        (by rw [listed.length_eq, List.length_cons]; omega)
        ((moved.map key).nodup_iff.mpr (List.nodup_cons.mpr distinct))
      exact ⟨grown, by rw [Probing.rehash, ended]; exact rehashed, held, same.trans moved⟩

end Probing

section DoubleHashing

/-- Go back by a fixed number of slots, from the front on to the end. -/
def stepBack (size step slot : Nat) : Nat := if slot < step then slot + (size - step) else slot - step

variable {size step : Nat}

theorem stepBack_eq (fits : step ≤ size) {slot : Nat} (inside : slot < size) :
    stepBack size step slot = (slot + (size - step)) % size := by
  rw [stepBack]
  split
  · rw [Nat.mod_eq_of_lt (by omega)]
  · rw [Nat.mod_eq_sub_mod (by omega), Nat.mod_eq_of_lt (by omega)]
    omega

theorem stepBack_iterate (fits : step ≤ size) {slot : Nat} (inside : slot < size) (count : Nat) :
    (stepBack size step)^[count] slot = (slot + count * (size - step)) % size := by
  induction count with
  | zero => rw [Function.iterate_zero_apply, Nat.zero_mul, Nat.add_zero, Nat.mod_eq_of_lt inside]
  | succ count ih =>
    have bounded : (slot + count * (size - step)) % size < size := Nat.mod_lt _ (Nat.zero_lt_of_lt inside)
    rw [Function.iterate_succ_apply', ih, stepBack_eq fits bounded, Nat.mod_add_mod, Nat.succ_mul,
      Nat.add_assoc]

/-- A step that has no divisor in common with the number of slots comes to all of them. -/
theorem exists_stepBack (fits : step ≤ size) (coprime : Nat.Coprime step size) {slot target : Nat}
    (inside : slot < size) (within : target < size) :
    ∃ count < size, (stepBack size step)^[count] slot = target := by
  obtain rfl | large : size = 1 ∨ 1 < size := by omega
  · refine ⟨0, Nat.zero_lt_one, ?_⟩
    rw [Function.iterate_zero_apply]
    omega
  · have back : Nat.Coprime (size - step) size := (Nat.coprime_self_sub_left fits).mpr coprime
    obtain ⟨inverse, _, unit⟩ := Nat.exists_mul_mod_eq_one_of_coprime back large
    refine ⟨(target + size - slot) * inverse % size, Nat.mod_lt _ (by omega), ?_⟩
    have turned : (target + size - slot) * inverse % size * (size - step) ≡ target + size - slot [MOD size] :=
      calc (target + size - slot) * inverse % size * (size - step)
          ≡ (target + size - slot) * inverse * (size - step) [MOD size] := (Nat.mod_modEq _ _).mul_right _
        _ = (target + size - slot) * ((size - step) * inverse) := by rw [Nat.mul_assoc, Nat.mul_comm inverse]
        _ ≡ (target + size - slot) * 1 [MOD size] :=
          Nat.ModEq.mul_left _ (by rw [Nat.ModEq, unit, Nat.mod_eq_of_lt large])
        _ = target + size - slot := Nat.mul_one _
    have reached : slot + (target + size - slot) * inverse % size * (size - step) ≡ target [MOD size] :=
      calc slot + (target + size - slot) * inverse % size * (size - step)
          ≡ slot + (target + size - slot) [MOD size] := turned.add_left _
        _ = target + size := by omega
        _ ≡ target [MOD size] := Nat.add_modEq_right
    rw [stepBack_iterate fits inside, reached, Nat.mod_eq_of_lt within]

/-- Each key starts at a slot of its own choice and goes on with a step of its own choice. -/
def Probing.doubleHashing (size : Nat) (start step : κ → Nat) (starts : ∀ key, start key < size)
    (fits : ∀ key, step key ≤ size) (coprime : ∀ key, Nat.Coprime (step key) size) : Probing κ where
  size
  start
  next := fun key => stepBack size (step key)
  inside := fun key count => by
    rw [stepBack_iterate (fits key) (starts key)]
    exact Nat.mod_lt _ (Nat.zero_lt_of_lt (starts key))
  covers := fun key _ within => exists_stepBack (fits key) (coprime key) (starts key) within

end DoubleHashing

end Xrss.Zig
