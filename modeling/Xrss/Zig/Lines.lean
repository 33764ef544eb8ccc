import Mathlib.Data.List.Basic

namespace Xrss.Zig

variable {α β κ : Type}

/-- What is written tells what it was written for and where it ends. -/
def Delimits (Good : β → Prop) (write : β → List α) : Prop :=
  ∀ value value' rest rest', Good value → Good value' →
    write value ++ rest = write value' ++ rest' → value = value' ∧ rest = rest'

namespace Delimits

variable {Good : β → Prop} {write : β → List α}

/-- A sequence ends at a mark that nothing in it begins like. -/
theorem flatMap (delimits : Delimits Good write) {stop : List α}
    (stops : ∀ value rest rest', write value ++ rest ≠ stop ++ rest') :
    Delimits (fun values : List β => ∀ value ∈ values, Good value) (·.flatMap write ++ stop) := by
  intro values
  induction values with
  | nil =>
    intro values' rest rest' _ _ same
    cases values' with
    | nil => exact ⟨rfl, by simpa using same⟩
    | cons value' later' =>
      simp only [List.flatMap_nil, List.nil_append, List.flatMap_cons, List.append_assoc] at same
      exact absurd same.symm (stops value' _ _)
  | cons value later ih =>
    intro values' rest rest' good good' same
    simp only [List.flatMap_cons, List.append_assoc] at same
    cases values' with
    | nil =>
      simp only [List.flatMap_nil, List.nil_append] at same
      exact absurd same (stops value _ _)
    | cons value' later' =>
      simp only [List.flatMap_cons, List.append_assoc] at same
      obtain ⟨rfl, further⟩ := delimits _ _ _ _ (good value (by simp)) (good' value' (by simp)) same
      simp only [← List.append_assoc] at further
      obtain ⟨rfl, ended⟩ := ih _ _ _ (fun other member => good other (by simp [member]))
        (fun other member => good' other (by simp [member])) further
      exact ⟨rfl, ended⟩

theorem flatMap_inj (delimits : Delimits Good write) (some : ∀ value, write value ≠ [])
    {values values' : List β} (good : ∀ value ∈ values, Good value)
    (good' : ∀ value ∈ values', Good value)
    (same : values.flatMap write = values'.flatMap write) : values = values' := by
  induction values generalizing values' with
  | nil =>
    cases values' with
    | nil => rfl
    | cons value' later' => simp [some value'] at same
  | cons value later ih =>
    cases values' with
    | nil => simp [some value] at same
    | cons value' later' =>
      rw [List.flatMap_cons, List.flatMap_cons] at same
      obtain ⟨rfl, further⟩ := delimits _ _ _ _ (good value (by simp)) (good' value' (by simp)) same
      rw [ih (fun other member => good other (by simp [member]))
        (fun other member => good' other (by simp [member])) further]

theorem line (sep : α) : Delimits (sep ∉ ·) (· ++ [sep]) := by
  intro text
  induction text with
  | nil =>
    intro text' rest rest' _ plain same
    cases text' with
    | nil => exact ⟨rfl, by simpa using same⟩
    | cons first later =>
      simp only [List.nil_append, List.cons_append, List.cons.injEq] at same
      exact absurd (by simp [same.1]) plain
  | cons first later ih =>
    intro text' rest rest' plain plain' same
    cases text' with
    | nil =>
      simp only [List.nil_append, List.cons_append, List.cons.injEq] at same
      exact absurd (by simp [same.1]) plain
    | cons first' later' =>
      simp only [List.cons_append, List.cons.injEq] at same
      obtain ⟨rfl, rfl⟩ := ih later' rest rest' (fun member => plain (by simp [member]))
        (fun member => plain' (by simp [member])) same.2
      exact ⟨by rw [same.1], rfl⟩

end Delimits

section Labels

variable (sep : α) (label : κ → List α)

/-- A line for each slot that is filled, behind the slot's label. -/
def writeSlots (keys : List κ) (slots : κ → Option (List α)) : List α :=
  keys.flatMap fun key => (slots key).elim [] fun value => label key ++ value ++ [sep]

/-- Labels that cannot be taken for each other, nor for the line that stands after them. -/
structure Labels (keys : List κ) (stop : List α) : Prop where
  apart : keys.Pairwise fun key other => ¬ label key <+: label other ∧ ¬ label other <+: label key
  plain : ∀ key ∈ keys, sep ∉ label key
  stopPlain : sep ∉ stop
  stops : ∀ key ∈ keys, ¬ label key <+: stop

variable {sep label} {keys : List κ} {stop : List α} {slots slots' : κ → Option (List α)}

theorem Labels.tail {key : κ} {later : List κ} (labels : Labels sep label (key :: later) stop) :
    Labels sep label later stop where
  apart := labels.apart.of_cons
  plain other member := labels.plain other (by simp [member])
  stopPlain := labels.stopPlain
  stops other member := labels.stops other (by simp [member])

/-- The first line is one of a slot or the line after them. -/
theorem Labels.first_line (labels : Labels sep label keys stop)
    (plain : ∀ key ∈ keys, ∀ value ∈ slots key, sep ∉ value) (rest : List α) :
    ∃ line more, sep ∉ line ∧
      writeSlots sep label keys slots ++ (stop ++ [sep]) ++ rest = line ++ [sep] ++ more ∧
        (line = stop ∨ ∃ key ∈ keys, label key <+: line) := by
  induction keys with
  | nil => exact ⟨stop, rest, labels.stopPlain, by simp [writeSlots], .inl rfl⟩
  | cons key later ih =>
    cases filled : slots key with
    | none =>
      obtain ⟨line, more, whole, same, begins⟩ :=
        ih labels.tail fun other member => plain other (by simp [member])
      refine ⟨line, more, whole, by simpa [writeSlots, filled] using same, ?_⟩
      rcases begins with ended | ⟨other, member, begins⟩
      · exact .inl ended
      · exact .inr ⟨other, by simp [member], begins⟩
    | some value =>
      have whole : sep ∉ label key ++ value := by
        simp [labels.plain key (by simp), plain key (by simp) value filled]
      refine ⟨label key ++ value,
        writeSlots sep label later slots ++ (stop ++ [sep]) ++ rest, whole, ?_,
        .inr ⟨key, by simp, List.prefix_append _ _⟩⟩
      simp [writeSlots, filled]

/-- The line of a slot is not found where the slot is empty. -/
theorem Labels.ne_of_filled {key : κ} {later : List κ} (labels : Labels sep label (key :: later) stop)
    (plain : ∀ other ∈ later, ∀ value ∈ slots other, sep ∉ value) {value : List α}
    (whole : sep ∉ value) (rest rest' : List α) :
    label key ++ value ++ [sep] ++ rest ≠ writeSlots sep label later slots ++ (stop ++ [sep]) ++ rest' := by
  intro same
  obtain ⟨line, more, unbroken, written, begins⟩ := labels.tail.first_line plain rest'
  rw [written] at same
  have own : sep ∉ label key ++ value := by simp [labels.plain key (by simp), whole]
  obtain ⟨rfl, _⟩ := Delimits.line sep _ _ _ _ own unbroken same
  rcases begins with ended | ⟨other, member, begins⟩
  · exact labels.stops key (by simp) (ended ▸ List.prefix_append _ _)
  · have apart := (List.pairwise_cons.mp labels.apart).1 other member
    rcases List.prefix_or_prefix_of_prefix begins (List.prefix_append (label key) value) with
      before | after
    · exact apart.2 before
    · exact apart.1 after

/-- The lines tell what is in the slots, and where they end. -/
theorem Labels.slots_eq (labels : Labels sep label keys stop)
    (plain : ∀ key ∈ keys, ∀ value ∈ slots key, sep ∉ value)
    (plain' : ∀ key ∈ keys, ∀ value ∈ slots' key, sep ∉ value) {rest rest' : List α}
    (same : writeSlots sep label keys slots ++ (stop ++ [sep]) ++ rest =
      writeSlots sep label keys slots' ++ (stop ++ [sep]) ++ rest') :
    (∀ key ∈ keys, slots key = slots' key) ∧ rest = rest' := by
  induction keys with
  | nil => exact ⟨by simp, by simpa [writeSlots] using same⟩
  | cons key later ih =>
    have laterPlain : ∀ other ∈ later, ∀ value ∈ slots other, sep ∉ value :=
      fun other member => plain other (by simp [member])
    have laterPlain' : ∀ other ∈ later, ∀ value ∈ slots' other, sep ∉ value :=
      fun other member => plain' other (by simp [member])
    rw [List.forall_mem_cons]
    cases filled : slots key with
    | none =>
      cases filled' : slots' key with
      | none =>
        obtain ⟨further, ended⟩ := ih labels.tail laterPlain laterPlain'
          (by simpa [writeSlots, filled, filled'] using same)
        exact ⟨⟨rfl, further⟩, ended⟩
      | some value' =>
        have found := labels.ne_of_filled laterPlain (plain' key (by simp) value' filled')
          (writeSlots sep label later slots' ++ (stop ++ [sep]) ++ rest') rest
        exact absurd (by simpa [writeSlots, filled, filled'] using same.symm) found
    | some value =>
      cases filled' : slots' key with
      | none =>
        have found := labels.ne_of_filled laterPlain' (plain key (by simp) value filled)
          (writeSlots sep label later slots ++ (stop ++ [sep]) ++ rest) rest'
        exact absurd (by simpa [writeSlots, filled, filled'] using same) found
      | some value' =>
        have lines : label key ++ value ++ [sep] ++
              (writeSlots sep label later slots ++ (stop ++ [sep]) ++ rest) =
            label key ++ value' ++ [sep] ++
              (writeSlots sep label later slots' ++ (stop ++ [sep]) ++ rest') := by
          simpa [writeSlots, filled, filled'] using same
        have own : sep ∉ label key := labels.plain key (by simp)
        obtain ⟨line, further⟩ := Delimits.line sep _ _ _ _
          (by simp [own, plain key (by simp) value filled])
          (by simp [own, plain' key (by simp) value' filled']) lines
        obtain ⟨slotsSame, ended⟩ := ih labels.tail laterPlain laterPlain' further
        exact ⟨⟨by rw [List.append_cancel_left line], slotsSame⟩, ended⟩

end Labels

end Xrss.Zig
