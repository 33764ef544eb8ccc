import Mathlib.Data.List.DropRight

/-! Trimming a text delivered in pieces. Everything is over an arbitrary
alphabet and an arbitrary set of characters to strip. -/

namespace Xrss.Zig

variable {α : Type}

/-- `std.mem.trim`: strip from the front first, then from the back. -/
def trim (strip : α → Bool) (text : List α) : List α :=
  (text.dropWhile strip).rdropWhile strip

/-- Nothing of the text survives trimming. -/
def Blank (strip : α → Bool) (text : List α) : Prop :=
  ∀ char ∈ text, strip char

instance (strip : α → Bool) (text : List α) : Decidable (Blank strip text) :=
  inferInstanceAs (Decidable (∀ char ∈ text, strip char))

variable {strip : α → Bool} {text before after : List α}

@[simp] theorem Blank.nil : Blank strip ([] : List α) := by
  simp [Blank]

theorem Blank.append : Blank strip (before ++ after) ↔ Blank strip before ∧ Blank strip after := by
  simp only [Blank, List.mem_append]
  constructor
  · intro all
    exact ⟨fun char member => all char (.inl member), fun char member => all char (.inr member)⟩
  · rintro ⟨left, right⟩ char (member | member)
    · exact left char member
    · exact right char member

theorem dropWhile_ne_nil (dark : ¬ Blank strip text) : text.dropWhile strip ≠ [] := by
  intro empty
  exact dark (List.dropWhile_eq_nil_iff.mp empty)

private theorem Blank.of_dropWhile (blank : Blank strip (text.dropWhile strip)) :
    Blank strip text := by
  rw [Blank, ← List.takeWhile_append_dropWhile (l := text) (p := strip)]
  exact Blank.append.mpr ⟨fun _ member => List.mem_takeWhile_imp member, blank⟩

theorem trim_eq_nil : trim strip text = [] ↔ Blank strip text := by
  rw [trim, List.rdropWhile_eq_nil_iff]
  constructor
  · exact Blank.of_dropWhile
  · intro blank char member
    exact blank char ((List.dropWhile_sublist strip).subset member)

theorem length_trim_le (strip : α → Bool) (text : List α) :
    (trim strip text).length ≤ text.length :=
  (List.rdropWhile_prefix strip _).length_le.trans (List.dropWhile_sublist strip).length_le

theorem filter_dropWhile (text : List α) :
    (text.dropWhile strip).filter (!strip ·) = text.filter (!strip ·) := by
  induction text with
  | nil => rfl
  | cons char rest ih =>
    by_cases white : strip char
    · rw [List.dropWhile_cons_of_pos white, ih, List.filter_cons_of_neg (by simp [white])]
    · rw [List.dropWhile_cons_of_neg white]

/-- What trimming takes away is stripped characters only. -/
theorem filter_trim (text : List α) :
    (trim strip text).filter (!strip ·) = text.filter (!strip ·) := by
  rw [trim, List.rdropWhile, List.filter_reverse, filter_dropWhile, List.filter_reverse,
    List.reverse_reverse, filter_dropWhile]

theorem trim_cons {char : α} (white : strip char) : trim strip (char :: text) = trim strip text := by
  rw [trim, trim, List.dropWhile_cons_of_pos white]

theorem trim_eq_self (kept : ∀ char ∈ text, strip char = false) : trim strip text = text := by
  have front : text.dropWhile strip = text := by
    cases text with
    | nil => rfl
    | cons char rest => exact List.dropWhile_cons_of_neg (by simp [kept char])
  rw [trim, front, List.rdropWhile_eq_self_iff]
  intro nonempty
  simp [kept _ (List.getLast_mem nonempty)]

theorem rdropWhile_append (dark : ¬ Blank strip after) :
    (before ++ after).rdropWhile strip = before ++ after.rdropWhile strip := by
  have kept : (after.reverse.dropWhile strip).isEmpty = false := by
    have nonempty : after.reverse.dropWhile strip ≠ [] :=
      dropWhile_ne_nil (by simpa [Blank] using dark)
    simpa using nonempty
  simp only [List.rdropWhile, List.reverse_append, List.dropWhile_append, kept,
    Bool.false_eq_true, ↓reduceIte, List.reverse_reverse]

theorem rdropWhile_append_blank (blank : Blank strip after) :
    (before ++ after).rdropWhile strip = before.rdropWhile strip := by
  have stripped : ∀ char ∈ after.reverse, strip char := by simpa [Blank] using blank
  simp only [List.rdropWhile, List.reverse_append, List.dropWhile_append_of_pos stripped]

/-- What was left of a first part is looked at again with the second one. -/
theorem rdropWhile_resume (strip : α → Bool) (before after : List α) :
    (before ++ after).rdropWhile strip = before.rdropWhile strip ++
      (before.drop (before.rdropWhile strip).length ++ after).rdropWhile strip := by
  have parts : before.rdropWhile strip ++ before.rtakeWhile strip = before :=
    List.rdropWhile_append_rtakeWhile ..
  have left : before.drop (before.rdropWhile strip).length = before.rtakeWhile strip := by
    nth_rewrite 2 [← parts]
    rw [List.drop_left]
  have whole : before ++ after = before.rdropWhile strip ++ (before.rtakeWhile strip ++ after) := by
    rw [← List.append_assoc, parts]
  rw [left, whole]
  by_cases blank : Blank strip (before.rtakeWhile strip ++ after)
  · rw [rdropWhile_append_blank blank, List.rdropWhile_idempotent, List.rdropWhile_eq_nil_iff.mpr blank,
      List.append_nil]
  · exact rdropWhile_append blank

theorem trim_append_blank_left (blank : Blank strip before) :
    trim strip (before ++ after) = trim strip after := by
  rw [trim, List.dropWhile_append_of_pos blank, trim]

theorem dropWhile_append_dark (dark : ¬ Blank strip before) :
    (before ++ after).dropWhile strip = before.dropWhile strip ++ after := by
  have kept : (before.dropWhile strip).isEmpty = false := by simpa using dropWhile_ne_nil dark
  simp [List.dropWhile_append, kept]

theorem trim_append_blank_right (blank : Blank strip after) :
    trim strip (before ++ after) = trim strip before := by
  by_cases dark : Blank strip before
  · rw [trim_append_blank_left dark, trim_eq_nil.mpr blank, trim_eq_nil.mpr dark]
  · rw [trim, dropWhile_append_dark dark, rdropWhile_append_blank blank, trim]

/-- Between two visible texts nothing is stripped: only the outer ends are. -/
theorem trim_append_dark (left : ¬ Blank strip before) (right : ¬ Blank strip after) :
    trim strip (before ++ after) = before.dropWhile strip ++ after.rdropWhile strip := by
  rw [trim, dropWhile_append_dark left, rdropWhile_append right]

theorem trim_eq_dropWhile_rdropWhile :
    trim strip text = (text.rdropWhile strip).dropWhile strip := by
  by_cases blank : Blank strip text
  · rw [trim_eq_nil.mpr blank, List.rdropWhile_eq_nil_iff.mpr blank, List.dropWhile_nil]
  · have inner : ¬ Blank strip (text.dropWhile strip) := fun all => blank all.of_dropWhile
    have nonempty : (text.dropWhile strip).rdropWhile strip ≠ [] :=
      fun empty => inner (List.rdropWhile_eq_nil_iff.mp empty)
    have head : strip ((text.dropWhile strip).head (dropWhile_ne_nil blank)) = false :=
      List.head_dropWhile_not strip (dropWhile_ne_nil blank)
    have front : ∀ char ∈ text.takeWhile strip, strip char :=
      fun _ member => List.mem_takeWhile_imp member
    conv_rhs => rw [← List.takeWhile_append_dropWhile (l := text) (p := strip)]
    rw [rdropWhile_append inner, List.dropWhile_append_of_pos front, trim]
    obtain ⟨cut, split⟩ := List.rdropWhile_prefix strip (text.dropWhile strip)
    cases kept : (text.dropWhile strip).rdropWhile strip with
    | nil => exact absurd kept nonempty
    | cons first rest =>
      simp only [kept] at split
      simp only [← split, List.cons_append, List.head_cons] at head
      simp [head]

theorem getLast?_dropWhile (dark : ¬ Blank strip text) :
    (text.dropWhile strip).getLast? = text.getLast? := by
  conv_rhs => rw [← List.takeWhile_append_dropWhile (l := text) (p := strip)]
  rw [List.getLast?_append_of_ne_nil _ (dropWhile_ne_nil dark)]

theorem head?_rdropWhile (dark : ¬ Blank strip text) :
    (text.rdropWhile strip).head? = text.head? := by
  have nonempty : text.rdropWhile strip ≠ [] :=
    fun empty => dark (List.rdropWhile_eq_nil_iff.mp empty)
  obtain ⟨cut, split⟩ := List.rdropWhile_prefix strip text
  conv_rhs => rw [← split]
  rw [List.head?_append_of_ne_nil _ nonempty]

theorem trim_eq_dropWhile_iff (dark : ¬ Blank strip text) :
    trim strip text = text.dropWhile strip ↔ ∀ char ∈ text.getLast?, strip char = false := by
  rw [trim, List.rdropWhile_eq_self_iff, ← getLast?_dropWhile dark]
  constructor
  · intro visible char last
    have nonempty := dropWhile_ne_nil dark
    rw [List.getLast?_eq_some_getLast nonempty] at last
    simpa [← Option.some.inj last] using visible nonempty
  · intro visible nonempty
    simpa using visible _ (List.getLast?_eq_some_getLast nonempty)

theorem trim_eq_rdropWhile_iff (dark : ¬ Blank strip text) :
    trim strip text = text.rdropWhile strip ↔ ∀ char ∈ text.head?, strip char = false := by
  rw [trim_eq_dropWhile_rdropWhile, ← head?_rdropWhile dark]
  cases text.rdropWhile strip with
  | nil => simp
  | cons first rest =>
    cases shown : strip first with
    | false => simp [shown]
    | true =>
      have shorter := (List.dropWhile_sublist strip (l := rest)).length_le
      simp only [List.dropWhile_cons_of_pos shown, List.head?_cons, Option.mem_some_iff,
        forall_eq', shown, Bool.true_eq_false, iff_false]
      intro same
      have length := congrArg List.length same
      simp only [List.length_cons] at length
      omega

/-- Trimming two pieces apart never keeps more than trimming them together. -/
theorem trim_append_sublist :
    (trim strip before ++ trim strip after).Sublist (trim strip (before ++ after)) := by
  by_cases left : Blank strip before
  · rw [trim_append_blank_left left, trim_eq_nil.mpr left, List.nil_append]
  · by_cases right : Blank strip after
    · rw [trim_append_blank_right right, trim_eq_nil.mpr right, List.append_nil]
    · rw [trim_append_dark left right]
      apply List.Sublist.append
      · exact (List.rdropWhile_prefix strip _).sublist
      · rw [trim_eq_dropWhile_rdropWhile]
        exact List.dropWhile_sublist strip

/-- A cut that loses nothing: one side is blank, or no white space touches it. -/
def CleanCut (strip : α → Bool) (before after : List α) : Prop :=
  Blank strip before ∨ Blank strip after ∨
    ((∀ char ∈ before.getLast?, strip char = false) ∧
      ∀ char ∈ after.head?, strip char = false)

theorem trim_append_eq_iff :
    trim strip before ++ trim strip after = trim strip (before ++ after) ↔
      CleanCut strip before after := by
  by_cases left : Blank strip before
  · simp [CleanCut, left, trim_append_blank_left left, trim_eq_nil.mpr left]
  · by_cases right : Blank strip after
    · simp [CleanCut, right, trim_append_blank_right right, trim_eq_nil.mpr right]
    · rw [trim_append_dark left right, CleanCut, ← trim_eq_dropWhile_iff left,
        ← trim_eq_rdropWhile_iff right]
      have leftKept : (trim strip before).Sublist (before.dropWhile strip) :=
        (List.rdropWhile_prefix strip _).sublist
      have rightKept : (trim strip after).Sublist (after.rdropWhile strip) := by
        rw [trim_eq_dropWhile_rdropWhile]
        exact List.dropWhile_sublist strip
      constructor
      · intro same
        have lengths := congrArg List.length same
        simp only [List.length_append] at lengths
        have leftBound := leftKept.length_le
        have rightBound := rightKept.length_le
        exact .inr (.inr ⟨leftKept.eq_of_length (by omega), rightKept.eq_of_length (by omega)⟩)
      · rintro (blank | blank | ⟨leftSame, rightSame⟩)
        · exact absurd blank left
        · exact absurd blank right
        · rw [leftSame, rightSame]

theorem flatten_trim_sublist (strip : α → Bool) (chunks : List (List α)) :
    (chunks.map (trim strip)).flatten.Sublist (trim strip chunks.flatten) := by
  induction chunks with
  | nil => simp
  | cons chunk rest ih =>
    simp only [List.map_cons, List.flatten_cons]
    exact ((List.Sublist.refl _).append ih).trans trim_append_sublist

/-- Trimming every piece of a text gives the trimmed text exactly when each of
its cuts is clean. -/
theorem flatten_trim_eq_iff (chunks : List (List α)) :
    (chunks.map (trim strip)).flatten = trim strip chunks.flatten ↔
      ∀ before after, chunks = before ++ after →
        CleanCut strip before.flatten after.flatten := by
  constructor
  · rintro same before after rfl
    rw [← trim_append_eq_iff]
    apply trim_append_sublist.eq_of_length_le
    have leftBound := (flatten_trim_sublist strip before).length_le
    have rightBound := (flatten_trim_sublist strip after).length_le
    rw [← List.flatten_append, ← same]
    simp only [List.map_append, List.flatten_append, List.length_append]
    omega
  · intro clean
    induction chunks with
    | nil => simp [trim]
    | cons chunk rest ih =>
      have first : CleanCut strip chunk rest.flatten := by simpa using clean [chunk] rest rfl
      have later : (rest.map (trim strip)).flatten = trim strip rest.flatten := by
        apply ih
        rintro before after rfl
        rcases clean (chunk :: before) after rfl with blank | blank | ⟨last, head⟩
        · rw [List.flatten_cons] at blank
          exact .inl (Blank.append.mp blank).2
        · exact .inr (.inl blank)
        · cases joined : before.flatten with
          | nil => exact .inl Blank.nil
          | cons char text =>
            refine .inr (.inr ⟨?_, head⟩)
            rw [List.flatten_cons, joined, List.getLast?_append_of_ne_nil _ (by simp)] at last
            exact last
      rw [List.map_cons, List.flatten_cons, List.flatten_cons, later]
      exact trim_append_eq_iff.mpr first

end Xrss.Zig
