import Mathlib.Data.List.Basic
import Xrss.Zig.Integer

namespace Xrss.Zig

variable {ε α : Type}

/-- The elements of a block from one offset up to another one. -/
def window (block : List α) (start stop : Nat) : List α := (block.take stop).drop start

/-- `memcpy(&block[start], source, n)`. Writing past the end is a panic here; nothing checks it
in a C program. -/
def overwrite (block : List α) (start : Nat) (source : List α) : Outcome ε (List α) :=
  if start + source.length ≤ block.length then
    .ok (block.take start ++ source ++ block.drop (start + source.length))
  else .panic .outOfBounds

theorem slice_eq_window {block : List α} {start stop : Nat} (ordered : start ≤ stop)
    (inside : stop ≤ block.length) : (slice block start stop : Outcome ε (List α)) = .ok (window block start stop) :=
  if_pos ⟨ordered, inside⟩

theorem length_window {block : List α} {start stop : Nat} (inside : stop ≤ block.length) :
    (window block start stop).length = stop - start := by
  rw [window, List.length_drop, List.length_take, Nat.min_eq_left inside]

theorem getElem?_window (block : List α) (start stop index : Nat) :
    (window block start stop)[index]? = if start + index < stop then block[start + index]? else none := by
  rw [window, List.getElem?_drop, List.getElem?_take]

theorem getElem?_overwrite {block source : List α} {start : Nat}
    (fits : start + source.length ≤ block.length) (index : Nat) :
    (block.take start ++ source ++ block.drop (start + source.length))[index]? =
      if start ≤ index ∧ index < start + source.length then source[index - start]? else block[index]? := by
  have front : (block.take start).length = start := by
    rw [List.length_take, Nat.min_eq_left (by omega)]
  rw [List.append_assoc]
  by_cases before : index < start
  · rw [List.getElem?_append_left (by omega), List.getElem?_take_of_lt before, if_neg (by omega)]
  · rw [List.getElem?_append_right (by omega), front]
    by_cases inside : index < start + source.length
    · rw [List.getElem?_append_left (by omega), if_pos ⟨by omega, inside⟩]
    · rw [List.getElem?_append_right (by omega), List.getElem?_drop, if_neg (by omega)]
      congr 1
      omega

/-- A copy that fits: the source is found where it went, and what was before it is untouched. -/
theorem overwrite_eq_ok {block source : List α} {start : Nat} (fits : start + source.length ≤ block.length) :
    ∃ result, (overwrite block start source : Outcome ε (List α)) = .ok result ∧
      result.length = block.length ∧ window result start (start + source.length) = source ∧
      ∀ first last, last ≤ start → window result first last = window block first last := by
  refine ⟨_, if_pos fits, ?_, ?_, fun first last earlier => ?_⟩
  · simp only [List.length_append, List.length_take, List.length_drop]
    omega
  · apply List.ext_getElem?
    intro index
    rw [getElem?_window, getElem?_overwrite fits]
    by_cases inside : index < source.length
    · rw [if_pos (by omega), if_pos (by omega), Nat.add_sub_cancel_left]
    · rw [if_neg (by omega), List.getElem?_eq_none (by omega)]
  · apply List.ext_getElem?
    intro index
    rw [getElem?_window, getElem?_window, getElem?_overwrite fits]
    by_cases inside : first + index < last
    · rw [if_pos inside, if_pos inside, if_neg (by omega)]
    · rw [if_neg inside, if_neg inside]

/-- Two windows next to each other. -/
theorem window_append (block : List α) {start middle stop : Nat} (first : start ≤ middle)
    (second : middle ≤ stop) (inside : stop ≤ block.length) :
    window block start middle ++ window block middle stop = window block start stop := by
  have room : middle ≤ block.length := by omega
  apply List.ext_getElem?
  intro index
  rw [getElem?_window]
  by_cases earlier : start + index < middle
  · rw [List.getElem?_append_left (by rw [length_window room]; omega), getElem?_window, if_pos earlier,
      if_pos (by omega)]
  · rw [List.getElem?_append_right (by rw [length_window room]; omega), getElem?_window, length_window room]
    have same : middle + (index - (middle - start)) = start + index := by omega
    rw [same]

theorem drop_window (block : List α) (start stop count : Nat) :
    (window block start stop).drop count = window block (start + count) stop := by
  rw [window, window, List.drop_drop]

end Xrss.Zig
