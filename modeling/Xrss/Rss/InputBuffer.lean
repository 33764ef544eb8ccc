import Mathlib.Algebra.Order.Ring.Int
import Mathlib.Tactic.Ring
import Xrss.Rss.Stream
import Xrss.Zig.Block

/-! The buffer expat reads its input from. `XML_GetBuffer` moves what is still unparsed to the
front, or into a larger block, and returns the place where the next bytes go. -/

namespace Xrss.Rss

open Zig

variable {ε : Type}

def XML_CONTEXT_BYTES : Nat := 1024

def INIT_BUFFER_SIZE : Nat := 1024

def INT_MAX : Int := 2 ^ 31 - 1

/-- The conversion of a sum or product of 32 bit numbers to `int`. -/
def toInt (value : Int) : Int := value.bmod (2 ^ 32)

theorem toInt_of_range {value : Int} (lower : -2 ^ 31 ≤ value) (upper : value < 2 ^ 31) :
    toInt value = value := by
  simp only [toInt, Int.bmod]
  split <;> omega

theorem toInt_of_wrapped {value : Int} (lower : 2 ^ 31 ≤ value) (upper : value < 2 ^ 32 + 2 ^ 31) :
    toInt value = value - 2 ^ 32 := by
  simp only [toInt, Int.bmod]
  split <;> omega

theorem toInt_lt (value : Int) : toInt value < 2 ^ 31 := by
  simp only [toInt, Int.bmod]
  split <;> omega

/-- `do { bufferSize *= 2 } while (bufferSize < neededSize && bufferSize > 0)`. -/
def doubleSize (bufferSize neededSize : Int) : Int :=
  let doubled := toInt (2 * bufferSize)
  if doubled < neededSize ∧ 0 < doubled then doubleSize doubled neededSize else doubled
termination_by (if 0 < bufferSize ∧ bufferSize < 2 ^ 31 then 2 ^ 31 - bufferSize else 2 ^ 31 + 1).toNat
decreasing_by
  have positive : 0 < toInt (2 * bufferSize) := by omega
  have bounded := toInt_lt (2 * bufferSize)
  by_cases size : 0 < bufferSize ∧ bufferSize < 2 ^ 31
  · by_cases small : bufferSize < 2 ^ 30
    · rw [toInt_of_range (by omega) (by omega)] at positive bounded ⊢
      rw [if_pos size, if_pos ⟨positive, bounded⟩]
      omega
    · rw [toInt_of_wrapped (by omega) (by omega)] at positive
      omega
  · rw [if_neg size, if_pos ⟨positive, bounded⟩]
    omega

/-- How an allocation will be answered: what a granted block holds is not defined. -/
structure Malloc where
  grants : Bool := true
  fresh : Nat → UInt8 := fun _ => 0

/-- `m_buffer`, and the pointers into it as offsets. Without a block all of them are null. -/
structure InputBuffer where
  buffer : Option Bytes := none
  bufferPtr : Nat := 0
  bufferEnd : Nat := 0

/-- Why `XML_GetBuffer` returns null. -/
inductive BufferError where
  | noMemory
  | finished
  deriving Repr, DecidableEq

namespace InputBuffer

/-- `m_bufferLim`. -/
def bufferLim (self : InputBuffer) : Nat := self.buffer.elim 0 List.length

/-- How much of what has been parsed stays in front of the rest. -/
def keep (self : InputBuffer) : Nat := min self.bufferPtr XML_CONTEXT_BYTES

/-- The block is large enough: what is needed of it moves to its front. -/
def moveDown (self : InputBuffer) (memory : Bytes) : Outcome ε InputBuffer :=
  if self.keep < self.bufferPtr then do
    let offset := self.bufferPtr - self.keep
    let kept ← slice memory offset (offset + (self.bufferEnd - self.bufferPtr + self.keep))
    let memory ← overwrite memory 0 kept
    pure ⟨some memory, self.bufferPtr - offset, self.bufferEnd - offset⟩
  else pure self

/-- What is needed moves to a new block, and the old one is freed. -/
def moveTo (self : InputBuffer) (newBuf : Bytes) : Outcome ε InputBuffer :=
  match self.buffer with
  | some memory => do
    let kept ← slice memory (self.bufferPtr - self.keep) self.bufferEnd
    let newBuf ← overwrite newBuf 0 kept
    pure ⟨some newBuf, self.keep, self.bufferEnd - self.bufferPtr + self.keep⟩
  | none => pure ⟨some newBuf, 0, 0⟩

def grow (malloc : Malloc) (self : InputBuffer) (neededSize : Int) : Outcome BufferError InputBuffer :=
  let bufferSize := doubleSize
    (if self.bufferLim = 0 then INIT_BUFFER_SIZE else toInt self.bufferLim) neededSize
  if bufferSize ≤ 0 then .error .noMemory
  else if malloc.grants = false then .error .noMemory
  else self.moveTo ((List.range bufferSize.toNat).map malloc.fresh)

/-- `XML_GetBuffer` for a parser that is not finished; the place it returns is `bufferEnd`. -/
def getBuffer (malloc : Malloc) (self : InputBuffer) (len : Nat) : Outcome BufferError InputBuffer :=
  if len > self.bufferLim - self.bufferEnd ∨ self.buffer = none then
    let neededSize := toInt (len + (self.bufferEnd - self.bufferPtr : Nat))
    if neededSize < 0 ∨ self.keep > INT_MAX - neededSize then .error .noMemory
    else
      match self.buffer with
      | some memory =>
        if neededSize + self.keep ≤ self.bufferLim then self.moveDown memory
        else self.grow malloc (neededSize + self.keep)
      | none => self.grow malloc (neededSize + self.keep)
  else .ok self

/-- The caller writes to the place it was given. -/
def fill (self : InputBuffer) (read : Bytes) : Outcome ε InputBuffer :=
  match self.buffer with
  | some memory => do
    let memory ← overwrite memory self.bufferEnd read
    pure { self with buffer := some memory }
  | none => .panic .outOfBounds

/-- What was read and not parsed yet. -/
def pending (self : InputBuffer) : Bytes :=
  self.buffer.elim [] fun memory => window memory self.bufferPtr self.bufferEnd

/-- What the block has to hold before the next bytes fit behind what is kept. -/
def needed (self : InputBuffer) (len : Nat) : Nat := len + (self.bufferEnd - self.bufferPtr) + self.keep

/-- The pointers are in order, and the block is one of those `doubleSize` leads to. -/
structure Valid (input : InputBuffer) : Prop where
  parsed : input.bufferPtr ≤ input.bufferEnd
  held : input.bufferEnd ≤ input.bufferLim
  size : input.buffer = none ∨ ∃ exponent, 10 < exponent ∧ exponent ≤ 30 ∧ input.bufferLim = 2 ^ exponent

/-- What `XML_GetBuffer` does when it returns a place for `len` bytes. -/
structure Refit (before : InputBuffer) (len : Nat) (after : InputBuffer) : Prop where
  valid : after.Valid
  pending : after.pending = before.pending
  allocated : after.buffer ≠ none
  room : after.bufferEnd + len ≤ after.bufferLim
  larger : before.bufferLim ≤ after.bufferLim
  doubled : before.bufferLim < before.needed len → 2 * before.bufferLim ≤ after.bufferLim
  bounded : after.bufferLim ≤ max before.bufferLim (max (2 * INIT_BUFFER_SIZE) (2 * before.needed len))

theorem doubleSize_double {exponent : Nat} (small : exponent < 30) (neededSize : Int) :
    doubleSize (2 ^ exponent) neededSize =
      if 2 ^ (exponent + 1) < neededSize then doubleSize (2 ^ (exponent + 1)) neededSize
      else 2 ^ (exponent + 1) := by
  have doubled : (2 : Int) * 2 ^ exponent = 2 ^ (exponent + 1) := by ring
  have bounded : (2 : Int) ^ (exponent + 1) ≤ 2 ^ 30 := pow_le_pow_right₀ (by decide) small
  have positive : (0 : Int) < 2 ^ (exponent + 1) := Int.pow_pos (by decide)
  have same : toInt (2 * 2 ^ exponent) = 2 ^ (exponent + 1) := by
    rw [doubled, toInt_of_range (by omega) (by omega)]
  rw [doubleSize, same]
  by_cases larger : (2 : Int) ^ (exponent + 1) < neededSize
  · rw [if_pos ⟨larger, positive⟩, if_pos larger]
  · rw [if_neg (fun both => larger both.1), if_neg larger]

/-- The size doubles until it suffices, or until the next one is no `int` any more. -/
theorem doubleSize_cases {exponent : Nat} (small : exponent ≤ 30) (neededSize : Int) :
    (∃ larger, exponent < larger ∧ larger ≤ 30 ∧ doubleSize (2 ^ exponent) neededSize = 2 ^ larger ∧
      neededSize ≤ 2 ^ larger ∧ (larger = exponent + 1 ∨ 2 ^ larger < 2 * neededSize)) ∨
    doubleSize (2 ^ exponent) neededSize ≤ 0 ∧ (exponent = 30 ∨ 2 ^ 30 < neededSize) := by
  induction small using Nat.decreasingInduction with
  | self =>
    refine .inr ⟨?_, .inl rfl⟩
    have wrapped : toInt (2 * 2 ^ 30) = -2 ^ 31 := toInt_of_wrapped (by decide) (by decide)
    rw [doubleSize, wrapped]
    simp
  | of_succ exponent small ih =>
    rw [doubleSize_double small]
    by_cases larger : (2 : Int) ^ (exponent + 1) < neededSize
    · rw [if_pos larger]
      rcases ih with ⟨final, above, below, same, enough, tight⟩ | ⟨failed, reason⟩
      · refine .inl ⟨final, by omega, below, same, enough, .inr ?_⟩
        rcases tight with rfl | tight
        · have doubled : (2 : Int) ^ (exponent + 1 + 1) = 2 * 2 ^ (exponent + 1) := by ring
          omega
        · exact tight
      · refine .inr ⟨failed, .inr ?_⟩
        rcases reason with last | beyond
        · rw [last] at larger
          exact larger
        · exact beyond
    · rw [if_neg larger]
      exact .inl ⟨exponent + 1, by omega, small, rfl, by omega, .inl rfl⟩

theorem length_pending {input : InputBuffer} (valid : input.Valid) :
    input.pending.length = input.bufferEnd - input.bufferPtr := by
  obtain ⟨buffer, bufferPtr, bufferEnd⟩ := input
  have held := valid.held
  cases buffer with
  | none =>
    have empty : bufferEnd = 0 := Nat.le_zero.mp held
    simp [pending, empty]
  | some memory => exact length_window held

theorem refit_of_moved {input : InputBuffer} {len : Nat} {moved kept : Bytes}
    (copied : window moved 0 (0 + kept.length) = kept)
    (same : kept.drop input.keep = input.pending)
    (length : kept.length = input.bufferEnd - input.bufferPtr + input.keep)
    (size : ∃ exponent, 10 < exponent ∧ exponent ≤ 30 ∧ moved.length = 2 ^ exponent)
    (enough : input.needed len ≤ moved.length) (larger : input.bufferLim ≤ moved.length)
    (doubled : input.bufferLim < input.needed len → 2 * input.bufferLim ≤ moved.length)
    (bounded : moved.length ≤ max input.bufferLim (max (2 * INIT_BUFFER_SIZE) (2 * input.needed len))) :
    input.Refit len ⟨some moved, input.keep, input.bufferEnd - input.bufferPtr + input.keep⟩ := by
  rw [needed] at enough
  rw [length, Nat.zero_add] at copied
  refine ⟨⟨Nat.le_add_left _ _, ?_, .inr size⟩, ?_, nofun, ?_, larger, doubled, bounded⟩
  · change input.bufferEnd - input.bufferPtr + input.keep ≤ moved.length
    omega
  · rw [← same, ← copied, drop_window, Nat.zero_add]
    rfl
  · change input.bufferEnd - input.bufferPtr + input.keep + len ≤ moved.length
    omega

/-- What both kinds of move copy: the bytes from some way before `m_bufferPtr` on. -/
theorem slice_kept {input : InputBuffer} (valid : input.Valid) {memory : Bytes}
    (held : input.buffer = some memory) :
    ∃ kept, (slice memory (input.bufferPtr - input.keep) input.bufferEnd : Outcome ε Bytes) = .ok kept ∧
      kept.length = input.bufferEnd - input.bufferPtr + input.keep ∧
      kept.drop input.keep = input.pending := by
  have front : input.keep ≤ input.bufferPtr := Nat.min_le_left _ _
  have parsed := valid.parsed
  have inside : input.bufferEnd ≤ memory.length := by simpa [bufferLim, held] using valid.held
  have start : input.bufferPtr - input.keep + input.keep = input.bufferPtr := by omega
  refine ⟨_, slice_eq_window (by omega) inside, ?_, ?_⟩
  · rw [length_window inside]
    omega
  · rw [drop_window, start, pending, held, Option.elim_some]

theorem moveDown_refits {input : InputBuffer} (valid : input.Valid) {memory : Bytes}
    (held : input.buffer = some memory) {len : Nat} (fits : input.needed len ≤ input.bufferLim) :
    ∃ next, (input.moveDown memory : Outcome ε InputBuffer) = .ok next ∧ input.Refit len next := by
  have front : input.keep ≤ input.bufferPtr := Nat.min_le_left _ _
  have parsed := valid.parsed
  have lim : input.bufferLim = memory.length := by rw [bufferLim, held, Option.elim_some]
  have inside := lim ▸ valid.held
  have size := valid.size.resolve_left (by simp [held])
  unfold moveDown
  split
  · obtain ⟨kept, read, length, same⟩ := slice_kept (ε := ε) valid held
    have room : 0 + kept.length ≤ memory.length := by omega
    obtain ⟨moved, written, unchanged, copied, _⟩ := overwrite_eq_ok (ε := ε) room
    have stop : input.bufferPtr - input.keep + (input.bufferEnd - input.bufferPtr + input.keep) =
        input.bufferEnd := by omega
    have ptr : input.bufferPtr - (input.bufferPtr - input.keep) = input.keep := by omega
    have back : input.bufferEnd - (input.bufferPtr - input.keep) =
        input.bufferEnd - input.bufferPtr + input.keep := by omega
    simp only [stop, read, Outcome.ok_bind, written, ptr, back]
    have grown : moved.length = input.bufferLim := by rw [unchanged, lim]
    refine ⟨_, rfl, refit_of_moved copied same length ?_ ?_ ?_ ?_ ?_⟩
    · rw [grown]
      exact size
    all_goals omega
  · rw [needed] at fits
    refine ⟨_, rfl, valid, rfl, by simp [held], by omega, Nat.le_refl _, ?_, by omega⟩
    rw [needed]
    omega

theorem moveTo_refits {input : InputBuffer} (valid : input.Valid) {len : Nat} {newBuf : Bytes}
    (size : ∃ exponent, 10 < exponent ∧ exponent ≤ 30 ∧ newBuf.length = 2 ^ exponent)
    (enough : input.needed len ≤ newBuf.length) (doubled : 2 * input.bufferLim ≤ newBuf.length)
    (bounded : newBuf.length ≤ max (2 * INIT_BUFFER_SIZE) (2 * input.needed len)) :
    ∃ next, (input.moveTo newBuf : Outcome ε InputBuffer) = .ok next ∧ input.Refit len next := by
  cases held : input.buffer with
  | none =>
    have lim : input.bufferLim = 0 := by rw [bufferLim, held, Option.elim_none]
    have empty : input.bufferEnd = 0 := by
      have inside := valid.held
      omega
    have parsed := valid.parsed
    simp only [moveTo, held]
    refine ⟨_, rfl, ⟨Nat.le_refl _, Nat.zero_le _, .inr size⟩, ?_, nofun, ?_, ?_, ?_, ?_⟩
    · simp [pending, held, window]
    · change 0 + len ≤ newBuf.length
      rw [needed] at enough
      omega
    · change _ ≤ newBuf.length
      omega
    · exact fun _ => doubled
    · change newBuf.length ≤ _
      omega
  | some memory =>
    obtain ⟨kept, read, length, same⟩ := slice_kept (ε := ε) valid held
    have room : 0 + kept.length ≤ newBuf.length := by
      rw [needed] at enough
      omega
    obtain ⟨moved, written, unchanged, copied, _⟩ := overwrite_eq_ok (ε := ε) room
    simp only [moveTo, held, read, Outcome.ok_bind, written]
    refine ⟨_, rfl, refit_of_moved copied same length ?_ ?_ ?_ ?_ ?_⟩
    · rw [unchanged]
      exact size
    all_goals omega

/-- A larger block is needed, and it is denied or would be larger than an `int` can say. -/
def Starved (malloc : Malloc) (input : InputBuffer) (len : Nat) : Prop :=
  input.bufferLim < input.needed len ∧ (malloc.grants = false ∨ 2 ^ 30 < input.needed len)

theorem exists_exponent {input : InputBuffer} (valid : input.Valid) :
    ∃ exponent, 9 < exponent ∧ exponent ≤ 30 ∧
      (if input.bufferLim = 0 then (INIT_BUFFER_SIZE : Int) else toInt input.bufferLim) = 2 ^ exponent ∧
      (input.bufferLim = 0 ∧ exponent = 10 ∨ input.bufferLim = 2 ^ exponent) := by
  rcases valid.size with none | ⟨exponent, large, small, lim⟩
  · have lim : input.bufferLim = 0 := by rw [bufferLim, none, Option.elim_none]
    exact ⟨10, by omega, by omega, by rw [if_pos lim]; rfl, .inl ⟨lim, rfl⟩⟩
  · have positive : 0 < 2 ^ exponent := Nat.two_pow_pos exponent
    have bounded : 2 ^ exponent ≤ 2 ^ 30 := Nat.pow_le_pow_right (by decide) small
    refine ⟨exponent, by omega, small, ?_, .inr lim⟩
    rw [if_neg (by omega), toInt_of_range (by omega) (by omega), lim]
    norm_cast

theorem grow_cases {input : InputBuffer} (valid : input.Valid) (malloc : Malloc) {len : Nat}
    (short : input.bufferLim < input.needed len) :
    (input.Starved malloc len ∧ input.grow malloc (input.needed len) = .error .noMemory) ∨
    (¬ input.Starved malloc len ∧
      ∃ next, input.grow malloc (input.needed len) = .ok next ∧ input.Refit len next) := by
  obtain ⟨exponent, large, small, same, lim⟩ := exists_exponent valid
  rw [grow, same]
  rcases doubleSize_cases small (input.needed len) with
    ⟨larger, above, below, doubled, enough, tight⟩ | ⟨failed, reason⟩
  · have positive : 0 < 2 ^ larger := Nat.two_pow_pos larger
    have bounded : 2 ^ larger ≤ 2 ^ 30 := Nat.pow_le_pow_right (by decide) below
    have twice : 2 ^ (exponent + 1) ≤ 2 ^ larger := Nat.pow_le_pow_right (by decide) above
    have cast : (2 : Int) ^ larger = (2 ^ larger : Nat) := by norm_cast
    rw [cast] at enough tight
    rw [doubled, cast]
    simp only [Int.toNat_natCast]
    rw [if_neg (by omega)]
    cases grants : malloc.grants with
    | false => exact .inl ⟨⟨short, .inl grants⟩, by simp⟩
    | true =>
      refine .inr ⟨?_, ?_⟩
      · rintro ⟨_, denied | beyond⟩
        · rw [grants] at denied
          cases denied
        · omega
      · rw [if_neg (by simp)]
        have length : ((List.range (2 ^ larger)).map malloc.fresh).length = 2 ^ larger := by simp
        apply moveTo_refits valid
        · exact ⟨larger, by omega, below, length⟩
        · omega
        · rw [length]
          rcases lim with ⟨zero, _⟩ | lim <;> omega
        · rw [length]
          rcases tight with rfl | tight
          · rcases lim with ⟨_, rfl⟩ | lim
            · exact Nat.le_max_left _ _
            · omega
          · omega
  · rw [if_pos failed]
    refine .inl ⟨⟨short, .inr ?_⟩, rfl⟩
    rcases reason with rfl | beyond
    · rcases lim with ⟨_, different⟩ | lim
      · cases different
      · omega
    · omega

theorem checked_size (input : InputBuffer) {len : Nat} (int : len < 2 ^ 31)
    (small : input.bufferEnd - input.bufferPtr ≤ 2 ^ 30) :
    (2 ^ 30 < input.needed len ∧
      (toInt (len + (input.bufferEnd - input.bufferPtr : Nat)) < 0 ∨
        input.keep > INT_MAX - toInt (len + (input.bufferEnd - input.bufferPtr : Nat)))) ∨
    (toInt (len + (input.bufferEnd - input.bufferPtr : Nat)) + input.keep = input.needed len ∧
      ¬ (toInt (len + (input.bufferEnd - input.bufferPtr : Nat)) < 0 ∨
        input.keep > INT_MAX - toInt (len + (input.bufferEnd - input.bufferPtr : Nat)))) := by
  have sum : input.needed len = len + (input.bufferEnd - input.bufferPtr) + input.keep := rfl
  have context : input.keep ≤ XML_CONTEXT_BYTES := Nat.min_le_right _ _
  rw [XML_CONTEXT_BYTES] at context
  rw [INT_MAX]
  by_cases fits : len + (input.bufferEnd - input.bufferPtr) < 2 ^ 31
  · rw [toInt_of_range (by omega) (by omega)]
    by_cases room : input.needed len < 2 ^ 31
    · exact .inr ⟨by omega, by omega⟩
    · exact .inl ⟨by omega, .inr (by omega)⟩
  · rw [toInt_of_wrapped (by omega) (by omega)]
    exact .inl ⟨by omega, .inl (by omega)⟩

/-- `XML_GetBuffer` returns null exactly when it is starved, and else a place that is large
enough, with all that is pending still there. -/
theorem getBuffer_cases {input : InputBuffer} (valid : input.Valid) (malloc : Malloc) {len : Nat}
    (positive : 0 < len) (int : len < 2 ^ 31) :
    (input.Starved malloc len ∧ input.getBuffer malloc len = .error .noMemory) ∨
    (¬ input.Starved malloc len ∧
      ∃ next, input.getBuffer malloc len = .ok next ∧ input.Refit len next) := by
  have held := valid.held
  have front : input.keep ≤ input.bufferPtr := Nat.min_le_left _ _
  have sum : input.needed len = len + (input.bufferEnd - input.bufferPtr) + input.keep := rfl
  have parsed := valid.parsed
  have lim : input.bufferLim ≤ 2 ^ 30 := by
    rcases valid.size with none | ⟨exponent, _, small, lim⟩
    · simp [bufferLim, none]
    · rw [lim]
      exact Nat.pow_le_pow_right (by decide) small
  unfold getBuffer
  by_cases refill : len > input.bufferLim - input.bufferEnd ∨ input.buffer = none
  · rw [if_pos refill]
    rcases checked_size input int (by omega) with ⟨beyond, refused⟩ | ⟨same, accepted⟩
    · simp only [refused, ↓reduceIte]
      exact .inl ⟨⟨by omega, .inr beyond⟩, trivial⟩
    · simp only [accepted, same, ↓reduceIte]
      cases allocated : input.buffer with
      | none =>
        have empty : input.bufferLim = 0 := by rw [bufferLim, allocated, Option.elim_none]
        exact grow_cases valid malloc (by omega)
      | some memory =>
        by_cases enough : input.needed len ≤ input.bufferLim
        · simp only [Int.ofNat_le, enough, ↓reduceIte]
          refine .inr ⟨fun starved => ?_, moveDown_refits valid allocated enough⟩
          have short := starved.1
          omega
        · simp only [Int.ofNat_le, enough, ↓reduceIte]
          exact grow_cases valid malloc (by omega)
  · obtain ⟨room, allocated⟩ := not_or.mp refill
    have enough : input.needed len ≤ input.bufferLim := by omega
    rw [if_neg refill]
    refine .inr ⟨fun starved => ?_, input, rfl, valid, rfl, allocated, ?_, Nat.le_refl _, ?_, ?_⟩
    · have short := starved.1
      omega
    all_goals omega

/-- The bytes that were read come after those that were pending. -/
theorem fill_eq_ok {input : InputBuffer} (valid : input.Valid) (allocated : input.buffer ≠ none)
    {read : Bytes} (room : input.bufferEnd + read.length ≤ input.bufferLim) :
    ∃ memory, (input.fill read : Outcome ε InputBuffer) = .ok { input with buffer := some memory } ∧
      memory.length = input.bufferLim ∧
      window memory input.bufferPtr (input.bufferEnd + read.length) = input.pending ++ read := by
  obtain ⟨buffer, same⟩ := Option.ne_none_iff_exists'.mp allocated
  have lim : input.bufferLim = buffer.length := by rw [bufferLim, same, Option.elim_some]
  rw [lim] at room
  obtain ⟨memory, written, length, copied, earlier⟩ := overwrite_eq_ok (ε := ε) room
  refine ⟨memory, by simp [fill, same, written], by rw [length, lim], ?_⟩
  rw [← window_append memory valid.parsed (Nat.le_add_right _ _) (by omega), copied,
    earlier _ _ (Nat.le_refl _), pending, same, Option.elim_some]

end InputBuffer

end Xrss.Rss
