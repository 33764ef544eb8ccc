import Mathlib.Algebra.Group.Nat.Defs

namespace Xrss.Zig

/-- A `[]const u8`. -/
abbrev Bytes := List UInt8

/-- A string literal of the source. -/
def bytes (literal : String) : Bytes := literal.toUTF8.data.toList

/-- `std.ascii.whitespace`. -/
def whitespace : Bytes := [0x20, 0x09, 0x0a, 0x0d, 0x0b, 0x0c]

def isWhitespace (byte : UInt8) : Bool := whitespace.contains byte

/-- `writeInt` with `.little`: the low `width` bytes, least significant first. -/
def encodeLE : Nat → Nat → Bytes
  | 0, _ => []
  | width + 1, value => UInt8.ofNat value :: encodeLE width (value / 256)

/-- `readInt` with `.little`. -/
def decodeLE : Bytes → Nat
  | [] => 0
  | byte :: rest => byte.toNat + 256 * decodeLE rest

@[simp] theorem length_encodeLE (width value : Nat) : (encodeLE width value).length = width := by
  induction width generalizing value with
  | zero => rfl
  | succ width ih => simp [encodeLE, ih]

theorem decodeLE_encodeLE (width value : Nat) (fits : value < 256 ^ width) :
    decodeLE (encodeLE width value) = value := by
  induction width generalizing value with
  | zero =>
    have zero : value = 0 := by simpa using fits
    subst zero
    rfl
  | succ width ih =>
    have shifted : value / 256 < 256 ^ width := by
      rw [Nat.pow_succ] at fits
      exact Nat.div_lt_of_lt_mul (by omega)
    simp only [encodeLE, decodeLE, ih (value / 256) shifted, UInt8.toNat_ofNat']
    omega

/-- Every image of `width` bytes is the one `writeInt` makes of its value. -/
theorem encodeLE_decodeLE (image : Bytes) : encodeLE image.length (decodeLE image) = image := by
  induction image with
  | nil => rfl
  | cons byte rest ih =>
    have small : byte.toNat < 256 := byte.toNat_lt
    have head : UInt8.ofNat (byte.toNat + 256 * decodeLE rest) = byte := by
      apply UInt8.toNat_inj.mp
      simp
    have tail : (byte.toNat + 256 * decodeLE rest) / 256 = decodeLE rest := by omega
    simp only [List.length_cons, encodeLE, decodeLE, head, tail, ih]

end Xrss.Zig
