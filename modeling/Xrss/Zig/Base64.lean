import Mathlib.Data.List.Nodup
import Xrss.Zig.Bytes
import Xrss.Zig.Outcome

namespace Xrss.Zig

namespace Base64

/-- The groups of 6 bits that three bytes fall into. -/
def firstSextet (first : UInt8) : Fin 64 :=
  ⟨first.toNat / 4, by have := first.toNat_lt; omega⟩

def secondSextet (first second : UInt8) : Fin 64 :=
  ⟨first.toNat % 4 * 16 + second.toNat / 16, by have := second.toNat_lt; omega⟩

def thirdSextet (second third : UInt8) : Fin 64 :=
  ⟨second.toNat % 16 * 4 + third.toNat / 64, by have := third.toNat_lt; omega⟩

def fourthSextet (third : UInt8) : Fin 64 := ⟨third.toNat % 64, Nat.mod_lt _ (by decide)⟩

/-- Three bytes make four groups. The last one or two bytes are filled up with zeros
to two or three. -/
def sextets : Bytes → List (Fin 64)
  | first :: second :: third :: rest =>
    firstSextet first :: secondSextet first second :: thirdSextet second third ::
      fourthSextet third :: sextets rest
  | [first, second] => [firstSextet first, secondSextet first second, thirdSextet second 0]
  | [first] => [firstSextet first, secondSextet first 0]
  | [] => []

/-- The bytes that groups of 6 bits come from. -/
def ofSextets : List (Fin 64) → Bytes
  | first :: second :: third :: fourth :: rest =>
    UInt8.ofNat (first * 4 + second / 16) :: UInt8.ofNat (second % 16 * 16 + third / 4) ::
      UInt8.ofNat (third % 4 * 64 + fourth) :: ofSextets rest
  | [first, second, third] =>
    [UInt8.ofNat (first * 4 + second / 16), UInt8.ofNat (second % 16 * 16 + third / 4)]
  | [first, second] => [UInt8.ofNat (first * 4 + second / 16)]
  | _ => []

section Groups

variable (first second third : UInt8)

theorem firstByte_eq :
    UInt8.ofNat ((firstSextet first : Nat) * 4 + (secondSextet first second : Nat) / 16) = first := by
  have small := second.toNat_lt
  have same : first.toNat / 4 * 4 + (first.toNat % 4 * 16 + second.toNat / 16) / 16 = first.toNat := by
    omega
  simp only [firstSextet, secondSextet, same, UInt8.ofNat_toNat]

theorem secondByte_eq :
    UInt8.ofNat ((secondSextet first second : Nat) % 16 * 16 + (thirdSextet second third : Nat) / 4) =
      second := by
  have small := second.toNat_lt
  have small' := third.toNat_lt
  have same : (first.toNat % 4 * 16 + second.toNat / 16) % 16 * 16 +
      (second.toNat % 16 * 4 + third.toNat / 64) / 4 = second.toNat := by
    omega
  simp only [secondSextet, thirdSextet, same, UInt8.ofNat_toNat]

theorem thirdByte_eq :
    UInt8.ofNat ((thirdSextet second third : Nat) % 4 * 64 + (fourthSextet third : Nat)) = third := by
  have small := third.toNat_lt
  have same : (second.toNat % 16 * 4 + third.toNat / 64) % 4 * 64 + third.toNat % 64 = third.toNat := by
    omega
  simp only [thirdSextet, fourthSextet, same, UInt8.ofNat_toNat]

end Groups

theorem ofSextets_sextets (source : Bytes) : ofSextets (sextets source) = source := by
  fun_induction sextets source with
  | case1 first second third rest ih =>
    rw [ofSextets, firstByte_eq, secondByte_eq, thirdByte_eq, ih]
  | case2 first second => rw [ofSextets, firstByte_eq, secondByte_eq]
  | case3 first => rw [ofSextets, firstByte_eq]
  | case4 => rfl

theorem sextets_injective : Function.Injective sextets :=
  Function.LeftInverse.injective ofSextets_sextets

/-- `calcSize`: four characters for three bytes, and one more than the bytes left. -/
def calcSize (sourceLen : Nat) : Nat := sourceLen / 3 * 4 + (sourceLen % 3 * 4 + 2) / 3

theorem calcSize_eq (sourceLen : Nat) : calcSize sourceLen = (4 * sourceLen + 2) / 3 := by
  unfold calcSize
  omega

@[simp] theorem length_sextets (source : Bytes) :
    (sextets source).length = calcSize source.length := by
  fun_induction sextets source with
  | case1 first second third rest ih =>
    simp only [List.length_cons, ih, calcSize]
    omega
  | case2 => simp [calcSize]
  | case3 => simp [calcSize]
  | case4 => rfl

end Base64

/-- `Base64Encoder` without a padding character; `init` asserts that the characters
are distinct. -/
structure Base64Encoder where
  alphabetChars : Bytes
  length : alphabetChars.length = 64
  distinct : alphabetChars.Nodup

namespace Base64Encoder

variable (encoder : Base64Encoder)

def char (sextet : Fin 64) : UInt8 := encoder.alphabetChars.get (sextet.cast encoder.length.symm)

theorem char_injective : Function.Injective encoder.char := by
  intro left right same
  have places := congrArg Fin.val (List.nodup_iff_injective_get.mp encoder.distinct same)
  apply Fin.ext
  exact places

/-- What a byte string is encoded as. -/
def encoded (source : Bytes) : Bytes := (Base64.sextets source).map encoder.char

/-- `encode` fills the front of `dest` and returns it as a slice, here as its
length. -/
def encode (dest source : Bytes) : Outcome ε (Bytes × Nat) := do
  Outcome.assert (dest.length ≥ Base64.calcSize source.length)
  let chars := encoder.encoded source
  pure (chars ++ dest.drop chars.length, chars.length)

theorem encoded_injective : Function.Injective encoder.encoded := by
  intro left right same
  apply Base64.sextets_injective
  exact List.map_injective_iff.mpr encoder.char_injective same

@[simp] theorem length_encoded (source : Bytes) :
    (encoder.encoded source).length = Base64.calcSize source.length := by
  simp [encoded]

theorem encoded_subset (source : Bytes) : encoder.encoded source ⊆ encoder.alphabetChars := by
  intro byte member
  obtain ⟨sextet, _, rfl⟩ := List.mem_map.mp member
  exact List.get_mem _ _

theorem encode_eq_ok {ε : Type} {dest source : Bytes}
    (room : Base64.calcSize source.length ≤ dest.length) :
    (encoder.encode dest source : Outcome ε (Bytes × Nat)) =
      .ok (encoder.encoded source ++ dest.drop (Base64.calcSize source.length),
        Base64.calcSize source.length) := by
  simp [encode, room]

end Base64Encoder

end Xrss.Zig
