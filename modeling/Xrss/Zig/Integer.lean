import Mathlib.Algebra.Group.Int.Defs
import Xrss.Zig.Bytes
import Xrss.Zig.Outcome

namespace Xrss.Zig

variable {ε : Type}

/-- An unsigned result that has to fit in `bits` bits. -/
def unsigned (bits : Nat) (value : Int) : Outcome ε Nat :=
  if 0 ≤ value ∧ value < 2 ^ bits then .ok value.toNat else .panic .overflow

/-- A signed result that has to fit in `bits` bits. -/
def signed (bits : Nat) (value : Int) : Outcome ε Int :=
  if -2 ^ (bits - 1) ≤ value ∧ value < 2 ^ (bits - 1) then .ok value else .panic .overflow

/-- `list[start..stop]`. -/
def slice (list : List α) (start stop : Nat) : Outcome ε (List α) :=
  if start ≤ stop ∧ stop ≤ list.length then .ok ((list.take stop).drop start)
  else .panic .outOfBounds

inductive ParseIntError where
  | overflow
  | invalidCharacter
  deriving Repr, DecidableEq

/-- `std.fmt.charToDigit`. -/
def charToDigit (char : UInt8) (base : Nat) : Outcome ParseIntError Nat :=
  let value? : Option Nat :=
    if 0x30 ≤ char ∧ char ≤ 0x39 then some (char.toNat - 0x30)
    else if 0x41 ≤ char ∧ char ≤ 0x5a then some (char.toNat - 0x41 + 10)
    else if 0x61 ≤ char ∧ char ≤ 0x7a then some (char.toNat - 0x61 + 10)
    else none
  match value? with
  | none => .error .invalidCharacter
  | some value => if base ≤ value then .error .invalidCharacter else .ok value

inductive Sign where
  | pos
  | neg
  deriving Repr, DecidableEq

/-- `std.math.cast` to an unsigned type of `bits` bits, `orelse error.Overflow`. -/
def castUnsigned (bits : Nat) (value : Int) : Outcome ParseIntError Nat :=
  if 0 ≤ value ∧ value < 2 ^ bits then .ok value.toNat else .error .overflow

/-- One character of the digit loop: underscores are skipped, and the first
nonzero digit of a negative number already leaves the type. -/
def parseDigit (bits base : Nat) (sign : Sign) (accumulate : Nat) (char : UInt8) :
    Outcome ParseIntError Nat :=
  if char = 0x5f then .ok accumulate
  else do
    let digit ← charToDigit char base
    if accumulate = 0 ∧ sign = .neg then castUnsigned bits (-(digit : Int))
    else do
      let scaled ← (if accumulate = 0 then .ok 0 else castUnsigned bits (accumulate * base))
      match sign with
      | .pos => castUnsigned bits (scaled + digit)
      | .neg => castUnsigned bits (scaled - digit)

def parseIntWithSign (bits base : Nat) (sign : Sign) (buf : Bytes) : Outcome ParseIntError Nat :=
  if buf = [] then .error .invalidCharacter
  else if buf.head? = some 0x5f ∨ buf.getLast? = some 0x5f then .error .invalidCharacter
  else buf.foldlM (parseDigit bits base sign) 0

/-- `std.fmt.parseInt` for an unsigned type of at least eight bits. -/
def parseInt (bits : Nat) (buf : Bytes) (base : Nat) : Outcome ParseIntError Nat :=
  match buf with
  | [] => .error .invalidCharacter
  | 0x2b :: rest => parseIntWithSign bits base .pos rest
  | 0x2d :: rest => parseIntWithSign bits base .neg rest
  | _ => parseIntWithSign bits base .pos buf

theorem signed_of_range {bits : Nat} {value : Int} (lower : -2 ^ (bits - 1) ≤ value)
    (upper : value < 2 ^ (bits - 1)) : (signed bits value : Outcome ε Int) = .ok value :=
  if_pos ⟨lower, upper⟩

theorem signed_eq_ok {bits : Nat} {value result : Int} :
    (signed bits value : Outcome ε Int) = .ok result ↔
      (-2 ^ (bits - 1) ≤ value ∧ value < 2 ^ (bits - 1)) ∧ value = result := by
  unfold signed
  by_cases range : -2 ^ (bits - 1) ≤ value ∧ value < 2 ^ (bits - 1)
  · simp [range]
  · simp only [range, if_false, reduceCtorEq, false_and]

theorem signed_ne_error (bits : Nat) (value : Int) (failure : ε) :
    signed bits value ≠ .error failure := by
  unfold signed
  split <;> simp

section Avoids

variable {reason : Panic}

theorem signed_avoids (overflow : .overflow ≠ reason) (bits : Nat) (value : Int) :
    (signed bits value : Outcome ε Int).Avoids reason :=
  .ite (fun _ => .ok _) fun _ => .panic overflow

theorem slice_avoids (bounds : .outOfBounds ≠ reason) (list : List α) (start stop : Nat) :
    (slice list start stop : Outcome ε (List α)).Avoids reason :=
  .ite (fun _ => .ok _) fun _ => .panic bounds

theorem castUnsigned_avoids (bits : Nat) (value : Int) (reason : Panic) :
    (castUnsigned bits value).Avoids reason :=
  .ite (fun _ => .ok _) fun _ => .error _

theorem charToDigit_avoids (char : UInt8) (base : Nat) (reason : Panic) :
    (charToDigit char base).Avoids reason := by
  unfold charToDigit
  dsimp only
  split
  · exact .error _
  · exact .ite (fun _ => .error _) fun _ => .ok _

theorem parseDigit_avoids (bits base : Nat) (sign : Sign) (accumulate : Nat) (char : UInt8)
    (reason : Panic) : (parseDigit bits base sign accumulate char).Avoids reason := by
  unfold parseDigit
  refine .ite (fun _ => .ok _) fun _ => .bind (charToDigit_avoids _ _ _) fun digit _ => ?_
  refine .ite (fun _ => castUnsigned_avoids _ _ _) fun _ => ?_
  refine .bind (.ite (fun _ => .ok _) fun _ => castUnsigned_avoids _ _ _) fun scaled _ => ?_
  cases sign <;> exact castUnsigned_avoids _ _ _

theorem parseInt_avoids (bits : Nat) (buf : Bytes) (base : Nat) (reason : Panic) :
    (parseInt bits buf base).Avoids reason := by
  have signed (sign : Sign) (digits : Bytes) :
      (parseIntWithSign bits base sign digits).Avoids reason :=
    .ite (fun _ => .error _) fun _ => .ite (fun _ => .error _) fun _ =>
      foldlM_avoids (fun char _ accumulate => parseDigit_avoids bits base sign accumulate char reason) 0
  unfold parseInt
  split
  · exact .error _
  · exact signed .pos _
  · exact signed .neg _
  · exact signed .pos _

end Avoids

end Xrss.Zig
