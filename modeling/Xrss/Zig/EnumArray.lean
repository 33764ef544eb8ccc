import Mathlib.Logic.Function.Basic

namespace Xrss.Zig

/-- An enumeration with its fields in declaration order. -/
class EnumKey (κ : Type) where
  values : List κ
  nodup : values.Nodup
  complete : ∀ key, key ∈ values

/-- `std.EnumArray`: one slot for each field of an enumeration. -/
@[ext] structure EnumArray (κ α : Type) where
  get : κ → α

namespace EnumArray

variable {κ α : Type}

def initFill (value : α) : EnumArray κ α := ⟨fun _ => value⟩

/-- Writing through `getPtr(key)`. -/
def set [DecidableEq κ] (self : EnumArray κ α) (key : κ) (value : α) : EnumArray κ α :=
  ⟨Function.update self.get key value⟩

/-- The entries an iterator yields, in enum order. -/
def iterator [EnumKey κ] (self : EnumArray κ α) : List (κ × α) :=
  EnumKey.values.map fun key => (key, self.get key)

@[simp] theorem get_initFill (key : κ) (value : α) :
    (initFill value : EnumArray κ α).get key = value := rfl

/-- The same change to every slot. -/
def map {β : Type} (change : α → β) (self : EnumArray κ α) : EnumArray κ β :=
  ⟨fun key => change (self.get key)⟩

@[simp] theorem get_map {β : Type} (change : α → β) (self : EnumArray κ α) (key : κ) :
    (self.map change).get key = change (self.get key) := rfl

section Set

variable [DecidableEq κ]

@[simp] theorem get_set_self (self : EnumArray κ α) (key : κ) (value : α) :
    (self.set key value).get key = value := by
  simp [set]

theorem get_set (self : EnumArray κ α) (key other : κ) (value : α) :
    (self.set key value).get other = if other = key then value else self.get other := by
  simp [set, Function.update_apply]

@[simp] theorem get_set_of_ne (self : EnumArray κ α) {key other : κ} (value : α)
    (different : other ≠ key) : (self.set key value).get other = self.get other := by
  simp [get_set, different]

theorem map_set {β : Type} (change : α → β) (self : EnumArray κ α) (key : κ) (value : α) :
    (self.set key value).map change = (self.map change).set key (change value) := by
  apply EnumArray.ext
  funext other
  rw [get_map, get_set, get_set, get_map]
  split <;> rfl

end Set

instance [EnumKey κ] [DecidableEq α] : DecidableEq (EnumArray κ α) := fun left right =>
  decidable_of_iff (∀ key ∈ (EnumKey.values : List κ), left.get key = right.get key)
    ⟨fun same => EnumArray.ext (funext fun key => same key (EnumKey.complete key)),
      fun same _ _ => by rw [same]⟩

end EnumArray

end Xrss.Zig
