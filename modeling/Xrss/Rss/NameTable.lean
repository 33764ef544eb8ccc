import Mathlib.Data.List.Nodup
import Mathlib.Data.Nat.Prime.Basic
import Xrss.Zig.OpenAddressing

/-! The hash table in which expat keeps the names of attributes and elements. It is at most half
full, and a name that is in it once is found there ever after. -/

namespace Xrss.Rss

open Zig

variable {κ : Type}

def INIT_POWER : Nat := 6

/-- `unsigned long` and `size_t` are taken as 64 bits. -/
def ULONG_MAX : Nat := 2 ^ 64 - 1

def SIZE_MAX : Nat := 2 ^ 64 - 1

def SECOND_HASH (hash mask power : Nat) : Nat :=
  ((hash &&& (ULONG_MAX - mask)) >>> (power - 1)) &&& (mask >>> 2)

/-- The step is an `unsigned char`. -/
def PROBE_STEP (hash mask power : Nat) : Nat := (SECOND_HASH hash mask power ||| 1) % 2 ^ 8

theorem PROBE_STEP_le (hash power : Nat) : PROBE_STEP hash (2 ^ power - 1) power ≤ 2 ^ power := by
  cases power with
  | zero => simp [PROBE_STEP, SECOND_HASH]
  | succ power =>
    have masked : SECOND_HASH hash (2 ^ (power + 1) - 1) (power + 1) ≤ 2 ^ (power + 1) - 1 :=
      Nat.and_le_right.trans (Nat.shiftRight_le _ _)
    have below : SECOND_HASH hash (2 ^ (power + 1) - 1) (power + 1) < 2 ^ (power + 1) :=
      Nat.lt_of_le_of_lt masked (Nat.sub_lt (Nat.two_pow_pos _) Nat.one_pos)
    exact (Nat.mod_le _ _).trans (Nat.or_lt_two_pow below (Nat.one_lt_two_pow (Nat.succ_ne_zero power))).le

theorem PROBE_STEP_coprime (hash mask power : Nat) : Nat.Coprime (PROBE_STEP hash mask power) (2 ^ power) := by
  apply Nat.Coprime.pow_right
  rw [Nat.coprime_two_right, Nat.odd_iff, PROBE_STEP, Nat.mod_mod_of_dvd _ (by decide),
    Nat.or_mod_two_eq_one]
  exact .inr rfl

/-- The slots that are looked at for a name in a table of `2 ^ power`. -/
def probing (hash : κ → Nat) (power : Nat) : Probing κ :=
  .doubleHashing (2 ^ power) (fun name => hash name &&& (2 ^ power - 1))
    (fun name => PROBE_STEP (hash name) (2 ^ power - 1) power)
    (fun _ => Nat.lt_of_le_of_lt Nat.and_le_right (Nat.sub_lt (Nat.two_pow_pos power) Nat.one_pos))
    (fun name => PROBE_STEP_le (hash name) power)
    (fun name => PROBE_STEP_coprime (hash name) (2 ^ power - 1) power)

/-- An entry, which is allocated when its name is first looked up: `place` tells the allocations
of a table apart. -/
structure Named (κ : Type) where
  name : κ
  place : Nat
  deriving Repr, DecidableEq

/-- `size` is the length of `v`. -/
structure HashTable (κ : Type) where
  v : List (Option (Named κ)) := []
  power : Nat := 0
  used : Nat := 0
  deriving Repr, DecidableEq

/-- How the two allocations of a lookup will be answered. -/
structure Grants where
  vector : Bool := true
  entry : Bool := true
  deriving Repr, DecidableEq

namespace HashTable

/-- A new entry goes to a free slot. -/
def add (grants : Grants) (table : HashTable κ) (name : κ) (i : Nat) : HashTable κ × Option (Named κ) :=
  if grants.entry = false then (table, none)
  else
    let entry : Named κ := ⟨name, table.used⟩
    ({ table with v := table.v.set i (some entry), used := table.used + 1 }, some entry)

/-- The table gets no larger: its size is at a limit, or there is no memory. -/
def Refused (grants : Grants) (table : HashTable κ) : Prop :=
  64 ≤ table.power + 1 ∨ SIZE_MAX / 8 < 2 ^ (table.power + 1) ∨ grants.vector = false

instance (grants : Grants) (table : HashTable κ) : Decidable (table.Refused grants) :=
  inferInstanceAs (Decidable (_ ∨ _ ∨ _))

/-- `lookup`, for a name that is not the null pointer; `none` when a search goes on for ever. -/
def lookup [DecidableEq κ] (hash : κ → Nat) (grants : Grants) (table : HashTable κ) (name : κ)
    (create : Bool) : Option (HashTable κ × Option (Named κ)) :=
  if table.v = [] then
    if create = false then some (table, none)
    else if grants.vector = false then some ({ table with power := INIT_POWER }, none)
    else
      let v := List.replicate (2 ^ INIT_POWER) none
      some (add grants { table with v, power := INIT_POWER } name (hash name &&& (2 ^ INIT_POWER - 1)))
  else do
    let i ← (probing hash table.power).search table.v (fun entry => decide (entry.name = name)) name
    match entryAt table.v i with
    | some entry => some (table, some entry)
    | none =>
      if create = false then some (table, none)
      else if table.used >>> (table.power - 1) ≠ 0 then
        if table.Refused grants then some (table, none)
        else do
          let power := table.power + 1
          let v ← (probing hash power).rehash Named.name table.v (List.replicate (2 ^ power) none)
          let i ← (probing hash power).search v (fun _ => false) name
          some (add grants { table with v, power } name i)
      else some (add grants table name i)

end HashTable

/-- The names of a table in the order in which they came to it, with the places of their entries. -/
def register (names : List κ) : List (Named κ) := names.zipIdx.map fun pair => ⟨pair.1, pair.2⟩

theorem mem_register {names : List κ} {entry : Named κ} :
    entry ∈ register names ↔ names[entry.place]? = some entry.name := by
  simp only [register, List.mem_map, Prod.exists, List.mem_zipIdx_iff_getElem?]
  constructor
  · rintro ⟨name, place, here, rfl⟩
    exact here
  · intro here
    exact ⟨entry.name, entry.place, here, rfl⟩

theorem register_append (names : List κ) (name : κ) :
    register (names ++ [name]) = register names ++ [⟨name, names.length⟩] := by
  simp [register, List.zipIdx_append]

theorem map_name_register (names : List κ) : (register names).map Named.name = names := by
  rw [register, List.map_map]
  exact List.zipIdx_map_fst 0 names

theorem register_unique {names : List κ} (distinct : names.Nodup) {entry other : Named κ}
    (listed : entry ∈ register names) (otherListed : other ∈ register names) :
    entry = other ↔ entry.name = other.name := by
  constructor
  · rintro rfl
    rfl
  · intro same
    have here := mem_register.mp listed
    have there := mem_register.mp otherListed
    have inside := (List.getElem?_eq_some_iff.mp here).1
    have place : entry.place = other.place :=
      (List.getElem?_inj inside distinct).mp (by rw [here, there, same])
    cases entry
    cases other
    exact congrArg₂ Named.mk same place

theorem getElem?_of_isPrefix {names after : List κ} (longer : names <+: after) {place : Nat} {name : κ}
    (here : names[place]? = some name) : after[place]? = some name := by
  obtain ⟨_, rfl⟩ := longer
  exact (List.getElem?_append_left (List.getElem?_eq_some_iff.mp here).1).trans here

theorem length_register (names : List κ) : (register names).length = names.length := by
  rw [register, List.length_map, List.length_zipIdx]

namespace HashTable

variable {hash : κ → Nat} {table : HashTable κ} {names : List κ}

/-- The slots of a table that has some. -/
structure Laid (hash : κ → Nat) (table : HashTable κ) : Prop where
  initial : INIT_POWER ≤ table.power
  half : table.used ≤ 2 ^ (table.power - 1)
  holds : (probing hash table.power).Holds Named.name table.v

theorem Laid.positive (laid : table.Laid hash) : 0 < table.power :=
  Nat.lt_of_lt_of_le (by decide) laid.initial

/-- The table holds these names. -/
structure Represents (hash : κ → Nat) (table : HashTable κ) (names : List κ) : Prop where
  listed : (entries table.v).Perm (register names)
  used : table.used = names.length
  laid : table.v ≠ [] → table.Laid hash

theorem represents_init (hash : κ → Nat) : ({} : HashTable κ).Represents hash [] where
  listed := .refl _
  used := rfl
  laid := fun some => absurd rfl some

end HashTable

/-- A new name needs a vector in a table that has no slots yet or is half full. -/
def AsksVector (names : List κ) : Prop :=
  names = [] ∨ ∃ power, INIT_POWER ≤ power + 1 ∧ names.length = 2 ^ power

/-- What a lookup does to a list of distinct names: it returns the entry that was made for the
name, or makes one. -/
inductive Looks (name : κ) (create : Bool) (grants : Grants) (names : List κ) :
    List κ → Option (Named κ) → Prop where
  | found {place : Nat} : names[place]? = some name → Looks name create grants names names (some ⟨name, place⟩)
  | missing : name ∉ names → create = false → Looks name create grants names names none
  | made : name ∉ names → create = true → grants.entry = true →
      Looks name create grants names (names ++ [name]) (some ⟨name, names.length⟩)
  | denied : name ∉ names → create = true →
      (AsksVector names ∧ grants.vector = false ∨ grants.entry = false ∨ 2 ^ 59 ≤ names.length) →
      Looks name create grants names names none

namespace HashTable

variable {hash : κ → Nat} {table : HashTable κ} {names : List κ}

theorem Represents.mem (represents : table.Represents hash names) {entry : Named κ} :
    entry ∈ entries table.v ↔ names[entry.place]? = some entry.name := by
  rw [represents.listed.mem_iff, mem_register]

theorem Represents.absent (represents : table.Represents hash names) {name : κ} (absent : name ∉ names)
    {entry : Named κ} (member : entry ∈ entries table.v) : entry.name ≠ name := by
  rintro rfl
  exact absent (List.mem_of_getElem? (represents.mem.mp member))

theorem Represents.length (represents : table.Represents hash names) :
    (entries table.v).length = names.length := by
  rw [represents.listed.length_eq, length_register]

theorem Represents.add (represents : table.Represents hash names) (laid : table.Laid hash) {name : κ}
    (absent : name ∉ names) (room : table.used < 2 ^ (table.power - 1)) {i : Nat}
    (vacant : (probing hash table.power).Vacant table.v name i) (grants : Grants) :
    ∃ after, (table.add grants name i).1.Represents hash after ∧
      Looks name true grants names after (table.add grants name i).2 := by
  rw [HashTable.add]
  split
  · rename_i denied
    exact ⟨names, represents, .denied absent rfl (.inr (.inl denied))⟩
  · rename_i granted
    have inside : i < table.v.length := laid.holds.length ▸ vacant.inside
    refine ⟨names ++ [name], ⟨?_, ?_, fun _ => ⟨laid.initial, room, ?_⟩⟩, ?_⟩
    · rw [register_append, ← represents.used]
      have taken := entries_set inside vacant.free (⟨name, table.used⟩ : Named κ)
      exact taken.trans ((represents.listed.cons _).trans (List.perm_append_singleton _ _).symm)
    · simp [represents.used]
    · exact laid.holds.insert vacant fun other held => represents.absent absent held
    · rw [represents.used]
      exact .made absent rfl (by simpa using granted)

theorem Represents.allocate (represents : table.Represents hash names) (empty : table.v = []) :
    names = [] ∧
      { table with v := List.replicate (2 ^ INIT_POWER) none, power := INIT_POWER }.Represents hash names ∧
      { table with v := List.replicate (2 ^ INIT_POWER) none, power := INIT_POWER }.Laid hash := by
  have nobody : names.length = 0 := by rw [← represents.length, empty]; rfl
  obtain rfl := List.eq_nil_of_length_eq_zero nobody
  have laid : { table with v := List.replicate (2 ^ INIT_POWER) none, power := INIT_POWER }.Laid hash :=
    ⟨le_rfl, represents.used.le.trans (Nat.zero_le _), (probing hash INIT_POWER).holds_empty _⟩
  refine ⟨rfl, ⟨?_, represents.used, fun _ => laid⟩, laid⟩
  rw [entries_replicate_none]
  rfl

theorem Represents.grow (represents : table.Represents hash names) (laid : table.Laid hash) :
    ∃ v, (probing hash (table.power + 1)).rehash Named.name table.v
        (List.replicate (2 ^ (table.power + 1)) none) = some v ∧
      { table with v, power := table.power + 1 }.Represents hash names ∧
      { table with v, power := table.power + 1 }.Laid hash := by
  have half := laid.half
  have twice : 2 ^ (table.power - 1) < 2 ^ (table.power + 1) := Nat.pow_lt_pow_right (by decide) (by omega)
  have small : 2 ^ (table.power - 1) ≤ 2 ^ table.power := Nat.pow_le_pow_right (by decide) (by omega)
  obtain ⟨v, moved, holds, same⟩ := ((probing hash (table.power + 1)).holds_empty Named.name).rehash
    table.v
    (by
      rw [entries_replicate_none, represents.length, ← represents.used]
      exact Nat.lt_of_le_of_lt half twice)
    (by
      rw [entries_replicate_none, List.append_nil]
      exact laid.holds.distinct)
  rw [entries_replicate_none, List.append_nil] at same
  have grown : { table with v, power := table.power + 1 }.Laid hash :=
    ⟨laid.initial.trans (Nat.le_succ _), half.trans small, holds⟩
  exact ⟨v, moved, ⟨same.trans represents.listed, represents.used, fun _ => grown⟩, grown⟩

/-- The search for a name that is not there ends at a free slot. -/
theorem Represents.vacant (represents : table.Represents hash names) (laid : table.Laid hash) (name : κ)
    (found : Named κ → Bool) (absent : ∀ entry ∈ entries table.v, found entry = false) :
    ∃ i, (probing hash table.power).search table.v found name = some i ∧
      (probing hash table.power).Vacant table.v name i := by
  refine Probing.search_absent laid.holds.length ?_ found absent name
  rw [represents.length, ← represents.used]
  exact Nat.lt_of_le_of_lt laid.half
    (Nat.pow_lt_pow_right (by decide) (Nat.sub_lt laid.positive Nat.one_pos))

/-- Only a table with very many names is at the limit of its size. -/
theorem Represents.refused (represents : table.Represents hash names) (laid : table.Laid hash)
    (full : table.used >>> (table.power - 1) ≠ 0) {grants : Grants} (refused : table.Refused grants) :
    AsksVector names ∧ grants.vector = false ∨ 2 ^ 59 ≤ names.length := by
  rw [Nat.shiftRight_eq_div_pow] at full
  have half : 2 ^ (table.power - 1) ≤ names.length :=
    represents.used ▸ Nat.le_of_not_lt fun less => full (Nat.div_eq_of_lt less)
  have initial : INIT_POWER ≤ table.power - 1 + 1 := (Nat.sub_add_cancel laid.positive).symm ▸ laid.initial
  have large : 60 ≤ table.power → 2 ^ 59 ≤ names.length :=
    fun power => (Nat.pow_le_pow_right (by decide) (by omega)).trans half
  rcases refused with shift | size | denied
  · exact .inr (large (by omega))
  · refine .inr (large (Nat.le_of_not_lt fun less => ?_))
    have small : 2 ^ (table.power + 1) ≤ 2 ^ 60 := Nat.pow_le_pow_right (by decide) less
    have limit : 2 ^ 60 ≤ SIZE_MAX / 8 := by decide
    omega
  · exact .inl ⟨.inr ⟨_, initial, (represents.used ▸ laid.half).antisymm half⟩, denied⟩

theorem lookup_found [DecidableEq κ] (represents : table.Represents hash names) (grants : Grants)
    {name : κ} {place : Nat} (here : names[place]? = some name) (create : Bool) :
    lookup hash grants table name create = some (table, some ⟨name, place⟩) := by
  have held : (⟨name, place⟩ : Named κ) ∈ entries table.v := represents.mem.mpr here
  have some_slots : table.v ≠ [] := fun empty => by rw [empty] at held; cases held
  obtain ⟨i, ended, entry⟩ := (represents.laid some_slots).holds.search held
  rw [lookup, if_neg some_slots, ended]
  simp only [Option.bind_eq_bind, Option.bind_some, entry]

theorem lookup_empty [DecidableEq κ] (represents : table.Represents hash names) (empty : table.v = [])
    (grants : Grants) (name : κ) (create : Bool) :
    ∃ next entry after, lookup hash grants table name create = some (next, entry) ∧
      next.Represents hash after ∧ Looks name create grants names after entry := by
  obtain ⟨rfl, allocated, laid⟩ := represents.allocate empty
  rw [lookup, if_pos empty]
  cases create with
  | false => exact ⟨_, _, _, rfl, represents, .missing List.not_mem_nil rfl⟩
  | true =>
    rw [if_neg (by decide)]
    split
    · rename_i denied
      exact ⟨_, _, _, rfl, ⟨represents.listed, represents.used, absurd empty⟩,
        .denied List.not_mem_nil rfl (.inl ⟨.inl rfl, denied⟩)⟩
    · have vacant : (probing hash INIT_POWER).Vacant
          (List.replicate (2 ^ INIT_POWER) (none : Option (Named κ))) name
          ((probing hash INIT_POWER).start name) := Probing.vacant_start (entryAt_replicate _ _)
      have room : table.used < 2 ^ (INIT_POWER - 1) := by
        rw [represents.used]
        exact Nat.two_pow_pos _
      obtain ⟨after, added, looks⟩ := allocated.add laid List.not_mem_nil room vacant grants
      exact ⟨_, _, _, rfl, added, looks⟩

theorem lookup_absent [DecidableEq κ] (represents : table.Represents hash names) (laid : table.Laid hash)
    (some_slots : table.v ≠ []) (grants : Grants) {name : κ} (absent : name ∉ names) (create : Bool) :
    ∃ next entry after, lookup hash grants table name create = some (next, entry) ∧
      next.Represents hash after ∧ Looks name create grants names after entry := by
  obtain ⟨i, ended, vacant⟩ := represents.vacant laid name
    (fun entry => decide (entry.name = name))
    fun entry held => decide_eq_false (represents.absent absent held)
  rw [lookup, if_neg some_slots, ended]
  simp only [Option.bind_eq_bind, Option.bind_some, vacant.free]
  cases create with
  | false => exact ⟨_, _, _, rfl, represents, .missing absent rfl⟩
  | true =>
    rw [if_neg (by decide)]
    by_cases full : table.used >>> (table.power - 1) ≠ 0
    · rw [if_pos full]
      split
      · rename_i refused
        exact ⟨_, _, _, rfl, represents,
          .denied absent rfl ((represents.refused laid full refused).imp_right .inr)⟩
      · obtain ⟨v, moved, grown, laidAgain⟩ := represents.grow laid
        obtain ⟨i, ended, vacant⟩ := grown.vacant laidAgain name (fun _ => false) fun _ _ => rfl
        have half := laid.half
        have room : table.used < 2 ^ table.power :=
          Nat.lt_of_le_of_lt half (Nat.pow_lt_pow_right (by decide) (Nat.sub_lt laid.positive Nat.one_pos))
        obtain ⟨after, added, looks⟩ := grown.add laidAgain absent room vacant grants
        refine ⟨_, _, _, ?_, added, looks⟩
        rw [moved, Option.bind_some, ended, Option.bind_some]
    · rw [if_neg full]
      have room : table.used < 2 ^ (table.power - 1) := by
        refine Nat.lt_of_not_le fun reached => full ?_
        rw [Nat.shiftRight_eq_div_pow]
        exact Nat.pos_iff_ne_zero.mp (Nat.div_pos reached (Nat.two_pow_pos _))
      obtain ⟨after, added, looks⟩ := represents.add laid absent room vacant grants
      exact ⟨_, _, _, rfl, added, looks⟩

/-- A lookup ends, and does to the table what it does to the list. -/
theorem lookup_represents [DecidableEq κ] (represents : table.Represents hash names) (grants : Grants)
    (name : κ) (create : Bool) :
    ∃ next entry after, lookup hash grants table name create = some (next, entry) ∧
      next.Represents hash after ∧ Looks name create grants names after entry := by
  by_cases empty : table.v = []
  · exact lookup_empty represents empty grants name create
  · by_cases known : name ∈ names
    · obtain ⟨place, here⟩ := List.getElem?_of_mem known
      exact ⟨_, _, _, lookup_found represents grants here create, represents, .found here⟩
    · exact lookup_absent represents (represents.laid empty) empty grants known create

end HashTable

namespace Looks

variable {name : κ} {create : Bool} {grants : Grants} {names after : List κ} {entry : Option (Named κ)}

theorem nodup (looks : Looks name create grants names after entry) (distinct : names.Nodup) : after.Nodup := by
  cases looks with
  | made absent _ _ =>
    rw [← List.concat_eq_append]
    exact (List.nodup_concat names name).mpr ⟨absent, distinct⟩
  | found _ | missing _ _ | denied _ _ _ => exact distinct

theorem isPrefix (looks : Looks name create grants names after entry) : names <+: after := by
  cases looks with
  | made _ _ _ => exact List.prefix_append names [name]
  | found _ | missing _ _ | denied _ _ _ => exact List.prefix_rfl

theorem entry_eq (looks : Looks name create grants names after entry) {returned : Named κ}
    (same : entry = some returned) : returned.name = name ∧ after[returned.place]? = some name := by
  cases looks with
  | found here =>
    cases same
    exact ⟨rfl, here⟩
  | made _ _ _ =>
    cases same
    exact ⟨rfl, List.getElem?_concat_length⟩
  | missing _ _ | denied _ _ _ => cases same

end Looks

/-- A call of `lookup`, and how its allocations will be answered. -/
structure Lookup (κ : Type) where
  name : κ
  create : Bool
  grants : Grants := {}

/-- The calls of `lookup` on one table, with what they return. -/
def lookups [DecidableEq κ] (hash : κ → Nat) (table : HashTable κ) :
    List (Lookup κ) → Option (HashTable κ × List (Option (Named κ)))
  | [] => some (table, [])
  | call :: rest => do
    let (table, entry) ← table.lookup hash call.grants call.name call.create
    let (table, later) ← lookups hash table rest
    some (table, entry :: later)

/-- A run of lookups in a list of distinct names. -/
inductive LooksAll : List κ → List (Lookup κ) → List (Option (Named κ)) → List κ → Prop where
  | nil (names : List κ) : LooksAll names [] [] names
  | cons {call : Lookup κ} {rest : List (Lookup κ)} {names middle after : List κ} {entry : Option (Named κ)}
      {later : List (Option (Named κ))} : Looks call.name call.create call.grants names middle entry →
      LooksAll middle rest later after → LooksAll names (call :: rest) (entry :: later) after

namespace LooksAll

variable {names after : List κ} {calls : List (Lookup κ)} {results : List (Option (Named κ))}

theorem nodup (all : LooksAll names calls results after) (distinct : names.Nodup) : after.Nodup := by
  induction all with
  | nil names => exact distinct
  | cons looks _ ih => exact ih (looks.nodup distinct)

theorem isPrefix (all : LooksAll names calls results after) : names <+: after := by
  induction all with
  | nil names => exact List.prefix_rfl
  | cons looks _ ih => exact looks.isPrefix.trans ih

theorem entry_eq (all : LooksAll names calls results after) :
    ∀ pair ∈ calls.zip results, ∀ entry, pair.2 = some entry →
      entry.name = pair.1.name ∧ after[entry.place]? = some pair.1.name := by
  induction all with
  | nil names => simp
  | cons looks later ih =>
    rw [List.zip_cons_cons, List.forall_mem_cons]
    refine ⟨fun entry same => ?_, ih⟩
    obtain ⟨named, here⟩ := looks.entry_eq same
    exact ⟨named, getElem?_of_isPrefix later.isPrefix here⟩

end LooksAll

theorem lookups_represents [DecidableEq κ] {hash : κ → Nat} {table : HashTable κ} {names : List κ}
    (represents : table.Represents hash names) (calls : List (Lookup κ)) :
    ∃ last results after, lookups hash table calls = some (last, results) ∧
      last.Represents hash after ∧ LooksAll names calls results after := by
  induction calls generalizing table names with
  | nil => exact ⟨table, [], names, rfl, represents, .nil names⟩
  | cons call rest ih =>
    obtain ⟨next, entry, middle, looked, same, looks⟩ :=
      HashTable.lookup_represents represents call.grants call.name call.create
    obtain ⟨last, later, after, ran, kept, all⟩ := ih same
    refine ⟨last, entry :: later, after, ?_, kept, .cons looks all⟩
    simp only [lookups, looked, ran, Option.bind_eq_bind, Option.bind_some]

/-- Whatever the hash values are, every search ends, and the calls of a run return what they return
for a list of names: two of them return the same entry when they ask for the same name. -/
theorem lookups_agree [DecidableEq κ] (hash : κ → Nat) (calls : List (Lookup κ)) :
    ∃ last results after, lookups hash {} calls = some (last, results) ∧ LooksAll [] calls results after ∧
      ∀ first ∈ calls.zip results, ∀ second ∈ calls.zip results, ∀ entry other,
        first.2 = some entry → second.2 = some other → (entry = other ↔ first.1.name = second.1.name) := by
  obtain ⟨last, results, after, ran, _, all⟩ := lookups_represents (HashTable.represents_init hash) calls
  refine ⟨last, results, after, ran, all,
    fun first inside second within entry other some_entry some_other => ?_⟩
  obtain ⟨named, here⟩ := all.entry_eq first inside entry some_entry
  obtain ⟨otherNamed, there⟩ := all.entry_eq second within other some_other
  rw [register_unique (all.nodup List.nodup_nil) (mem_register.mpr (named.symm ▸ here))
    (mem_register.mpr (otherNamed.symm ▸ there)), named, otherNamed]

-- names with one hash value are told apart, and found again
example : (lookups (fun _ => 0) {} [⟨1, true, {}⟩, ⟨2, true, {}⟩, ⟨3, false, {}⟩, ⟨2, false, {}⟩]).map (·.2) =
    some [some ⟨1, 0⟩, some ⟨2, 1⟩, none, some ⟨2, 1⟩] := by decide +kernel

end Xrss.Rss
