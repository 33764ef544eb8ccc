import Xrss.Rss.Config
import Xrss.Zig.Base64

namespace Xrss.Main

open Zig Rss

inductive ArgsError where
  | argumentCountMismatch
  | urlTooLong
  deriving Repr, DecidableEq

/-- The checks on the arguments; the first of them is the program. -/
def checkArgs : List Bytes → Outcome ArgsError Bytes
  | [_, url] => if url.length > 255 then .error .urlTooLong else .ok url
  | _ => .error .argumentCountMismatch

/-- `std.base64.url_safe_no_pad`. -/
def base64 : Base64Encoder where
  alphabetChars := bytes "ABCDEFGHIJKLMNOPQRSTUVWXYZabcdefghijklmnopqrstuvwxyz0123456789-_"
  length := rfl
  distinct := by decide +kernel

/-- `aa.alloc(u8, len)`: what the memory holds is not defined. -/
def alloc (fresh : Nat → UInt8) (len : Nat) : Bytes := (List.range len).map fresh

/-- `@memcpy(dest[start..], source)`, which demands equal lengths. -/
def memcpy (dest : Bytes) (start : Nat) (source : Bytes) : Outcome ε Bytes :=
  if start > dest.length then .panic .outOfBounds
  else if (dest.drop start).length ≠ source.length then .panic .assertion
  else .ok (dest.take start ++ source)

def bufLen (url : Bytes) : Nat := Base64.calcSize url.length + Config.XRSS_FILE_EXT.length

/-- `name_buf` when it is handed to `openFile` and `createFile`. -/
def cacheName (fresh : Nat → UInt8) (url : Bytes) : Outcome Empty Bytes := do
  let (nameBuf, basenameLen) ← base64.encode (alloc fresh (bufLen url)) url
  memcpy nameBuf basenameLen Config.XRSS_FILE_EXT

@[simp] theorem length_alloc (fresh : Nat → UInt8) (len : Nat) : (alloc fresh len).length = len := by
  simp [alloc]

theorem memcpy_append {front back source : Bytes} (same : back.length = source.length) :
    (memcpy (front ++ back) front.length source : Outcome ε Bytes) = .ok (front ++ source) := by
  simp [memcpy, same]

/-- The name of the file, as bytes that no longer depend on a buffer. -/
def fileName (url : Bytes) : Bytes := base64.encoded url ++ Config.XRSS_FILE_EXT

/-- Nothing of what the memory held before is left in the name. -/
theorem cacheName_eq_ok (fresh : Nat → UInt8) (url : Bytes) :
    cacheName fresh url = .ok (fileName url) := by
  have room : Base64.calcSize url.length ≤ (alloc fresh (bufLen url)).length := by
    rw [length_alloc]
    exact Nat.le_add_right _ _
  have back : ((alloc fresh (bufLen url)).drop (Base64.calcSize url.length)).length =
      Config.XRSS_FILE_EXT.length := by
    rw [List.length_drop, length_alloc]
    exact Nat.add_sub_cancel_left _ _
  rw [cacheName, base64.encode_eq_ok room, Outcome.ok_bind]
  simp only [← base64.length_encoded]
  apply memcpy_append
  rwa [base64.length_encoded]

example : cacheName (fun _ => 0xaa) (bytes "http://x.y/?d=>>") =
    .ok (bytes "aHR0cDovL3gueS8_ZD0-Pg.xrss") := by
  decide +kernel

theorem length_fileName (url : Bytes) : (fileName url).length = bufLen url := by
  simp [fileName, bufLen]

theorem fileName_injective : Function.Injective fileName := by
  intro left right same
  apply base64.encoded_injective
  exact List.append_cancel_right same

/-- The bytes that separate the components of a path, on one system or another. -/
def pathSeparators : Bytes := bytes "/\\"

/-- The usual limit on the length of a component. -/
def NAME_MAX : Nat := 255

/-- A name that a directory can hold a file under. -/
structure PathComponent (name : Bytes) : Prop where
  separators : ∀ byte ∈ name, byte ∉ pathSeparators
  length_le : name.length ≤ NAME_MAX

theorem fileName_separators (url : Bytes) : ∀ byte ∈ fileName url, byte ∉ pathSeparators := by
  have alphabet : ∀ byte ∈ base64.alphabetChars, byte ∉ pathSeparators := by decide +kernel
  have extension : ∀ byte ∈ Config.XRSS_FILE_EXT, byte ∉ pathSeparators := by decide +kernel
  intro byte member
  rcases List.mem_append.mp member with basename | suffix
  · exact alphabet byte (base64.encoded_subset url basename)
  · exact extension byte suffix

/-- Four bytes of the name for three of the URL leave room for 187 of them. -/
theorem length_fileName_le_iff (url : Bytes) :
    (fileName url).length ≤ NAME_MAX ↔ url.length ≤ 187 := by
  have extension : Config.XRSS_FILE_EXT.length = 5 := rfl
  rw [length_fileName, bufLen, Base64.calcSize_eq, extension, NAME_MAX]
  omega

/-- The name that `main` makes of the URL: it fills the buffer, no other URL has it,
and a file can be opened under it. -/
structure NamesCache (url name : Bytes) : Prop where
  made : ∀ fresh, cacheName fresh url = .ok name
  basename : name = base64.encoded url ++ Config.XRSS_FILE_EXT
  filled : name.length = bufLen url
  own : ∀ other fresh, cacheName fresh other = .ok name → other = url
  component : PathComponent name

theorem NamesCache.eq_fileName {url name : Bytes} (names : NamesCache url name) :
    name = fileName url := names.basename

theorem NamesCache.length_le {url name : Bytes} (names : NamesCache url name) :
    url.length ≤ 187 := by
  apply (length_fileName_le_iff url).mp
  rw [← names.eq_fileName]
  exact names.component.length_le

theorem namesCache_fileName {url : Bytes} (short : url.length ≤ 187) :
    NamesCache url (fileName url) where
  made fresh := cacheName_eq_ok fresh url
  basename := rfl
  filled := length_fileName url
  own other fresh made := by
    rw [cacheName_eq_ok] at made
    apply fileName_injective
    exact Outcome.ok.inj made
  component := ⟨fileName_separators url, (length_fileName_le_iff url).mpr short⟩

theorem checkArgs_eq_ok (program url : Bytes) :
    checkArgs [program, url] = .ok url ↔ url.length ≤ 255 := by
  by_cases long : url.length > 255
  · simp [checkArgs, long]
  · have short : url.length ≤ 255 := Nat.le_of_not_gt long
    simp [checkArgs, short]

/-- The limit of 255 bytes is on the URL, and the name is a third longer than that. -/
theorem accepted_url_names_cache_iff (program url : Bytes) :
    (checkArgs [program, url] = .ok url → ∃ name, NamesCache url name) ↔
      url.length ≤ 187 ∨ 255 < url.length := by
  rw [checkArgs_eq_ok]
  constructor
  · intro served
    rcases Nat.lt_or_ge 255 url.length with rejected | accepted
    · exact .inr rejected
    · obtain ⟨name, names⟩ := served accepted
      exact .inl names.length_le
  · intro condition accepted
    rcases condition with short | rejected
    · exact ⟨fileName url, namesCache_fileName short⟩
    · exact absurd accepted (by omega)

/-- A URL of 188 bytes, well within the limit. -/
def longUrl : Bytes := bytes "https://example.org/" ++ List.replicate 168 0x61

theorem long_url_names_no_cache :
    checkArgs [bytes "xrss", longUrl] = .ok longUrl ∧ ¬ ∃ name, NamesCache longUrl name := by
  have length : longUrl.length = 188 := by decide +kernel
  constructor
  · apply (checkArgs_eq_ok _ _).mpr
    omega
  · intro named
    obtain ⟨name, names⟩ := named
    have short := names.length_le
    omega

end Xrss.Main
