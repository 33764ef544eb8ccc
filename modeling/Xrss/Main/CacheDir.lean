import Mathlib.Logic.Function.Basic
import Xrss.Main.CacheName
import Xrss.Main.RunSpec
import Xrss.Transition.Projection

namespace Xrss.Main

open Zig Rss Transition

def HELP_STR : Bytes := bytes "xrss [--help | \x7burl\x7d]\n"

/-- How the file system tells the names of files apart: two names with one key are one file. -/
structure FileNames where
  key : Bytes → Bytes
  length_key : ∀ name, (key name).length = name.length

namespace FileNames

/-- No two names are one file. -/
def exact : FileNames := ⟨id, fun _ => rfl⟩

def toLower (byte : UInt8) : UInt8 := if 0x41 ≤ byte ∧ byte ≤ 0x5a then byte + 0x20 else byte

/-- Names that differ in the case of letters are one file, as they usually are on Windows and macOS. -/
def caseless : FileNames := ⟨List.map toLower, fun _ => List.length_map _⟩

end FileNames

/-- The files of the cache directory by the keys of their names. -/
abbrev CacheDir := Bytes → CacheFile

/-- A call of the program: its arguments, the answer to its request, if that succeeded,
and what goes wrong. -/
structure Invocation where
  args : List Bytes
  fetched : Option Response
  faults : Faults := {}
  fresh : Nat → UInt8

inductive MainError where
  | args (failure : ArgsError)
  | print
  | requestFailed
  | run (failure : RunError)
  deriving Repr, DecidableEq

/-- What a call that succeeds has printed. -/
inductive Report where
  | help (stdout : Bytes)
  | feed (printed : Printed)

structure MainResult where
  dir : CacheDir
  outcome : Outcome MainError Report

/-- A name that is too long is none that `openFile` finds missing. -/
def Faults.opening (faults : Faults) (name : Bytes) : Faults :=
  { faults with openFile := faults.openFile || decide (NAME_MAX < name.length) }

def report (outcome : Outcome RunError Printed) : Outcome MainError Report := do
  let printed ← outcome.mapError .run
  pure (.feed printed)

def printHelp (faults : Faults) : Outcome MainError Report :=
  if faults.print then .error .print else .ok (.help HELP_STR)

/-- `main` from the request on. The name is made only after the feed was parsed, which
is the same since that cannot fail. -/
def fetchFeed (grow : Growth) (names : FileNames) (dir : CacheDir) (invocation : Invocation)
    (url : Bytes) : MainResult :=
  match invocation.fetched with
  | none => ⟨dir, .error .requestFailed⟩
  | some response =>
    match cacheName invocation.fresh url with
    | .ok name =>
      let result := run grow (invocation.faults.opening name) (dir (names.key name)) response
      ⟨Function.update dir (names.key name) result.file, report result.outcome⟩
    | .error failure => failure.elim
    | .panic reason => ⟨dir, .panic reason⟩

def main (grow : Growth) (names : FileNames) (dir : CacheDir) (invocation : Invocation) : MainResult :=
  match checkArgs invocation.args with
  | .error failure => ⟨dir, .error (.args failure)⟩
  | .panic reason => ⟨dir, .panic reason⟩
  | .ok argument =>
    if argument = bytes "--help" then ⟨dir, printHelp invocation.faults⟩
    else fetchFeed grow names dir invocation argument

/-- Successive calls of the program. -/
def program (grow : Growth) (names : FileNames) :
    Machine CacheDir Invocation (Outcome MainError Report) where
  answer dir invocation := (main grow names dir invocation).outcome
  next dir invocation := (main grow names dir invocation).dir

/-- The visit that a call pays to a URL. -/
def Invocation.visit (url : Bytes) (invocation : Invocation) : Option Visit :=
  if checkArgs invocation.args = .ok url ∧ url ≠ bytes "--help" then
    invocation.fetched.map fun response => ⟨invocation.faults.opening (fileName url), response⟩
  else none

theorem Invocation.visit_eq_some {url : Bytes} {invocation : Invocation} {visit : Visit} :
    invocation.visit url = some visit ↔
      (checkArgs invocation.args = .ok url ∧ url ≠ bytes "--help") ∧
        ∃ response, invocation.fetched = some response ∧
          ⟨invocation.faults.opening (fileName url), response⟩ = visit := by
  unfold Invocation.visit
  split
  · rename_i accepted
    simp [accepted]
  · rename_i refused
    exact ⟨nofun, fun found => absurd found.1 refused⟩

/-- The visit that a call pays to a file of the cache directory. -/
def Invocation.visitFile (names : FileNames) (file : Bytes) (invocation : Invocation) : Option Visit :=
  match checkArgs invocation.args with
  | .ok url => if names.key (fileName url) = file then invocation.visit url else none
  | _ => none

theorem Invocation.visitFile_eq_some {names : FileNames} {file : Bytes} {invocation : Invocation}
    {visit : Visit} : invocation.visitFile names file = some visit ↔
      ∃ url, names.key (fileName url) = file ∧ invocation.visit url = some visit := by
  constructor
  · intro visited
    unfold Invocation.visitFile at visited
    split at visited
    · rename_i url checked
      simp only [Option.ite_none_right_eq_some] at visited
      exact ⟨url, visited⟩
    · cases visited
  · rintro ⟨url, same, visited⟩
    obtain ⟨⟨checked, _⟩, _⟩ := Invocation.visit_eq_some.mp visited
    simp only [Invocation.visitFile, checked, if_pos same, visited]

theorem exists_of_report {outcome : Outcome RunError Printed} {shown : Report}
    (succeeded : report outcome = .ok shown) : ∃ printed, outcome = .ok printed := by
  obtain ⟨printed, completed, _⟩ := Outcome.bind_eq_ok.mp succeeded
  exact ⟨printed, Outcome.mapError_eq_ok.mp completed⟩

theorem main_of_visit {grow : Growth} {names : FileNames} {dir : CacheDir} {invocation : Invocation}
    {url : Bytes} {visit : Visit} (visited : invocation.visit url = some visit) :
    let file := names.key (fileName url)
    main grow names dir invocation =
      ⟨Function.update dir file ((session grow).next (dir file) visit),
        report ((session grow).answer (dir file) visit)⟩ := by
  obtain ⟨⟨checked, feed⟩, response, fetched, rfl⟩ := Invocation.visit_eq_some.mp visited
  simp only [main, checked, if_neg feed, fetchFeed, fetched, cacheName_eq_ok, session]

/-- A call touches the file of the URL it was made with and no other. -/
theorem main_dir_of_unvisited {grow : Growth} {names : FileNames} {dir : CacheDir}
    {invocation : Invocation} {file : Bytes} (unvisited : invocation.visitFile names file = none) :
    (main grow names dir invocation).dir file = dir file := by
  unfold main
  cases checked : checkArgs invocation.args with
  | error failure => rfl
  | panic reason => rfl
  | ok url =>
    by_cases help : url = bytes "--help"
    · simp only [if_pos help]
    · simp only [if_neg help, fetchFeed]
      cases fetched : invocation.fetched with
      | none => rfl
      | some response =>
        have other : file ≠ names.key (fileName url) := by
          rintro rfl
          simp [Invocation.visitFile, Invocation.visit, checked, help, fetched] at unvisited
        simp only [cacheName_eq_ok]
        exact Function.update_of_ne other _ _

/-- Calls for URLs of other files leave the runs against a file undisturbed. -/
def fileProjection (grow : Growth) (names : FileNames) (file : Bytes) :
    Projection (program grow names) (session grow) where
  view dir := dir file
  select := Invocation.visitFile names file
  name := report
  answers dir invocation visit visited := by
    obtain ⟨url, rfl, called⟩ := Invocation.visitFile_eq_some.mp visited
    simp only [program, main_of_visit called]
  moves dir invocation visit visited := by
    obtain ⟨url, rfl, called⟩ := Invocation.visitFile_eq_some.mp visited
    simp only [program, main_of_visit called, Function.update_self]
  stays _ _ unvisited := main_dir_of_unvisited unvisited

/-- Where no two names are one file, the calls for the file of a URL are those for the URL. -/
theorem visitFile_of_injective {names : FileNames} (exact : Function.Injective names.key) (url : Bytes) :
    Invocation.visitFile names (names.key (fileName url)) = Invocation.visit url := by
  funext invocation
  apply Option.ext
  intro visit
  rw [Invocation.visitFile_eq_some]
  constructor
  · rintro ⟨other, same, visited⟩
    exact fileName_injective (exact same) ▸ visited
  · exact fun visited => ⟨url, rfl, visited⟩

/-- Two URLs that share a file where the case of letters does not count. -/
example : FileNames.caseless.key (fileName (bytes "https://x.yz/fee/G")) =
    FileNames.caseless.key (fileName (bytes "https://x.yz/fee/a")) := by
  decide +kernel

/-- A run that cannot open the cache file fails before it replaces it. -/
theorem session_unopened {grow : Growth} {file : CacheFile} {visit : Visit}
    (unopened : visit.faults.openFile = true) :
    (session grow).next file visit = file ∧ ∀ printed, (session grow).answer file visit ≠ .ok printed := by
  apply run_of_unprepared
  intro result prepared
  obtain ⟨_, _, _, opened, _⟩ := prepare_eq_ok.mp prepared
  obtain ⟨⟨_, openFile⟩, _⟩ := openCache_eq_ok.mp opened
  simp [unopened] at openFile

theorem Invocation.visit_unopened {url : Bytes} {invocation : Invocation} {visit : Visit}
    (long : NAME_MAX < (fileName url).length) (visited : invocation.visit url = some visit) :
    visit.faults.openFile = true := by
  obtain ⟨_, _, _, rfl⟩ := Invocation.visit_eq_some.mp visited
  simp [Faults.opening, long]

/-- A URL of more than 187 bytes is never served, and no file is made under its name, whatever
names the file system takes for one. -/
theorem long_url_never_served (grow : Growth) (names : FileNames) {url : Bytes} (long : 187 < url.length)
    (dir : CacheDir) (invocations : List Invocation) :
    let file := names.key (fileName url)
    (program grow names).final dir invocations file = dir file ∧
      ∀ event ∈ (program grow names).history dir invocations, (event.input.visit url).isSome →
        ∀ shown, event.output ≠ .ok shown := by
  intro file
  have overlong (other : Bytes) (same : names.key (fileName other) = file) :
      NAME_MAX < (fileName other).length := by
    have length := congrArg List.length same
    rw [names.length_key, names.length_key] at length
    rw [length]
    apply Nat.lt_of_not_ge
    intro fits
    have short := (length_fileName_le_iff url).mp fits
    omega
  constructor
  · have ended : (program grow names).final dir invocations file =
        (session grow).final (dir file) (invocations.filterMap (Invocation.visitFile names file)) :=
      (fileProjection grow names file).view_final dir invocations
    rw [ended]
    apply Machine.final_of_stays
    intro visit member
    obtain ⟨invocation, _, selected⟩ := List.mem_filterMap.mp member
    obtain ⟨other, same, visited⟩ := Invocation.visitFile_eq_some.mp selected
    exact (session_unopened (Invocation.visit_unopened (overlong other same) visited)).1
  · intro event member visited shown succeeded
    obtain ⟨before, invocation, after, _, rfl⟩ := Machine.mem_history _ member
    obtain ⟨visit, visited⟩ := Option.isSome_iff_exists.mp visited
    have selected : invocation.visitFile names file = some visit :=
      Invocation.visitFile_eq_some.mpr ⟨url, rfl, visited⟩
    have answered := (fileProjection grow names file).answers ((program grow names).final dir before)
      invocation visit selected
    obtain ⟨printed, completed⟩ := exists_of_report (answered.symm.trans succeeded)
    exact (session_unopened (Invocation.visit_unopened (overlong url rfl) visited)).2 printed completed

/-- Two calls for the URL of 188 bytes, whose feed is there. -/
theorem long_url_never_served_call :
    let invocation : Invocation :=
      { args := [bytes "xrss", longUrl]
        fetched := some (Visit.fetch (newsFeed none []) (by decide +kernel)).response
        fresh := fun _ => 0 }
    (program .std .caseless).final (fun _ => none) [invocation, invocation]
        (FileNames.caseless.key (fileName longUrl)) = none ∧
      ∀ event ∈ (program .std .caseless).history (fun _ => none) [invocation, invocation],
        ∀ shown, event.output ≠ .ok shown := by
  intro invocation
  have visited : (invocation.visit longUrl).isSome := by decide +kernel
  obtain ⟨unmade, unserved⟩ := long_url_never_served .std .caseless (by decide +kernel : 187 < longUrl.length)
    (fun _ => none) [invocation, invocation]
  refine ⟨unmade, fun event member => unserved event member ?_⟩
  obtain ⟨before, input, after, same, rfl⟩ := Machine.mem_history _ member
  have only : input = invocation := by
    have listed : input ∈ [invocation, invocation] := by simp [same]
    simpa using listed
  exact only ▸ visited

end Xrss.Main
