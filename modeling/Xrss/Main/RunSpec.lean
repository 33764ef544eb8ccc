import Xrss.Main.MergeSpec
import Xrss.Main.Run

namespace Xrss.Main

open Zig Rss

theorem prepare_eq_ok {faults : Faults} {file : CacheFile} {response : Response} {data : Data}
    {cache : Option Data} :
    prepare faults file response = .ok (data, cache) ↔
      ∃ parser, Client.parse response = .ok parser ∧ parser.data = data ∧
        openCache faults file = .ok cache ∧ faults.createFile = false := by
  simp only [prepare, Outcome.bind_eq_ok, Outcome.mapError_eq_ok]
  constructor
  · intro success
    rcases success with ⟨parser, parsed, opened, found, checked⟩
    split at checked
    · cases checked
    · rename_i created
      cases checked
      exact ⟨parser, parsed, rfl, found, by simpa using created⟩
  · intro conditions
    rcases conditions with ⟨parser, parsed, rfl, opened, created⟩
    exact ⟨parser, parsed, cache, opened, by simp [created]⟩

/-- A cache file is found only in an open directory; one that is there is read. -/
theorem openCache_eq_ok {faults : Faults} {file : CacheFile} {cache : Option Data} :
    openCache faults file = .ok cache ↔
      (faults.openDir = false ∧ faults.openFile = false) ∧
        (file = none ∧ cache = none ∨ ∃ content found rest, file = some content ∧
          readFile faults content = .ok (found, rest) ∧ cache = some found) := by
  unfold openCache
  cases faults.openDir with
  | true => simp
  | false =>
    cases faults.openFile with
    | true => simp
    | false =>
      cases file with
      | none => simp [eq_comm]
      | some content =>
        simp only [Bool.false_eq_true, if_false, Outcome.bind_eq_ok, Outcome.mapError_eq_ok]
        simp [@eq_comm _ _ cache]

theorem run_of_prepared {grow : Growth} {faults : Faults} {file : CacheFile} {response : Response}
    {data : Data} {cache : Option Data} (prepared : prepare faults file response = .ok (data, cache)) :
    run grow faults file response =
      ⟨some (writeFile faults data).1,
        (writeFile faults data).2 >>= fun _ => finish grow faults data cache⟩ := by
  simp [run, prepared]

/-- A run that stops before `createFile` leaves the cache file alone. -/
theorem run_of_unprepared {grow : Growth} {faults : Faults} {file : CacheFile} {response : Response}
    (unprepared : ∀ result, prepare faults file response ≠ .ok result) :
    (run grow faults file response).file = file ∧
      ∀ printed, (run grow faults file response).outcome ≠ .ok printed := by
  unfold run
  cases prepared : prepare faults file response with
  | ok result => exact absurd prepared (unprepared result)
  | error failure => exact ⟨rfl, nofun⟩
  | panic reason => exact ⟨rfl, nofun⟩

/-- What a completed run went through. -/
structure Completed (grow : Growth) (visit : Visit) (file : CacheFile) (printed : Printed)
    (data : Data) (cache : Option Data) : Prop where
  parsed : Client.parse visit.response = .ok { data, state := .«end» }
  opened : openCache visit.faults file = .ok cache
  merged : mergeOutput grow data cache = .ok printed.output
  rendered : (printOutput printed.output : Outcome RunError Bytes) = .ok printed.stdout
  written : (session grow).next file visit = some data.write

theorem parse_data {response : Response} {parser : Parse} (parsed : Client.parse response = .ok parser) :
    Client.parse response = .ok { data := parser.data, state := .«end» } := by
  obtain ⟨_, _, _, _, _, rfl⟩ := Client.parse_eq_ok.mp parsed
  exact parsed

theorem completed_of_answer {grow : Growth} {visit : Visit} {file : CacheFile} {printed : Printed}
    (answered : (session grow).answer file visit = .ok printed) :
    ∃ data cache, Completed grow visit file printed data cache := by
  have outcome : (run grow visit.faults file visit.response).outcome = .ok printed := answered
  by_cases ready : ∃ result, prepare visit.faults file visit.response = .ok result
  · obtain ⟨⟨data, cache⟩, prepared⟩ := ready
    obtain ⟨parser, parsed, rfl, opened, _⟩ := prepare_eq_ok.mp prepared
    rw [run_of_prepared prepared] at outcome
    obtain ⟨_, wrote, finished⟩ := Outcome.bind_eq_ok.mp outcome
    simp only [finish, Outcome.bind_eq_ok] at finished
    obtain ⟨output, merged, stdout, rendered, closed⟩ := finished
    split at closed
    · cases closed
    · cases closed
      refine ⟨parser.data, cache, parse_data parsed, opened, merged, rendered, ?_⟩
      have next : (session grow).next file visit = some (writeFile visit.faults parser.data).1 := by
        simp [session, run_of_prepared prepared]
      rw [next]
      unfold writeFile at wrote ⊢
      split
      · rfl
      · rename_i limited
        rw [limited] at wrote
        cases wrote
  · push Not at ready
    exact absurd outcome ((run_of_unprepared ready).2 printed)

end Xrss.Main
