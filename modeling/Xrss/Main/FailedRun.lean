import Xrss.Main.RunSpec

namespace Xrss.Main

open Zig Rss

/-- The run gives up before it creates the cache file anew. -/
inductive StopsEarly (faults : Faults) (content : Bytes) : Prop where
  | openDir (failed : faults.openDir = true)
  | openFile (failed : faults.openFile = true)
  | unreadable (failed : ∀ result, readFile faults content ≠ .ok result)
  | createFile (failed : faults.createFile = true)

theorem prepare_completes {faults : Faults} {content : Bytes} {response : Response} {parser : Parse}
    (parsed : Client.parse response = .ok parser) :
    (∃ cache, prepare faults (some content) response = .ok (parser.data, cache)) ↔
      ¬ StopsEarly faults content := by
  simp only [prepare_eq_ok]
  constructor
  · intro success stops
    rcases success with ⟨cache, _, _, _, opened, created⟩
    obtain ⟨⟨dir, file⟩, found⟩ := openCache_eq_ok.mp opened
    cases stops with
    | openDir failed => simp [failed] at dir
    | openFile failed => simp [failed] at file
    | createFile failed => simp [failed] at created
    | unreadable failed =>
      rcases found with ⟨absent, _⟩ | ⟨_, _, _, same, read, _⟩
      · cases absent
      · cases same
        exact failed _ read
  · intro continues
    have readable : ∃ result, readFile faults content = .ok result := by
      by_contra unreadable
      exact continues (.unreadable fun result read => unreadable ⟨result, read⟩)
    obtain ⟨⟨cache, rest⟩, read⟩ := readable
    have openDir : faults.openDir = false := by
      simpa using fun failed => continues (.openDir failed)
    have openFile : faults.openFile = false := by
      simpa using fun failed => continues (.openFile failed)
    have createFile : faults.createFile = false := by
      simpa using fun failed => continues (.createFile failed)
    have opened : openCache faults (some content) = .ok (some cache) :=
      openCache_eq_ok.mpr ⟨⟨openDir, openFile⟩, .inr ⟨content, cache, rest, rfl, read, rfl⟩⟩
    exact ⟨some cache, parser, parsed, rfl, opened, createFile⟩

/-- The part of these bytes that gets through before writing fails. -/
def Faults.written (faults : Faults) (image : Bytes) : Bytes :=
  match faults.writeLimit with
  | none => image
  | some limit => image.take limit

theorem writeFile_fst (faults : Faults) (data : Data) :
    (writeFile faults data).1 = faults.written data.write := by
  rw [writeFile, Faults.written]
  cases faults.writeLimit <;> rfl

/-- The run ends in an error after `createFile`. -/
inductive FailsLate (grow : Growth) (faults : Faults) (content : Bytes) (data : Data) : Prop where
  | write (limited : faults.writeLimit ≠ none)
  | merge {cache : Data} {rest : Bytes} {failure : MergeError}
      (read : readFile faults content = .ok (cache, rest))
      (refused : merge grow data cache = .error failure)
  | print {cache output : Data} {rest stdout : Bytes}
      (read : readFile faults content = .ok (cache, rest))
      (merged : merge grow data cache = .ok output)
      (rendered : (printOutput output : Outcome RunError Bytes) = .ok stdout)
      (failed : faults.print = true)

/-- Printing stops at nothing but a missing title. -/
theorem printOutput_ne_error {ε : Type} (output : Data) (failure : ε) :
    printOutput output ≠ .error failure := by
  have each (channel : Channel) : printChannel channel ≠ (.error failure : Outcome ε Bytes) := by
    cases own : channel.props.get .title <;> simp [printChannel, own, Outcome.unwrap]
  intro failed
  obtain parts | ⟨_, _, closed⟩ := Outcome.bind_eq_error.mp failed
  · exact mapM_ne_error each _ parts
  · cases closed

theorem finish_eq_error {grow : Growth} {faults : Faults} {data cache : Data} :
    (∃ failure, finish grow faults data (some cache) = .error failure) ↔
      (∃ failure, merge grow data cache = .error failure) ∨
        ∃ output stdout, merge grow data cache = .ok output ∧
          (printOutput output : Outcome RunError Bytes) = .ok stdout ∧ faults.print = true := by
  rw [finish, mergeOutput]
  cases merge grow data cache with
  | error failure => simp
  | panic reason => simp
  | ok output =>
    cases rendered : (printOutput output : Outcome RunError Bytes) with
    | error failure => exact absurd rendered (printOutput_ne_error output failure)
    | panic reason => simp [rendered]
    | ok stdout => cases faults.print <;> simp [rendered]

/-- What a run writes that gets to `createFile`, and when it still fails. -/
theorem failsLate_iff {grow : Growth} {faults : Faults} {content : Bytes} {response : Response}
    {data cache : Data} {rest : Bytes}
    (prepared : prepare faults (some content) response = .ok (data, some cache))
    (read : readFile faults content = .ok (cache, rest)) :
    (∃ failure, (run grow faults (some content) response).outcome = .error failure) ↔
      FailsLate grow faults content data := by
  rw [run_of_prepared prepared, writeFile]
  cases limited : faults.writeLimit with
  | some limit => exact ⟨fun _ => .write (by simp [limited]), fun _ => ⟨.writeFailed, rfl⟩⟩
  | none =>
    rw [Outcome.ok_bind, finish_eq_error]
    constructor
    · rintro (⟨failure, refused⟩ | ⟨output, stdout, merged, rendered, failed⟩)
      · exact .merge read refused
      · exact .print read merged rendered failed
    · intro fails
      cases fails with
      | write limits => exact absurd limited limits
      | merge found refused =>
        cases read.symm.trans found
        exact .inl ⟨_, refused⟩
      | print found merged rendered failed =>
        cases read.symm.trans found
        exact .inr ⟨_, _, merged, rendered, failed⟩

/-- A run leaves the cache as it was exactly when it stops before `createFile`, or the bytes that
reach the new file are those that were there. Of a run that fails, this has to be asked only when
it fails after `createFile`. -/
theorem run_keeps_cache_iff (grow : Growth) (faults : Faults) (content : Bytes)
    (response : Response) (parser : Parse) (parsed : Client.parse response = .ok parser) :
    ((run grow faults (some content) response).file = some content ↔
      StopsEarly faults content ∨ faults.written parser.data.write = content) ∧
    ((∀ failure, (run grow faults (some content) response).outcome = .error failure →
        (run grow faults (some content) response).file = some content) ↔
      (FailsLate grow faults content parser.data →
        StopsEarly faults content ∨ faults.written parser.data.write = content)) := by
  by_cases stops : StopsEarly faults content
  · have kept : (run grow faults (some content) response).file = some content := by
      refine (run_of_unprepared ?_).1
      rintro ⟨data, cache⟩ prepared
      obtain ⟨_, again, rfl, _⟩ := prepare_eq_ok.mp prepared
      cases parsed.symm.trans again
      exact (prepare_completes parsed).mp ⟨cache, prepared⟩ stops
    simp [stops, kept]
  · obtain ⟨cache, prepared⟩ := (prepare_completes parsed).mpr stops
    obtain ⟨cache, rest, rfl, read⟩ : ∃ found rest, cache = some found ∧
        readFile faults content = .ok (found, rest) := by
      obtain ⟨_, _, _, opened, _⟩ := prepare_eq_ok.mp prepared
      obtain ⟨_, ⟨absent, _⟩ | ⟨_, found, rest, same, read, rfl⟩⟩ := openCache_eq_ok.mp opened
      · cases absent
      · cases same
        exact ⟨found, rest, rfl, read⟩
    have written : (run grow faults (some content) response).file =
        some (faults.written parser.data.write) := by
      rw [run_of_prepared prepared, writeFile_fst]
    rw [← failsLate_iff prepared read, written]
    simp [stops]

/-- A run that can write no more than twenty bytes, and one that cannot create the file. -/
theorem run_keeps_cache_news :
    ∃ content response parser, content ≠ [] ∧ Client.parse response = .ok parser ∧
      FailsLate .std { writeLimit := some 20 } content parser.data ∧
      (run .std { writeLimit := some 20 } (some content) response).file ≠ some content ∧
      (run .std { createFile := true } (some content) response).file = some content := by
  let response : Response := .checked
    (newsFeed (some (bytes "Sat, 07 Sep 2002 09:42:31 GMT")) [bytes "1"]) (by decide +kernel)
  have parses : ∃ parser ∈ (Client.parse response).toOption, parser.data.write ≠ [] ∧
      parser.data.write.take 20 ≠ parser.data.write ∧
      (readFile { writeLimit := some 20 } parser.data.write).toOption.isSome := by decide +kernel
  obtain ⟨parser, returned, filled, cut, readable⟩ := parses
  have parsed := Outcome.toOption_eq_some.mp returned
  obtain ⟨result, read⟩ := Outcome.exists_of_isSome readable
  refine ⟨parser.data.write, response, parser, filled, parsed, .write (by simp), ?_, ?_⟩
  · intro kept
    rcases (run_keeps_cache_iff .std _ _ response parser parsed).1.mp kept with stops | same
    · cases stops with
      | unreadable failed => exact failed result read
      | openDir failed => cases failed
      | openFile failed => cases failed
      | createFile failed => cases failed
    · exact cut same
  · exact (run_keeps_cache_iff .std _ _ response parser parsed).1.mpr (.inl (.createFile rfl))

/-- A run that fails for want of a build date has replaced the cache by then. -/
theorem failed_run_replaces_cache :
    ∃ content first second, (run .std {} none first).file = some content ∧
      (run .std {} (some content) second).outcome = .error (.merge .missingBuildDate) ∧
      (run .std {} (some content) second).file ≠ some content := by
  refine ⟨_, .checked (newsFeed (some (bytes "Sat, 07 Sep 2002 09:42:31 GMT")) []) (by decide +kernel),
    .checked (newsFeed none []) (by decide +kernel), rfl, ?_⟩
  decide +kernel

end Xrss.Main
