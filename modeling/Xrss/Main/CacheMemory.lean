import Xrss.Main.Display
import Xrss.Main.Session
import Xrss.Rss.CacheImage

/-! What the cache file means to the next run: nothing yet, the feed of the last run
that wrote it, or bytes that no run will get past. -/

namespace Xrss.Main

open Zig Rss Decoder

inductive Memory where
  | empty
  | holds (data : Data)
  | broken
  deriving DecidableEq

namespace Memory

/-- What a run finds that reads the file without faults. -/
def ofFile : CacheFile → Memory
  | none => .empty
  | some content =>
    ((Data.read {} ioBuf.capacity).run content).toOption.elim .broken fun found => .holds found.1

def ofCache : Option Data → Memory
  | none => .empty
  | some data => .holds data

/-- What is left of a feed by a run that got to writing it. -/
def ofWrite (faults : Faults) (data : Data) : Memory :=
  if (writeFile faults data).1 = data.write ∧ data.Within ioBuf.limits then .holds data.cached
  else .broken

/-- The channels a completed run puts out of a feed. -/
def prints (data : Data) : Memory → List Channel
  | .empty => data.channels
  | .holds cache => data.channels.filterMap (fresh cache.channels)
  | .broken => []

end Memory

/-- The memory a run stores when it gets to writing the file. -/
def stored (event : RunEvent) : Option Memory :=
  (prepare event.input.faults event.before event.input.response).toOption.map fun ready =>
    .ofWrite event.input.faults ready.1

/-- What is remembered after some runs: what the last of them stored that did. -/
def remembered (start : Memory) (past : List RunEvent) : Memory :=
  past.foldl (fun memory event => (stored event).getD memory) start

theorem ofFile_eq_holds {file : CacheFile} {data : Data} :
    Memory.ofFile file = .holds data ↔ ∃ content rest, file = some content ∧
      (Data.read {} ioBuf.capacity).run content = .ok (data, rest) := by
  cases file with
  | none => simp [Memory.ofFile]
  | some content =>
    cases read : (Data.read {} ioBuf.capacity).run content <;>
      simp [Memory.ofFile, read, Outcome.toOption, Prod.ext_iff]

theorem ofFile_eq_broken {file : CacheFile} :
    Memory.ofFile file = .broken ↔ ∃ content, file = some content ∧
      ∀ result, (Data.read {} ioBuf.capacity).run content ≠ .ok result := by
  cases file with
  | none => simp [Memory.ofFile]
  | some content =>
    cases read : (Data.read {} ioBuf.capacity).run content <;>
      simp [Memory.ofFile, read, Outcome.toOption, Prod.ext_iff]

/-- Of all that a broken off transfer may leave, only the whole image of data within the
limits can be read. -/
theorem ofFile_part {data : Data} (usize : data.Within .usize) {part : Bytes}
    (isPart : part <+: data.write) :
    Memory.ofFile (some part) =
      if part = data.write ∧ data.Within ioBuf.limits then .holds data.cached else .broken := by
  have decodes := decodes_read ioBuf data usize
  rw [← List.append_nil data.write] at isPart
  split
  · rename_i whole
    obtain ⟨rfl, within⟩ := whole
    have read := decodes.accepts within []
    rw [List.append_nil] at read
    exact ofFile_eq_holds.mpr ⟨_, [], rfl, read⟩
  · rename_i partial_
    refine ofFile_eq_broken.mpr ⟨part, rfl, fun result read => partial_ ?_⟩
    obtain ⟨tail, whole⟩ := isPart
    have extended := (read_streams ioBuf.capacity).frames part result.1 result.2 tail read
    rw [whole] at extended
    by_cases within : data.Within ioBuf.limits
    · rw [decodes.accepts within] at extended
      have nothing := congrArg Prod.snd (Outcome.ok.inj extended)
      obtain ⟨_, rfl⟩ := List.append_eq_nil_iff.mp nothing.symm
      exact ⟨by simpa using whole, within⟩
    · exact absurd extended (decodes.rejects within [] _)

theorem writeFile_written (faults : Faults) (data : Data) : (writeFile faults data).1 <+: data.write := by
  unfold writeFile
  split
  · exact List.prefix_rfl
  · exact List.take_prefix _ _

theorem ofFile_next (grow : Growth) (file : CacheFile) (visit : Visit) :
    Memory.ofFile ((session grow).next file visit) =
      (stored ((session grow).event file visit)).getD (Memory.ofFile file) := by
  have event : stored ((session grow).event file visit) =
      (prepare visit.faults file visit.response).toOption.map fun ready =>
        .ofWrite visit.faults ready.1 := rfl
  by_cases ready : ∃ result, prepare visit.faults file visit.response = .ok result
  · obtain ⟨⟨data, cache⟩, prepared⟩ := ready
    obtain ⟨parser, parsed, rfl, _⟩ := prepare_eq_ok.mp prepared
    have next : (session grow).next file visit = some (writeFile visit.faults parser.data).1 := by
      simp [session, run_of_prepared prepared]
    rw [event, prepared, next, ofFile_part (Client.usize_of_parse parsed) (writeFile_written _ _)]
    rfl
  · push Not at ready
    have next : (session grow).next file visit = file := (run_of_unprepared ready).1
    have nothing : (prepare visit.faults file visit.response).toOption = none := by
      cases prepared : prepare visit.faults file visit.response with
      | ok result => exact absurd prepared (ready result)
      | error failure => rfl
      | panic reason => rfl
    rw [next, event, nothing]
    rfl

theorem ofFile_final (grow : Growth) (start : CacheFile) (visits : List Visit) :
    Memory.ofFile ((session grow).final start visits) =
      remembered (.ofFile start) ((session grow).history start visits) :=
  (session grow).view_final (ofFile_next grow) start visits

theorem ofFile_of_opened {faults : Faults} {file : CacheFile} {cache : Option Data}
    (opened : openCache faults file = .ok cache) :
    Memory.ofFile file = .ofCache cache := by
  cases cache with
  | none =>
    rw [openCache_none opened]
    rfl
  | some data =>
    obtain ⟨content, rest, rfl, read⟩ := openCache_some opened
    obtain ⟨unread, whole⟩ := readFile_faultless read
    exact ofFile_eq_holds.mpr ⟨content, unread, rfl, whole⟩

/-- A completed run prints of its feed what the memory it found leaves of it. -/
theorem prints_of_answer {grow : Growth} {file : CacheFile} {visit : Visit} {printed : Printed}
    (answered : (session grow).answer file visit = .ok printed) :
    ∃ data, Client.parse visit.response = .ok { data, state := .«end» } ∧
      Memory.ofFile file ≠ .broken ∧ printed.output.channels = (Memory.ofFile file).prints data := by
  obtain ⟨data, cache, completed⟩ := completed_of_answer answered
  refine ⟨data, completed.parsed, ?_⟩
  rw [ofFile_of_opened completed.opened]
  cases cache with
  | none =>
    have everything : data = printed.output := Outcome.ok.inj completed.merged
    exact ⟨nofun, by rw [← everything]; rfl⟩
  | some cache => exact ⟨nofun, merge_ok (Outcome.mapError_eq_ok.mp completed.merged)⟩

/-- Runs before the last one that wrote the file make no difference: what a completed run
prints is settled by its feed and by what that one stored. -/
theorem prints_against_last_stored (grow : Growth) (start : CacheFile) (before : List Visit)
    (visit : Visit) (printed : Printed)
    (answered : (session grow).answer ((session grow).final start before) visit = .ok printed) :
    ∃ data, Client.parse visit.response = .ok { data, state := .«end» } ∧
      remembered (.ofFile start) ((session grow).history start before) ≠ .broken ∧
      printed.output.channels =
        (remembered (.ofFile start) ((session grow).history start before)).prints data ∧
      printed.stdout = ((remembered (.ofFile start)
        ((session grow).history start before)).prints data).flatMap titledText := by
  rw [← ofFile_final]
  obtain ⟨data, parsed, readable, prints⟩ := prints_of_answer answered
  exact ⟨data, parsed, readable, prints, prints ▸ stdout_of_answer answered⟩

/-- The second run of a feed that has not changed. -/
theorem prints_against_last_stored_news :
    ∃ (visit : Visit) (printed : Printed) (data : Data),
      Client.parse visit.response = .ok { data, state := .«end» } ∧ printed.output.channels =
        (remembered .empty ((session .std).history none [visit])).prints data ∧
      printed.stdout = ((remembered .empty
        ((session .std).history none [visit])).prints data).flatMap titledText := by
  let visit : Visit := .fetch
    (newsFeed (some (bytes "Sat, 07 Sep 2002 09:42:31 GMT")) [bytes "1"]) (by decide +kernel)
  have completes : ((session .std).answer ((session .std).final none [visit]) visit).toOption.isSome := by
    decide +kernel
  obtain ⟨printed, answered⟩ := Outcome.exists_of_isSome completes
  obtain ⟨data, parsed, _, prints⟩ :=
    prints_against_last_stored .std none [visit] visit printed answered
  exact ⟨visit, printed, data, parsed, prints⟩

theorem unprepared_of_broken {file : CacheFile} (broken : Memory.ofFile file = .broken)
    (faults : Faults) (response : Response) (ready : Data × Option Data) :
    prepare faults file response ≠ .ok ready := by
  intro prepared
  obtain ⟨_, _, _, opened, _⟩ := prepare_eq_ok.mp prepared
  rw [ofFile_of_opened opened] at broken
  cases found : ready.2 <;> simp [found, Memory.ofCache] at broken

theorem final_of_broken {grow : Growth} {start : CacheFile} (broken : Memory.ofFile start = .broken)
    (visits : List Visit) : (session grow).final start visits = start := by
  apply Transition.Machine.final_of_stays
  intro visit _
  exact (run_of_unprepared (unprepared_of_broken broken visit.faults visit.response)).1

/-- Once the file cannot be read, no run completes and none ever replaces it, whatever
feeds they fetch. -/
theorem unreadable_cache_is_final (grow : Growth) (start : CacheFile)
    (broken : Memory.ofFile start = .broken) (visits : List Visit) :
    (session grow).final start visits = start ∧
      ∀ event ∈ (session grow).history start visits, ∀ printed, event.output ≠ .ok printed := by
  refine ⟨final_of_broken broken visits, fun event member printed => ?_⟩
  obtain ⟨before, visit, after, _, rfl⟩ := (session grow).mem_history member
  rw [final_of_broken broken before]
  exact (run_of_unprepared (unprepared_of_broken broken visit.faults visit.response)).2 printed

/-- A run whose write broke off in the build date, and two runs after it. -/
theorem unreadable_cache_is_final_cut :
    ∃ (visit : Visit) (cut : Bytes), (session .std).next none visit = some cut ∧ cut.length = 80 ∧
      (session .std).final (some cut) newsTwice = some cut ∧
      ∀ event ∈ (session .std).history (some cut) newsTwice,
        ∀ printed, event.output ≠ .ok printed := by
  let response : Response := .checked
    (newsFeed (some (bytes "Sat, 07 Sep 2002 09:42:31 GMT")) [bytes "1"]) (by decide +kernel)
  let visit : Visit := { faults := { writeLimit := some 80 }, response }
  have cut : ∃ cut ∈ (session .std).next none visit, cut.length = 80 ∧
      Memory.ofFile (some cut) = .broken := by decide +kernel
  obtain ⟨content, written, length, broken⟩ := cut
  exact ⟨visit, content, written, length,
    unreadable_cache_is_final .std (some content) broken newsTwice⟩

theorem remembered_broken {start : Memory} {past : List RunEvent}
    (broken : remembered start past = .broken) :
    start = .broken ∨ ∃ event ∈ past, stored event = some .broken := by
  induction past using List.reverseRecOn with
  | nil => exact .inl broken
  | append_singleton past event ih =>
    rw [remembered, List.foldl_append, List.foldl_cons, List.foldl_nil] at broken
    cases storing : stored event with
    | some memory =>
      rw [storing, Option.getD_some] at broken
      exact .inr ⟨event, by simp, by rw [storing, broken]⟩
    | none =>
      rw [storing, Option.getD_none] at broken
      rcases ih broken with before | found
      · exact .inl before
      · obtain ⟨earlier, member, storing⟩ := found
        exact .inr ⟨earlier, by simp [member], storing⟩

/-- What a run has stored in a file that can no longer be read stays there. -/
theorem broken_of_stored {grow : Growth} {start : CacheFile} {visits : List Visit} {event : RunEvent}
    (member : event ∈ (session grow).history start visits) (storing : stored event = some .broken) :
    Memory.ofFile ((session grow).final start visits) = .broken := by
  obtain ⟨before, visit, after, rfl, rfl⟩ := (session grow).mem_history member
  have broken : Memory.ofFile ((session grow).next ((session grow).final start before) visit) =
      .broken := by
    rw [ofFile_next, storing, Option.getD_some]
  have later : (session grow).final start (before ++ visit :: after) =
      (session grow).final ((session grow).next ((session grow).final start before) visit) after := by
    simp [Transition.Machine.final]
  rw [later, final_of_broken broken after]
  exact broken

theorem stored_eq_broken {event : RunEvent} :
    stored event = some .broken ↔ ∃ data cache,
      prepare event.input.faults event.before event.input.response = .ok (data, cache) ∧
        ¬ ((writeFile event.input.faults data).1 = data.write ∧ data.Within ioBuf.limits) := by
  simp only [stored, Option.map_eq_some_iff, Outcome.toOption_eq_some, Memory.ofWrite]
  constructor
  · intro found
    obtain ⟨⟨data, cache⟩, prepared, broken⟩ := found
    refine ⟨data, cache, prepared, fun whole => ?_⟩
    rw [if_pos whole] at broken
    cases broken
  · intro found
    obtain ⟨data, cache, prepared, bad⟩ := found
    exact ⟨(data, cache), prepared, if_neg bad⟩

/-- The URL is lost exactly when some run got to writing the file and left less than the
whole image there, or the image of a feed beyond the limits of `read`. -/
theorem cache_unreadable_iff (grow : Growth) (visits : List Visit) :
    Memory.ofFile ((session grow).final none visits) = .broken ↔
      ∃ event ∈ (session grow).history none visits, ∃ data cache,
        prepare event.input.faults event.before event.input.response = .ok (data, cache) ∧
          ¬ ((writeFile event.input.faults data).1 = data.write ∧ data.Within ioBuf.limits) := by
  simp only [← stored_eq_broken]
  constructor
  · intro broken
    rw [ofFile_final] at broken
    rcases remembered_broken broken with impossible | found
    · cases impossible
    · exact found
  · intro found
    obtain ⟨event, member, storing⟩ := found
    exact broken_of_stored member storing

end Xrss.Main
