import Xrss.Main.RunSpec

namespace Xrss.Rss

open Zig

/-- Each channel element has a title element, maybe an empty one. -/
def Body.Titled : Body → Prop
  | .tree _ _ children => ∀ node ∈ children, node.hasTag Config.TAG_NAME_CHANNEL →
      ∃ child ∈ node.children, Node.isProperty Channel.Property.title child
  | .malformed _ => True

instance : (body : Body) → Decidable body.Titled
  | .tree _ _ children =>
    inferInstanceAs (Decidable (∀ node ∈ children, node.hasTag Config.TAG_NAME_CHANNEL →
      ∃ child ∈ node.children, Node.isProperty Channel.Property.title child))
  | .malformed _ => isTrue trivial

theorem title_of_titled {response : Response} {parser : Parse}
    (parsed : Client.parse response = .ok parser) (titled : response.body.Titled) :
    ∀ channel ∈ parser.data.channels, channel.props.get .title ≠ none := by
  obtain ⟨name, attrs, children, body, _, rfl⟩ := Client.parse_eq_ok.mp parsed
  simp only [Body.Titled, body] at titled
  intro channel member
  obtain ⟨node, listed, rfl⟩ := List.mem_map.mp member
  obtain ⟨there, tagged⟩ := List.mem_filter.mp listed
  obtain ⟨child, inside, title⟩ := titled node there tagged
  have found : (node.children.find? (Node.isProperty Channel.Property.title)).isSome :=
    List.find?_isSome.mpr ⟨child, inside, title⟩
  simpa [Node.denoteChannel, Node.denoteProps, Option.isSome_iff_ne_none] using found

section Read

variable {κ : Type} [DecidableEq κ] {reason : Panic} (different : .assertion ≠ reason) (capacity : Nat)

include different

theorem take_avoids (length : Nat) : (CacheReader.take capacity length).Avoids reason :=
  Decoder.Avoids.take different _ _ _

theorem takeU64_avoids : (CacheReader.takeU64 capacity).Avoids reason :=
  Decoder.Avoids.takeInt different _ _ _

theorem readSlots_avoids (keys : List κ) (props : EnumArray κ (Option Bytes)) :
    (readSlots capacity keys props).Avoids reason := by
  induction keys generalizing props with
  | nil => exact .pure props
  | cons key rest ih =>
    exact .bind (takeU64_avoids different _) fun _ =>
      .ite (.bind (take_avoids different _ _) fun _ => ih _) (ih _)

theorem readChannel_avoids : (readChannel capacity).Avoids reason := by
  have item : (readItem capacity).Avoids reason :=
    .bind (readSlots_avoids different _ _ _) fun _ => .pure _
  exact .bind (readSlots_avoids different _ _ _) fun _ => .bind (takeU64_avoids different _) fun _ =>
    .ite (.fail _) (.bind (.times item _) fun _ => .pure _)

theorem read_avoids : (Data.read {} capacity).Avoids reason := by
  rw [read_empty]
  exact .bind (take_avoids different _ _) fun _ => .ite (.fail _) <|
    .bind (takeU64_avoids different _) fun _ => .ite (.fail _) <|
      .bind (.times (readChannel_avoids different _) _) fun _ => .pure _

end Read

end Xrss.Rss

namespace Xrss.Main

open Zig Rss

theorem openCache_avoids (faults : Faults) (file : CacheFile) :
    (openCache faults file).Avoids .unwrapNull := by
  have file (content : Bytes) : (readFile faults content).Avoids .unwrapNull := by
    unfold readFile
    split
    · exact read_avoids (by decide) _ _
    · exact .mapError (read_avoids (by decide) _ _) _
  unfold openCache
  refine .ite (fun _ => .error _) fun _ => .ite (fun _ => .error _) fun _ => ?_
  split
  · exact .ok _
  · exact .bind (.mapError (file _) _) fun _ _ => .ok _

theorem compareItem_avoids (item : Item) (itemIdx : Nat) (toDelete : ArrayList Nat)
    (cacheItem : Item) : (compareItem item itemIdx toDelete cacheItem).Avoids .unwrapNull := by
  have date (missing : MergeError) (prop : Option Bytes) :
      (parseDate missing prop).Avoids .unwrapNull := parseDate_avoids (by decide) (by decide) _ _
  have append : (toDelete.appendAssumeCapacity itemIdx : Outcome MergeError _).Avoids .unwrapNull := by
    unfold ArrayList.appendAssumeCapacity
    split
    · exact .ok _
    · exact .panic (by decide)
  refine .bind (.ofOption _ _) fun _ _ => .bind (.ofOption _ _) fun _ _ => ?_
  refine .ite (fun _ => ?_) fun _ => .ok _
  refine .bind (date _ _) fun _ _ => .bind (date _ _) fun _ _ => ?_
  exact .ite (fun _ => append) fun _ => .ok _

theorem compareChannel_avoids (grow : Growth) (state : MergeState) (channel cacheChannel : Channel) :
    (compareChannel grow state channel cacheChannel).Avoids .unwrapNull := by
  have date (missing : MergeError) (prop : Option Bytes) :
      (parseDate missing prop).Avoids .unwrapNull := parseDate_avoids (by decide) (by decide) _ _
  have scan (toDelete : ArrayList Nat) :
      (scanItems channel.items cacheChannel.items toDelete).Avoids .unwrapNull :=
    foldlM_avoids (fun entry _ toDelete =>
      foldlM_avoids (fun cacheItem _ toDelete => compareItem_avoids _ _ toDelete cacheItem) toDelete) _
  have remove (indexes : List Nat) :
      (orderedRemoveMany channel.items indexes : Outcome MergeError _).Avoids .unwrapNull :=
    .ite (fun _ => .ok _) fun _ => .panic nofun
  refine .bind (date _ _) fun _ _ => .bind (date _ _) fun _ _ => ?_
  refine .ite (fun _ => ?_) fun _ => .ok _
  exact .bind (scan _) fun _ _ => .bind (remove _) fun _ _ => .ok _

theorem merge_avoids {grow : Growth} {data cache : Data}
    (titled : ∀ channel ∈ data.channels, Titled cache.channels channel) :
    (merge grow data cache).Avoids .unwrapNull := by
  refine .bind (foldlM_avoids (fun channel member state => ?_) _) fun _ _ => .ok _
  rw [mergeChannel_of_titled (titled channel member)]
  cases findCached cache.channels channel with
  | none => exact .ok _
  | some cacheChannel => exact compareChannel_avoids _ _ _ _

theorem printOutput_avoids {output : Data}
    (titled : ∀ channel ∈ output.channels, channel.props.get .title ≠ none) :
    (printOutput output : Outcome RunError Bytes).Avoids .unwrapNull := by
  refine .bind (mapM_avoids fun channel member => ?_) fun _ _ => .ok _
  obtain ⟨title, own⟩ := Option.ne_none_iff_exists'.mp (titled channel member)
  simp only [printChannel, own, Outcome.unwrap, Outcome.ok_bind, Outcome.pure_eq_ok]
  exact .ok _

theorem finish_avoids {grow : Growth} {faults : Faults} {data : Data} {cache : Option Data}
    (own : ∀ channel ∈ data.channels, channel.props.get .title ≠ none)
    (titled : ∀ cached, cache = some cached →
      ∀ channel ∈ data.channels, Titled cached.channels channel) :
    (finish grow faults data cache).Avoids .unwrapNull := by
  have merged : (mergeOutput grow data cache).Avoids .unwrapNull := by
    cases cache with
    | none => exact .ok _
    | some cached => exact .mapError (merge_avoids (titled cached rfl)) _
  refine .bind merged fun output completed => .bind (printOutput_avoids ?_) fun _ _ =>
    .ite (fun _ => .error _) fun _ => .ok _
  cases cache with
  | none =>
    cases completed
    exact own
  | some cached =>
    rw [merge_ok (Outcome.mapError_eq_ok.mp completed)]
    intro channel member
    obtain ⟨fetched, listed, kept⟩ := List.mem_filterMap.mp member
    rw [props_of_fresh kept]
    exact own fetched listed

/-- In front of the first cached channel of a fetched channel's title, no
cached channel has lost its title. -/
def TitlesFound (event : RunEvent) : Prop :=
  ∀ parser ∈ (Client.parse event.input.response).toOption,
    ∀ found ∈ (openCache event.input.faults event.before).toOption, ∀ cache ∈ found,
      ∀ channel ∈ parser.data.channels, ∀ cacheChannel ∈ cache.channels.takeWhile
        (fun cacheChannel => cacheChannel.props.get .title != channel.props.get .title),
        cacheChannel.props.get .title ≠ none

instance (event : RunEvent) :
    Decidable (TitlesFound event) := by
  unfold TitlesFound
  infer_instance

theorem answer_avoids {grow : Growth} {file : CacheFile} {visit : Visit}
    (parses : ∃ parser, Client.parse visit.response = .ok parser) (titled : visit.response.body.Titled)
    (found : TitlesFound ((session grow).event file visit)) :
    ((session grow).answer file visit).Avoids .unwrapNull := by
  obtain ⟨parser, parsed⟩ := parses
  have own := title_of_titled parsed titled
  change (run grow visit.faults file visit.response).outcome.Avoids .unwrapNull
  cases opened : openCache visit.faults file with
  | error failure => simp [run, prepare, parsed, opened, Outcome.Avoids]
  | panic reason =>
    have other := openCache_avoids visit.faults file
    simpa [run, prepare, parsed, opened, Outcome.Avoids] using other
  | ok cache =>
    by_cases created : visit.faults.createFile = true
    · simp [run, prepare, parsed, opened, created, Outcome.Avoids]
    · have prepared : prepare visit.faults file visit.response = .ok (parser.data, cache) :=
        prepare_eq_ok.mpr ⟨parser, parsed, rfl, opened, by simpa using created⟩
      have wrote : (writeFile visit.faults parser.data).2.Avoids .unwrapNull := by
        unfold writeFile
        split
        · exact .ok _
        · exact .error _
      rw [run_of_prepared prepared]
      refine .bind wrote fun _ _ => finish_avoids own fun cached same channel member => ?_
      subst same
      exact ⟨fun _ => own channel member, found parser (Outcome.toOption_eq_some.mpr parsed) (some cached)
        (Outcome.toOption_eq_some.mpr opened) cached rfl channel member⟩

/-- When every document gives its channels titles and no step meets a cached
channel without one, no run unwraps a `null` title. -/
theorem titles_never_null (grow : Growth) (start : CacheFile) (visits : List Visit)
    (parses : ∀ visit ∈ visits, ∃ parser, Client.parse visit.response = .ok parser)
    (titled : ∀ visit ∈ visits, visit.response.body.Titled)
    (found : ∀ event ∈ (session grow).history start visits, TitlesFound event) :
    ∀ event ∈ (session grow).history start visits, event.output ≠ .panic .unwrapNull := by
  intro event member
  have here := found event member
  obtain ⟨before, visit, after, rfl, rfl⟩ := (session grow).mem_history member
  exact answer_avoids (parses visit (by simp)) (titled visit (by simp)) here

theorem titles_never_null_news :
    ∃ visits : List Visit, visits.length = 2 ∧
      ∀ event ∈ (session .std).history none visits, event.output ≠ .panic .unwrapNull := by
  let visits : List Visit := List.replicate 2 (.fetch (newsFeed none []) (by decide +kernel))
  have parses : ∀ visit ∈ visits, (Client.parse visit.response).toOption.isSome := by
    decide +kernel
  exact ⟨visits, rfl, titles_never_null .std none visits (fun visit member =>
    Outcome.exists_of_isSome (parses visit member)) (by decide +kernel) (by decide +kernel)⟩

/-- An empty title is stored as none, and the next run unwraps it. -/
theorem title_null_on_second_run :
    ∃ visit : Visit, (∃ parser, Client.parse visit.response = .ok parser) ∧
      visit.response.body.Titled ∧
      ∃ event ∈ (session .std).history none [visit, visit], event.output = .panic .unwrapNull := by
  refine ⟨.fetch (.rss [.plain Config.TAG_NAME_CHANNEL [.plain Config.TAG_NAME_TITLE []]])
    (by decide +kernel), Outcome.exists_of_isSome (by decide +kernel), ?_⟩
  decide +kernel

end Xrss.Main
