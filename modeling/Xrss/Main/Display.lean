import Xrss.Main.RunSpec
import Xrss.Zig.Lines

/-! What a run prints, read back: without line breaks in its values the text tells exactly which
channels and items the run went through. -/

namespace Xrss.Main

open Zig Rss

def itemLabel (key : Item.Property) : Bytes :=
  bytes "      " ++ padded key.generic.displayName ++ bytes " "

def channelLabel (key : Channel.Property) : Bytes :=
  bytes "  " ++ padded key.generic.displayName ++ bytes " "

/-- The properties of a channel that are printed below its title. -/
def channelKeys : List Channel.Property := EnumKey.values.filter (· ≠ .title)

theorem itemLabels : Labels 0x0A itemLabel EnumKey.values (bytes "    \x7d") where
  apart := by decide +kernel
  plain := by decide +kernel
  stopPlain := by decide +kernel
  stops := by decide +kernel

theorem channelLabels : Labels 0x0A channelLabel channelKeys (bytes "  Items [") where
  apart := by decide +kernel
  plain := by decide +kernel
  stopPlain := by decide +kernel
  stops := by decide +kernel

/-- Printing slot by slot is a line for each filled slot, but for those that are skipped. -/
theorem flatMap_iterator {κ : Type} [EnumKey κ] (label : κ → Bytes) (keep : κ → Bool)
    (props : EnumArray κ (Option Bytes)) {print : κ × Option Bytes → Bytes}
    (skipped : ∀ key value, keep key = false → print (key, value) = [])
    (empty : ∀ key, print (key, none) = [])
    (filled : ∀ key val, keep key = true → print (key, some val) = label key ++ val ++ [0x0A]) :
    props.iterator.flatMap print = writeSlots 0x0A label (EnumKey.values.filter keep) props.get := by
  rw [EnumArray.iterator, writeSlots]
  induction (EnumKey.values : List κ) with
  | nil => rfl
  | cons key rest ih =>
    rw [List.map_cons, List.flatMap_cons, ih]
    cases kept : keep key with
    | false => rw [skipped key _ kept, List.filter_cons_of_neg (by simp [kept]), List.nil_append]
    | true =>
      rw [List.filter_cons_of_pos kept, List.flatMap_cons]
      cases value : props.get key with
      | none => rw [empty]; rfl
      | some val => rw [filled key val kept]; rfl

theorem printItem_eq (item : Item) :
    printItem item = bytes "    Item \x7b\n" ++
      (writeSlots 0x0A itemLabel EnumKey.values item.props.get ++ (bytes "    \x7d" ++ [0x0A])) := by
  rw [printItem, flatMap_iterator itemLabel (fun _ => true) item.props (by simp) (fun _ => rfl)
    (fun _ _ _ => rfl), List.filter_true, List.append_assoc]
  rfl

/-- What is printed for a channel of this title. -/
def channelText (title : Bytes) (channel : Channel) : Bytes :=
  bytes "Channel " ++ title ++ bytes " \x7b" ++ [0x0A] ++
    (writeSlots 0x0A channelLabel channelKeys channel.props.get ++ (bytes "  Items [" ++ [0x0A]) ++
      (channel.items.flatMap printItem ++ bytes "  ]\n" ++ bytes "\x7d\n"))

theorem printChannel_eq {ε : Type} {channel : Channel} {title : Bytes}
    (titled : channel.props.get .title = some title) :
    (printChannel channel : Outcome ε Bytes) = .ok (channelText title channel) := by
  rw [printChannel, titled, Outcome.unwrap, Outcome.ok_bind,
    flatMap_iterator channelLabel (· ≠ .title) channel.props]
  · have opening : bytes " \x7b\n" = bytes " \x7b" ++ [0x0A] := by decide +kernel
    have items : bytes "  Items [\n" = bytes "  Items [" ++ [0x0A] := by decide +kernel
    have closing : bytes "  ]\n\x7d\n" = bytes "  ]\n" ++ bytes "\x7d\n" := by decide +kernel
    rw [opening, items, closing, channelText, channelKeys]
    simp only [List.append_assoc, Outcome.pure_eq_ok]
  · intro key value skipped
    have title : key = .title := by simpa using skipped
    rw [title]
  · intro key
    cases key <;> rfl
  · intro key val kept
    cases key with
    | title => simp at kept
    | _ => rfl

/-- No value breaks a line. -/
def SlotsUnbroken {κ : Type} (props : EnumArray κ (Option Bytes)) : Prop :=
  ∀ key, ∀ value ∈ props.get key, 0x0A ∉ value

instance {κ : Type} [EnumKey κ] (props : EnumArray κ (Option Bytes)) :
    Decidable (SlotsUnbroken props) :=
  decidable_of_iff (∀ key ∈ (EnumKey.values : List κ), ∀ value ∈ props.get key, 0x0A ∉ value)
    ⟨fun unbroken key => unbroken key (EnumKey.complete key), fun unbroken key _ => unbroken key⟩

theorem delimits_printItem : Delimits (fun item : Item => SlotsUnbroken item.props) printItem := by
  intro item item' rest rest' unbroken unbroken' same
  have lines : writeSlots 0x0A itemLabel EnumKey.values item.props.get ++
        (bytes "    \x7d" ++ [0x0A]) ++ rest =
      writeSlots 0x0A itemLabel EnumKey.values item'.props.get ++
        (bytes "    \x7d" ++ [0x0A]) ++ rest' := by
    simpa only [printItem_eq, List.append_assoc, List.append_cancel_left_eq] using same
  obtain ⟨slots, ended⟩ :=
    itemLabels.slots_eq (fun key _ => unbroken key) (fun key _ => unbroken' key) lines
  refine ⟨?_, ended⟩
  obtain ⟨props⟩ := item
  obtain ⟨props'⟩ := item'
  congr 1
  exact EnumArray.ext (funext fun key => slots key (EnumKey.complete key))

theorem printItem_ne (item : Item) (rest rest' : Bytes) :
    printItem item ++ rest ≠ bytes "  ]\n" ++ rest' := by
  rw [printItem_eq, List.append_assoc]
  intro same
  have third := congrArg (List.take 3) same
  rw [List.take_append_of_le_length (by decide +kernel), List.take_append_of_le_length (by decide +kernel)]
    at third
  exact absurd third (by decide +kernel)

structure ChannelUnbroken (channel : Channel) : Prop where
  props : SlotsUnbroken channel.props
  items : ∀ item ∈ channel.items, SlotsUnbroken item.props

instance (channel : Channel) : Decidable (ChannelUnbroken channel) :=
  decidable_of_iff (SlotsUnbroken channel.props ∧ ∀ item ∈ channel.items, SlotsUnbroken item.props)
    ⟨fun ⟨props, items⟩ => ⟨props, items⟩, fun unbroken => ⟨unbroken.props, unbroken.items⟩⟩

def titledText (channel : Channel) : Bytes := channelText ((channel.props.get .title).getD []) channel

theorem delimits_titledText :
    Delimits (fun channel => channel.props.get .title ≠ none ∧ ChannelUnbroken channel) titledText := by
  intro channel channel' rest rest' good good' same
  obtain ⟨titled, unbroken⟩ := good
  obtain ⟨titled', unbroken'⟩ := good'
  obtain ⟨title, own⟩ := Option.ne_none_iff_exists'.mp titled
  obtain ⟨title', own'⟩ := Option.ne_none_iff_exists'.mp titled'
  have headed : (bytes "Channel " ++ title ++ bytes " \x7b") ++ [0x0A] ++
        (writeSlots 0x0A channelLabel channelKeys channel.props.get ++ (bytes "  Items [" ++ [0x0A]) ++
          (channel.items.flatMap printItem ++ bytes "  ]\n" ++ (bytes "\x7d\n" ++ rest))) =
      (bytes "Channel " ++ title' ++ bytes " \x7b") ++ [0x0A] ++
        (writeSlots 0x0A channelLabel channelKeys channel'.props.get ++ (bytes "  Items [" ++ [0x0A]) ++
          (channel'.items.flatMap printItem ++ bytes "  ]\n" ++ (bytes "\x7d\n" ++ rest'))) := by
    simpa only [titledText, own, own', Option.getD_some, channelText, List.append_assoc] using same
  have opening : (0x0A : UInt8) ∉ bytes "Channel " ∧ (0x0A : UInt8) ∉ bytes " \x7b" := by decide +kernel
  obtain ⟨heading, slotted⟩ := Delimits.line 0x0A _ _ _ _
    (by simp [opening, unbroken.props .title title own])
    (by simp [opening, unbroken'.props .title title' own']) headed
  obtain rfl : title = title' := List.append_cancel_left (List.append_cancel_right heading)
  obtain ⟨slots, listed⟩ := channelLabels.slots_eq (fun key _ => unbroken.props key)
    (fun key _ => unbroken'.props key) slotted
  obtain ⟨items, closed⟩ := (delimits_printItem.flatMap printItem_ne) _ _ _ _ unbroken.items
    unbroken'.items listed
  refine ⟨?_, List.append_cancel_left closed⟩
  obtain ⟨props, channelItems⟩ := channel
  obtain ⟨props', channelItems'⟩ := channel'
  congr 1
  apply EnumArray.ext
  funext key
  by_cases same : key = .title
  · rw [same]
    exact own.trans own'.symm
  · exact slots key (List.mem_filter.mpr ⟨EnumKey.complete key, by simpa using same⟩)

theorem titledText_ne_nil (channel : Channel) : titledText channel ≠ [] := by
  simp [titledText, channelText]

/-- Printing comes to an end exactly when all titles are there. -/
theorem printOutput_eq_ok {ε : Type} {output : Data} {stdout : Bytes} :
    (printOutput output : Outcome ε Bytes) = .ok stdout ↔
      (∀ channel ∈ output.channels, channel.props.get .title ≠ none) ∧
        stdout = output.channels.flatMap titledText := by
  have each (channel : Channel) (text : Bytes) :
      (printChannel channel : Outcome ε Bytes) = .ok text ↔
        channel.props.get .title ≠ none ∧ text = titledText channel := by
    cases own : channel.props.get .title with
    | none => simp [printChannel, own, Outcome.unwrap]
    | some title => simp [printChannel_eq own, titledText, own, eq_comm]
  simp only [printOutput, Outcome.bind_eq_ok, mapM_eq_ok each, Outcome.pure_eq_ok, Outcome.ok.injEq]
  constructor
  · intro success
    obtain ⟨_, ⟨titled, rfl⟩, rfl⟩ := success
    exact ⟨titled, by rw [List.flatMap_def]⟩
  · intro conditions
    obtain ⟨titled, rfl⟩ := conditions
    exact ⟨_, ⟨titled, rfl⟩, by rw [List.flatMap_def]⟩

theorem stdout_of_answer {grow : Growth} {file : CacheFile} {visit : Visit} {printed : Printed}
    (answered : (session grow).answer file visit = .ok printed) :
    printed.stdout = printed.output.channels.flatMap titledText := by
  obtain ⟨_, _, completed⟩ := completed_of_answer answered
  exact (printOutput_eq_ok.mp completed.rendered).2

theorem stdout_of_event {grow : Growth} {start : CacheFile} {visits : List Visit} {event : RunEvent}
    {printed : Printed} (member : event ∈ (session grow).history start visits)
    (output : event.output = .ok printed) :
    printed.stdout = printed.output.channels.flatMap titledText := by
  obtain ⟨_, _, _, _, rfl⟩ := (session grow).mem_history member
  exact stdout_of_answer output

/-- As long as no value breaks a line, what a run has printed tells all it went through. -/
theorem printOutput_injective {ε : Type} {output output' : Data} {stdout : Bytes}
    (unbroken : ∀ channel ∈ output.channels, ChannelUnbroken channel)
    (unbroken' : ∀ channel ∈ output'.channels, ChannelUnbroken channel)
    (printed : (printOutput output : Outcome ε Bytes) = .ok stdout)
    (printed' : (printOutput output' : Outcome ε Bytes) = .ok stdout) : output = output' := by
  obtain ⟨titled, text⟩ := printOutput_eq_ok.mp printed
  obtain ⟨titled', text'⟩ := printOutput_eq_ok.mp printed'
  have channels := delimits_titledText.flatMap_inj titledText_ne_nil
    (fun channel member => ⟨titled channel member, unbroken channel member⟩)
    (fun channel member => ⟨titled' channel member, unbroken' channel member⟩) (text.symm.trans text')
  obtain ⟨channels⟩ := output
  exact congrArg Data.mk channels

/-- A channel whose link goes on in the next line, and one with that line as its description. -/
theorem printOutput_ambiguous :
    ∃ output output' : Data, output ≠ output' ∧
      (printOutput output : Outcome RunError Bytes) = printOutput output' := by
  let titled : EnumArray Channel.Property (Option Bytes) :=
    (EnumArray.initFill none).set .title (some (bytes "News"))
  refine ⟨⟨[{ props := titled.set .link (some (bytes "a\n  Description      b")) }]⟩,
    ⟨[{ props := (titled.set .link (some (bytes "a"))).set .description (some (bytes "b")) }]⟩, ?_⟩
  decide +kernel

/-- Runs that print the same have gone through the same channels and items, as long as no value
breaks a line. -/
theorem stdout_tells_output (grow grow' : Growth) (file file' : CacheFile) (visit visit' : Visit)
    (printed printed' : Printed) (answered : (session grow).answer file visit = .ok printed)
    (answered' : (session grow').answer file' visit' = .ok printed')
    (unbroken : ∀ channel ∈ printed.output.channels, ChannelUnbroken channel)
    (unbroken' : ∀ channel ∈ printed'.output.channels, ChannelUnbroken channel)
    (same : printed.stdout = printed'.stdout) : printed.output = printed'.output := by
  obtain ⟨_, _, completed⟩ := completed_of_answer answered
  obtain ⟨_, _, completed'⟩ := completed_of_answer answered'
  exact printOutput_injective unbroken unbroken' (same ▸ completed.rendered) completed'.rendered

/-- A feed of one item, and a feed of two of which the cache has the other. -/
theorem stdout_tells_output_news :
    ∃ (file : CacheFile) (visit visit' : Visit) (printed printed' : Printed),
      (session .std).answer none visit = .ok printed ∧
        (session .std).answer file visit' = .ok printed' ∧ file ≠ none ∧
        printed.output = printed'.output := by
  let fetch (guids : List Bytes) (computed) : Visit :=
    .fetch (newsFeed (some (bytes "Sat, 07 Sep 2002 09:42:31 GMT")) guids) computed
  let former : Visit := fetch [bytes "0"] (by decide +kernel)
  let visit : Visit := fetch [bytes "1"] (by decide +kernel)
  let visit' : Visit := fetch [bytes "0", bytes "1"] (by decide +kernel)
  have both : ∃ printed ∈ ((session .std).answer none visit).toOption,
      ∃ printed' ∈ ((session .std).answer ((session .std).next none former) visit').toOption,
        (∀ channel ∈ printed.output.channels, ChannelUnbroken channel) ∧
          (∀ channel ∈ printed'.output.channels, ChannelUnbroken channel) ∧
            printed.stdout = printed'.stdout := by decide +kernel
  obtain ⟨printed, returned, printed', returned', unbroken, unbroken', same⟩ := both
  have answered := Outcome.toOption_eq_some.mp returned
  have answered' := Outcome.toOption_eq_some.mp returned'
  exact ⟨_, visit, visit', printed, printed', answered, answered', by decide +kernel,
    stdout_tells_output .std .std _ _ _ _ _ _ answered answered' unbroken unbroken' same⟩

end Xrss.Main
