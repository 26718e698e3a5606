import Keyfob.Dongle.Basic

/-!
# The course of a device

What happens to a device is a list of events: lines on its links, presses of its button, and
whatever happens outside. A line may crash, and what was to happen after it then does not
(`Dongle.happening`). Lines that are served on a port one after another are such events one after
another (`Dongle.run_lines`). What a press asks for is up to the mode alone (`Dongle.press_eq`).
-/
namespace Keyfob

variable {δ κ φ : Type}

/-- Something that happens to a device. -/
inductive DongleEvent (δ κ φ : Type) where
  /-- A line is served on a link, if the device has that link. -/
  | line (kind : LinkKind) (line : Line)
  /-- A press is handled. -/
  | press (press : ButtonPress)
  /-- The host, the store, the files, the time, the links and the waiting presses become what they
  become outside. -/
  | outside (device : δ) (store : κ) (files : Option φ) (now : Instant)
    (serial wireless : Option Port) (presses : List ButtonPress)

namespace Dongle

/-- The port of a link, if there is one. -/
def port? (dongle : Dongle δ κ φ) : LinkKind → Option Port
  | .serial => dongle.serial
  | .ble => dongle.wireless

/-- The device with a port on a link. -/
def withPort (dongle : Dongle δ κ φ) (kind : LinkKind) (port : Port) : Dongle δ κ φ :=
  match kind with
  | .serial => { dongle with serial := some port }
  | .ble => { dongle with wireless := some port }

/-- The port that was put on a link is on it. -/
theorem port?_withPort (dongle : Dongle δ κ φ) (kind : LinkKind) (port : Port) :
    (dongle.withPort kind port).port? kind = some port := by
  cases kind with
  | serial => rfl
  | ble => rfl

variable [Device δ] [KeyValueStore κ] [FileStore φ]

/-- Serve a line on a link, and leave the device as it is where the line crashes. -/
def serveLine (dongle : Dongle δ κ φ) (kind : LinkKind) (line : Line) : Dongle δ κ φ :=
  match dongle.port? kind with
  | none => dongle
  | some port =>
    let (_, port, core) := port.serveLine dongle.core line
    { dongle.withPort kind port with core := core }

/-- Let something happen. -/
def step (dongle : Dongle δ κ φ) : DongleEvent δ κ φ → Dongle δ κ φ
  | .line kind line => dongle.serveLine kind line
  | .press press => dongle.press press
  | .outside device store files now serial wireless presses =>
    { dongle with
      core := { dongle.core with device := device, store := store, files := files, now := now }
      serial := serial, wireless := wireless, presses := presses }

/-- Let things happen in order. -/
def run (dongle : Dongle δ κ φ) (events : List (DongleEvent δ κ φ)) : Dongle δ κ φ :=
  events.foldl step dongle

/-- What happens in two parts happens in turn. -/
theorem run_append (dongle : Dongle δ κ φ) (first second : List (DongleEvent δ κ φ)) :
    dongle.run (first ++ second) = (dongle.run first).run second := List.foldl_append

/-- How something that happens ends: a line may crash. -/
def outcome (dongle : Dongle δ κ φ) : DongleEvent δ κ φ → Except Crash Unit
  | .line kind line =>
    match dongle.port? kind with
    | none => .ok ()
    | some port => (port.serveLine dongle.core line).1
  | _ => .ok ()

/-- A line ends as it does on its port. -/
theorem outcome_of_some {dongle : Dongle δ κ φ} {kind : LinkKind} {port : Port}
    (there : dongle.port? kind = some port) (line : Line) :
    dongle.outcome (.line kind line) = (port.serveLine dongle.core line).1 := by
  dsimp only [outcome]
  rw [there]

/-- How things end that are to happen in order. The first crash is the end of all. -/
def outcomes (dongle : Dongle δ κ φ) : List (DongleEvent δ κ φ) → Except Crash Unit
  | [] => .ok ()
  | event :: events =>
    match dongle.outcome event with
    | .error crash => .error crash
    | .ok () => outcomes (dongle.step event) events

/-- What of it happens that is to happen in order: all, or everything up to the first crash. -/
def happening (dongle : Dongle δ κ φ) : List (DongleEvent δ κ φ) → List (DongleEvent δ κ φ)
  | [] => []
  | event :: events =>
    event ::
      match dongle.outcome event with
      | .error _ => []
      | .ok () => happening (dongle.step event) events

/-- Something that ends with no crash is followed by the rest. -/
theorem happening_cons_of_ok {dongle : Dongle δ κ φ} {event : DongleEvent δ κ φ}
    (ended : dongle.outcome event = .ok ()) (events : List (DongleEvent δ κ φ)) :
    dongle.happening (event :: events) = event :: (dongle.step event).happening events ∧
      dongle.outcomes (event :: events) = (dongle.step event).outcomes events := by
  rw [happening, outcomes, ended]
  exact ⟨rfl, rfl⟩

/-- Something that crashes is followed by nothing. -/
theorem happening_cons_of_error {dongle : Dongle δ κ φ} {event : DongleEvent δ κ φ} {crash : Crash}
    (crashed : dongle.outcome event = .error crash) (events : List (DongleEvent δ κ φ)) :
    dongle.happening (event :: events) = [event] ∧
      dongle.outcomes (event :: events) = .error crash := by
  rw [happening, outcomes, crashed]
  exact ⟨rfl, rfl⟩

/-- What happens of it is its beginning. -/
theorem happening_isPrefix (dongle : Dongle δ κ φ) (events : List (DongleEvent δ κ φ)) :
    dongle.happening events <+: events := by
  induction events generalizing dongle with
  | nil => exact List.prefix_rfl
  | cons event events ih =>
    cases ended : dongle.outcome event with
    | error crash =>
      rw [(happening_cons_of_error ended events).1]
      exact ⟨events, rfl⟩
    | ok _ =>
      rw [(happening_cons_of_ok ended events).1]
      exact (List.prefix_cons_inj event).mpr (ih (dongle.step event))

/-- Where nothing crashes, all of it happens. -/
theorem happening_of_ok {dongle : Dongle δ κ φ} {events : List (DongleEvent δ κ φ)}
    (ended : dongle.outcomes events = .ok ()) : dongle.happening events = events := by
  induction events generalizing dongle with
  | nil => rfl
  | cons event events ih =>
    cases first : dongle.outcome event with
    | error crash =>
      rw [(happening_cons_of_error first events).2] at ended
      cases ended
    | ok _ =>
      obtain ⟨happens, ends⟩ := happening_cons_of_ok first events
      rw [happens, ih (ends.symm.trans ended)]

/-- A crash is that of the last thing that happens. -/
theorem outcomes_eq_error_iff {dongle : Dongle δ κ φ} {events : List (DongleEvent δ κ φ)}
    {crash : Crash} :
    dongle.outcomes events = .error crash ↔
      ∃ earlier event, dongle.happening events = earlier ++ [event] ∧
        (dongle.run earlier).outcome event = .error crash := by
  induction events generalizing dongle with
  | nil =>
    refine iff_of_false nofun ?_
    rintro ⟨earlier, event, happens, -⟩
    exact List.append_ne_nil_of_right_ne_nil earlier (List.cons_ne_nil _ _) happens.symm
  | cons event events ih =>
    cases first : dongle.outcome event with
    | error other =>
      obtain ⟨happens, ends⟩ := happening_cons_of_error first events
      rw [happens, ends, Except.error.injEq]
      constructor
      · rintro rfl
        exact ⟨[], event, rfl, first⟩
      · rintro ⟨earlier, last, single, crashed⟩
        cases earlier with
        | nil =>
          cases single
          exact Except.error.inj (first.symm.trans crashed)
        | cons _ earlier =>
          have rest := (List.cons.inj single).2
          exact absurd rest.symm (List.append_ne_nil_of_right_ne_nil earlier (List.cons_ne_nil _ _))
    | ok _ =>
      obtain ⟨happens, ends⟩ := happening_cons_of_ok first events
      rw [happens, ends, ih]
      constructor
      · rintro ⟨earlier, last, rest, crashed⟩
        exact ⟨event :: earlier, last, congrArg (event :: ·) rest, crashed⟩
      · rintro ⟨earlier, last, whole, crashed⟩
        cases earlier with
        | nil =>
          obtain ⟨rfl, -⟩ := List.cons.inj whole
          rw [run, List.foldl_nil, first] at crashed
          cases crashed
        | cons _ earlier =>
          obtain ⟨rfl, rest⟩ := List.cons.inj whole
          exact ⟨earlier, last, rest, crashed⟩

/-- What is to happen in two parts happens in turn, if the first part does not crash. -/
theorem happening_append (dongle : Dongle δ κ φ) (first second : List (DongleEvent δ κ φ)) :
    (∀ crash, dongle.outcomes first = .error crash →
      dongle.happening (first ++ second) = dongle.happening first ∧
        dongle.outcomes (first ++ second) = .error crash) ∧
    (dongle.outcomes first = .ok () →
      dongle.happening (first ++ second) = first ++ (dongle.run first).happening second ∧
        dongle.outcomes (first ++ second) = (dongle.run first).outcomes second) := by
  induction first generalizing dongle with
  | nil => exact ⟨nofun, fun _ => ⟨rfl, rfl⟩⟩
  | cons event events ih =>
    rw [List.cons_append]
    cases ended : dongle.outcome event with
    | error other =>
      obtain ⟨happens, ends⟩ := happening_cons_of_error ended events
      obtain ⟨happens', ends'⟩ := happening_cons_of_error ended (events ++ second)
      rw [happens, ends, happens', ends']
      exact ⟨fun crash same => ⟨rfl, same⟩, nofun⟩
    | ok _ =>
      obtain ⟨happens, ends⟩ := happening_cons_of_ok ended events
      obtain ⟨happens', ends'⟩ := happening_cons_of_ok ended (events ++ second)
      obtain ⟨crashing, going⟩ := ih (dongle.step event)
      rw [happens, ends, happens', ends']
      refine ⟨fun crash crashed => ?_, fun survived => ?_⟩
      · obtain ⟨same, end_⟩ := crashing crash crashed
        exact ⟨congrArg (event :: ·) same, end_⟩
      · obtain ⟨same, end_⟩ := going survived
        exact ⟨congrArg (event :: ·) same, end_⟩

/-- Presses do not crash. -/
theorem outcomes_presses (dongle : Dongle δ κ φ) (presses : List ButtonPress) :
    dongle.outcomes (presses.map .press) = .ok () := by
  induction presses generalizing dongle with
  | nil => rfl
  | cons button presses ih => exact ih (dongle.step (.press button))

/-- Nothing but the links and the waiting presses becomes something else outside. -/
def relinked (dongle : Dongle δ κ φ) (serial wireless : Option Port)
    (presses : List ButtonPress) : DongleEvent δ κ φ :=
  .outside dongle.core.device dongle.core.store dongle.core.files dongle.core.now serial wireless
    presses

/-- A line that is served on a port ends as it does there. -/
theorem outcome_line (dongle : Dongle δ κ φ) (kind : LinkKind) (port : Port) (line : Line) :
    (dongle.withPort kind port).outcome (.line kind line) =
        (port.serveLine dongle.core line).1 ∧
      (dongle.withPort kind port).step (.line kind line) =
        withPort { dongle with core := (port.serveLine dongle.core line).2.2 } kind
          (port.serveLine dongle.core line).2.1 := by
  have core : (dongle.withPort kind port).core = dongle.core := by cases kind <;> rfl
  constructor
  · rw [outcome_of_some (dongle.port?_withPort kind port), core]
  · change (dongle.withPort kind port).serveLine kind line = _
    unfold serveLine
    rw [port?_withPort]
    simp only [core]
    cases kind <;> rfl

/-- Lines that are served on a port happen in order, up to the first that crashes. -/
theorem run_lines (dongle : Dongle δ κ φ) (kind : LinkKind) (port : Port) (lines : List Line) :
    let events := lines.map (.line kind)
    let served := port.serveLines lines dongle.core
    (dongle.withPort kind port).outcomes events = served.1 ∧
      (dongle.withPort kind port).run ((dongle.withPort kind port).happening events) =
        { dongle.withPort kind served.2.1 with core := served.2.2 } := by
  induction lines generalizing dongle port with
  | nil => exact ⟨rfl, by cases kind <;> rfl⟩
  | cons line rest ih =>
    obtain ⟨ended, first⟩ := outcome_line dongle kind port line
    have later := ih { dongle with core := (port.serveLine dongle.core line).2.2 }
      (port.serveLine dongle.core line).2.1
    dsimp only at later ⊢
    rw [List.map_cons, Port.serveLines]
    cases served : port.serveLine dongle.core line with
    | mk result after =>
      obtain ⟨next, moved⟩ := after
      rw [served] at ended first later
      cases result with
      | error crash =>
        obtain ⟨happens, ends⟩ := happening_cons_of_error ended (rest.map (.line kind))
        rw [happens, run, List.foldl_cons, first]
        exact ⟨ends, by cases kind <;> rfl⟩
      | ok _ =>
        obtain ⟨happens, ends⟩ := happening_cons_of_ok ended (rest.map (.line kind))
        rw [happens, ends, run, List.foldl_cons, first]
        exact ⟨later.1, later.2.trans (by cases kind <;> rfl)⟩

end Dongle

/-! ## What a press asks for -/

/-- What a press asks for. -/
inductive PressTask where
  /-- Going on with a pad. -/
  | pad (mode : Mode)
  /-- What the code asks for that is entered. -/
  | enter (pad : PinPad) (pin : Pin)
  /-- Typing the file whose number is entered. -/
  | typeFile (pad : PinPad) (pin : Pin)
  /-- Selecting the next entry of the menu. -/
  | browse (selected : Nat)
  /-- Typing the secret of the entry that is selected. -/
  | send (selected : Nat)
  /-- Nothing. -/
  | nothing

/-- What a press asks for in a mode. -/
def Mode.task : Mode → ButtonPress → PressTask
  | .code pad, .short => .pad (.code pad.raise)
  | .code pad, .long =>
    match pad.accept with
    | (none, pad) => .pad (.code pad)
    | (some pin, pad) => .enter pad pin
  | .file pad, .short => .pad (.file pad.raise)
  | .file pad, .long =>
    match pad.accept with
    | (none, pad) => .pad (.file pad)
    | (some pin, pad) => .typeFile pad pin
  | .menu selected, .short => .browse selected
  | .menu selected, .long => .send selected
  | .restart _, _ => .nothing

/-- A secret is asked for by a long press in the menu only. -/
theorem Mode.eq_of_send {mode : Mode} {button : ButtonPress} {selected : Nat}
    (asked : mode.task button = .send selected) : mode = .menu selected ∧ button = .long := by
  unfold Mode.task at asked
  cases mode with
  | code pad =>
    cases button with
    | short => cases asked
    | long =>
      dsimp only at asked
      split at asked <;> cases asked
  | file pad =>
    cases button with
    | short => cases asked
    | long =>
      dsimp only at asked
      split at asked <;> cases asked
  | menu place =>
    cases button with
    | short => cases asked
    | long =>
      cases asked
      exact ⟨rfl, rfl⟩
  | restart mode => cases asked

namespace Dongle

variable [Device δ] [KeyValueStore κ] [FileStore φ]

/-- Do what a press asks for. -/
def fulfil (dongle : Dongle δ κ φ) : PressTask → Dongle δ κ φ
  | .pad mode => showPad { dongle with mode := mode }
  | .enter pad pin => enter pin { dongle with mode := .code pad }
  | .typeFile pad pin => showPad (typeFile pin { dongle with mode := .file pad })
  | .browse selected => dongle.pressMenu selected .short
  | .send selected => dongle.pressMenu selected .long
  | .nothing => dongle

/-- A press does what it asks for. -/
theorem press_eq (dongle : Dongle δ κ φ) (button : ButtonPress) :
    dongle.press button = dongle.fulfil (dongle.mode.task button) := by
  unfold Dongle.press Mode.task
  cases dongle.mode with
  | code pad =>
    cases button with
    | short => rfl
    | long =>
      dsimp only
      cases pad.accept with
      | mk entered pad => cases entered <;> rfl
  | file pad =>
    cases button with
    | short => rfl
    | long =>
      dsimp only
      cases pad.accept with
      | mk entered pad => cases entered <;> rfl
  | menu selected => cases button <;> rfl
  | restart mode => rfl

end Dongle

end Keyfob
