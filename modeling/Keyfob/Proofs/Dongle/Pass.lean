import Keyfob.Proofs.Dongle.Course

/-!
# One pass of the main loop

A pass reads its links, and then lets happen what it has planned (`Dongle.plan`): the lines of the
wireless link up to its cap, the presses that waited, and the lines of the serial link. All of it
happens, or everything up to the first line that crashes (`Dongle.agenda`). Nothing that happens on
the wireless link or the pad has to do with the serial link or with presses that come later
(`Dongle.step_awaiting`), so the reading can be thought of as done before, and `Dongle.poll_eq` says
that a pass is just that. Passes are therefore made of events, and what holds along every list of
events holds of the device however its passes fall.
-/
namespace Keyfob

variable {δ κ φ : Type}

namespace Port

/-- The lines that a pass takes from a port, no more than a cap, or why its link cannot be read. -/
def takes (port : Port) (cap : Option Nat) : Except LinkError (List Line) :=
  (port.link.drain cap).1

/-- The port with those lines taken. -/
def taken (port : Port) (cap : Option Nat) : Port := { port with link := (port.link.drain cap).2 }

/-- A port is served by taking its lines and handling them, unless its link cannot be read. -/
theorem serve_eq [Device δ] [KeyValueStore κ] [FileStore φ] (port : Port) (cap : Option Nat)
    (core : Core δ κ φ) :
    port.serve cap core =
      match port.takes cap with
      | .error e => (.error (.error e), port.taken cap, core)
      | .ok lines =>
        let served := serveLines lines (port.taken cap) core
        (served.1.mapError .crash, served.2) := by
  unfold serve takes taken
  cases port.link.drain cap with
  | mk result link =>
    cases result with
    | error e => rfl
    | ok lines => rfl

end Port

namespace Dongle

/-! ## What a pass reads -/

/-- The most lines of a link that a pass takes, if there is a limit. -/
def cap? (dongle : Dongle δ κ φ) : LinkKind → Option Nat
  | .serial => none
  | .ble => some dongle.core.settings.wirelessCap

/-- The lines that a pass takes from a link, or why the link cannot be read; none from a link that
is not there. -/
def takes (dongle : Dongle δ κ φ) (kind : LinkKind) : Except LinkError (List Line) :=
  match dongle.port? kind with
  | none => .ok []
  | some port => port.takes (dongle.cap? kind)

/-- The device with the lines of a link taken. -/
def taking (dongle : Dongle δ κ φ) (kind : LinkKind) : Dongle δ κ φ :=
  match kind with
  | .serial => { dongle with serial := dongle.serial.map (Port.taken · (dongle.cap? .serial)) }
  | .ble => { dongle with wireless := dongle.wireless.map (Port.taken · (dongle.cap? .ble)) }

/-- Nothing is taken from a link that is not there. -/
theorem takes_of_none {dongle : Dongle δ κ φ} {kind : LinkKind}
    (absent : dongle.port? kind = none) :
    dongle.takes kind = .ok [] ∧ dongle.taking kind = dongle := by
  unfold takes
  rw [absent]
  refine ⟨rfl, ?_⟩
  obtain ⟨core, serial, wireless, mode, presses, screen⟩ := dongle
  cases kind with
  | serial =>
    cases absent
    rfl
  | ble =>
    cases absent
    rfl

/-- What is taken from a link is taken from its port. -/
theorem takes_of_some {dongle : Dongle δ κ φ} {kind : LinkKind} {port : Port}
    (there : dongle.port? kind = some port) :
    dongle.takes kind = port.takes (dongle.cap? kind) ∧
      dongle.taking kind = dongle.withPort kind (port.taken (dongle.cap? kind)) := by
  unfold takes
  rw [there]
  refine ⟨rfl, ?_⟩
  obtain ⟨core, serial, wireless, mode, presses, screen⟩ := dongle
  cases kind with
  | serial =>
    cases there
    rfl
  | ble =>
    cases there
    rfl

/-- The device with other links and other presses that wait. -/
def linked (dongle : Dongle δ κ φ) (serial wireless : Option Port) (presses : List ButtonPress) :
    Dongle δ κ φ := { dongle with serial := serial, wireless := wireless, presses := presses }

/-- The device with another serial link and other presses that wait. -/
def awaiting (dongle : Dongle δ κ φ) (serial : Option Port) (presses : List ButtonPress) :
    Dongle δ κ φ := { dongle with serial := serial, presses := presses }

/-- What is taken from the serial link is up to that link alone. -/
theorem takes_serial_of_eq (dongle other : Dongle δ κ φ)
    (same : other.serial = dongle.serial) :
    other.takes .serial = dongle.takes .serial ∧
      other.taking .serial = other.awaiting (dongle.taking .serial).serial other.presses := by
  unfold takes taking
  simp only [port?, same]
  exact ⟨rfl, rfl⟩

/-- Something that happens on the wireless link or on the pad. -/
inductive OnAir : DongleEvent δ κ φ → Prop where
  /-- A line of the wireless link. -/
  | line (line : Line) : OnAir (.line .ble line)
  /-- A press. -/
  | press (press : ButtonPress) : OnAir (.press press)

/-- Lines of the wireless link and then presses happen on the wireless link or the pad. -/
theorem onAir_lines_presses (lines : List Line) (presses : List ButtonPress) :
    ∀ event ∈ (lines.map (.line .ble) ++ presses.map .press : List (DongleEvent δ κ φ)),
      OnAir event := by
  intro event listed
  cases List.mem_append.mp listed with
  | inl among =>
    obtain ⟨line, _, rfl⟩ := List.mem_map.mp among
    exact .line line
  | inr among =>
    obtain ⟨press, _, rfl⟩ := List.mem_map.mp among
    exact .press press

/-! ## The wireless link and the pad have nothing to do with what a pass takes later -/

section Linked

variable (dongle : Dongle δ κ φ) (serial wireless : Option Port) (presses : List ButtonPress)

/-- Showing the pad has nothing to do with the links and what waits. -/
theorem showPad_linked :
    (dongle.linked serial wireless presses).showPad =
      dongle.showPad.linked serial wireless presses := by
  unfold showPad
  have same : (dongle.linked serial wireless presses).mode = dongle.mode := rfl
  rw [same]
  split
  · rfl
  · rfl

/-- Nor has starting over with a code. -/
theorem askCode_linked :
    (dongle.linked serial wireless presses).askCode =
      dongle.askCode.linked serial wireless presses :=
  showPad_linked { dongle with mode := .code .empty } serial wireless presses

/-- Nor has an entered code. -/
theorem enter_linked [KeyValueStore κ] (pin : Pin) :
    (dongle.linked serial wireless presses).enter pin =
      (dongle.enter pin).linked serial wireless presses := by
  unfold enter
  have same : (dongle.linked serial wireless presses).core = dongle.core := rfl
  rw [same]
  cases dongle.core.codes.classify pin with
  | boot mode =>
    dsimp only
    cases mode.request dongle.core.store with
    | mk result store =>
      cases result with
      | ok _ => rfl
      | error e =>
        exact askCode_linked (status "Storage error"
          { dongle with core := { dongle.core with store := store } }) serial wireless presses
  | files => exact showPad_linked { dongle with mode := .file .empty } serial wireless presses
  | primary => rfl
  | rejected => exact askCode_linked (dongle.status "WRONG CODE!") serial wireless presses

variable [Device δ]

/-- Nor have actions. -/
theorem perform_linked (actions : List Action) :
    (dongle.linked serial wireless presses).perform actions =
      ((dongle.perform actions).1, (dongle.perform actions).2.linked serial wireless presses) := by
  unfold perform
  have same : (dongle.linked serial wireless presses).core = dongle.core := rfl
  rw [same]
  split
  · rfl
  · rfl

/-- Nor has typing a secret. -/
theorem send_linked (place : Nat) :
    (dongle.linked serial wireless presses).send place =
      (dongle.send place).linked serial wireless presses := by
  unfold send
  have same : (dongle.linked serial wireless presses).core = dongle.core := rfl
  rw [same]
  cases dongle.core.credentials.list[place]? with
  | none => rfl
  | some credential =>
    dsimp only
    rw [perform_linked]
    cases dongle.perform (Action.typeText dongle.core.macros.defaultSpeed credential.secret ++
      Action.tap ⟨0, Usage.enter⟩) with
    | mk result after =>
      cases result with
      | ok _ => rfl
      | error e => rfl

variable [FileStore φ]

/-- Nor has typing a file. -/
theorem typeFile_linked (pin : Pin) :
    (dongle.linked serial wireless presses).typeFile pin =
      (dongle.typeFile pin).linked serial wireless presses := by
  unfold typeFile
  have same : (dongle.linked serial wireless presses).core = dongle.core := rfl
  rw [same]
  cases dongle.core.files with
  | none => rfl
  | some files =>
    dsimp only
    split
    · rfl
    · rfl
    · rfl

/-- So a press has nothing to do with the links and what waits. -/
theorem press_linked [KeyValueStore κ] (button : ButtonPress) :
    (dongle.linked serial wireless presses).press button =
      (dongle.press button).linked serial wireless presses := by
  rw [press_eq, press_eq]
  have same : (dongle.linked serial wireless presses).mode = dongle.mode := rfl
  rw [same]
  cases dongle.mode.task button with
  | pad mode => exact showPad_linked { dongle with mode := mode } serial wireless presses
  | enter pad pin =>
    exact enter_linked { dongle with mode := .code pad } serial wireless presses pin
  | typeFile pad pin =>
    have typed := typeFile_linked { dongle with mode := .file pad } serial wireless presses pin
    exact (congrArg showPad typed).trans (showPad_linked _ serial wireless presses)
  | browse selected => rfl
  | send selected =>
    exact congrArg (draw _ _) (send_linked dongle serial wireless presses selected)
  | nothing => rfl

/-- The links and the presses that wait are as they were after a press. -/
theorem links_press [KeyValueStore κ] (button : ButtonPress) :
    (dongle.press button).serial = dongle.serial ∧
      (dongle.press button).wireless = dongle.wireless ∧
      (dongle.press button).presses = dongle.presses := by
  have own : dongle.press button =
      (dongle.press button).linked dongle.serial dongle.wireless dongle.presses :=
    press_linked dongle dongle.serial dongle.wireless dongle.presses button
  rw [own]
  exact ⟨rfl, rfl, rfl⟩

end Linked

variable [Device δ] [KeyValueStore κ] [FileStore φ]

/-- What happens on the wireless link or the pad has nothing to do with the serial link and the
presses that wait. -/
theorem step_awaiting {event : DongleEvent δ κ φ} (onAir : OnAir event) (dongle : Dongle δ κ φ)
    (serial : Option Port) (presses : List ButtonPress) :
    (dongle.awaiting serial presses).step event = (dongle.step event).awaiting serial presses := by
  cases onAir with
  | press button =>
    have pressed := press_linked dongle serial dongle.wireless presses button
    have same : (dongle.press button).linked serial dongle.wireless presses =
        (dongle.press button).awaiting serial presses := by
      rw [← (links_press dongle button).2.1]
      rfl
    exact pressed.trans same
  | line line =>
    change (dongle.awaiting serial presses).serveLine .ble line =
      (dongle.serveLine .ble line).awaiting serial presses
    unfold serveLine
    have same : (dongle.awaiting serial presses).port? .ble = dongle.port? .ble := rfl
    rw [same]
    cases dongle.port? .ble with
    | none => rfl
    | some port => rfl

/-- Nor does all of it in turn. -/
theorem run_awaiting {events : List (DongleEvent δ κ φ)} (onAir : ∀ event ∈ events, OnAir event)
    (dongle : Dongle δ κ φ) (serial : Option Port) (presses : List ButtonPress) :
    (dongle.awaiting serial presses).run events = (dongle.run events).awaiting serial presses := by
  induction events generalizing dongle with
  | nil => rfl
  | cons event events ih =>
    have first := step_awaiting (onAir event List.mem_cons_self) dongle serial presses
    have later := ih fun other listed => onAir other (List.mem_cons_of_mem _ listed)
    rw [run, List.foldl_cons, first]
    exact later (dongle.step event)

/-- The serial link stays as it is while it happens, and so do the presses that wait. -/
theorem awaiting_run {events : List (DongleEvent δ κ φ)} (onAir : ∀ event ∈ events, OnAir event)
    (dongle : Dongle δ κ φ) :
    (dongle.run events).serial = dongle.serial ∧
      (dongle.run events).presses = dongle.presses := by
  have same : dongle.run events = (dongle.run events).awaiting dongle.serial dongle.presses :=
    run_awaiting onAir dongle dongle.serial dongle.presses
  rw [same]
  exact ⟨rfl, rfl⟩

/-- Whether something crashes that happens on the wireless link or the pad has nothing to do with
them either. -/
theorem outcome_awaiting {event : DongleEvent δ κ φ} (onAir : OnAir event) (dongle : Dongle δ κ φ)
    (serial : Option Port) (presses : List ButtonPress) :
    (dongle.awaiting serial presses).outcome event = dongle.outcome event := by
  cases onAir with
  | press button => rfl
  | line line => rfl

/-- Nor has all of it in turn. -/
theorem outcomes_awaiting {events : List (DongleEvent δ κ φ)}
    (onAir : ∀ event ∈ events, OnAir event) (dongle : Dongle δ κ φ) (serial : Option Port)
    (presses : List ButtonPress) :
    (dongle.awaiting serial presses).outcomes events = dongle.outcomes events := by
  induction events generalizing dongle with
  | nil => rfl
  | cons event events ih =>
    have own := onAir event List.mem_cons_self
    have later := ih (fun other listed => onAir other (List.mem_cons_of_mem _ listed))
      (dongle.step event)
    rw [outcomes, outcomes, outcome_awaiting own, step_awaiting own, later]

/-- Where the lines of the wireless link do not crash, nothing on air does. -/
theorem outcomes_onAir {dongle : Dongle δ κ φ} {lines : List Line} (presses : List ButtonPress)
    (air : dongle.outcomes (lines.map (.line .ble)) = .ok ()) (serial : Option Port)
    (waiting : List ButtonPress) :
    (dongle.awaiting serial waiting).outcomes
      (lines.map (.line .ble) ++ presses.map .press) = .ok () := by
  rw [outcomes_awaiting (onAir_lines_presses lines presses)]
  exact ((happening_append _ _ _).2 air).2.trans (outcomes_presses _ _)

/-! ## What a pass takes and lets happen -/

/-- The device with everything taken that a pass takes: where the wireless link cannot be read, or
one of its lines crashes, the pass comes no further than that link. -/
def taken (dongle : Dongle δ κ φ) : Dongle δ κ φ :=
  match dongle.takes .ble with
  | .error _ => dongle.taking .ble
  | .ok lines =>
    match (dongle.taking .ble).outcomes (lines.map (.line .ble)) with
    | .error _ => dongle.taking .ble
    | .ok () => (dongle.taking .ble).awaiting (dongle.taking .serial).serial []

/-- What a pass is to let happen with what it has taken: the lines of the wireless link, then the
presses that waited, then the lines of the serial link. -/
def plan (dongle : Dongle δ κ φ) : List (DongleEvent δ κ φ) :=
  match dongle.takes .ble with
  | .error _ => []
  | .ok lines =>
    match (dongle.taking .ble).outcomes (lines.map (.line .ble)) with
    | .error _ => lines.map (.line .ble)
    | .ok () =>
      lines.map (.line .ble) ++ dongle.presses.map .press ++
        ((dongle.takes .serial).toOption.getD []).map (.line .serial)

/-- What a pass lets happen. -/
def agenda (dongle : Dongle δ κ φ) : List (DongleEvent δ κ φ) :=
  dongle.taken.happening dongle.plan

/-- A pass plans lines and presses only. -/
theorem mem_plan {dongle : Dongle δ κ φ} {event : DongleEvent δ κ φ}
    (planned : event ∈ dongle.plan) :
    (∃ kind line, event = .line kind line) ∨ ∃ button, event = .press button := by
  unfold plan at planned
  split at planned
  · cases planned
  · split at planned
    · obtain ⟨line, _, rfl⟩ := List.mem_map.mp planned
      exact .inl ⟨.ble, line, rfl⟩
    · simp only [List.mem_append, List.mem_map] at planned
      obtain (⟨line, _, rfl⟩ | ⟨button, _, rfl⟩) | ⟨line, _, rfl⟩ := planned
      · exact .inl ⟨.ble, line, rfl⟩
      · exact .inr ⟨button, rfl⟩
      · exact .inl ⟨.serial, line, rfl⟩

/-- On the agenda of a pass are lines and presses only. -/
theorem mem_agenda {dongle : Dongle δ κ φ} {event : DongleEvent δ κ φ}
    (listed : event ∈ dongle.agenda) :
    (∃ kind line, event = .line kind line) ∨ ∃ button, event = .press button :=
  mem_plan ((happening_isPrefix dongle.taken dongle.plan).subset listed)

/-- How a pass ends: early, where a link cannot be read, and not at all where a line crashes. -/
def verdict (dongle : Dongle δ κ φ) : Except (Fault LinkError) Unit :=
  match dongle.takes .ble with
  | .error e => .error (.error e)
  | .ok _ =>
    match dongle.taken.outcomes dongle.plan with
    | .error crash => .error (.crash crash)
    | .ok () => (dongle.takes .serial).mapError .error |>.map fun _ => ()

/-- Where the wireless link cannot be read, a pass takes nothing. -/
theorem taken_of_unread {dongle : Dongle δ κ φ} {e : LinkError}
    (unread : dongle.takes .ble = .error e) :
    dongle.taken = dongle.taking .ble ∧ dongle.plan = [] ∧
      dongle.verdict = .error (.error e) := by
  unfold taken plan verdict
  rw [unread]
  exact ⟨rfl, rfl, rfl⟩

/-- Where a line of the wireless link crashes, a pass takes nothing from the other link, and no
press. -/
theorem taken_of_crash {dongle : Dongle δ κ φ} {lines : List Line} {crash : Crash}
    (read : dongle.takes .ble = .ok lines)
    (air : (dongle.taking .ble).outcomes (lines.map (.line .ble)) = .error crash) :
    dongle.taken = dongle.taking .ble ∧ dongle.plan = lines.map (.line .ble) ∧
      dongle.verdict = .error (.crash crash) := by
  have taken : dongle.taken = dongle.taking .ble := by
    unfold taken
    rw [read]
    dsimp only
    rw [air]
  have plan : dongle.plan = lines.map (.line .ble) := by
    unfold plan
    rw [read]
    dsimp only
    rw [air]
  refine ⟨taken, plan, ?_⟩
  unfold verdict
  rw [read, taken, plan]
  dsimp only
  rw [air]

/-- Otherwise a pass takes all presses, and the lines of the serial link. -/
theorem taken_of_ok {dongle : Dongle δ κ φ} {lines : List Line}
    (read : dongle.takes .ble = .ok lines)
    (air : (dongle.taking .ble).outcomes (lines.map (.line .ble)) = .ok ()) :
    dongle.taken = (dongle.taking .ble).awaiting (dongle.taking .serial).serial [] ∧
      dongle.plan = lines.map (.line .ble) ++ dongle.presses.map .press ++
        ((dongle.takes .serial).toOption.getD []).map (.line .serial) ∧
      dongle.verdict =
        match dongle.taken.outcomes dongle.plan with
        | .error crash => .error (.crash crash)
        | .ok () => (dongle.takes .serial).mapError .error |>.map fun _ => () := by
  refine ⟨?_, ?_, ?_⟩
  · unfold taken
    rw [read]
    dsimp only
    rw [air]
  · unfold plan
    rw [read]
    dsimp only
    rw [air]
  · unfold verdict
    rw [read]

/-- Taking changes no settings. -/
theorem settings_taken (dongle : Dongle δ κ φ) :
    dongle.taken.core.settings = dongle.core.settings := by
  unfold taken
  split
  · rfl
  · split
    · rfl
    · rfl

/-! ## The parts of a pass -/

section Parts

variable (dongle : Dongle δ κ φ)

/-- The wireless link is served by taking its lines and handling them. -/
theorem serveWireless_eq :
    dongle.serveWireless =
      match dongle.takes .ble with
      | .error e => (.error (.error e), dongle.taking .ble)
      | .ok lines =>
        let before := dongle.taking .ble
        ((before.outcomes (lines.map (.line .ble))).mapError .crash,
          before.run (before.happening (lines.map (.line .ble)))) := by
  unfold serveWireless
  cases there : dongle.wireless with
  | none =>
    obtain ⟨takes, same⟩ := takes_of_none (show dongle.port? .ble = none from there)
    rw [takes, same]
    rfl
  | some port =>
    obtain ⟨takes, same⟩ := takes_of_some (show dongle.port? .ble = some port from there)
    have handled := run_lines dongle .ble (port.taken (dongle.cap? .ble))
    simp only [takes, same, port.serve_eq, cap?] at handled ⊢
    cases port.takes (some dongle.core.settings.wirelessCap) with
    | error e => rfl
    | ok lines =>
      obtain ⟨ends, runs⟩ := handled lines
      dsimp only
      rw [ends, runs]
      rfl

/-- The serial link is served by taking its lines and handling them. -/
theorem serveSerial_eq :
    dongle.serveSerial =
      match dongle.takes .serial with
      | .error e => (.error (.error e), dongle.taking .serial)
      | .ok lines =>
        let before := dongle.taking .serial
        ((before.outcomes (lines.map (.line .serial))).mapError .crash,
          before.run (before.happening (lines.map (.line .serial)))) := by
  unfold serveSerial
  cases there : dongle.serial with
  | none =>
    obtain ⟨takes, same⟩ := takes_of_none (show dongle.port? .serial = none from there)
    rw [takes, same]
    rfl
  | some port =>
    obtain ⟨takes, same⟩ := takes_of_some (show dongle.port? .serial = some port from there)
    have handled := run_lines dongle .serial (port.taken (dongle.cap? .serial))
    simp only [takes, same, port.serve_eq, cap?] at handled ⊢
    cases port.takes none with
    | error e => rfl
    | ok lines =>
      obtain ⟨ends, runs⟩ := handled lines
      dsimp only
      rw [ends, runs]
      rfl

/-- The presses that wait are handled one after another. -/
theorem handlePresses_eq :
    dongle.handlePresses =
      (dongle.awaiting dongle.serial []).run (dongle.presses.map .press) := by
  unfold run handlePresses
  rw [List.foldl_map]
  rfl

end Parts

/-- After the lines of the wireless link, the presses that waited are handled, and none waits. -/
theorem handlePresses_of_lines (dongle : Dongle δ κ φ) (lines : List Line) :
    ((dongle.taking .ble).run (lines.map (.line .ble))).handlePresses =
      ((dongle.taking .ble).run
        (lines.map (.line .ble) ++ dongle.presses.map .press)).awaiting dongle.serial [] := by
  have onAir : ∀ event ∈ (lines.map (.line .ble) ++ dongle.presses.map .press :
      List (DongleEvent δ κ φ)), OnAir event := onAir_lines_presses lines dongle.presses
  obtain ⟨serial, presses⟩ := awaiting_run
    (fun event listed => onAir event (List.mem_append_left _ listed)) (dongle.taking .ble)
  rw [handlePresses_eq, presses, serial, run_append]
  exact run_awaiting (fun event listed => onAir event (List.mem_append_right _ listed)) _ _ _

/-- A pass of the main loop is what it takes and then, in order, what is on its agenda; it ends
early just where a link cannot be read, and crashes just where a line does. -/
theorem poll_eq (dongle : Dongle δ κ φ) :
    let last := dongle.taken.run dongle.agenda
    dongle.poll = (dongle.verdict.map fun _ => last.restart?, last) := by
  unfold poll agenda
  rw [serveWireless_eq]
  cases read : dongle.takes .ble with
  | error e =>
    obtain ⟨taken, plan, verdict⟩ := taken_of_unread read
    rw [taken, plan, verdict]
    rfl
  | ok lines =>
    dsimp only
    cases air : (dongle.taking .ble).outcomes (lines.map (.line .ble)) with
    | error crash =>
      obtain ⟨taken, plan, verdict⟩ := taken_of_crash read air
      rw [taken, plan, verdict]
      rfl
    | ok _ =>
      obtain ⟨taken, plan, verdict⟩ := taken_of_ok read air
      rw [happening_of_ok air, verdict, plan, taken]
      dsimp only [Except.mapError]
      rw [handlePresses_of_lines]
      -- What happens on air has nothing to do with the serial link, which is read only then.
      have survived := outcomes_onAir dongle.presses air (dongle.taking .serial).serial []
      have before := run_awaiting (onAir_lines_presses lines dongle.presses) (dongle.taking .ble)
        (dongle.taking .serial).serial []
      generalize (dongle.taking .ble).run
        (lines.map (.line .ble) ++ dongle.presses.map .press) = reached at before ⊢
      obtain ⟨takes, taking⟩ := takes_serial_of_eq dongle (reached.awaiting dongle.serial []) rfl
      replace taking : (reached.awaiting dongle.serial []).taking .serial =
        reached.awaiting (dongle.taking .serial).serial [] := taking
      rw [serveSerial_eq, takes, taking]
      obtain ⟨happens, ends⟩ := (happening_append _ _
        (((dongle.takes .serial).toOption.getD []).map (.line .serial))).2 survived
      rw [happens, ends, run_append, before]
      cases dongle.takes .serial with
      | error e => rfl
      | ok later =>
        dsimp only [Except.toOption, Option.getD_some]
        cases (reached.awaiting (dongle.taking .serial).serial []).outcomes
            (later.map (.line .serial)) with
        | error crash => rfl
        | ok _ => rfl

/-- A pass of the main loop, as events: what it takes, and what is on its agenda. -/
def pass (dongle : Dongle δ κ φ) : List (DongleEvent δ κ φ) :=
  dongle.relinked dongle.taken.serial dongle.taken.wireless dongle.taken.presses :: dongle.agenda

/-- The first of these events is the taking. -/
theorem step_relinked (dongle : Dongle δ κ φ) :
    dongle.step (dongle.relinked dongle.taken.serial dongle.taken.wireless dongle.taken.presses) =
      dongle.taken := by
  unfold taken
  split
  · rfl
  · split
    · rfl
    · rfl

/-- A pass of the main loop is made of events. -/
theorem run_pass (dongle : Dongle δ κ φ) : dongle.run dongle.pass = dongle.poll.2 := by
  rw [poll_eq, pass, run, List.foldl_cons, step_relinked]
  rfl

end Dongle

end Keyfob
