import Keyfob.Hid.Recording
import Keyfob.Proofs.Dongle.Pass
import Keyfob.Proofs.Session.Serving

/-!
# The menu on the screen

The menu is drawn when it is opened and after every press, and lines draw nothing. So the screen
is faithful (`Dongle.Faithful`), showing the names as they are with a valid selection, at every
point of a run exactly when no line of the run changes the names while the menu is open
(`Dongle.always_faithful_iff`). A long press then types the secret of the entry that is shown.
-/
namespace Keyfob

variable {δ κ φ : Type}

namespace Dongle

/-- The menu that was drawn last, if there is a screen. -/
def shown? (dongle : Dongle δ κ φ) : Option Menu := dongle.screen.bind Screen.menu

/-- The names of the credentials that are held. -/
def names (dongle : Dongle δ κ φ) : List Text := dongle.core.credentials.names

/-- In the menu, what was drawn last are the names as they are with the selection as it is, and
the selection is the place of a name unless there is none. -/
def Faithful (dongle : Dongle δ κ φ) : Prop :=
  ∀ selected, dongle.mode = .menu selected →
    dongle.shown? = some ⟨dongle.names, selected⟩ ∧
      (dongle.names = [] ∨ selected < dongle.names.length)

/-- The device as it is assembled: with a screen, and with the links that there are. -/
def assemble (screen : Screen) (serial wireless : Option Channel) (dongle : Dongle δ κ φ) :
    Dongle δ κ φ :=
  let watched := dongle.withScreen screen
  let wired := serial.elim watched watched.withSerial
  wireless.elim wired wired.withWireless

/-- The first place is that of a name unless there is none. -/
theorem first_valid (names : List Text) : names = [] ∨ 0 < names.length := by
  cases names with
  | nil => exact .inl rfl
  | cons name rest => exact .inr (Nat.succ_pos _)

section Screens

variable (dongle : Dongle δ κ φ)

/-- Showing a line of status changes nothing about whether there is a screen. -/
theorem isSome_status (t : Text) : (dongle.status t).screen.isSome = dongle.screen.isSome :=
  Option.isSome_map

/-- Nor does drawing a menu. -/
theorem isSome_draw (entries : List Text) (selected : Nat) :
    (dongle.draw entries selected).screen.isSome = dongle.screen.isSome := Option.isSome_map

/-- Nor does showing the pad. -/
theorem isSome_showPad : dongle.showPad.screen.isSome = dongle.screen.isSome := by
  unfold showPad
  split
  · exact dongle.isSome_status _
  · rfl

/-- Showing the pad leaves the mode as it is. -/
theorem mode_showPad : dongle.showPad.mode = dongle.mode := by
  unfold showPad
  split
  · rfl
  · rfl

/-- A menu that is drawn is what a screen shows. -/
theorem shown?_draw (watched : dongle.screen.isSome = true) (entries : List Text)
    (selected : Nat) : (dongle.draw entries selected).shown? = some ⟨entries, selected⟩ := by
  obtain ⟨screen, there⟩ := Option.isSome_iff_exists.mp watched
  unfold shown? draw
  rw [there]
  rfl

/-- A device that is not in the menu is faithful. -/
theorem faithful_of_mode {dongle : Dongle δ κ φ}
    (apart : ∀ selected, dongle.mode ≠ .menu selected) : dongle.Faithful :=
  fun selected inMenu => absurd inMenu (apart selected)

end Screens

/-- A device that is assembled has a screen and is not in the menu. -/
theorem assembled [Device δ] [KeyValueStore κ] [FileStore φ] {settings : Settings} {device : δ}
    {store : κ} {files : Option φ} {dongle : Dongle δ κ φ}
    (started : (start settings device store files).1 = .ok dongle) (screen : Screen)
    (serial wireless : Option Channel) :
    (dongle.assemble screen serial wireless).screen.isSome = true ∧
      (dongle.assemble screen serial wireless).Faithful := by
  have mode : dongle.mode = .code .empty := by
    unfold start at started
    split at started
    · cases started
    · cases started
      rfl
  have watched : (dongle.withScreen screen).screen.isSome = true :=
    isSome_showPad { dongle with screen := some screen }
  have pad : (dongle.withScreen screen).mode = .code .empty :=
    (mode_showPad { dongle with screen := some screen }).trans mode
  have same : (dongle.assemble screen serial wireless).screen = (dongle.withScreen screen).screen ∧
      (dongle.assemble screen serial wireless).mode = (dongle.withScreen screen).mode := by
    cases serial <;> cases wireless <;> exact ⟨rfl, rfl⟩
  refine ⟨same.1 ▸ watched, faithful_of_mode fun selected inMenu => ?_⟩
  rw [same.2, pad] at inMenu
  cases inMenu

/-- An entered code leads to a faithful screen. -/
theorem faithful_enter [KeyValueStore κ] (pin : Pin) {dongle : Dongle δ κ φ}
    (watched : dongle.screen.isSome = true) :
    (dongle.enter pin).screen.isSome = true ∧ (dongle.enter pin).Faithful := by
  have asked (other : Dongle δ κ φ) (there : other.screen.isSome = true) :
      other.askCode.screen.isSome = true ∧ other.askCode.Faithful := by
    unfold askCode
    refine ⟨(isSome_showPad _).trans there, faithful_of_mode ?_⟩
    rw [mode_showPad]
    nofun
  unfold enter
  split
  · split
    · exact ⟨(isSome_status _ _).trans watched, faithful_of_mode nofun⟩
    · exact asked _ ((isSome_status _ _).trans watched)
  · refine ⟨(isSome_showPad _).trans watched, faithful_of_mode ?_⟩
    rw [mode_showPad]
    nofun
  · dsimp only
    refine ⟨(isSome_draw _ _ _).trans watched, fun selected opened => ?_⟩
    cases opened
    refine ⟨shown?_draw _ watched _ _, ?_⟩
    exact first_valid _
  · exact asked _ ((isSome_status _ _).trans watched)

variable [Device δ]

/-- Carrying out actions changes nothing but the device. -/
theorem perform_eq (actions : List Action) (dongle : Dongle δ κ φ) :
    (dongle.perform actions).2 =
      { dongle with core := { dongle.core with
        device := (dongle.perform actions).2.core.device } } := by
  unfold perform
  split
  · rfl
  · rfl

/-- Typing a secret leaves the mode, the credentials and whether there is a screen as they are. -/
theorem send_keeps (dongle : Dongle δ κ φ) (place : Nat) :
    (dongle.send place).mode = dongle.mode ∧
      (dongle.send place).core.credentials = dongle.core.credentials ∧
      (dongle.send place).screen.isSome = dongle.screen.isSome := by
  unfold send
  cases dongle.core.credentials.list[place]? with
  | none => exact ⟨rfl, rfl, rfl⟩
  | some credential =>
    have kept := dongle.perform_eq (Action.typeText dongle.core.macros.defaultSpeed
      credential.secret ++ Action.tap ⟨0, Usage.enter⟩)
    dsimp only
    split
    all_goals
      next same =>
        rw [same] at kept
        dsimp only at kept
        rw [kept]
        exact ⟨rfl, rfl, isSome_status _ _⟩

/-- Presses in the menu keep a faithful screen faithful. -/
theorem faithful_pressMenu {dongle : Dongle δ κ φ} (watched : dongle.screen.isSome = true)
    (faithful : dongle.Faithful) {selected : Nat} (inMenu : dongle.mode = .menu selected)
    (press : ButtonPress) :
    (dongle.pressMenu selected press).screen.isSome = true ∧
      (dongle.pressMenu selected press).Faithful := by
  cases press with
  | short =>
    refine ⟨(isSome_draw _ _ _).trans watched, fun next open' => ?_⟩
    cases open'
    refine ⟨shown?_draw _ watched _ _, (first_valid dongle.core.credentials.names).imp id ?_⟩
    intro several
    have nonempty : dongle.core.credentials.names.isEmpty = false :=
      List.isEmpty_eq_false_iff.mpr (List.length_pos_iff.mp several)
    simp only [nonempty, Bool.false_eq_true, if_false]
    exact Nat.mod_lt _ several
  | long =>
    obtain ⟨mode, credentials, screen⟩ := dongle.send_keeps selected
    refine ⟨(isSome_draw _ _ _).trans (screen.trans watched), fun next open' => ?_⟩
    have same : next = selected := by
      have still : (dongle.send selected).mode = .menu next := open'
      rw [mode, inMenu] at still
      cases still
      rfl
    have names : (dongle.pressMenu selected .long).names = dongle.names :=
      congrArg Credentials.names credentials
    rw [names, same]
    exact ⟨shown?_draw _ (screen.trans watched) _ _, (faithful selected inMenu).2⟩

variable [FileStore φ]

/-- Typing a file leaves the mode and whether there is a screen as they are. -/
theorem typeFile_keeps (pin : Pin) (dongle : Dongle δ κ φ) :
    (dongle.typeFile pin).mode = dongle.mode ∧
      (dongle.typeFile pin).screen.isSome = dongle.screen.isSome := by
  unfold typeFile
  split
  · exact ⟨rfl, isSome_status _ _⟩
  · dsimp only
    split
    · exact ⟨rfl, isSome_status _ _⟩
    · exact ⟨rfl, isSome_status _ _⟩
    · exact ⟨rfl, isSome_status _ _⟩

variable [KeyValueStore κ]

/-- A press keeps a faithful screen faithful. -/
theorem faithful_press {dongle : Dongle δ κ φ} (watched : dongle.screen.isSome = true)
    (faithful : dongle.Faithful) (press : ButtonPress) :
    (dongle.press press).screen.isSome = true ∧ (dongle.press press).Faithful := by
  have onPad (other : Dongle δ κ φ) (there : other.screen.isSome = true)
      (apart : ∀ selected, other.mode ≠ .menu selected) :
      other.showPad.screen.isSome = true ∧ other.showPad.Faithful := by
    refine ⟨(isSome_showPad _).trans there, faithful_of_mode ?_⟩
    rw [mode_showPad]
    exact apart
  unfold Dongle.press
  split
  · exact onPad _ watched nofun
  · split
    · exact onPad _ watched nofun
    · exact faithful_enter _ watched
  · exact onPad _ watched nofun
  · split
    · exact onPad _ watched nofun
    · refine onPad _ ((typeFile_keeps _ _).2.trans watched) ?_
      rw [(typeFile_keeps _ _).1]
      nofun
  · next inMenu => exact faithful_pressMenu watched faithful inMenu _
  · exact ⟨watched, faithful⟩

/-- A line leaves the mode and the screen as they are. -/
theorem serveLine_keeps (dongle : Dongle δ κ φ) (kind : LinkKind) (line : Line) :
    (dongle.serveLine kind line).mode = dongle.mode ∧
      (dongle.serveLine kind line).screen = dongle.screen := by
  unfold serveLine
  split
  · exact ⟨rfl, rfl⟩
  · cases kind <;> exact ⟨rfl, rfl⟩

/-- A line changes no names while the menu is open. -/
def Undisturbed (dongle : Dongle δ κ φ) (kind : LinkKind) (line : Line) : Prop :=
  ∀ selected, dongle.mode = .menu selected → (dongle.serveLine kind line).names = dongle.names

/-- A line keeps a faithful screen faithful exactly if it changes no names while the menu is
open. -/
theorem faithful_serveLine_iff {dongle : Dongle δ κ φ} (faithful : dongle.Faithful)
    (kind : LinkKind) (line : Line) :
    (dongle.serveLine kind line).Faithful ↔ dongle.Undisturbed kind line := by
  obtain ⟨mode, screen⟩ := dongle.serveLine_keeps kind line
  have shown : (dongle.serveLine kind line).shown? = dongle.shown? := by
    unfold shown?
    rw [screen]
  constructor
  · intro after selected inMenu
    have before := (faithful selected inMenu).1
    have drawn := (after selected (mode.trans inMenu)).1
    rw [shown, before] at drawn
    exact (congrArg Menu.entries (Option.some.inj drawn)).symm
  · intro undisturbed selected opened
    have inMenu := mode.symm.trans opened
    rw [shown, undisturbed selected inMenu]
    exact faithful selected inMenu

/-- Whatever happens, a faithful screen stays. -/
theorem isSome_step {dongle : Dongle δ κ φ} (watched : dongle.screen.isSome = true)
    (faithful : dongle.Faithful) (event : DongleEvent δ κ φ) :
    (dongle.step event).screen.isSome = true := by
  cases event with
  | line kind line =>
    have same := congrArg Option.isSome (dongle.serveLine_keeps kind line).2
    exact same.trans watched
  | press press => exact (faithful_press watched faithful press).1
  | outside device store files now serial wireless presses => exact watched

/-- What happens disturbs the menu only if it is a line that changes the names while the menu is
open. -/
def Calm (dongle : Dongle δ κ φ) : DongleEvent δ κ φ → Prop
  | .line kind line => dongle.Undisturbed kind line
  | _ => True

/-- What happens keeps a faithful screen faithful exactly if it does not disturb the menu. -/
theorem faithful_step_iff {dongle : Dongle δ κ φ} (watched : dongle.screen.isSome = true)
    (faithful : dongle.Faithful) (event : DongleEvent δ κ φ) :
    (dongle.step event).Faithful ↔ dongle.Calm event := by
  cases event with
  | line kind line => exact faithful_serveLine_iff faithful kind line
  | press press => exact ⟨fun _ => trivial, fun _ => (faithful_press watched faithful press).2⟩
  | outside device store files now serial wireless presses =>
    exact ⟨fun _ => trivial, fun _ => faithful⟩

/-- The screen is faithful at every point of a run exactly if nothing that happens disturbs the
menu. -/
theorem always_faithful_iff {first : Dongle δ κ φ} (watched : first.screen.isSome = true)
    (faithful : first.Faithful) (events : List (DongleEvent δ κ φ)) :
    (∀ before after, events = before ++ after → (first.run before).Faithful) ↔
      ∀ before event after, events = before ++ event :: after → (first.run before).Calm event := by
  induction events generalizing first with
  | nil =>
    constructor
    · intro _ before event after whole
      cases before <;> cases whole
    · intro _ before after whole
      cases (List.append_eq_nil_iff.mp whole.symm).1
      exact faithful
  | cons event rest ih =>
    have now := faithful_step_iff watched faithful event
    constructor
    · intro always before other after whole
      have next : (first.step event).Faithful := always [event] rest rfl
      cases before with
      | nil =>
        cases whole
        exact now.mp next
      | cons own earlier =>
        cases whole
        refine (ih (isSome_step watched faithful event) next).mp ?_ earlier other after rfl
        intro front back split
        exact always (event :: front) back (congrArg (event :: ·) split)
    · intro calm before after whole
      have next : (first.step event).Faithful := now.mpr (calm [] event rest rfl)
      cases before with
      | nil => exact faithful
      | cons own earlier =>
        cases whole
        refine (ih (isSome_step watched faithful event) next).mpr ?_ earlier after rfl
        intro front other back split
        exact calm (event :: front) other back (congrArg (event :: ·) split)

/-- Only a line that a session takes for credentials disturbs the menu. -/
theorem asking_of_disturbed {dongle : Dongle δ κ φ} {kind : LinkKind} {line : Line}
    (disturbed : ¬dongle.Undisturbed kind line) :
    ∃ port, dongle.port? kind = some port ∧ port.session.state = .asking .credentials := by
  apply Decidable.byContradiction
  intro elsewhere
  apply disturbed
  intro selected _
  unfold serveLine
  cases there : dongle.port? kind with
  | none => rfl
  | some port =>
    have unasked : port.session.state ≠ .asking .credentials :=
      fun asking => elsewhere ⟨port, there, asking⟩
    have served := (Port.serveLine_eq port dongle.core line).2.2.1
    have kept := Session.credentials_serve port.session line dongle.core port.link unasked
    rw [← served] at kept
    exact congrArg Credentials.names kept

/-- What types the secret of a credential: its characters at the typing speed, and Enter. -/
def secretActions (dongle : Dongle δ κ φ) (credential : Credential) : List Action :=
  Action.typeText dongle.core.macros.defaultSpeed credential.secret ++
    Action.tap ⟨0, Usage.enter⟩

/-- A long press types the secret of the selected credential, if there is one. -/
theorem device_press_long {dongle : Dongle δ κ φ} {selected : Nat}
    (inMenu : dongle.mode = .menu selected) :
    (dongle.press .long).core.device =
      match dongle.core.credentials.list[selected]? with
      | none => dongle.core.device
      | some credential => (dongle.perform (dongle.secretActions credential)).2.core.device := by
  have pressed : dongle.press .long =
      (dongle.send selected).draw dongle.core.credentials.names selected := by
    unfold Dongle.press
    rw [inMenu]
    rfl
  rw [pressed]
  change (dongle.send selected).core.device = _
  unfold send
  cases dongle.core.credentials.list[selected]? with
  | none => rfl
  | some credential =>
    unfold secretActions
    dsimp only
    split
    · next same => rw [same]; rfl
    · next same => rw [same]; rfl

/-- A long press types the secret of the credential that is shown as selected: there is nothing to
show and nothing is typed, or the menu that is shown has the credential's name at the place that
it shows as selected. -/
def TypesShown (dongle : Dongle δ κ φ) : Prop :=
  (dongle.names = [] ∧ (dongle.press .long).core.device = dongle.core.device) ∨
    ∃ menu credential, dongle.shown? = some menu ∧
      menu.entries[menu.selected]? = some credential.name ∧
      dongle.core.credentials.list[menu.selected]? = some credential ∧
      (dongle.press .long).core.device =
        (dongle.perform (dongle.secretActions credential)).2.core.device

/-- In the menu of a faithful screen, a long press types the secret of the entry that is shown as
selected. -/
theorem typesShown_of_faithful {dongle : Dongle δ κ φ} (faithful : dongle.Faithful)
    {selected : Nat} (inMenu : dongle.mode = .menu selected) : dongle.TypesShown := by
  obtain ⟨shown, valid⟩ := faithful selected inMenu
  have pressed := device_press_long inMenu
  cases valid with
  | inl empty =>
    have none' : dongle.core.credentials.list = [] := List.map_eq_nil_iff.mp empty
    rw [none'] at pressed
    exact .inl ⟨empty, pressed⟩
  | inr short =>
    have within : selected < dongle.core.credentials.list.length := by
      simpa [names, Credentials.names] using short
    have there := List.getElem?_eq_getElem within
    rw [there] at pressed
    refine .inr ⟨_, dongle.core.credentials.list[selected], shown, ?_, there, pressed⟩
    simp [names, Credentials.names, there]

/-- Along every run of a device with a screen, the menu that was drawn last shows the names as
they are and a valid selection at every point exactly if no line changes the names while the menu
is open, which only an answer to the question for credentials does. Wherever it does, a long press
types the secret of the entry that is shown as selected. Passes of the main loop are made of such
events. -/
theorem menu_faithful {settings : Settings} {device : δ} {store : κ} {files : Option φ}
    {dongle : Dongle δ κ φ} (started : (start settings device store files).1 = .ok dongle)
    (screen : Screen) (serial wireless : Option Channel) (events : List (DongleEvent δ κ φ)) :
    let first := dongle.assemble screen serial wireless
    ((∀ before after, events = before ++ after → (first.run before).Faithful) ↔
        ∀ before kind line after, events = before ++ .line kind line :: after →
          (first.run before).Undisturbed kind line) ∧
      ∀ before after, events = before ++ after →
        (∀ selected, (first.run before).mode = .menu selected → (first.run before).Faithful →
          (first.run before).TypesShown) ∧
        (∀ kind line, ¬(first.run before).Undisturbed kind line →
          ∃ port, (first.run before).port? kind = some port ∧
            port.session.state = .asking .credentials) ∧
        ∃ pass, (first.run before).run pass = (first.run before).poll.2 := by
  obtain ⟨watched, faithful⟩ := assembled started screen serial wireless
  have exact := always_faithful_iff watched faithful events
  refine ⟨exact.trans ⟨fun calm before kind line after whole => ?_,
    fun undisturbed before event after whole => ?_⟩, fun before after _ => ⟨?_, ?_, ?_⟩⟩
  · exact calm before (.line kind line) after whole
  · cases event with
    | line kind line => exact undisturbed before kind line after whole
    | press press => trivial
    | outside device store files now serial wireless presses => trivial
  · exact fun selected inMenu shown => typesShown_of_faithful shown inMenu
  · exact fun kind line disturbed => asking_of_disturbed disturbed
  · exact ⟨_, run_pass _⟩

/-- A device as it comes, on a store. -/
def fresh (store : MemoryStore) : Dongle Recording MemoryStore MemoryFiles :=
  let (_, codes, store) := AccessCodes.loadPrimary {} store
  { core := Core.ofSettings {} codes {} store (some {}) }

/-- A store with two credentials. -/
def pairStore : MemoryStore := (Credentials.update {} "A,1,B,2" {}).2.2

/-- The presses that enter the code of a device as it comes. -/
def codePresses : List ButtonPress :=
  [.short, .long, .short, .long, .short, .short, .long, .short, .short, .long]

/-- After the code, the first of two credentials is shown as selected, and a long press types its
secret. -/
theorem faithful_codePresses :
    let reached := ((fresh pairStore).assemble {} none none).run (codePresses.map .press)
    reached.mode = .menu 0 ∧ reached.Faithful ∧ reached.TypesShown := by
  have started : (start {} ({} : Recording) pairStore (some ({} : MemoryFiles))).1 =
      .ok (fresh pairStore) := rfl
  have facts := menu_faithful started {} none none (codePresses.map .press)
  have opened : (((fresh pairStore).assemble {} none none).run
      (codePresses.map .press)).mode = .menu 0 := by decide +kernel
  have faithful : (((fresh pairStore).assemble {} none none).run
      (codePresses.map .press)).Faithful := by
    refine facts.1.mpr ?_ _ [] (List.append_nil _).symm
    intro before kind line after whole
    have listed : DongleEvent.line kind line ∈
        (codePresses.map .press : List (DongleEvent Recording MemoryStore MemoryFiles)) := by
      rw [whole]
      exact List.mem_append_right _ List.mem_cons_self
    obtain ⟨press, _, same⟩ := List.mem_map.mp listed
    cases same
  have types := (facts.2 _ [] (List.append_nil _).symm).1
  exact ⟨opened, faithful, types 0 opened faithful⟩

/-- The lines of an update with the code of a device as it comes. -/
def updateLines (data : Text) : List (DongleEvent Recording MemoryStore MemoryFiles) :=
  [.line .serial { text := "PWUPDATE" }, .line .serial { text := "1122" },
    .line .serial { text := data }]

/-- An update while the menu is open leaves the old names on the screen, and a long press types
the secret of another credential than the one that is shown. -/
theorem unfaithful_updateLines :
    let reached := ((fresh pairStore).assemble {} (some { kind := .serial }) none).run
      (codePresses.map .press ++ updateLines "C,3")
    reached.mode = .menu 0 ∧ reached.shown? = some ⟨["A".toList, "B".toList], 0⟩ ∧
      reached.names = ["C".toList] ∧
      Action.typed (reached.press .long).core.device.actions = "3".toList := by
  refine ⟨?_, ?_, ?_, ?_⟩
  all_goals decide +kernel

end Dongle

end Keyfob
