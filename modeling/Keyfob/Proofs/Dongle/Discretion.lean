import Keyfob.Proofs.Dongle.Menu
import Keyfob.Proofs.Session.Veil
import Keyfob.Proofs.Store.Veiled
import Mathlib.Data.List.Forall2

/-!
# What a device lets be known of its secrets

Two devices that are the same but for what their secrets are cannot be told apart by what they send
on their links, do on their hosts and show on their screens (`Dongle.secrets_unseen`), until the
right code is sent before a listing or a secret of the menu is typed. One line or press keeps them
alike (`Dongle.Alike.step`): for lines this is `Session.handled_veiled`, and of the presses only
those that open the menu read from the store, where the names are the same.
-/
namespace Keyfob

variable {δ κ φ : Type}

/-- The veil over what the secrets are. -/
def Veil.secrets [KeyValueStore κ] [KeyValueStore.Veiled κ] : Veil κ where
  held credentials others := others.names = credentials.names
  stored := KeyValueStore.Veiled.Alike
  refl _ := rfl
  count {credentials others} same := by
    have lengths := congrArg List.length same
    rwa [Credentials.names, Credentials.names, List.length_map, List.length_map] at lengths
  coded alike := congrArg Option.isSome (AccessCodes.stored?_alike alike)
  changes := KeyValueStore.Veiled.apply

/-- A port serves a line alike, unless it is the right code before a listing. -/
theorem Port.serveLine_veiled [Device δ] [KeyValueStore κ] [FileStore φ] {veil : Veil κ}
    {core other : Core δ κ φ} (alike : veil.Alike core other) (port : Port) (line : Line)
    (unlisted : ¬(port.session.state = .asking .codeForListing ∧
      line.isAside port.session.kind = false ∧
      Pin.lenient line.text.trim = core.codes.primary)) :
    (port.serveLine other line).1 = (port.serveLine core line).1 ∧
      (port.serveLine other line).2.1 = (port.serveLine core line).2.1 ∧
      veil.Alike (port.serveLine core line).2.2 (port.serveLine other line).2.2 := by
  obtain ⟨result, state, sent, after⟩ :=
    Session.handled_veiled alike port.session line port.link unlisted
  rw [serveLine_handled, serveLine_handled]
  cases here : port.session.handled line core port.link with
  | mk outcome reached =>
    cases there : port.session.handled line other port.link with
    | mk outcome' reached' =>
      rw [here, there] at result state sent after
      dsimp only at result state sent after
      rw [result]
      cases outcome with
      | ok _ =>
        dsimp only
        rw [state, sent]
        exact ⟨rfl, rfl, after⟩
      | error fault =>
        cases fault with
        | crash _ =>
          dsimp only
          rw [state, sent]
          exact ⟨rfl, rfl, after⟩
        | error e =>
          dsimp only
          rw [state, sent]
          generalize reached'.core = theirs at after
          obtain ⟨held, stored⟩ := after
          exact ⟨rfl, rfl, .keeping held stored⟩

namespace Dongle

/-- The device with other credentials held in memory and another store. -/
def keeping (dongle : Dongle δ κ φ) (others : Credentials) (store : κ) : Dongle δ κ φ :=
  { dongle with core := dongle.core.keeping others store }

variable [KeyValueStore κ] [KeyValueStore.Veiled κ]

/-- Devices that are the same but for what their secrets are, in memory and in their stores. -/
inductive Alike (dongle : Dongle δ κ φ) : Dongle δ κ φ → Prop where
  /-- The names in memory are the same, and the stores are the same but for their secrets. -/
  | keeping {others : Credentials} {store : κ}
    (names : others.names = dongle.core.credentials.names)
    (stored : KeyValueStore.Veiled.Alike dongle.core.store store) :
    Alike dongle (dongle.keeping others store)

/-- Two devices cannot be told apart by what was sent, done and shown, nor by what they wait for. -/
structure LooksLike (dongle other : Dongle δ κ φ) : Prop where
  /-- The same was sent on the serial link, and its session waits for the same. -/
  serial : other.serial = dongle.serial
  /-- So it is on the wireless link. -/
  wireless : other.wireless = dongle.wireless
  /-- The same was done on the host. -/
  device : other.core.device = dongle.core.device
  /-- The same was shown on the screen. -/
  screen : other.screen = dongle.screen
  /-- The button works the same. -/
  mode : other.mode = dongle.mode

/-- Devices that are alike cannot be told apart. -/
theorem Alike.looksLike {dongle other : Dongle δ κ φ} (alike : dongle.Alike other) :
    dongle.LooksLike other := by
  obtain ⟨names, stored⟩ := alike
  exact ⟨rfl, rfl, rfl, rfl, rfl⟩

/-! ## One thing that happens -/

namespace Alike

section Single

variable {dongle other : Dongle δ κ φ} (alike : dongle.Alike other)

include alike

/-- Showing the pad keeps devices alike. -/
theorem showPad : dongle.showPad.Alike other.showPad := by
  obtain ⟨names, stored⟩ := alike
  unfold Dongle.showPad Dongle.keeping
  dsimp only
  split
  · exact .keeping names stored
  · exact .keeping names stored

/-- So does a code that is entered. -/
theorem enter (pin : Pin) : (dongle.enter pin).Alike (other.enter pin) := by
  obtain @⟨others, store, names, stored⟩ := alike
  unfold Dongle.enter
  have codes : (dongle.keeping others store).core.codes = dongle.core.codes := rfl
  have kept : (dongle.keeping others store).core.store = store := rfl
  rw [codes, kept]
  cases dongle.core.codes.classify pin with
  | boot mode =>
    obtain ⟨result, still⟩ : (mode.request store).1 = (mode.request dongle.core.store).1 ∧
        KeyValueStore.Veiled.Alike (mode.request dongle.core.store).2 (mode.request store).2 :=
      KeyValueStore.Veiled.apply stored (.set mode.space mode.key (.bool true))
    dsimp only
    cases first : mode.request dongle.core.store with
    | mk outcome after =>
      cases second : mode.request store with
      | mk outcome' after' =>
        rw [first, second] at result still
        cases result
        cases outcome with
        | ok _ => exact .keeping names still
        | error e => exact .keeping names still
  | files => exact .keeping names stored
  | primary =>
    -- The credentials are read from the stores, whose names are the same.
    have shown := Credentials.names_load stored
    dsimp only
    rw [shown]
    exact .keeping shown stored
  | rejected => exact .keeping names stored

variable [Device δ] [FileStore φ]

/-- So does typing a file. -/
theorem typeFile (pin : Pin) : (dongle.typeFile pin).Alike (other.typeFile pin) := by
  obtain ⟨names, stored⟩ := alike
  unfold Dongle.typeFile Dongle.keeping Core.keeping
  dsimp only
  split
  · exact .keeping names stored
  · split
    · exact .keeping names stored
    · exact .keeping names stored
    · exact .keeping names stored

/-- So does a press, unless it types a secret of the menu. -/
theorem press {button : ButtonPress}
    (untyped : ¬(button = .long ∧ ∃ selected, dongle.mode = .menu selected)) :
    (dongle.press button).Alike (other.press button) := by
  have switched (mode : Mode) : Alike { dongle with mode := mode } { other with mode := mode } := by
    obtain ⟨names, stored⟩ := alike
    exact .keeping names stored
  have same : other.mode = dongle.mode := by cases alike; rfl
  rw [press_eq, press_eq, same]
  cases asked : dongle.mode.task button with
  | pad mode => exact (switched mode).showPad
  | enter pad pin => exact (switched (.code pad)).enter pin
  | typeFile pad pin => exact ((switched (.file pad)).typeFile pin).showPad
  | browse selected =>
    obtain ⟨names, stored⟩ := alike
    unfold Dongle.fulfil pressMenu Dongle.keeping Core.keeping
    dsimp only
    rw [names]
    exact .keeping names stored
  | send selected =>
    obtain ⟨inMenu, long⟩ := Mode.eq_of_send asked
    exact absurd ⟨long, selected, inMenu⟩ untyped
  | nothing => exact alike

/-- So does a line, unless it is the right code before a listing; and it crashes in both or in
neither. -/
theorem serveLine {kind : LinkKind} {line : Line}
    (unlisted : ∀ port, dongle.port? kind = some port →
      ¬(port.session.state = .asking .codeForListing ∧
        line.isAside port.session.kind = false ∧
        Pin.lenient line.text.trim = dongle.core.codes.primary)) :
    other.outcome (.line kind line) = dongle.outcome (.line kind line) ∧
      (dongle.serveLine kind line).Alike (other.serveLine kind line) := by
  obtain @⟨others, store, names, stored⟩ := alike
  have same : (dongle.keeping others store).port? kind = dongle.port? kind := by cases kind <;> rfl
  unfold Dongle.serveLine
  cases there : dongle.port? kind with
  | none =>
    dsimp only [outcome]
    rw [same, there]
    exact ⟨rfl, .keeping names stored⟩
  | some port =>
    rw [outcome_of_some there, outcome_of_some (same.trans there), same, there]
    have veiled : Veil.secrets.Alike dongle.core (dongle.keeping others store).core :=
      .keeping names stored
    obtain ⟨ended, own, shared⟩ := port.serveLine_veiled veiled line (unlisted port there)
    dsimp only
    rw [own]
    refine ⟨ended, ?_⟩
    generalize (port.serveLine (dongle.keeping others store).core line).2.2 = theirs at shared
    obtain ⟨names, stored⟩ := shared
    cases kind with
    | serial => exact .keeping names stored
    | ble => exact .keeping names stored

end Single

end Alike

end Dongle

/-- The same happens, except that where the store becomes another outside, the stores may be alike
only. -/
inductive DongleEvent.Alike [KeyValueStore κ] [KeyValueStore.Veiled κ] :
    DongleEvent δ κ φ → DongleEvent δ κ φ → Prop where
  /-- The same line is served. -/
  | line (kind : LinkKind) (line : Line) : Alike (.line kind line) (.line kind line)
  /-- The same press is handled. -/
  | press (button : ButtonPress) : Alike (.press button) (.press button)
  /-- The same things change outside, but for the secrets in the store. -/
  | outside (device : δ) {store other : κ} (stored : KeyValueStore.Veiled.Alike store other)
    (files : Option φ) (now : Instant) (serial wireless : Option Port)
    (presses : List ButtonPress) :
    Alike (.outside device store files now serial wireless presses)
      (.outside device other files now serial wireless presses)

/-- Lines and presses are the same in both. -/
theorem DongleEvent.alike_self [KeyValueStore κ] [KeyValueStore.Veiled κ]
    {events : List (DongleEvent δ κ φ)}
    (plain : ∀ event ∈ events, (∃ kind line, event = .line kind line) ∨
      ∃ button, event = .press button) : List.Forall₂ DongleEvent.Alike events events := by
  refine List.forall₂_same.mpr fun event listed => ?_
  obtain ⟨kind, line, rfl⟩ | ⟨button, rfl⟩ := plain event listed
  · exact .line kind line
  · exact .press button

namespace Dongle

/-! ## Any number of things that happen -/

/-- Whether something that happens lets secrets be known: the right code is sent before a listing,
or a secret of the menu is typed. -/
def reveals (dongle : Dongle δ κ φ) : DongleEvent δ κ φ → Bool
  | .line kind line =>
    match dongle.port? kind with
    | some port =>
      decide (port.session.state = .asking .codeForListing ∧
        line.isAside port.session.kind = false ∧
        Pin.lenient line.text.trim = dongle.core.codes.primary)
    | none => false
  | .press .long =>
    match dongle.mode with
    | .menu _ => true
    | _ => false
  | _ => false

variable [Device δ] [KeyValueStore κ] [FileStore φ]

/-- What is shown while something happens: lines of status, and a menu if one is drawn. -/
def shows (dongle : Dongle δ κ φ) (event : DongleEvent δ κ φ) : Option Screen :=
  (step { dongle with screen := some {} } event).screen

/-- Nothing lets secrets be known of what happens in order. -/
def Quiet (dongle : Dongle δ κ φ) (events : List (DongleEvent δ κ φ)) : Prop :=
  ∀ n event, events[n]? = some event → (dongle.run (events.take n)).reveals event = false

/-- The first does not, and then the others do not. -/
theorem Quiet.head_tail {dongle : Dongle δ κ φ} {event : DongleEvent δ κ φ}
    {events : List (DongleEvent δ κ φ)} (quiet : dongle.Quiet (event :: events)) :
    dongle.reveals event = false ∧ (dongle.step event).Quiet events :=
  ⟨quiet 0 event rfl, fun n => quiet (n + 1)⟩

/-- Nor do those that come first. -/
theorem Quiet.left {dongle : Dongle δ κ φ} {first second : List (DongleEvent δ κ φ)}
    (quiet : dongle.Quiet (first ++ second)) : dongle.Quiet first := by
  intro n event now
  have inside : n < first.length := (List.getElem?_eq_some_iff.mp now).1
  have same : (first ++ second).take n = first.take n :=
    List.take_append_of_le_length (Nat.le_of_lt inside)
  rw [← same]
  exact quiet n event ((List.getElem?_append_left inside).trans now)

variable [KeyValueStore.Veiled κ]

namespace Alike

variable {dongle other : Dongle δ κ φ} (alike : dongle.Alike other)

include alike

/-- What happens keeps devices alike, and crashes in both or in neither, unless it lets secrets be
known. -/
theorem step {event event' : DongleEvent δ κ φ} (same : event.Alike event')
    (quiet : dongle.reveals event = false) :
    other.outcome event' = dongle.outcome event ∧
      (dongle.step event).Alike (other.step event') := by
  cases same with
  | line kind line =>
    refine alike.serveLine fun port there listed => ?_
    simp only [reveals, there, listed, and_self, decide_true, Bool.true_eq_false] at quiet
  | press button =>
    refine ⟨rfl, alike.press fun typed => ?_⟩
    obtain ⟨rfl, selected, inMenu⟩ := typed
    simp only [reveals, inMenu, Bool.true_eq_false] at quiet
  | outside device stored files now serial wireless presses =>
    obtain ⟨names, _⟩ := alike
    exact ⟨rfl, .keeping names stored⟩

/-- What happens is shown alike, unless it lets secrets be known. -/
theorem shows_eq {event event' : DongleEvent δ κ φ} (same : event.Alike event')
    (quiet : dongle.reveals event = false) : other.shows event' = dongle.shows event := by
  have blank : Alike { dongle with screen := some {} } { other with screen := some {} } := by
    obtain ⟨names, stored⟩ := alike
    exact .keeping names stored
  have unseen : reveals { dongle with screen := some {} } event = false := by
    rw [← quiet]
    cases event <;> rfl
  exact (blank.step same unseen).2.looksLike.screen

/-- Devices stay alike while nothing lets secrets be known. -/
theorem run {events others : List (DongleEvent δ κ φ)}
    (same : List.Forall₂ DongleEvent.Alike events others) (quiet : dongle.Quiet events) (n : Nat) :
    (dongle.run (events.take n)).Alike (other.run (others.take n)) := by
  induction same generalizing dongle other n with
  | nil => cases n <;> exact alike
  | @cons event event' events others first _ ih =>
    cases n with
    | zero => exact alike
    | succ n =>
      obtain ⟨hidden, later⟩ := quiet.head_tail
      exact ih (alike.step first hidden).2 later n

/-- What of it happens is the same, up to the same crash, while nothing lets secrets be known. -/
theorem happening {events others : List (DongleEvent δ κ φ)}
    (same : List.Forall₂ DongleEvent.Alike events others)
    (quiet : dongle.Quiet (dongle.happening events)) :
    List.Forall₂ DongleEvent.Alike (dongle.happening events) (other.happening others) ∧
      other.outcomes others = dongle.outcomes events := by
  induction same generalizing dongle other with
  | nil => exact ⟨.nil, rfl⟩
  | @cons event event' events others first _ ih =>
    obtain ⟨hidden, later⟩ := quiet.head_tail
    obtain ⟨outcome, moved⟩ := alike.step first hidden
    cases ended : dongle.outcome event with
    | error crash =>
      obtain ⟨happens, ends⟩ := happening_cons_of_error ended events
      obtain ⟨happens', ends'⟩ := happening_cons_of_error (outcome.trans ended) others
      rw [happens, ends, happens', ends']
      exact ⟨.cons first .nil, rfl⟩
    | ok _ =>
      obtain ⟨happens, ends⟩ := happening_cons_of_ok ended events
      obtain ⟨happens', ends'⟩ := happening_cons_of_ok (outcome.trans ended) others
      rw [ended] at later
      obtain ⟨going, end_⟩ := ih moved later
      rw [happens, ends, happens', ends']
      exact ⟨.cons first going, end_⟩

/-- What survives where more is to come survives in both. -/
theorem outcomes_left {first second others : List (DongleEvent δ κ φ)}
    (same : List.Forall₂ DongleEvent.Alike first others) (survived : dongle.outcomes first = .ok ())
    (quiet : dongle.Quiet (dongle.happening (first ++ second))) :
    other.outcomes others = .ok () := by
  rw [((happening_append _ _ _).2 survived).1] at quiet
  have early : dongle.Quiet (dongle.happening first) := by
    rw [happening_of_ok survived]
    exact quiet.left
  exact (alike.happening same early).2.trans survived

omit [Device δ] [FileStore φ] in
/-- A pass of the main loop takes the same. -/
theorem takes :
    (∀ kind, other.takes kind = dongle.takes kind) ∧ other.presses = dongle.presses := by
  obtain ⟨names, stored⟩ := alike
  exact ⟨fun kind => by cases kind <;> rfl, rfl⟩

omit alike in
/-- Where no line of the wireless link crashes that a pass takes, none does in the other device. -/
theorem outcomes_air {others : Credentials} {store : κ} {lines : List Line}
    (after : dongle.taken.Alike (((dongle.keeping others store).taking .ble).awaiting
      ((dongle.keeping others store).taking .serial).serial []))
    (read : dongle.takes .ble = .ok lines)
    (air : (dongle.taking .ble).outcomes (lines.map (.line .ble)) = .ok ())
    (quiet : dongle.taken.Quiet (dongle.taken.happening dongle.plan)) :
    ((dongle.keeping others store).taking .ble).outcomes (lines.map (.line .ble)) = .ok () := by
  obtain ⟨taken, plan, -⟩ := taken_of_ok read air
  rw [taken] at after quiet
  rw [plan, List.append_assoc] at quiet
  have onAir : ∀ event ∈ (lines.map (.line .ble) : List (DongleEvent δ κ φ)), OnAir event := by
    intro event listed
    obtain ⟨line, -, rfl⟩ := List.mem_map.mp listed
    exact .line line
  have same : List.Forall₂ DongleEvent.Alike
      (lines.map (.line .ble) : List (DongleEvent δ κ φ)) (lines.map (.line .ble)) := by
    refine DongleEvent.alike_self fun event listed => ?_
    obtain ⟨line, -, rfl⟩ := List.mem_map.mp listed
    exact .inl ⟨.ble, line, rfl⟩
  -- These lines end as they do whatever is taken from the serial link.
  rw [← outcomes_awaiting onAir _ ((dongle.keeping others store).taking .serial).serial []]
  exact after.outcomes_left same ((outcomes_awaiting onAir _ _ _).trans air) quiet

/-- Of what it plans it lets the same happen, and ends in the same way, unless it lets secrets be
known. -/
theorem pass (quiet : dongle.Quiet dongle.pass) :
    other.verdict = dongle.verdict ∧ List.Forall₂ DongleEvent.Alike dongle.pass other.pass := by
  have same : List.Forall₂ DongleEvent.Alike dongle.plan dongle.plan :=
    DongleEvent.alike_self fun event => mem_plan
  have handled : dongle.taken.Quiet dongle.agenda := by
    have later := quiet.head_tail.2
    rwa [step_relinked] at later
  obtain ⟨takes, presses⟩ := alike.takes
  obtain @⟨others, store, names, stored⟩ := alike
  suffices ends : (dongle.keeping others store).verdict = dongle.verdict ∧
      List.Forall₂ DongleEvent.Alike dongle.agenda (dongle.keeping others store).agenda ∧
      (dongle.keeping others store).taken = dongle.taken.keeping others store by
    obtain ⟨verdict, happens, taken⟩ := ends
    refine ⟨verdict, .cons ?_ happens⟩
    rw [taken]
    exact .outside _ stored _ _ _ _ _
  unfold agenda at handled ⊢
  cases read : dongle.takes .ble with
  | error e =>
    obtain ⟨taken, plan, verdict⟩ := taken_of_unread read
    obtain ⟨taken', plan', verdict'⟩ := taken_of_unread ((takes .ble).trans read)
    rw [taken, plan, verdict, taken', plan', verdict']
    exact ⟨rfl, .nil, rfl⟩
  | ok lines =>
    cases air : (dongle.taking .ble).outcomes (lines.map (.line .ble)) with
    | error crash =>
      obtain ⟨taken, plan, verdict⟩ := taken_of_crash read air
      rw [taken, plan] at handled
      rw [plan] at same
      have before : (dongle.taking .ble).Alike ((dongle.keeping others store).taking .ble) :=
        .keeping names stored
      obtain ⟨happens, ends⟩ := before.happening same handled
      obtain ⟨taken', plan', verdict'⟩ :=
        taken_of_crash ((takes .ble).trans read) (ends.trans air)
      rw [taken, plan, verdict, taken', plan', verdict']
      exact ⟨rfl, happens, rfl⟩
    | ok _ =>
      obtain ⟨taken, plan, verdict⟩ := taken_of_ok read air
      have after : dongle.taken.Alike (((dongle.keeping others store).taking .ble).awaiting
          ((dongle.keeping others store).taking .serial).serial []) := by
        rw [taken]
        exact .keeping names stored
      obtain ⟨happens, ends⟩ := after.happening same handled
      obtain ⟨taken', plan', verdict'⟩ :=
        taken_of_ok ((takes .ble).trans read) (outcomes_air after read air handled)
      have planned : (dongle.keeping others store).plan = dongle.plan := by
        rw [plan, plan', takes, presses]
      rw [← taken'] at happens ends
      rw [planned]
      refine ⟨?_, happens, ?_⟩
      · rw [verdict, verdict', planned, ends, takes]
      · rw [taken, taken']
        rfl

end Alike

/-- Two devices that are the same but for what their secrets are, and to which the same happens,
look the same at every point as long as no right code is sent before a listing and no secret of the
menu is typed: they sent the same, did the same on the host and showed the same; what happens next
is shown alike; and a pass of the main loop takes the same and, as long as that holds of what it
lets happen too, ends or crashes in the same way and lets the same happen. -/
theorem secrets_unseen {first other : Dongle δ κ φ} (alike : first.Alike other)
    {events others : List (DongleEvent δ κ φ)}
    (same : List.Forall₂ DongleEvent.Alike events others) (quiet : first.Quiet events) (n : Nat) :
    let here := first.run (events.take n)
    let there := other.run (others.take n)
    here.LooksLike there ∧
      (∀ event event', events[n]? = some event → others[n]? = some event' →
        there.shows event' = here.shows event) ∧
      ((∀ kind, there.takes kind = here.takes kind) ∧ there.presses = here.presses) ∧
      (here.Quiet here.pass →
        there.verdict = here.verdict ∧ List.Forall₂ DongleEvent.Alike here.pass there.pass) := by
  intro here there
  have reached : here.Alike there := alike.run same quiet n
  refine ⟨reached.looksLike, fun event event' now also => ?_, reached.takes, reached.pass⟩
  have fits : event.Alike event' := by
    obtain ⟨inside, rfl⟩ := List.getElem?_eq_some_iff.mp now
    obtain ⟨inside', rfl⟩ := List.getElem?_eq_some_iff.mp also
    exact same.get inside inside'
  exact reached.shows_eq fits (quiet n event now)

/-- Where the code that is sent before a listing is wrong, another secret is not known from the
names in the menu and the replies. -/
theorem secrets_unseen_wrongCode :
    let first := (fresh pairStore).assemble {} (some { kind := .serial }) none
    let store :=
      (KeyValueStore.set Credential.space (Credential.secretKey 0) (.string "9") first.core.store).2
    let other := first.keeping (Credentials.load store) store
    let events : List (DongleEvent Recording MemoryStore MemoryFiles) :=
      codePresses.map .press ++
        [.line .serial { text := "RETRIEVEPW" }, .line .serial { text := "2211" }]
    other.core.credentials.lines ≠ first.core.credentials.lines ∧
      (first.run (events.take 12)).LooksLike (other.run (events.take 12)) := by
  intro first store other events
  have alike : first.Alike other := by
    refine .keeping (by decide +kernel) ⟨?_, by decide +kernel⟩
    exact KeyValueStore.alike_put_secret (by decide +kernel) (.string "9")
  have same : List.Forall₂ DongleEvent.Alike events events := by
    refine List.forall₂_same.mpr fun event listed => ?_
    cases List.mem_append.mp listed with
    | inl pressed =>
      obtain ⟨button, _, rfl⟩ := List.mem_map.mp pressed
      exact .press button
    | inr sent =>
      simp only [List.mem_cons, List.not_mem_nil, or_false] at sent
      obtain rfl | rfl := sent
      · exact .line _ _
      · exact .line _ _
  have quiet : first.Quiet events := by
    intro n event now
    have all : ∀ n < 12, events[n]?.any (first.run (events.take n)).reveals = false := by
      decide +kernel
    have inside : n < 12 := (List.getElem?_eq_some_iff.mp now).1
    have none := all n inside
    rw [now] at none
    exact none
  exact ⟨by decide +kernel, (secrets_unseen alike same quiet 12).1⟩

end Dongle

end Keyfob
